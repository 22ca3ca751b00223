import Dandori.LabelledRun
import Mathlib.Data.List.Basic

/-!
# Schema definition scripts

A catalog holds types, tables with their rows, and functions; a statement of a script is refused or
changes the catalog, and a script is run as one transaction. Tables and indexes share one name space,
and a table also claims its name among the types. `DROP … IF EXISTS` of a missing object changes
nothing, a drop that something else depends on is refused, and an UPDATE reaches only the rows that the
row-level security of its table shows to the role.

`ν` are the names, `V` the values of cells, `S` the settings of a session. The role that runs a script
owns every object of the catalog.
-/

namespace Dandori.Ddl

variable {ν V S : Type*}

structure Column (ν : Type*) where
  name : ν
  type : ν
  notNull : Bool

structure ForeignKey (ν : Type*) where
  columns : List ν
  target : ν
  targetColumns : List ν

/-- A condition on the cells of the listed columns. -/
structure Check (ν V : Type*) where
  name : ν
  columns : List ν
  holds : List (Option V) → Bool

def Check.meets (k : Check ν V) (r : ν → Option V) : Bool := k.holds (k.columns.map r)

/-- A policy whose USING and WITH CHECK conditions are the same. -/
structure Policy (ν V S : Type*) where
  name : ν
  columns : List ν
  passes : S → List (Option V) → Bool

structure Index (ν : Type*) where
  name : ν
  columns : List ν

structure Table (ν V S : Type*) where
  columns : List (Column ν)
  keys : List (List ν)
  foreignKeys : List (ForeignKey ν)
  checks : List (Check ν V)
  indexes : List (Index ν)
  rowSecurity : Bool
  forced : Bool
  policies : List (Policy ν V S)
  rows : List (ν → Option V)

structure Function (ν : Type*) where
  name : ν
  arguments : List ν
  results : List ν
  publicMayExecute : Bool
  executors : List ν

structure Catalog (ν V S : Type*) where
  types : List ν
  tables : List (ν × Table ν V S)
  functions : List (Function ν)

structure Role (S : Type*) where
  session : S
  owner : Bool
  bypass : Bool

def Table.columnNames (t : Table ν V S) : List ν := t.columns.map Column.name

/-- Whether the row-level security of the table shows the row to the role. -/
def Table.sees (role : Role S) (t : Table ν V S) (r : ν → Option V) : Bool :=
  role.bypass || !t.rowSecurity || (role.owner && !t.forced) ||
    t.policies.any (fun p => p.passes role.session (p.columns.map r))

/-- A row that an UPDATE may write. -/
def Table.accepts (role : Role S) (t : Table ν V S) (r : ν → Option V) : Bool :=
  t.sees role r && t.checks.all (fun k => k.meets r) &&
    t.columns.all (fun k => !k.notNull || (r k.name).isSome)

namespace Catalog

def tableNames (c : Catalog ν V S) : List ν := c.tables.map Prod.fst

def indexNames (c : Catalog ν V S) : List ν :=
  c.tables.flatMap (fun p => p.2.indexes.map Index.name)

/-- Every table has a row type of its name. -/
def typeNames (c : Catalog ν V S) : List ν := c.types ++ c.tableNames

def mapTables (c : Catalog ν V S) (f : ν → Table ν V S → Table ν V S) : Catalog ν V S :=
  { c with tables := c.tables.map (fun p => (p.1, f p.1 p.2)) }

def modify [DecidableEq ν] (c : Catalog ν V S) (name : ν) (f : Table ν V S → Table ν V S) :
    Catalog ν V S :=
  c.mapTables (fun n t => if n = name then f t else t)

end Catalog

inductive Statement (ν V S : Type*)
  | createType (name : ν)
  | dropType (name : ν)
  | createTable (name : ν) (columns : List (Column ν)) (keys : List (List ν))
      (foreignKeys : List (ForeignKey ν)) (checks : List (Check ν V))
  | dropTable (name : ν)
  | createIndex (table : ν) (index : Index ν)
  | dropIndex (name : ν)
  | setRowSecurity (table : ν) (on : Bool)
  | forceRowSecurity (table : ν) (on : Bool)
  | createPolicy (table : ν) (policy : Policy ν V S)
  | dropPolicy (table name : ν)
  | addColumn (table : ν) (column : Column ν)
  | dropColumn (table name : ν)
  /-- `UPDATE table SET column = value WHERE column IS NULL`; the value may raise an error. -/
  | fill (table column : ν) (value : (ν → Option V) → Option (Option V))
  | setNotNull (table column : ν)
  | addCheck (table : ν) (check : Check ν V)
  | dropCheck (table name : ν)
  | replaceFunction (name : ν) (arguments results : List ν)
  | dropFunction (name : ν) (arguments : List ν)
  | revokeFromPublic (name : ν) (arguments : List ν)
  | grantExecute (name : ν) (arguments : List ν) (grantee : ν)

section Execution

variable [DecidableEq ν] (role : Role S) (c : Catalog ν V S)

/-- The rows that `fill` changes. -/
def Table.fills (t : Table ν V S) (column : ν) (r : ν → Option V) : Bool :=
  t.sees role r && (r column).isNone

/-- The table is there and each table of that name meets the condition. -/
def Catalog.onTable (name : ν) (ok : Table ν V S → Bool) : Bool :=
  name ∈ c.tableNames && c.tables.all (fun p => p.1 ≠ name || ok p.2)

def Function.called (name : ν) (arguments : List ν) (f : Function ν) : Bool :=
  f.name = name && f.arguments = arguments

/-- A function, or a column of a table that `counts`, has the type. -/
def Catalog.usesType (name : ν) (counts : ν → Bool) : Bool :=
  c.tables.any (fun p => counts p.1 && p.2.columns.any (fun k => k.type = name)) ||
    c.functions.any (fun f => name ∈ f.arguments ++ f.results)

def Catalog.referencedByOther (name : ν) : Bool :=
  c.tables.any (fun p => p.1 ≠ name && p.2.foreignKeys.any (fun f => f.target = name))

/-- The foreign key finds its target, which may be the table that is being created. -/
def Catalog.hasTarget (name : ν) (keys : List (List ν)) (f : ForeignKey ν) : Bool :=
  (f.target = name && f.targetColumns ∈ keys) ||
    c.tables.any (fun p => p.1 = f.target && f.targetColumns ∈ p.2.keys)

def Catalog.permits : Statement ν V S → Bool
  | .createType name => name ∉ c.typeNames
  | .dropType name => name ∉ c.tableNames && !c.usesType name (fun _ => true)
  | .createTable name columns keys foreignKeys checks =>
      let names := columns.map Column.name
      name ∉ c.typeNames && name ∉ c.indexNames && names.Nodup &&
        columns.all (fun k => k.type ∈ c.typeNames) && keys.all (fun ks => ks ⊆ names) &&
        foreignKeys.all (fun f => f.columns ⊆ names && c.hasTarget name keys f) &&
        checks.all (fun k => k.columns ⊆ names)
  | .dropTable name =>
      name ∉ c.indexNames && !c.referencedByOther name && !c.usesType name (fun n => n ≠ name)
  | .createIndex table index =>
      index.name ∉ c.tableNames && index.name ∉ c.indexNames &&
        c.onTable table (fun t => index.columns ⊆ t.columnNames)
  | .dropIndex name => name ∉ c.tableNames
  | .setRowSecurity table _ => table ∈ c.tableNames
  | .forceRowSecurity table _ => table ∈ c.tableNames
  | .createPolicy table policy =>
      c.onTable table (fun t =>
        policy.name ∉ t.policies.map Policy.name && policy.columns ⊆ t.columnNames)
  | .dropPolicy _ _ => true
  | .addColumn table column =>
      column.type ∈ c.typeNames &&
        c.onTable table (fun t => column.name ∉ t.columnNames && (!column.notNull || t.rows.isEmpty))
  | .dropColumn table name =>
      c.onTable table (fun t => t.policies.all (fun p => name ∉ p.columns)) &&
        c.tables.all (fun p => p.1 = table ||
          p.2.foreignKeys.all (fun f => f.target ≠ table || name ∉ f.targetColumns))
  | .fill table column value =>
      c.onTable table (fun t => column ∈ t.columnNames &&
        t.rows.all (fun r => !t.fills role column r ||
          (value r).any (fun v => t.accepts role (Function.update r column v))))
  | .setNotNull table column =>
      c.onTable table (fun t => column ∈ t.columnNames && t.rows.all (fun r => (r column).isSome))
  | .addCheck table check =>
      c.onTable table (fun t => check.name ∉ t.checks.map Check.name &&
        check.columns ⊆ t.columnNames && t.rows.all (fun r => check.meets r))
  | .dropCheck table _ => table ∈ c.tableNames
  | .replaceFunction name arguments results =>
      (arguments ++ results).all (fun n => n ∈ c.typeNames) &&
        c.functions.all (fun f => !f.called name arguments || f.results = results)
  | .dropFunction _ _ => true
  | .revokeFromPublic name arguments => c.functions.any (Function.called name arguments)
  | .grantExecute name arguments _ => c.functions.any (Function.called name arguments)

def Table.create (columns : List (Column ν)) (keys : List (List ν))
    (foreignKeys : List (ForeignKey ν)) (checks : List (Check ν V)) : Table ν V S where
  columns := columns
  keys := keys
  foreignKeys := foreignKeys
  checks := checks
  indexes := []
  rowSecurity := false
  forced := false
  policies := []
  rows := []

/-- What depends on the column inside its table goes with it. -/
def Table.dropColumn (name : ν) (t : Table ν V S) : Table ν V S where
  columns := t.columns.filter (fun k => k.name ≠ name)
  keys := t.keys.filter (fun ks => name ∉ ks)
  foreignKeys := t.foreignKeys.filter (fun f => name ∉ f.columns)
  checks := t.checks.filter (fun k => name ∉ k.columns)
  indexes := t.indexes.filter (fun i => name ∉ i.columns)
  rowSecurity := t.rowSecurity
  forced := t.forced
  policies := t.policies
  rows := t.rows.map (fun r => Function.update r name none)

def Table.addColumn (column : Column ν) (t : Table ν V S) : Table ν V S :=
  { t with
    columns := t.columns ++ [column]
    rows := t.rows.map (fun r => Function.update r column.name none) }

def Table.fill (column : ν) (value : (ν → Option V) → Option (Option V)) (t : Table ν V S) :
    Table ν V S :=
  { t with rows := t.rows.map (fun r =>
      if t.fills role column r then Function.update r column ((value r).getD none) else r) }

def Table.setNotNull (column : ν) (t : Table ν V S) : Table ν V S :=
  { t with columns := t.columns.map (fun k =>
      if k.name = column then { k with notNull := true } else k) }

def Table.setRowSecurity (on : Bool) (t : Table ν V S) : Table ν V S := { t with rowSecurity := on }

def Table.setForced (on : Bool) (t : Table ν V S) : Table ν V S := { t with forced := on }

def Table.addPolicy (policy : Policy ν V S) (t : Table ν V S) : Table ν V S :=
  { t with policies := t.policies ++ [policy] }

def Table.dropPolicy (name : ν) (t : Table ν V S) : Table ν V S :=
  { t with policies := t.policies.filter (fun p => p.name ≠ name) }

def Table.addCheck (check : Check ν V) (t : Table ν V S) : Table ν V S :=
  { t with checks := t.checks ++ [check] }

def Table.dropCheck (name : ν) (t : Table ν V S) : Table ν V S :=
  { t with checks := t.checks.filter (fun k => k.name ≠ name) }

def Table.addIndex (index : Index ν) (t : Table ν V S) : Table ν V S :=
  { t with indexes := t.indexes ++ [index] }

def Table.dropIndex (name : ν) (t : Table ν V S) : Table ν V S :=
  { t with indexes := t.indexes.filter (fun i => i.name ≠ name) }

def Catalog.mapFunction (name : ν) (arguments : List ν) (f : Function ν → Function ν) :
    Catalog ν V S :=
  { c with functions := c.functions.map (fun g => if g.called name arguments then f g else g) }

def Catalog.apply : Statement ν V S → Catalog ν V S
  | .createType name => { c with types := c.types ++ [name] }
  | .dropType name => { c with types := c.types.filter (fun n => n ≠ name) }
  | .createTable name columns keys foreignKeys checks =>
      { c with tables := c.tables ++ [(name, Table.create columns keys foreignKeys checks)] }
  | .dropTable name => { c with tables := c.tables.filter (fun p => p.1 ≠ name) }
  | .createIndex table index => c.modify table (Table.addIndex index)
  | .dropIndex name => c.mapTables (fun _ => Table.dropIndex name)
  | .setRowSecurity table on => c.modify table (Table.setRowSecurity on)
  | .forceRowSecurity table on => c.modify table (Table.setForced on)
  | .createPolicy table policy => c.modify table (Table.addPolicy policy)
  | .dropPolicy table name => c.modify table (Table.dropPolicy name)
  | .addColumn table column => c.modify table (Table.addColumn column)
  | .dropColumn table name => c.modify table (Table.dropColumn name)
  | .fill table column value => c.modify table (Table.fill role column value)
  | .setNotNull table column => c.modify table (Table.setNotNull column)
  | .addCheck table check => c.modify table (Table.addCheck check)
  | .dropCheck table name => c.modify table (Table.dropCheck name)
  | .replaceFunction name arguments results =>
      if c.functions.any (Function.called name arguments) then c
      else { c with functions := c.functions ++ [⟨name, arguments, results, true, []⟩] }
  | .dropFunction name arguments =>
      { c with functions := c.functions.filter (fun f => !f.called name arguments) }
  | .revokeFromPublic name arguments =>
      c.mapFunction name arguments (fun f => { f with publicMayExecute := false })
  | .grantExecute name arguments grantee =>
      c.mapFunction name arguments (fun f => { f with executors := f.executors ++ [grantee] })

def exec (c : Catalog ν V S) (s : Statement ν V S) : Option (Catalog ν V S) :=
  if c.permits role s then some (c.apply role s) else none

variable {role c}

theorem exec_eq_some {s : Statement ν V S} {c' : Catalog ν V S} :
    exec role c s = some c' ↔ c.permits role s = true ∧ c' = c.apply role s := by
  unfold exec
  cases c.permits role s with
  | true => simp [eq_comm]
  | false => simp

end Execution
end Dandori.Ddl
