import Dandori.Worklist

/-!
# The architecture guard

The guard compares the dependencies of the crates and the `use` declarations of their sources with the
layers of the architecture and reports every offence. What cargo answers, what the directories hold and how
a source is parsed are given.
-/

namespace Dandori.ArchitectureGuard

inductive UseTree
  | path (ident : String) (tree : UseTree)
  | name (ident : String)
  | rename (ident rename : String)
  | glob
  | group (items : List UseTree)

/-- A `use` declaration, or another item with the items inside it in the order of the visitor. -/
inductive Item
  | useItem (tree : UseTree)
  | other (items : List Item)

mutual

def collectUseTree : UseTree → List String → List (List String) → List (List String)
  | .path ident tree, pre, out => collectUseTree tree (pre ++ [ident]) out
  | .name ident, pre, out => out ++ [pre ++ [ident]]
  | .rename ident _, pre, out => out ++ [pre ++ [ident]]
  | .glob, pre, out => out ++ [pre]
  | .group items, pre, out => collectGroup items pre out

def collectGroup : List UseTree → List String → List (List String) → List (List String)
  | [], _, out => out
  | item :: items, pre, out => collectGroup items pre (collectUseTree item pre out)

end

mutual

def visitItem : Item → List (List String) → List (List String)
  | .useItem tree, paths => collectUseTree tree [] paths
  | .other items, paths => visitItems items paths

def visitItems : List Item → List (List String) → List (List String)
  | [], paths => paths
  | item :: items, paths => visitItems items (visitItem item paths)

end

/-- What stands in a directory; `entries` are those that reading the directory yields. -/
inductive Node
  | file (name : String) (text : Option String)
  | dir (name : String) (entries : List Node)

/-- A source file, with its text if it can be read. -/
structure SourceFile where
  path : String
  text : Option String

/-- What follows the last dot of a file name, unless the name starts with that dot. -/
def extension (name : String) : Option String :=
  match name.toList.reverse.span (fun c => c ≠ '.') with
  | (suffix, _ :: _ :: _) => some (String.ofList suffix.reverse)
  | _ => none

/-- A directory on the stack: its path and its entries. -/
abbrev Directory := String × List Node

def Node.rsFile (path : String) : Node → Option SourceFile
  | .file name text => if extension name = some "rs" then some ⟨path ++ "/" ++ name, text⟩ else none
  | .dir _ _ => none

def Node.directory (path : String) : Node → Option Directory
  | .file _ _ => none
  | .dir name entries => some (path ++ "/" ++ name, entries)

mutual

def Node.size : Node → ℕ
  | .file _ _ => 0
  | .dir _ entries => 1 + entriesSize entries

def entriesSize : List Node → ℕ
  | [] => 0
  | node :: nodes => node.size + entriesSize nodes

end

theorem sum_size_directories (path : String) (entries : List Node) :
    ((entries.filterMap (Node.directory path)).map fun d => 1 + entriesSize d.2).sum =
      entriesSize entries := by
  induction entries with
  | nil => rfl
  | cons node nodes ih =>
      cases node with
      | file name text => rw [List.filterMap_cons_none rfl, ih, entriesSize, Node.size, Nat.zero_add]
      | dir name es =>
          have hdir : Node.directory path (.dir name es) = some (path ++ "/" ++ name, es) := rfl
          rw [List.filterMap_cons_some hdir, List.map_cons, List.sum_cons, ih, entriesSize, Node.size]

def directories : Expansion Directory SourceFile where
  emits d := d.2.filterMap (Node.rsFile d.1)
  below d := d.2.filterMap (Node.directory d.1)
  size d := 1 + entriesSize d.2
  size_below d := by
    rw [sum_size_directories]
    exact Nat.lt_one_add_iff.mpr (Nat.le_refl _)

/-- The files below a directory; there are none if the directory is missing. -/
def collectRsFiles (dir : String) : Option (List Node) → List SourceFile
  | none => []
  | some entries => directories.drain [(dir, entries)] []

def pathStartsWith (imported pre : List String) : Bool :=
  if imported.length < pre.length then false
  else (imported.zip pre).all (fun p => p.1 = p.2)

structure Package where
  name : String
  dependencies : List String

/-- One call of `scan_crate`. -/
structure Scan where
  crateName : String
  dir : String
  forbidden : List (List String)

section Guard

-- `syn::parse_file` and the directories of the repository
variable (parse : String → Option (List Item)) (tree : String → Option (List Node))

def importMessage (crateName path : String) (imported : List String) : String :=
  crateName ++ ": " ++ path ++ " imports forbidden path `" ++ "::".intercalate imported ++ "`"

def parseMessage (crateName path : String) : String := crateName ++ ": failed to parse " ++ path

def scanFile (scan : Scan) (file : SourceFile) : List String :=
  match file.text with
  | none => []
  | some source =>
      match parse source with
      | none => [parseMessage scan.crateName file.path]
      | some items => (visitItems items []).flatMap fun imported =>
          (scan.forbidden.filter (pathStartsWith imported)).map fun _ =>
            importMessage scan.crateName file.path imported

def scanCrate (scan : Scan) : List String :=
  (collectRsFiles scan.dir (tree scan.dir)).flatMap (scanFile parse scan)

def transportForbidden : List (List String) :=
  [["sqlx"], ["dandori_store"], ["dandori_domain"], ["dandori_policy"]]

def foundationForbidden : List (List String) :=
  [["dandori_store"], ["dandori_app_services"], ["dandori_orchestrator"], ["sqlx"]]

def scans : List Scan :=
  [⟨"dandori-api", "bin/dandori-api/src", transportForbidden⟩,
    ⟨"dandori-mcp", "bin/dandori-mcp/src", transportForbidden⟩,
    ⟨"dandori-worker", "bin/dandori-worker/src", transportForbidden⟩,
    ⟨"dandori-domain", "crates/dandori-domain/src", foundationForbidden⟩,
    ⟨"dandori-contract", "crates/dandori-contract/src", foundationForbidden⟩,
    ⟨"dandori-policy", "crates/dandori-policy/src", foundationForbidden⟩,
    ⟨"dandori-observability", "crates/dandori-observability/src", foundationForbidden⟩,
    ⟨"dandori-app-services", "crates/dandori-app-services/src", [["sqlx"]]⟩,
    ⟨"dandori-auth", "crates/dandori-auth/src", [["sqlx"]]⟩]

def checkSourceImports : List String := scans.flatMap (scanCrate parse tree)

/-- The map is collected package by package, so the last one of a name stays. -/
def dependenciesOf (packages : List Package) (name : String) : Option (List String) :=
  (packages.reverse.find? (fun p => p.name = name)).map Package.dependencies

def foundation : List String :=
  ["dandori-domain", "dandori-contract", "dandori-policy", "dandori-observability"]

def capability : List String :=
  ["dandori-store", "dandori-graph", "dandori-workflow", "dandori-sync-github", "dandori-orchestrator",
    "dandori-app-services"]

def transport : List String := ["dandori-api", "dandori-mcp", "dandori-worker"]

def forbiddenTransport : List String := ["dandori-domain", "dandori-store", "dandori-orchestrator"]

def foundationMessage (name dependency : String) : String :=
  "foundation crate '" ++ name ++ "' depends on capability crate '" ++ dependency ++ "'"

def transportMessage (name dependency : String) : String :=
  "transport crate '" ++ name ++ "' depends directly on '" ++ dependency ++ "'"

/-- One of the two loops over pairs of crates. -/
def checkLayer (packages : List Package) (names forbidden : List String)
    (message : String → String → String) : List String :=
  names.flatMap fun name =>
    (forbidden.filter fun dependency => (dependenciesOf packages name).any (dependency ∈ ·)).map
      (message name)

def checkDependencies (packages : List Package) : List String :=
  checkLayer packages foundation capability foundationMessage ++
    checkLayer packages transport forbiddenTransport transportMessage

def report (errors : List String) : String :=
  "architecture violations (" ++ toString errors.length ++ " total):\n  - " ++
    "\n  - ".intercalate errors

/-- `cargo` is what `cargo metadata` answers, or why there is no answer. -/
def main (cargo : Except String (List Package)) : Except String Unit := do
  let packages ← cargo
  let errors := checkDependencies packages ++ checkSourceImports parse tree
  if errors.isEmpty then return ()
  else throw (report errors)

end Guard

/-! ## Every source file once -/

mutual

/-- The `.rs` files of a node in the order of the entries. -/
def Node.rsFiles (path : String) : Node → List SourceFile
  | .file name text => (Node.rsFile path (.file name text)).toList
  | .dir name entries => entriesFiles (path ++ "/" ++ name) entries

def entriesFiles (path : String) : List Node → List SourceFile
  | [] => []
  | node :: nodes => node.rsFiles path ++ entriesFiles path nodes

end

theorem entriesFiles_perm (path : String) (entries : List Node) :
    (entriesFiles path entries).Perm (entries.filterMap (Node.rsFile path) ++
      (entries.filterMap (Node.directory path)).flatMap fun d => entriesFiles d.1 d.2) := by
  induction entries with
  | nil => exact List.Perm.refl _
  | cons node nodes ih =>
      rw [entriesFiles]
      cases node with
      | file name text =>
          rw [Node.rsFiles, List.filterMap_cons, List.filterMap_cons_none rfl]
          cases Node.rsFile path (.file name text) with
          | none => exact ih
          | some file => exact ih.cons file
      | dir name es =>
          have hdir : Node.directory path (.dir name es) = some (path ++ "/" ++ name, es) := rfl
          rw [Node.rsFiles, List.filterMap_cons_none rfl, List.filterMap_cons_some hdir,
            List.flatMap_cons]
          refine (ih.append_left _).trans ?_
          rw [← List.append_assoc, ← List.append_assoc]
          exact List.perm_append_comm.append_right _

/-- The stack of directories yields every `.rs` file of the tree, each as often as it stands there. -/
theorem collectRsFiles_perm (dir : String) (entries : List Node) :
    (collectRsFiles dir (some entries)).Perm (entriesFiles dir entries) := by
  have hdrain := directories.drain_eq [(dir, entries)] []
  rw [List.nil_append, List.flatMap_singleton] at hdrain
  rw [collectRsFiles, hdrain]
  exact directories.visit_perm (fun d => entriesFiles_perm d.1 d.2) (dir, entries)

/-- The `.rs` file stands in the directory or below it. -/
inductive Contains : String → List Node → SourceFile → Prop
  | file {path : String} {entries : List Node} {node : Node} {file : SourceFile}
      (hmem : node ∈ entries) (h : node.rsFile path = some file) : Contains path entries file
  | dir {path name : String} {entries es : List Node} {file : SourceFile}
      (hmem : Node.dir name es ∈ entries) (h : Contains (path ++ "/" ++ name) es file) :
      Contains path entries file

theorem contains_of_reaches {d d' : Directory} {file : SourceFile} (h : directories.Reaches d d')
    (hfile : file ∈ directories.emits d') : Contains d.1 d.2 file := by
  induction h using Relation.ReflTransGen.head_induction_on with
  | refl =>
      obtain ⟨node, hmem, hnode⟩ := List.mem_filterMap.mp hfile
      exact .file hmem hnode
  | head hbelow _ ih =>
      obtain ⟨node, hmem, hnode⟩ := List.mem_filterMap.mp hbelow
      cases node with
      | file name text => cases hnode
      | dir name es =>
          cases hnode
          exact .dir hmem ih

theorem mem_visit_of_contains {path : String} {entries : List Node} {file : SourceFile}
    (h : Contains path entries file) : file ∈ directories.visit (path, entries) := by
  induction h with
  | file hmem h =>
      rw [Expansion.visit_eq]
      exact List.mem_append_left _ (List.mem_filterMap.mpr ⟨_, hmem, h⟩)
  | dir hmem _ ih =>
      rw [Expansion.visit_eq]
      refine List.mem_append_right _ (List.mem_flatMap.mpr ⟨_, ?_, ih⟩)
      exact List.mem_reverse.mpr (List.mem_filterMap.mpr ⟨_, hmem, rfl⟩)

theorem mem_collectRsFiles {dir : String} {found : Option (List Node)} {file : SourceFile} :
    file ∈ collectRsFiles dir found ↔ ∃ entries, found = some entries ∧ Contains dir entries file := by
  cases found with
  | none => simp [collectRsFiles]
  | some entries =>
      have hdrain := directories.drain_eq [(dir, entries)] []
      rw [List.nil_append, List.flatMap_singleton] at hdrain
      rw [collectRsFiles, hdrain]
      constructor
      · intro h
        obtain ⟨d, hd, hfile⟩ := directories.mem_visit.mp h
        exact ⟨entries, rfl, contains_of_reaches hd hfile⟩
      · rintro ⟨_, hsome, h⟩
        cases hsome
        exact mem_visit_of_contains h

/-! ## What an import declaration imports -/

inductive UseTree.Imports : UseTree → List String → Prop
  | name (ident : String) : Imports (.name ident) [ident]
  | rename (ident rename : String) : Imports (.rename ident rename) [ident]
  | glob : Imports .glob []
  | path {ident : String} {tree : UseTree} {p : List String} (h : Imports tree p) :
      Imports (.path ident tree) (ident :: p)
  | group {items : List UseTree} {tree : UseTree} {p : List String} (hmem : tree ∈ items)
      (h : Imports tree p) : Imports (.group items) p

inductive Item.Imports : Item → List String → Prop
  | useItem {tree : UseTree} {p : List String} (h : tree.Imports p) : Imports (.useItem tree) p
  | other {items : List Item} {item : Item} {p : List String} (hmem : item ∈ items)
      (h : Imports item p) : Imports (.other items) p

mutual

theorem mem_collectUseTree {p : List String} : ∀ (tree : UseTree) (pre : List String)
    (out : List (List String)), p ∈ collectUseTree tree pre out ↔
      p ∈ out ∨ ∃ q, tree.Imports q ∧ p = pre ++ q
  | .path ident tree, pre, out => by
      rw [collectUseTree, mem_collectUseTree tree]
      refine or_congr_right ⟨?_, ?_⟩
      · rintro ⟨q, hq, rfl⟩
        exact ⟨ident :: q, .path hq, by simp⟩
      · rintro ⟨_, hq, rfl⟩
        cases hq with
        | path hq => exact ⟨_, hq, by simp⟩
  | .name ident, pre, out => by
      rw [collectUseTree, List.mem_append, List.mem_singleton]
      refine or_congr_right ⟨fun h => ⟨_, .name ident, h⟩, ?_⟩
      rintro ⟨_, hq, rfl⟩
      cases hq
      rfl
  | .rename ident rename, pre, out => by
      rw [collectUseTree, List.mem_append, List.mem_singleton]
      refine or_congr_right ⟨fun h => ⟨_, .rename ident rename, h⟩, ?_⟩
      rintro ⟨_, hq, rfl⟩
      cases hq
      rfl
  | .glob, pre, out => by
      rw [collectUseTree, List.mem_append, List.mem_singleton]
      refine or_congr_right ⟨fun h => ⟨[], .glob, by rw [h, List.append_nil]⟩, ?_⟩
      rintro ⟨_, hq, rfl⟩
      cases hq
      rw [List.append_nil]
  | .group items, pre, out => by
      rw [collectUseTree, mem_collectGroup items]
      refine or_congr_right ⟨?_, ?_⟩
      · rintro ⟨tree, hmem, q, hq, rfl⟩
        exact ⟨q, .group hmem hq, rfl⟩
      · rintro ⟨q, hq, rfl⟩
        cases hq with
        | group hmem hq => exact ⟨_, hmem, q, hq, rfl⟩

theorem mem_collectGroup {p : List String} : ∀ (items : List UseTree) (pre : List String)
    (out : List (List String)), p ∈ collectGroup items pre out ↔
      p ∈ out ∨ ∃ tree ∈ items, ∃ q, tree.Imports q ∧ p = pre ++ q
  | [], pre, out => by simp [collectGroup]
  | item :: items, pre, out => by
      rw [collectGroup, mem_collectGroup items, mem_collectUseTree item, or_assoc]
      simp only [List.mem_cons, exists_eq_or_imp]

end

mutual

theorem mem_visitItem {p : List String} : ∀ (item : Item) (paths : List (List String)),
    p ∈ visitItem item paths ↔ p ∈ paths ∨ item.Imports p
  | .useItem tree, paths => by
      rw [visitItem, mem_collectUseTree]
      refine or_congr_right ⟨?_, ?_⟩
      · rintro ⟨q, hq, rfl⟩
        exact .useItem hq
      · rintro (hp | _)
        exact ⟨p, hp, rfl⟩
  | .other items, paths => by
      rw [visitItem, mem_visitItems items]
      refine or_congr_right ⟨?_, ?_⟩
      · rintro ⟨item, hmem, hp⟩
        exact .other hmem hp
      · intro h
        cases h with
        | other hmem hp => exact ⟨_, hmem, hp⟩

theorem mem_visitItems {p : List String} : ∀ (items : List Item) (paths : List (List String)),
    p ∈ visitItems items paths ↔ p ∈ paths ∨ ∃ item ∈ items, item.Imports p
  | [], paths => by simp [visitItems]
  | item :: items, paths => by
      rw [visitItems, mem_visitItems items, mem_visitItem item, or_assoc]
      simp only [List.mem_cons, exists_eq_or_imp]

end

theorem pathStartsWith_iff {pre : List String} : ∀ {imported : List String},
    pathStartsWith imported pre = true ↔ pre <+: imported := by
  induction pre with
  | nil => simp [pathStartsWith]
  | cons a pre ih =>
      intro imported
      cases imported with
      | nil => simp [pathStartsWith]
      | cons b imported =>
          rw [List.cons_prefix_cons, ← ih]
          unfold pathStartsWith
          rw [List.length_cons, List.length_cons, List.zip_cons_cons, List.all_cons]
          simp only [Nat.add_lt_add_iff_right]
          by_cases hlength : imported.length < pre.length
          · simp [hlength]
          · simp only [if_neg hlength, Bool.and_eq_true, decide_eq_true_eq]
            exact and_congr_left fun _ => eq_comm

/-! ## The report -/

/-- The last package of the name has the dependency. -/
def DependsOn (packages : List Package) (name dependency : String) : Prop :=
  ∃ deps, dependenciesOf packages name = some deps ∧ dependency ∈ deps

/-- The messages of what offends against the architecture. -/
inductive Offence (parse : String → Option (List Item)) (tree : String → Option (List Node))
    (packages : List Package) : String → Prop
  | foundation {name dependency : String} (hname : name ∈ foundation)
      (hdependency : dependency ∈ capability) (h : DependsOn packages name dependency) :
      Offence parse tree packages (foundationMessage name dependency)
  | transport {name dependency : String} (hname : name ∈ transport)
      (hdependency : dependency ∈ forbiddenTransport) (h : DependsOn packages name dependency) :
      Offence parse tree packages (transportMessage name dependency)
  | unparsed {scan : Scan} {entries : List Node} {file : SourceFile} {source : String}
      (hscan : scan ∈ scans) (htree : tree scan.dir = some entries)
      (hfile : Contains scan.dir entries file) (htext : file.text = some source)
      (hparse : parse source = none) :
      Offence parse tree packages (parseMessage scan.crateName file.path)
  | imported {scan : Scan} {entries : List Node} {file : SourceFile} {source : String}
      {items : List Item} {item : Item} {pre path : List String}
      (hscan : scan ∈ scans) (htree : tree scan.dir = some entries)
      (hfile : Contains scan.dir entries file) (htext : file.text = some source)
      (hparse : parse source = some items) (hitem : item ∈ items) (hpath : item.Imports path)
      (hpre : pre ∈ scan.forbidden) (h : pre <+: path) :
      Offence parse tree packages (importMessage scan.crateName file.path path)

section Report

variable {parse : String → Option (List Item)} {tree : String → Option (List Node)}
  {packages : List Package} {m : String}

theorem mem_checkLayer {names forbidden : List String} {message : String → String → String} :
    m ∈ checkLayer packages names forbidden message ↔ ∃ name ∈ names, ∃ dependency ∈ forbidden,
      DependsOn packages name dependency ∧ message name dependency = m := by
  simp only [checkLayer, DependsOn, List.mem_flatMap, List.mem_map, List.mem_filter, Option.any_eq_true,
    decide_eq_true_eq, and_assoc]

theorem mem_scanFile {scan : Scan} {file : SourceFile} : m ∈ scanFile parse scan file ↔
    ∃ source, file.text = some source ∧
      ((parse source = none ∧ m = parseMessage scan.crateName file.path) ∨
        ∃ items, parse source = some items ∧ ∃ item ∈ items, ∃ path, item.Imports path ∧
          ∃ pre ∈ scan.forbidden, pre <+: path ∧ m = importMessage scan.crateName file.path path) := by
  unfold scanFile
  split
  · rename_i htext
    simp [htext]
  · rename_i source htext
    split
    · rename_i hparse
      simp [htext, hparse]
    · rename_i items hparse
      simp only [List.mem_flatMap, List.mem_map, List.mem_filter, mem_visitItems, List.not_mem_nil,
        false_or, pathStartsWith_iff]
      constructor
      · rintro ⟨path, ⟨item, hitem, hpath⟩, pre, ⟨hpre, h⟩, rfl⟩
        exact ⟨source, htext, Or.inr ⟨items, hparse, item, hitem, path, hpath, pre, hpre, h, rfl⟩⟩
      · rintro ⟨_, htext', ⟨hnone, _⟩ | ⟨_, hsome, item, hitem, path, hpath, pre, hpre, h, rfl⟩⟩
        · rw [htext] at htext'
          cases htext'
          rw [hparse] at hnone
          cases hnone
        · rw [htext] at htext'
          cases htext'
          rw [hparse] at hsome
          cases hsome
          exact ⟨path, ⟨item, hitem, hpath⟩, pre, ⟨hpre, h⟩, rfl⟩

theorem mem_checkSourceImports : m ∈ checkSourceImports parse tree ↔ ∃ scan ∈ scans, ∃ entries,
    tree scan.dir = some entries ∧ ∃ file, Contains scan.dir entries file ∧
      m ∈ scanFile parse scan file := by
  simp only [checkSourceImports, scanCrate, List.mem_flatMap, mem_collectRsFiles]
  constructor
  · rintro ⟨scan, hscan, file, ⟨entries, htree, hfile⟩, hm⟩
    exact ⟨scan, hscan, entries, htree, file, hfile, hm⟩
  · rintro ⟨scan, hscan, entries, htree, file, hfile, hm⟩
    exact ⟨scan, hscan, file, ⟨entries, htree, hfile⟩, hm⟩

theorem mem_errors : m ∈ checkDependencies packages ++ checkSourceImports parse tree ↔
    Offence parse tree packages m := by
  rw [checkDependencies, List.mem_append, List.mem_append, mem_checkLayer, mem_checkLayer,
    mem_checkSourceImports]
  constructor
  · rintro ((⟨name, hname, dependency, hdependency, h, rfl⟩ |
      ⟨name, hname, dependency, hdependency, h, rfl⟩) |
      ⟨scan, hscan, entries, htree, file, hfile, hm⟩)
    · exact .foundation hname hdependency h
    · exact .transport hname hdependency h
    · obtain ⟨source, htext, ⟨hparse, rfl⟩ |
        ⟨items, hparse, item, hitem, path, hpath, pre, hpre, h, rfl⟩⟩ := mem_scanFile.mp hm
      · exact .unparsed hscan htree hfile htext hparse
      · exact .imported hscan htree hfile htext hparse hitem hpath hpre h
  · intro h
    cases h with
    | foundation hname hdependency h => exact Or.inl (Or.inl ⟨_, hname, _, hdependency, h, rfl⟩)
    | transport hname hdependency h => exact Or.inl (Or.inr ⟨_, hname, _, hdependency, h, rfl⟩)
    | unparsed hscan htree hfile htext hparse =>
        exact Or.inr ⟨_, hscan, _, htree, _, hfile,
          mem_scanFile.mpr ⟨_, htext, Or.inl ⟨hparse, rfl⟩⟩⟩
    | imported hscan htree hfile htext hparse hitem hpath hpre h =>
        exact Or.inr ⟨_, hscan, _, htree, _, hfile,
          mem_scanFile.mpr ⟨_, htext, Or.inr ⟨_, hparse, _, hitem, _, hpath, _, hpre, h, rfl⟩⟩⟩

/-- The guard passes exactly when cargo answers and nothing offends, and a report lists every offence and
nothing else. -/
theorem main_reports (parse : String → Option (List Item)) (tree : String → Option (List Node))
    (cargo : Except String (List Package)) :
    (main parse tree cargo = .ok () ↔
      ∃ packages, cargo = .ok packages ∧ ∀ m, ¬ Offence parse tree packages m) ∧
    ∀ packages text, cargo = .ok packages → main parse tree cargo = .error text →
      ∃ errors, text = report errors ∧ ∀ m, m ∈ errors ↔ Offence parse tree packages m := by
  cases cargo with
  | error e =>
      constructor
      · constructor
        · intro h
          cases h
        · rintro ⟨_, h, _⟩
          cases h
      · intro packages text h
        cases h
  | ok packages =>
      set errors := checkDependencies packages ++ checkSourceImports parse tree with herrors
      have hmain : main parse tree (.ok packages) =
          if errors.isEmpty then .ok () else .error (report errors) := rfl
      have hmem : ∀ m, m ∈ errors ↔ Offence parse tree packages m := fun m => mem_errors
      rw [hmain]
      constructor
      · constructor
        · intro h
          refine ⟨packages, rfl, fun m hm => ?_⟩
          split at h
          · rename_i hempty
            rw [← hmem, List.isEmpty_iff.mp hempty] at hm
            exact List.not_mem_nil hm
          · cases h
        · rintro ⟨_, hsome, hnone⟩
          cases hsome
          have hempty : errors = [] := List.eq_nil_iff_forall_not_mem.mpr fun m hm =>
            hnone m ((hmem m).mp hm)
          rw [if_pos (List.isEmpty_iff.mpr hempty)]
      · intro packages' text hsome h
        cases hsome
        split at h
        · cases h
        · cases h
          exact ⟨errors, rfl, hmem⟩

end Report

end Dandori.ArchitectureGuard
