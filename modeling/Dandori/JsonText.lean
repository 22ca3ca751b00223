import Dandori.Codec
import Mathlib.Data.List.Forall2

/-!
# JSON texts and the two ways to read them

The tree of a JSON text keeps its literals as written and the members of an object in their order. A
text is read into a `Value` as a whole: every literal is decoded, nesting is limited, and of the members
with one key the last stays. A struct that is read directly decodes the members it knows, skips the
others unread, and refuses a known member that comes twice. A derived deserializer is written once over
a `Deserializer`, which says how nodes of either kind are looked at.
-/

namespace Dandori

inductive RawJson
  | null
  | bool (b : Bool)
  | number (literal : String)
  | string (literal : String)
  | array (items : List RawJson)
  | object (members : List (String × RawJson))

/-- The JSON library: the grammar of texts, the decoding of literals between their quotes, the messages
of failed reads, and the compact form of a value. -/
structure JsonLibrary where
  parseText : String → Except String RawJson
  unescape : String → Option String
  number : String → Option (Int ⊕ String)
  readError : RawJson → String
  compact : Value → String
  compact_singleLine : ∀ v, '\n' ∉ (compact v).toList

/-- Of the members with one key the last one. -/
def lastWins {α : Type} : List (String × α) → List (String × α)
  | [] => []
  | (key, a) :: rest =>
      if key ∈ rest.map Prod.fst then lastWins rest else (key, a) :: lastWins rest

/-- `remaining_depth` of a new deserializer. -/
def recursionLimit : ℕ := 128

namespace JsonLibrary

variable (lib : JsonLibrary)

mutual

/-- A text read into a `Value`; `remaining` counts down with every container that is entered. -/
def toValue (remaining : ℕ) : RawJson → Option Value
  | .null => some .null
  | .bool b => some (.bool b)
  | .number literal => (lib.number literal).map (Sum.elim .number .float)
  | .string literal => (lib.unescape literal).map .string
  | .array items => if remaining ≤ 1 then none else (toValues (remaining - 1) items).map .array
  | .object members =>
      if remaining ≤ 1 then none
      else (toFields (remaining - 1) members).map (fun fields => .object (lastWins fields))

def toValues (remaining : ℕ) : List RawJson → Option (List Value)
  | [] => some []
  | item :: items => do
      let v ← toValue remaining item
      let vs ← toValues remaining items
      return v :: vs

def toFields (remaining : ℕ) : List (String × RawJson) → Option (List (String × Value))
  | [] => some []
  | (literal, member) :: members => do
      let key ← lib.unescape literal
      let v ← toValue remaining member
      let fields ← toFields remaining members
      return (key, v) :: fields

end

/-- The decoded keys of an object with its members. -/
def keyed : List (String × RawJson) → Option (List (String × RawJson))
  | [] => some []
  | (literal, member) :: members => do
      let key ← lib.unescape literal
      let rest ← keyed members
      return (key, member) :: rest

end JsonLibrary

/-- How a derived deserializer looks at a node: a string, `null`, the fields of a struct whose trailing
fields after the first `required` have defaults, and the name of a unit variant of an enum. -/
structure Deserializer (α : Type) where
  string : α → Option String
  isNull : α → Bool
  fields (names : List String) (required : ℕ) : α → Option (String → Option α)
  variant : α → Option String

namespace Deserializer

variable {α β : Type} (de : Deserializer α)

/-- An `Option` field. -/
def optional (decode : α → Option β) : Option α → Option (Option β)
  | none => some none
  | some a => if de.isNull a then some none else (decode a).map some

end Deserializer

/-- The items of an array as the fields of a struct. -/
def sequenceFields {α : Type} (names : List String) (required : ℕ) (items : List α) :
    Option (String → Option α) :=
  if required ≤ items.length ∧ items.length ≤ names.length then
    some (fun name => (names.zip items).lookup name)
  else none

def Value.isNull : Value → Bool
  | .null => true
  | _ => false

/-- `serde_json::from_value`. -/
def valueDeserializer : Deserializer Value where
  string := Value.asString
  isNull := Value.isNull
  fields names required
    | .object fields => some (fun name => fields.lookup name)
    | .array items => sequenceFields names required items
    | _ => none
  variant
    | .string s => some s
    | .object [(key, .null)] => some key
    | _ => none

/-- A known field comes more than once. -/
def repeatsKnown {α : Type} (names : List String) (members : List (String × α)) : Bool :=
  names.any (fun name => 1 < members.countP (fun member => member.1 = name))

/-- `serde_json::from_slice` and `from_str`. -/
def JsonLibrary.deserializer (lib : JsonLibrary) : Deserializer RawJson where
  string
    | .string literal => lib.unescape literal
    | _ => none
  isNull
    | .null => true
    | _ => false
  fields names required
    | .object members =>
        match lib.keyed members with
        | none => none
        | some fields =>
            if repeatsKnown names fields then none else some (fun name => fields.lookup name)
    | .array items => sequenceFields names required items
    | _ => none
  variant
    | .string literal => lib.unescape literal
    | .object [(literal, .null)] => lib.unescape literal
    | _ => none

/-! ## A text and its value -/

section LastWins

variable {α : Type} {name : String} {members : List (String × α)}

variable {β : Type} {R : α → β → Prop} {fields : List (String × β)}

end LastWins

namespace JsonLibrary

variable {lib : JsonLibrary} {remaining : ℕ} {raw : RawJson} {v : Value}

/-- A text and the value it is read into. -/
def Reads (lib : JsonLibrary) (remaining : ℕ) (raw : RawJson) (v : Value) : Prop :=
  lib.toValue remaining raw = some v

theorem toValues_forall₂ {items : List RawJson} {vs : List Value}
    (h : lib.toValues remaining items = some vs) : List.Forall₂ (lib.Reads remaining) items vs := by
  induction items generalizing vs with
  | nil =>
      cases h
      exact .nil
  | cons item items ih =>
      simp only [toValues, Option.bind_eq_bind, Option.bind_eq_some_iff] at h
      obtain ⟨v, hv, vs', hvs, h⟩ := h
      cases h
      exact .cons hv (ih hvs)

/-- The members of an object with decoded keys, beside the fields of its value. -/
theorem toFields_keyed {members : List (String × RawJson)} {fields : List (String × Value)}
    (h : lib.toFields remaining members = some fields) : ∃ ms, lib.keyed members = some ms ∧
      List.Forall₂ (fun m f => m.1 = f.1 ∧ lib.Reads remaining m.2 f.2) ms fields := by
  induction members generalizing fields with
  | nil =>
      cases h
      exact ⟨[], rfl, .nil⟩
  | cons member members ih =>
      obtain ⟨literal, member⟩ := member
      simp only [toFields, Option.bind_eq_bind, Option.bind_eq_some_iff] at h
      obtain ⟨key, hkey, v, hv, rest, hrest, h⟩ := h
      cases h
      obtain ⟨ms, hms, hall⟩ := ih hrest
      refine ⟨(key, member) :: ms, ?_, .cons ⟨rfl, hv⟩ hall⟩
      simp [keyed, hkey, hms]

/-- What a text can be read into. -/
inductive ReadAs (lib : JsonLibrary) (remaining : ℕ) : RawJson → Value → Prop
  | null : ReadAs lib remaining .null .null
  | bool (b : Bool) : ReadAs lib remaining (.bool b) (.bool b)
  | integer (literal : String) (n : Int) : ReadAs lib remaining (.number literal) (.number n)
  | float (literal digits : String) : ReadAs lib remaining (.number literal) (.float digits)
  | string {literal s} (h : lib.unescape literal = some s) :
      ReadAs lib remaining (.string literal) (.string s)
  | array {items vs} (h : List.Forall₂ (lib.Reads (remaining - 1)) items vs) :
      ReadAs lib remaining (.array items) (.array vs)
  | object {members ms fields} (hkeyed : lib.keyed members = some ms)
      (h : List.Forall₂ (fun m f => m.1 = f.1 ∧ lib.Reads (remaining - 1) m.2 f.2) ms fields) :
      ReadAs lib remaining (.object members) (.object (lastWins fields))

theorem Reads.cases (h : lib.Reads remaining raw v) : lib.ReadAs remaining raw v := by
  unfold Reads at h
  cases raw with
  | null =>
      cases h
      exact .null
  | bool b =>
      cases h
      exact .bool b
  | number literal =>
      obtain ⟨n, _, rfl⟩ := Option.map_eq_some_iff.mp h
      cases n with
      | inl n => exact .integer literal n
      | inr digits => exact .float literal digits
  | string literal =>
      obtain ⟨s, hs, rfl⟩ := Option.map_eq_some_iff.mp h
      exact .string hs
  | array items =>
      simp only [toValue] at h
      split_ifs at h
      obtain ⟨vs, hvs, rfl⟩ := Option.map_eq_some_iff.mp h
      exact .array (toValues_forall₂ hvs)
  | object members =>
      simp only [toValue] at h
      split_ifs at h
      obtain ⟨fields, hfields, rfl⟩ := Option.map_eq_some_iff.mp h
      obtain ⟨ms, hms, hall⟩ := toFields_keyed hfields
      exact .object hms hall

end JsonLibrary

/-! ## A library to evaluate with -/

mutual

def RawJson.text : RawJson → String
  | .null => "null"
  | .bool b => if b then "true" else "false"
  | .number literal => literal
  | .string literal => "\"" ++ literal ++ "\""
  | .array items => "[" ++ ",".intercalate (itemTexts items) ++ "]"
  | .object members => "\x7b" ++ ",".intercalate (memberTexts members) ++ "\x7d"

def itemTexts : List RawJson → List String
  | [] => []
  | item :: items => item.text :: itemTexts items

def memberTexts : List (String × RawJson) → List String
  | [] => []
  | (literal, member) :: members => ("\"" ++ literal ++ "\":" ++ member.text) :: memberTexts members

end

mutual

def Value.text : Value → String
  | .null => "null"
  | .bool b => if b then "true" else "false"
  | .number n => toString n
  | .float literal => literal
  | .string s => "\"" ++ s ++ "\""
  | .array items => "[" ++ ",".intercalate (valueTexts items) ++ "]"
  | .object fields => "\x7b" ++ ",".intercalate (fieldTexts fields) ++ "\x7d"

def valueTexts : List Value → List String
  | [] => []
  | v :: vs => v.text :: valueTexts vs

def fieldTexts : List (String × Value) → List String
  | [] => []
  | (key, v) :: fields => ("\"" ++ key ++ "\":" ++ v.text) :: fieldTexts fields

end

def natOfDigits (digits : List Char) : ℕ := digits.foldl (fun n c => 10 * n + (c.toNat - 48)) 0

/-- Knows the texts of some trees, in which no literal has an escape. -/
def JsonLibrary.ofTrees (trees : List RawJson) : JsonLibrary where
  parseText s :=
    match trees.find? (fun tree => tree.text = s) with
    | some tree => .ok tree
    | none => .error "expected value"
  unescape s := if '\\' ∈ s.toList then none else some s
  number literal :=
    if literal.toList.all Char.isDigit then some (.inl (natOfDigits literal.toList))
    else some (.inr literal)
  readError _ := "invalid type"
  compact v := String.ofList (v.text.toList.filter (· ≠ '\n'))
  compact_singleLine v := by simp

end Dandori
