import Dandori.HexText

/-!
# Writing JSON values

The compact writer: quoted strings with the escapes of the library, items after commas, members in
their order. A value without numbers can be read off the front of any text, since its first letter
tells its kind, an escape tells its letter and every list ends with its bracket.
-/

namespace Dandori

/-- The letters with an escape of their own. -/
def shortEscapes : List (Char × Char) :=
  [('"', '"'), ('\\', '\\'), ('\x08', 'b'), ('\t', 't'), ('\n', 'n'), ('\x0c', 'f'), ('\r', 'r')]

/-- `write_char_escape`; other control characters are four hexadecimal digits. -/
def escapeChar (c : Char) : List Char :=
  match shortEscapes.lookup c with
  | some letter => ['\\', letter]
  | none => if c.toNat < 0x20 then '\\' :: 'u' :: hexDigits 4 c.toNat else [c]

def writeString (s : String) : List Char := '"' :: (s.toList.flatMap escapeChar ++ ['"'])

namespace Value

mutual

/-- The compact text of a value; `first` says that no item of the list has been written. -/
def write : Value → List Char
  | .null => ['n', 'u', 'l', 'l']
  | .bool true => ['t', 'r', 'u', 'e']
  | .bool false => ['f', 'a', 'l', 's', 'e']
  | .number n => (toString n).toList
  | .float literal => literal.toList
  | .string s => writeString s
  | .array items => '[' :: writeItems true items
  | .object fields => '\x7b' :: writeFields true fields

def writeItems (first : Bool) : List Value → List Char
  | [] => [']']
  | v :: items => (if first then [] else [',']) ++ (write v ++ writeItems false items)

def writeFields (first : Bool) : List (String × Value) → List Char
  | [] => ['\x7d']
  | (name, v) :: fields =>
      (if first then [] else [',']) ++
        (writeString name ++ (':' :: (write v ++ writeFields false fields)))

end

mutual

/-- No number stands in the value. -/
def NumberFree : Value → Prop
  | .number _ => False
  | .float _ => False
  | .array items => NumberFreeItems items
  | .object fields => NumberFreeFields fields
  | _ => True

def NumberFreeItems : List Value → Prop
  | [] => True
  | v :: items => NumberFree v ∧ NumberFreeItems items

def NumberFreeFields : List (String × Value) → Prop
  | [] => True
  | (_, v) :: fields => NumberFree v ∧ NumberFreeFields fields

end
end Value

/-! ## Strings -/

def longEscape : List Char → Option (Char × List Char)
  | a :: b :: c :: d :: s => some (Char.ofNat (readHex [a, b, c, d]), s)
  | _ => none

def readChar : List Char → Option (Char × List Char)
  | [] => none
  | c :: s =>
      if c ≠ '\\' then some (c, s)
      else match s with
        | [] => none
        | letter :: s =>
            if letter = 'u' then longEscape s
            else (shortEscapes.find? (fun e => e.2 = letter)).map (fun e => (e.1, s))

theorem longEscape_hexDigits {c : Char} (hc : c.toNat < 0x20) (s : List Char) :
    longEscape (hexDigits 4 c.toNat ++ s) = some (c, s) := by
  have hread := readHex_hexDigits 4 c.toNat
  have hlength := length_hexDigits 4 c.toNat
  cases hdigits : hexDigits 4 c.toNat with
  | nil => rw [hdigits] at hlength; cases hlength
  | cons a l =>
      match l, hdigits with
      | [b, x, y], hdigits =>
          have hval : readHex [a, b, x, y] = c.toNat := by
            rw [← hdigits, hread]
            exact Nat.mod_eq_of_lt (by omega)
          simp only [List.cons_append, List.nil_append, longEscape, hval, Char.ofNat_toNat]

theorem readChar_escapeChar (c : Char) (s : List Char) :
    readChar (escapeChar c ++ s) = some (c, s) := by
  unfold escapeChar
  cases hshort : shortEscapes.lookup c with
  | some letter =>
      have hall : ∀ e ∈ shortEscapes, ∀ s, readChar ('\\' :: e.2 :: s) = some (e.1, s) := by
        simp [shortEscapes, readChar]
      have hmem : (c, letter) ∈ shortEscapes := by
        obtain ⟨l₁, l₂, hl, _⟩ := List.lookup_eq_some_iff.mp hshort
        rw [hl]
        exact List.mem_append_right l₁ List.mem_cons_self
      exact hall (c, letter) hmem s
  | none =>
      by_cases hc : c.toNat < 0x20
      · simp only [if_pos hc, List.cons_append]
        exact longEscape_hexDigits hc s
      · have hne : c ≠ '\\' := by
          rintro rfl
          cases hshort
        simp only [if_neg hc, List.cons_append, List.nil_append, readChar, if_pos hne]

theorem unambiguous_escapeChar : Unambiguous escapeChar :=
  Unambiguous.of_read readChar_escapeChar

/-- The closing quote starts no escape. -/
theorem escapeChar_head (c : Char) : ∃ b rest, escapeChar c = b :: rest ∧ b ≠ '"' := by
  unfold escapeChar
  cases hshort : shortEscapes.lookup c with
  | some letter => exact ⟨_, _, rfl, by decide⟩
  | none =>
      by_cases hc : c.toNat < 0x20
      · exact ⟨_, _, if_pos hc, by decide⟩
      · refine ⟨c, [], if_neg hc, ?_⟩
        rintro rfl
        cases hshort

theorem unambiguous_writeString : Unambiguous writeString := by
  have hbody := (unambiguous_escapeChar.terminated escapeChar_head).literal ['"']
  exact hbody.comp (fun s t h => String.toList_inj.mp h)

/-! ## Values -/

namespace Value

/-- The first letter of a value tells its kind. -/
inductive Kind
  | null
  | true
  | false
  | string
  | array
  | object
  deriving DecidableEq

def Kind.letter : Kind → Char
  | .null => 'n'
  | .true => 't'
  | .false => 'f'
  | .string => '"'
  | .array => '['
  | .object => '\x7b'

theorem Kind.letter_injective : Function.Injective Kind.letter := by
  intro k k' h
  cases k <;> cases k' <;> first | rfl | cases h

def kind : Value → Kind
  | .bool true => .true
  | .bool false => .false
  | .string _ => .string
  | .array _ => .array
  | .object _ => .object
  | _ => .null

theorem write_head {v : Value} (h : v.NumberFree) : ∃ rest, v.write = v.kind.letter :: rest := by
  cases v with
  | null => exact ⟨_, rfl⟩
  | bool b => cases b <;> exact ⟨_, rfl⟩
  | number n => cases h
  | float literal => cases h
  | string s => exact ⟨_, rfl⟩
  | array items => exact ⟨_, rfl⟩
  | object fields => exact ⟨_, rfl⟩

theorem kind_eq_of_write {v w : Value} (hv : v.NumberFree) (hw : w.NumberFree) {s t : List Char}
    (h : v.write ++ s = w.write ++ t) : v.kind = w.kind := by
  obtain ⟨rest, hvrest⟩ := write_head hv
  obtain ⟨rest', hwrest⟩ := write_head hw
  rw [hvrest, hwrest] at h
  exact Kind.letter_injective (List.cons.inj h).1

theorem separator_cancel {first : Bool} {x y : List Char}
    (h : (if first then [] else [',']) ++ x = (if first then [] else [',']) ++ y) : x = y :=
  List.append_cancel_left h

/-- No item starts with the closing bracket, and no field with the closing brace. -/
theorem closed_ne_item {v : Value} (hv : v.NumberFree) {first : Bool} {items : List Value}
    {s t : List Char} : writeItems first [] ++ s ≠ writeItems first (v :: items) ++ t := by
  intro h
  obtain ⟨rest, hrest⟩ := write_head hv
  have hletter : v.kind.letter ≠ ']' := by cases v.kind <;> decide
  cases first with
  | true =>
      simp only [writeItems, hrest, if_true, List.nil_append, List.cons_append] at h
      exact hletter (List.cons.inj h).1.symm
  | false => cases (List.cons.inj h).1

theorem closed_ne_field {field : String × Value} {first : Bool} {fields : List (String × Value)}
    {s t : List Char} : writeFields first [] ++ s ≠ writeFields first (field :: fields) ++ t := by
  intro h
  cases first <;> cases (List.cons.inj h).1

mutual

theorem write_unambiguous (v w : Value) (s t : List Char) (hv : v.NumberFree) (hw : w.NumberFree)
    (h : v.write ++ s = w.write ++ t) : v = w ∧ s = t := by
  have hkind := kind_eq_of_write hv hw h
  match v, w with
  | .null, .null => exact ⟨rfl, List.append_cancel_left h⟩
  | .bool true, .bool true => exact ⟨rfl, List.append_cancel_left h⟩
  | .bool false, .bool false => exact ⟨rfl, List.append_cancel_left h⟩
  | .string x, .string y =>
      obtain ⟨rfl, hst⟩ := unambiguous_writeString h
      exact ⟨rfl, hst⟩
  | .array items, .array others =>
      obtain ⟨rfl, hst⟩ :=
        writeItems_unambiguous true items others s t hv hw (List.cons.inj h).2
      exact ⟨rfl, hst⟩
  | .object fields, .object others =>
      obtain ⟨rfl, hst⟩ :=
        writeFields_unambiguous true fields others s t hv hw (List.cons.inj h).2
      exact ⟨rfl, hst⟩

theorem writeItems_unambiguous (first : Bool) (items others : List Value) (s t : List Char)
    (hi : NumberFreeItems items) (ho : NumberFreeItems others)
    (h : writeItems first items ++ s = writeItems first others ++ t) : items = others ∧ s = t := by
  match items, others with
  | [], [] => exact ⟨rfl, (List.cons.inj h).2⟩
  | [], w :: others => exact absurd h (closed_ne_item ho.1)
  | v :: items, [] => exact absurd h.symm (closed_ne_item hi.1)
  | v :: items, w :: others =>
      simp only [writeItems, List.append_assoc] at h
      obtain ⟨rfl, hrest⟩ := write_unambiguous v w _ _ hi.1 ho.1 (separator_cancel h)
      obtain ⟨rfl, hst⟩ := writeItems_unambiguous false items others s t hi.2 ho.2 hrest
      exact ⟨rfl, hst⟩

theorem writeFields_unambiguous (first : Bool) (fields others : List (String × Value))
    (s t : List Char) (hf : NumberFreeFields fields) (ho : NumberFreeFields others)
    (h : writeFields first fields ++ s = writeFields first others ++ t) :
    fields = others ∧ s = t := by
  match fields, others with
  | [], [] => exact ⟨rfl, (List.cons.inj h).2⟩
  | [], w :: others => exact absurd h closed_ne_field
  | v :: fields, [] => exact absurd h.symm closed_ne_field
  | (name, v) :: fields, (name', w) :: others =>
      simp only [writeFields, List.append_assoc, List.cons_append] at h
      obtain ⟨rfl, hvalue⟩ := unambiguous_writeString (separator_cancel h)
      obtain ⟨rfl, hrest⟩ := write_unambiguous v w _ _ hf.1 ho.1 (List.cons.inj hvalue).2
      obtain ⟨rfl, hst⟩ := writeFields_unambiguous false fields others s t hf.2 ho.2 hrest
      exact ⟨rfl, hst⟩

end
end Value
end Dandori
