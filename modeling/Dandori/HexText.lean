import Dandori.Codec
import Dandori.PrefixCode

/-!
# Hexadecimal texts

Numbers in a fixed number of lower-case hexadecimal digits, bytes as two digits each, and identifiers in
their hyphenated form.
-/

namespace Dandori

def hexDigit (n : ℕ) : Char := if n < 10 then Char.ofNat (48 + n) else Char.ofNat (87 + n)

def hexValue (c : Char) : ℕ := if c.toNat < 58 then c.toNat - 48 else c.toNat - 87

/-- The last `k` digits of `n`. -/
def hexDigits : ℕ → ℕ → List Char
  | 0, _ => []
  | k + 1, n => hexDigits k (n / 16) ++ [hexDigit (n % 16)]

def readHex (digits : List Char) : ℕ := digits.foldl (fun n c => n * 16 + hexValue c) 0

theorem hexValue_hexDigit : ∀ n < 16, hexValue (hexDigit n) = n := by decide

theorem length_hexDigits (k n : ℕ) : (hexDigits k n).length = k := by
  induction k generalizing n with
  | zero => rfl
  | succ k ih => rw [hexDigits, List.length_append, ih, List.length_singleton]

theorem readHex_hexDigits (k n : ℕ) : readHex (hexDigits k n) = n % 16 ^ k := by
  induction k generalizing n with
  | zero => simp [hexDigits, readHex, Nat.mod_one]
  | succ k ih =>
      have hread : readHex (hexDigits (k + 1) n) =
          readHex (hexDigits k (n / 16)) * 16 + hexValue (hexDigit (n % 16)) := by
        rw [hexDigits, readHex, List.foldl_append]
        rfl
      have hsplit : n % 16 ^ (k + 1) = n % 16 + 16 * (n / 16 % 16 ^ k) := by
        rw [Nat.pow_succ, Nat.mul_comm, Nat.mod_mul]
      rw [hread, ih, hexValue_hexDigit _ (Nat.mod_lt _ (by decide)), hsplit]
      omega

theorem mem_hexDigits {k n : ℕ} {c : Char} (h : c ∈ hexDigits k n) : ∃ d < 16, c = hexDigit d := by
  induction k generalizing n with
  | zero => cases h
  | succ k ih =>
      rcases List.mem_append.mp h with h | h
      · exact ih h
      · exact ⟨n % 16, Nat.mod_lt _ (by decide), List.mem_singleton.mp h⟩

/-- `hex::encode`. -/
def hexEncode (bytes : List UInt8) : List Char := bytes.flatMap (fun b => hexDigits 2 b.toNat)

theorem length_hexEncode (bytes : List UInt8) : (hexEncode bytes).length = 2 * bytes.length := by
  induction bytes with
  | nil => rfl
  | cons b bytes ih =>
      rw [hexEncode, List.flatMap_cons, List.length_append, length_hexDigits, List.length_cons]
      rw [hexEncode] at ih
      omega

theorem unambiguous_hexByte : Unambiguous (fun b : UInt8 => hexDigits 2 b.toNat) := by
  refine .of_length (fun b => length_hexDigits 2 b.toNat) (fun a b h => ?_)
  have hread : a.toNat % 16 ^ 2 = b.toNat % 16 ^ 2 := by
    rw [← readHex_hexDigits, ← readHex_hexDigits]
    exact congrArg readHex h
  have ha := a.toNat_lt
  have hb := b.toNat_lt
  exact UInt8.toNat_inj.mp (by omega)

theorem hexEncode_injective : Function.Injective hexEncode := by
  refine unambiguous_hexByte.flatMap_injective (fun b h => ?_)
  have hlength := length_hexDigits 2 b.toNat
  rw [h] at hlength
  cases hlength

/-! ## Hyphenated identifiers -/

namespace Uuid

/-- `Uuid`'s `Display`: groups of 8, 4, 4, 4 and 12 digits. -/
def hyphenated (u : Uuid) : String :=
  let digits := hexDigits 32 u.val
  String.ofList (digits.take 8 ++ '-' :: ((digits.drop 8).take 4 ++ '-' :: ((digits.drop 12).take 4 ++
    '-' :: ((digits.drop 16).take 4 ++ '-' :: digits.drop 20))))

def parseHyphenated (s : String) : Option Uuid :=
  let n := readHex (s.toList.filter (· ≠ '-'))
  if h : n < 2 ^ 128 then some ⟨n, h⟩ else none

theorem filter_hyphenated (u : Uuid) :
    (hyphenated u).toList.filter (· ≠ '-') = hexDigits 32 u.val := by
  have hdigit : ∀ d < 16, hexDigit d ≠ '-' := by decide
  have hkeep (l : List Char) (hl : ∀ c ∈ l, c ∈ hexDigits 32 u.val) : l.filter (· ≠ '-') = l := by
    refine List.filter_eq_self.mpr (fun c hc => decide_eq_true ?_)
    obtain ⟨d, hd, rfl⟩ := mem_hexDigits (hl c hc)
    exact hdigit d hd
  have hdrop (n : ℕ) {c : Char} (h : c ∈ (hexDigits 32 u.val).drop n) : c ∈ hexDigits 32 u.val :=
    List.mem_of_mem_drop h
  simp only [hyphenated, String.toList_ofList, List.filter_append, List.filter_cons,
    ne_eq, not_true_eq_false, decide_false, Bool.false_eq_true, if_false]
  rw [hkeep _ (fun c hc => List.mem_of_mem_take hc),
    hkeep _ (fun c hc => hdrop 8 (List.mem_of_mem_take hc)),
    hkeep _ (fun c hc => hdrop 12 (List.mem_of_mem_take hc)),
    hkeep _ (fun c hc => hdrop 16 (List.mem_of_mem_take hc)), hkeep _ (fun c hc => hdrop 20 hc)]
  have hsplit (k n : ℕ) : ((hexDigits 32 u.val).drop k).take n ++ (hexDigits 32 u.val).drop (k + n) =
      (hexDigits 32 u.val).drop k := by
    rw [← List.drop_drop, List.take_append_drop]
  rw [hsplit 16 4, hsplit 12 4, hsplit 8 4, List.take_append_drop]

theorem parseHyphenated_hyphenated (u : Uuid) : parseHyphenated (hyphenated u) = some u := by
  have hread : readHex ((hyphenated u).toList.filter (· ≠ '-')) = u.val := by
    rw [filter_hyphenated, readHex_hexDigits]
    exact Nat.mod_eq_of_lt (by have := u.isLt; omega)
  simp only [parseHyphenated, hread]
  exact dif_pos u.isLt

theorem mem_hyphenated {u : Uuid} {c : Char} (h : c ∈ (hyphenated u).toList) :
    c = '-' ∨ ∃ d < 16, c = hexDigit d := by
  by_cases hc : c = '-'
  · exact Or.inl hc
  · have hmem : c ∈ (hyphenated u).toList.filter (· ≠ '-') :=
      List.mem_filter.mpr ⟨h, decide_eq_true hc⟩
    rw [filter_hyphenated] at hmem
    exact Or.inr (mem_hexDigits hmem)

end Uuid

/-- Hyphenated identifiers; times and digests as in the unary codec. -/
def Codec.hyphenated : Codec :=
  { Codec.unary with
    uuidText := Uuid.hyphenated
    parseUuid := Uuid.parseHyphenated
    parseUuid_uuidText := Uuid.parseHyphenated_hyphenated }

end Dandori
