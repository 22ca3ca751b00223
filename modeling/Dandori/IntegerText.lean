import Mathlib.Order.Basic
import Mathlib.Algebra.Order.Ring.Int
import Mathlib.Tactic.Ring

/-!
# Integers of a machine type in text

A reader goes through the digits from the left and keeps the value in the range of its type at every
step; it stops at the first character that is no digit and at the first value that does not fit. It
accepts exactly the texts with a number in the range, and every number is read back from its own text.
-/

namespace Dandori

/-- The least and the greatest value of a type. -/
structure IntType where
  min : Int
  max : Int
  zero_mem : min ≤ 0 ∧ 0 ≤ max

inductive IntErrorKind
  | empty
  | invalidDigit
  | posOverflow
  | negOverflow
  deriving DecidableEq

def IntErrorKind.message : IntErrorKind → String
  | .empty => "cannot parse integer from empty string"
  | .invalidDigit => "invalid digit found in string"
  | .posOverflow => "number too large to fit in target type"
  | .negOverflow => "number too small to fit in target type"

def toDigit (c : Char) : Option ℕ := if c.isDigit then some (c.toNat - '0'.toNat) else none

theorem toDigit_of_isDigit {c : Char} (h : c.isDigit = true) :
    toDigit c = some (c.toNat - '0'.toNat) := if_pos h

theorem toDigit_eq_some {c : Char} {d : ℕ} (h : toDigit c = some d) :
    c.isDigit = true ∧ d = c.toNat - '0'.toNat := by
  obtain ⟨hdigit, hd⟩ := Option.ite_none_right_eq_some.mp h
  exact ⟨hdigit, (Option.some.inj hd).symm⟩

namespace IntType

variable (ty : IntType)

def Fits (n : Int) : Prop := ty.min ≤ n ∧ n ≤ ty.max

instance (n : Int) : Decidable (ty.Fits n) := inferInstanceAs (Decidable (_ ∧ _))

def overflow (negative : Bool) : IntErrorKind := if negative then .negOverflow else .posOverflow

/-- The value with one more digit behind it. -/
def shifted (negative : Bool) (n : Int) (d : ℕ) : Int := if negative then 10 * n - d else 10 * n + d

/-- A checked multiplication and a checked addition for each digit. -/
def readDigits (negative : Bool) : Int → List Char → Except IntErrorKind Int
  | n, [] => .ok n
  | n, c :: cs =>
      match toDigit c with
      | none => .error .invalidDigit
      | some d =>
          if ty.Fits (10 * n) then
            if ty.Fits (shifted negative n d) then readDigits negative (shifted negative n d) cs
            else .error (overflow negative)
          else .error (overflow negative)

/-- An optional sign and at least one digit; the minus sign is for signed types only. -/
def parse (text : String) : Except IntErrorKind Int :=
  match text.toList with
  | [] => .error .empty
  | c :: cs =>
      if (c = '+' ∨ c = '-') ∧ cs.isEmpty then .error .invalidDigit
      else if c = '+' then ty.readDigits false 0 cs
      else if c = '-' ∧ ty.min < 0 then ty.readDigits true 0 cs
      else ty.readDigits false 0 (c :: cs)

/-! ## What is accepted -/

def signed (negative : Bool) (k : ℕ) : Int := if negative then -k else k

/-- A text of digits, with a sign the type allows, stands for a number. -/
def Writes (text : String) (n : Int) : Prop :=
  ∃ negative ds, ds ≠ [] ∧ (∀ c ∈ ds, c.isDigit = true) ∧
    n = signed negative (Nat.ofDigitChars 10 ds 0) ∧
    (text.toList = ds ∧ negative = false ∨ text.toList = '+' :: ds ∧ negative = false ∨
      text.toList = '-' :: ds ∧ negative = true ∧ ty.min < 0)

variable {ty} {negative : Bool} {n m : Int} {j k d : ℕ} {cs : List Char} {text : String}

theorem shifted_signed : shifted negative (signed negative k) d = signed negative (10 * k + d) := by
  cases negative with
  | false =>
      simp only [shifted, signed, Bool.false_eq_true, if_false]
      push_cast
      rfl
  | true =>
      simp only [shifted, signed, if_true]
      push_cast
      ring

theorem Fits.signed_mono (hjk : j ≤ k) (h : ty.Fits (signed negative k)) :
    ty.Fits (signed negative j) := by
  have hzero := ty.zero_mem
  unfold Fits at h ⊢
  cases negative with
  | false =>
      simp only [signed, Bool.false_eq_true, if_false] at h ⊢
      omega
  | true =>
      simp only [signed, if_true] at h ⊢
      omega

theorem le_ofDigitChars (k : ℕ) (cs : List Char) : k ≤ Nat.ofDigitChars 10 cs k := by
  induction cs generalizing k with
  | nil => simp
  | cons c cs ih =>
      rw [Nat.ofDigitChars_cons]
      have hrest := ih (10 * k + (c.toNat - '0'.toNat))
      omega

/-- From a value in range, the reader accepts what ends in the range. -/
theorem readDigits_eq_ok_iff (hk : ty.Fits (signed negative k)) :
    ty.readDigits negative (signed negative k) cs = .ok m ↔ (∀ c ∈ cs, c.isDigit = true) ∧
      m = signed negative (Nat.ofDigitChars 10 cs k) ∧ ty.Fits m := by
  induction cs generalizing k with
  | nil =>
      simp only [readDigits, Except.ok.injEq, Nat.ofDigitChars_nil]
      constructor
      · rintro rfl
        exact ⟨by simp, rfl, hk⟩
      · exact fun h => h.2.1.symm
  | cons c cs ih =>
      rw [readDigits, Nat.ofDigitChars_cons]
      cases hd : toDigit c with
      | none =>
          refine iff_of_false (by simp) (fun h => ?_)
          rw [toDigit_of_isDigit (h.1 c List.mem_cons_self)] at hd
          cases hd
      | some d =>
          obtain ⟨hdigit, rfl⟩ := toDigit_eq_some hd
          have hscaled : (10 : Int) * signed negative k = signed negative (10 * k) := by
            cases negative <;> simp [signed]
          simp only [hscaled, shifted_signed]
          have hstep : 10 * k ≤ 10 * k + (c.toNat - '0'.toNat) := Nat.le_add_right _ _
          by_cases hfits : ty.Fits (signed negative (10 * k + (c.toNat - '0'.toNat)))
          · rw [if_pos (hfits.signed_mono hstep), if_pos hfits, ih hfits]
            simp [hdigit]
          · have herror : (if ty.Fits (signed negative (10 * k)) then
                if ty.Fits (signed negative (10 * k + (c.toNat - '0'.toNat))) then
                  ty.readDigits negative (signed negative (10 * k + (c.toNat - '0'.toNat))) cs
                else .error (overflow negative)
              else .error (overflow negative)) = .error (overflow negative) := by
              rw [if_neg hfits, ite_self]
            rw [herror]
            refine iff_of_false (by simp) ?_
            rintro ⟨_, rfl, hm⟩
            exact hfits (hm.signed_mono (le_ofDigitChars _ cs))

theorem readDigits_zero (negative : Bool) : ty.readDigits negative 0 cs = .ok n ↔
    (∀ c ∈ cs, c.isDigit = true) ∧ n = signed negative (Nat.ofDigitChars 10 cs 0) ∧ ty.Fits n := by
  have hzero : signed negative 0 = 0 := by cases negative <;> rfl
  have hfits : ty.Fits (signed negative 0) := by
    rw [hzero]
    exact ty.zero_mem
  rw [← hzero]
  exact readDigits_eq_ok_iff hfits

section Signs

variable {c : Char}

theorem writes_plus (htext : text.toList = '+' :: cs) : ty.Writes text n ↔
    cs ≠ [] ∧ (∀ c ∈ cs, c.isDigit = true) ∧ n = signed false (Nat.ofDigitChars 10 cs 0) := by
  unfold Writes
  rw [htext]
  constructor
  · rintro ⟨negative, ds, hne, hdigits, hn, ⟨rfl, _⟩ | ⟨h, rfl⟩ | ⟨h, _⟩⟩
    · exact absurd (hdigits '+' List.mem_cons_self) (by decide)
    · cases h
      exact ⟨hne, hdigits, hn⟩
    · exact absurd (List.cons.inj h).1 (by decide)
  · rintro ⟨hne, hdigits, hn⟩
    exact ⟨false, cs, hne, hdigits, hn, Or.inr (Or.inl ⟨rfl, rfl⟩)⟩

theorem writes_minus (htext : text.toList = '-' :: cs) : ty.Writes text n ↔
    cs ≠ [] ∧ (∀ c ∈ cs, c.isDigit = true) ∧ n = signed true (Nat.ofDigitChars 10 cs 0) ∧
      ty.min < 0 := by
  unfold Writes
  rw [htext]
  constructor
  · rintro ⟨negative, ds, hne, hdigits, hn, ⟨rfl, _⟩ | ⟨h, _⟩ | ⟨h, rfl, hmin⟩⟩
    · exact absurd (hdigits '-' List.mem_cons_self) (by decide)
    · exact absurd (List.cons.inj h).1 (by decide)
    · cases h
      exact ⟨hne, hdigits, hn, hmin⟩
  · rintro ⟨hne, hdigits, hn, hmin⟩
    exact ⟨true, cs, hne, hdigits, hn, Or.inr (Or.inr ⟨rfl, rfl, hmin⟩)⟩

theorem writes_unsigned (htext : text.toList = c :: cs) (hplus : c ≠ '+') (hminus : c ≠ '-') :
    ty.Writes text n ↔
      (∀ d ∈ c :: cs, d.isDigit = true) ∧ n = signed false (Nat.ofDigitChars 10 (c :: cs) 0) := by
  unfold Writes
  rw [htext]
  constructor
  · rintro ⟨negative, ds, _, hdigits, hn, ⟨rfl, rfl⟩ | ⟨h, _⟩ | ⟨h, _⟩⟩
    · exact ⟨hdigits, hn⟩
    · exact absurd (List.cons.inj h).1 hplus
    · exact absurd (List.cons.inj h).1 hminus
  · rintro ⟨hdigits, hn⟩
    exact ⟨false, c :: cs, List.cons_ne_nil c cs, hdigits, hn, Or.inl ⟨rfl, rfl⟩⟩

end Signs

/-- A text is read as a number exactly when it stands for it and the number is in the range. -/
theorem parse_eq_ok_iff : ty.parse text = .ok n ↔ ty.Writes text n ∧ ty.Fits n := by
  unfold parse
  cases htext : text.toList with
  | nil =>
      refine iff_of_false (by simp) ?_
      rintro ⟨⟨negative, ds, hne, _, _, ⟨h, _⟩ | ⟨h, _⟩ | ⟨h, _⟩⟩, _⟩
      · exact hne (h.symm.trans htext)
      · exact absurd (h.symm.trans htext) (by simp)
      · exact absurd (h.symm.trans htext) (by simp)
  | cons c cs =>
      simp only
      by_cases hplus : c = '+'
      · subst hplus
        rw [writes_plus htext]
        by_cases hcs : cs = []
        · subst hcs
          exact iff_of_false (by simp) (fun h => h.1.1 rfl)
        · rw [if_neg (by simpa using hcs), if_pos rfl, readDigits_zero, and_assoc, and_assoc]
          exact (and_iff_right hcs).symm
      · by_cases hminus : c = '-'
        · subst hminus
          rw [writes_minus htext]
          by_cases hcs : cs = []
          · subst hcs
            exact iff_of_false (by simp) (fun h => h.1.1 rfl)
          · rw [if_neg (by simpa using hcs), if_neg (by decide)]
            by_cases hmin : ty.min < 0
            · rw [if_pos ⟨rfl, hmin⟩, readDigits_zero]
              tauto
            · rw [if_neg (fun h => hmin h.2), readDigits_zero]
              refine iff_of_false (fun h => ?_) (fun h => hmin h.1.2.2.2)
              exact absurd (h.1 '-' List.mem_cons_self) (by decide)
        · rw [if_neg (fun h => h.1.elim hplus hminus), if_neg hplus, if_neg (fun h => hminus h.1),
            readDigits_zero, writes_unsigned htext hplus hminus, and_assoc]

/-- Every number of the type stands in its own text. -/
theorem writes_toString (h : ty.Fits n) : ty.Writes (toString n) n := by
  cases n with
  | ofNat k =>
      refine ⟨false, Nat.toDigits 10 k, Nat.toDigits_ne_nil, ?_, ?_, Or.inl ⟨?_, rfl⟩⟩
      · exact fun c hc => Nat.isDigit_of_mem_toDigits (by decide) (by decide) hc
      · rw [Nat.ofDigitChars_ten_toDigits]
        rfl
      · exact Nat.toList_repr
  | negSucc k =>
      refine ⟨true, Nat.toDigits 10 (k + 1), Nat.toDigits_ne_nil, ?_, ?_, Or.inr (Or.inr ⟨?_, rfl, ?_⟩)⟩
      · exact fun c hc => Nat.isDigit_of_mem_toDigits (by decide) (by decide) hc
      · rw [Nat.ofDigitChars_ten_toDigits]
        rfl
      · have htext : toString (Int.negSucc k) = "-" ++ (k + 1).repr := rfl
        rw [htext, String.toList_append, Nat.toList_repr]
        rfl
      · exact lt_of_le_of_lt h.1 (Int.negSucc_lt_zero k)

end IntType
end Dandori
