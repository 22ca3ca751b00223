import Dandori.IssueRepository
import Dandori.WorkspaceRepository

/-!
# Limits in bytes and in characters

The validators of the create commands measure strings in bytes, the columns in characters. A text has
at least as many bytes as characters, and as many exactly when it is ASCII, as idempotency keys are. So
what a validator accepts fits its columns, and it refuses a text that fits them exactly when the text
has too many bytes.
-/

namespace Dandori

/-! ## Bytes of a text -/

theorem utf8ByteSize_eq_utf8Len (s : String) : s.utf8ByteSize = String.utf8Len s.toList := by
  rw [← String.utf8ByteSize_ofList, String.ofList_toList]

theorem length_le_utf8Len (l : List Char) : l.length ≤ String.utf8Len l := by
  induction l with
  | nil => exact Nat.le_refl 0
  | cons c l ih =>
      have hc := c.utf8Size_pos
      rw [List.length_cons, String.utf8Len_cons]
      omega

theorem length_le_utf8ByteSize (s : String) : s.length ≤ s.utf8ByteSize := by
  rw [utf8ByteSize_eq_utf8Len, ← String.length_toList]
  exact length_le_utf8Len s.toList

def Ascii (s : String) : Prop := ∀ c ∈ s.toList, c.toNat ≤ 127

theorem utf8Len_of_ascii {l : List Char} (h : ∀ c ∈ l, c.toNat ≤ 127) :
    String.utf8Len l = l.length := by
  induction l with
  | nil => rfl
  | cons c l ih =>
      have hc : c.utf8Size = 1 := Char.utf8Size_eq_one_iff.mpr (h c List.mem_cons_self)
      have hl := ih (fun d hd => h d (List.mem_cons_of_mem c hd))
      rw [String.utf8Len_cons, List.length_cons, hl, hc]

theorem utf8ByteSize_of_ascii {s : String} (h : Ascii s) : s.utf8ByteSize = s.length := by
  rw [utf8ByteSize_eq_utf8Len, utf8Len_of_ascii h, String.length_toList]

/-- A blank text needs no character, any other at least one. -/
theorem charLengthBetween_of_nonblank {s : String} (h : trimIsEmpty s = false) (n : ℕ) :
    charLengthBetween 1 n s = decide (s.length ≤ n) := by
  have hpos : 1 ≤ s.length := by
    cases hl : s.toList with
    | nil =>
        rw [trimIsEmpty, hl] at h
        cases h
    | cons c l =>
        rw [← String.length_toList, hl, List.length_cons]
        omega
  simp only [charLengthBetween, hpos, decide_true, Bool.true_and]

theorem IdempotencyKey.ascii_and_length (key : IdempotencyKey) :
    Ascii key.value ∧ key.value.utf8ByteSize ≤ 128 := by
  have hvalid := key.valid
  unfold IdempotencyKey.validate at hvalid
  by_cases hsize : key.value.utf8ByteSize < minLen ∨ maxLen < key.value.utf8ByteSize
  · rw [if_pos hsize] at hvalid
    cases hvalid
  · rw [if_neg hsize] at hvalid
    refine ⟨fun c hc => ?_, Nat.le_of_not_lt (not_or.mp hsize).2⟩
    by_cases hchars : key.value.toList.all
        (fun c => isAsciiGraphic c || c == ' ' || c == '-' || c == '_') = true
    · have hone := List.all_eq_true.mp hchars c hc
      simp only [isAsciiGraphic, Bool.or_eq_true, Bool.and_eq_true, decide_eq_true_eq,
        beq_iff_eq] at hone
      rcases hone with ((⟨_, hle⟩ | rfl) | rfl) | rfl
      · omega
      · decide
      · decide
      · decide
    · rw [if_neg hchars] at hvalid
      cases hvalid

/-! ## Commands -/

theorem ite_error_eq_ok {ε : Type} {p : Prop} [Decidable p] {e : ε} {x : Except ε Unit} :
    (if p then .error e else x) = .ok () ↔ ¬p ∧ x = .ok () := by
  by_cases hp : p
  · rw [if_pos hp]
    constructor
    · intro h
      cases h
    · intro h
      exact absurd hp h.1
  · rw [if_neg hp]
    exact ⟨fun h => ⟨hp, h⟩, fun h => h.2⟩

theorem ite_error_eq_error {ε : Type} {p : Prop} [Decidable p] {e e' : ε} {x : Except ε Unit} :
    (if p then .error e else x) = .error e' ↔ (p ∧ e = e') ∨ (¬p ∧ x = .error e') := by
  by_cases hp : p
  · rw [if_pos hp]
    simp only [hp, Except.error.injEq, true_and, not_true_eq_false, false_and, or_false]
  · rw [if_neg hp]
    simp only [hp, false_and, not_false_eq_true, true_and, false_or]

theorem validateName_eq_ok {name code message code' message' : String} :
    validateName name code message code' message' = .ok () ↔
      trimIsEmpty name = false ∧ name.utf8ByteSize ≤ 200 := by
  simp only [validateName, ite_error_eq_ok, Bool.not_eq_true, Nat.not_lt, and_true]
  rw [CreateIssueCommandV1.maxNameLength]

namespace CreateIssueCommandV1

def RequiredNonBlank (command : CreateIssueCommandV1) : Prop :=
  trimIsEmpty command.title = false ∧ trimIsEmpty command.idempotencyKey.value = false ∧
    trimIsEmpty command.requestFingerprint = false

/-- The CHECK constraints of the columns that hold the strings of the command. -/
def columns (command : CreateIssueCommandV1) : Bool :=
  (charLengthBetween 1 200 command.title && command.description.all (fun d => d.length ≤ 4000)) &&
    (charLengthBetween 1 128 command.idempotencyKey.value &&
      charLengthBetween 1 128 command.requestFingerprint)

/-- The strings with the limits of the validator. -/
def BytesFit (command : CreateIssueCommandV1) : Prop :=
  command.title.utf8ByteSize ≤ 200 ∧ command.requestFingerprint.utf8ByteSize ≤ 128 ∧
    command.description.all (fun d => d.utf8ByteSize ≤ 4000) = true

def AgreesWithColumns (command : CreateIssueCommandV1) : Prop :=
  command.validate = .ok () ↔ command.RequiredNonBlank ∧ command.columns = true

theorem columns_eq_checks (call : IssueRepository.CreateIssueCall) :
    call.command.columns =
      ((IssueRepository.issueRow call).check && (IssueRepository.reservationRow call).check) := by
  have hname : charLengthBetween 1 128 CommandName.issueCreateV1.asStr = true := by decide
  simp only [columns, IssueRow.check, IdempotencyRow.check, IssueRepository.issueRow,
    IssueRepository.reservationRow, hname, Bool.true_and]

theorem validate_eq_ok (command : CreateIssueCommandV1) :
    command.validate = .ok () ↔ command.RequiredNonBlank ∧ command.BytesFit := by
  have hkey := command.idempotencyKey.ascii_and_length.2
  have hdescription : (¬command.description.any
        (fun d => maxIssueDescriptionLength < d.utf8ByteSize) = true) ↔
      command.description.all (fun d => d.utf8ByteSize ≤ 4000) = true := by
    cases command.description with
    | none => simp
    | some d =>
        simp only [Option.any_some, Option.all_some, decide_eq_true_eq, Nat.not_lt]
        rw [maxIssueDescriptionLength]
  simp only [validate, ite_error_eq_ok, hdescription]
  simp only [maxNameLength, maxIdempotencyKeyLength, maxRequestFingerprintLength, Bool.not_eq_true,
    Nat.not_lt, and_true, RequiredNonBlank, BytesFit, hkey, true_and]
  constructor
  · intro ⟨htitle, htitleFit, hkeyBlank, hfingerprint, hfingerprintFit, hdescriptionFit⟩
    exact ⟨⟨htitle, hkeyBlank, hfingerprint⟩, htitleFit, hfingerprintFit, hdescriptionFit⟩
  · intro ⟨⟨htitle, hkeyBlank, hfingerprint⟩, htitleFit, hfingerprintFit, hdescriptionFit⟩
    exact ⟨htitle, htitleFit, hkeyBlank, hfingerprint, hfingerprintFit, hdescriptionFit⟩

/-- What the validator accepts fits its columns. -/
theorem columns_of_bytesFit {command : CreateIssueCommandV1} (hblank : command.RequiredNonBlank)
    (hfit : command.BytesFit) : command.columns = true := by
  obtain ⟨htitle, hkey, hfingerprint⟩ := hblank
  obtain ⟨htitleFit, hfingerprintFit, hdescriptionFit⟩ := hfit
  have hlength {s : String} {n : ℕ} (h : s.utf8ByteSize ≤ n) : s.length ≤ n :=
    Nat.le_trans (length_le_utf8ByteSize s) h
  have hdescription : command.description.all (fun d => d.length ≤ 4000) = true := by
    cases hd : command.description with
    | none => rfl
    | some d =>
        rw [hd] at hdescriptionFit
        exact decide_eq_true (hlength (of_decide_eq_true hdescriptionFit))
  have hkeyFit := command.idempotencyKey.ascii_and_length.2
  simp only [columns, charLengthBetween_of_nonblank htitle, charLengthBetween_of_nonblank hkey,
    charLengthBetween_of_nonblank hfingerprint, hdescription, hlength htitleFit, hlength hkeyFit,
    hlength hfingerprintFit, decide_true, Bool.and_self]

theorem agreesWithColumns_iff (command : CreateIssueCommandV1) :
    command.AgreesWithColumns ↔
      (command.RequiredNonBlank → command.columns = true → command.BytesFit) := by
  rw [AgreesWithColumns, validate_eq_ok]
  constructor
  · intro h hblank hcolumns
    exact (h.mpr ⟨hblank, hcolumns⟩).2
  · intro h
    exact ⟨fun ⟨hblank, hfit⟩ => ⟨hblank, columns_of_bytesFit hblank hfit⟩,
      fun ⟨hblank, hcolumns⟩ => ⟨hblank, h hblank hcolumns⟩⟩

end CreateIssueCommandV1

/-- A name and its column; `validate` is the outcome of a validator of this name. -/
def NameAgreesWithColumn (name : String) (validate : Except DomainError Unit) : Prop :=
  validate = .ok () ↔ trimIsEmpty name = false ∧ charLengthBetween 1 200 name = true

theorem nameAgreesWithColumn_iff (name code message code' message' : String) :
    NameAgreesWithColumn name (validateName name code message code' message') ↔
      (trimIsEmpty name = false → name.length ≤ 200 → name.utf8ByteSize ≤ 200) := by
  rw [NameAgreesWithColumn, validateName_eq_ok]
  have hlength := length_le_utf8ByteSize name
  constructor
  · intro h hblank hchars
    rw [charLengthBetween_of_nonblank hblank] at h
    exact (h.mpr ⟨hblank, decide_eq_true hchars⟩).2
  · intro h
    constructor
    · intro ⟨hblank, hbytes⟩
      rw [charLengthBetween_of_nonblank hblank]
      exact ⟨hblank, decide_eq_true (Nat.le_trans hlength hbytes)⟩
    · intro ⟨hblank, hchars⟩
      rw [charLengthBetween_of_nonblank hblank] at hchars
      exact ⟨hblank, h hblank (of_decide_eq_true hchars)⟩

def CreateWorkspaceCommandV1.AgreesWithColumns (command : CreateWorkspaceCommandV1) : Prop :=
  NameAgreesWithColumn command.name command.validate

def CreateProjectCommandV1.AgreesWithColumns (command : CreateProjectCommandV1) : Prop :=
  NameAgreesWithColumn command.name command.validate

/-- Each validator agrees with the columns on a command exactly when no string that fits its column in
characters is over the limit in bytes. -/
theorem validators_agree_iff (issue : CreateIssueCommandV1) (project : CreateProjectCommandV1)
    (workspace : CreateWorkspaceCommandV1) :
    (issue.AgreesWithColumns ↔
      (issue.RequiredNonBlank → issue.columns = true → issue.BytesFit)) ∧
    (project.AgreesWithColumns ↔ (trimIsEmpty project.name = false → project.name.length ≤ 200 →
      project.name.utf8ByteSize ≤ 200)) ∧
    (workspace.AgreesWithColumns ↔ (trimIsEmpty workspace.name = false →
      workspace.name.length ≤ 200 → workspace.name.utf8ByteSize ≤ 200)) :=
  ⟨issue.agreesWithColumns_iff, nameAgreesWithColumn_iff _ _ _ _ _, nameAgreesWithColumn_iff _ _ _ _ _⟩

/-- A text of 101 characters and 202 bytes. -/
def accentedText : String := String.ofList (List.replicate 101 'é')

theorem utf8Len_replicate (n : ℕ) (c : Char) :
    String.utf8Len (List.replicate n c) = n * c.utf8Size := by
  induction n with
  | zero => exact (Nat.zero_mul _).symm
  | succ n ih => rw [List.replicate_succ, String.utf8Len_cons, ih, Nat.succ_mul]

theorem replicate_sizes (n : ℕ) (c : Char) :
    (String.ofList (List.replicate n c)).length = n ∧
      (String.ofList (List.replicate n c)).utf8ByteSize = n * c.utf8Size := by
  rw [String.length_ofList, List.length_replicate, String.utf8ByteSize_ofList, utf8Len_replicate]
  exact ⟨rfl, rfl⟩

theorem accentedText_sizes : trimIsEmpty accentedText = false ∧ accentedText.length = 101 ∧
    accentedText.utf8ByteSize = 202 := by
  have hsizes := replicate_sizes 101 'é'
  have hblank : (List.replicate 101 'é').all isWhitespace = false := by decide
  refine ⟨?_, hsizes.1, hsizes.2⟩
  rw [← hblank]
  exact congrArg (fun l => List.all l isWhitespace) String.toList_ofList

theorem accentedText_not_agrees :
    ¬(CreateWorkspaceCommandV1.mk 1 2 accentedText 3).AgreesWithColumns ∧
    ¬(CreateProjectCommandV1.mk 1 2 3 4 accentedText 5).AgreesWithColumns ∧
    ¬(CreateIssueCommandV1.mk 1 ⟨"key", rfl⟩ "v2:0" 2 3 4 none accentedText none .medium
      5).AgreesWithColumns := by
  obtain ⟨hblank, hlength, hbytes⟩ := accentedText_sizes
  have hshort : accentedText.length ≤ 200 := by omega
  have hcolumn : charLengthBetween 1 200 accentedText = true := by
    rw [charLengthBetween_of_nonblank hblank]
    exact decide_eq_true hshort
  refine ⟨fun h => ?_, fun h => ?_, fun h => ?_⟩
  · have hfit := (nameAgreesWithColumn_iff accentedText _ _ _ _).mp h hblank hshort
    omega
  · have hfit := (nameAgreesWithColumn_iff accentedText _ _ _ _).mp h hblank hshort
    omega
  · have hkey : charLengthBetween 1 128 "key" = true ∧ charLengthBetween 1 128 "v2:0" = true := by
      decide
    have hfit := (CreateIssueCommandV1.agreesWithColumns_iff _).mp h ⟨hblank, by decide, by decide⟩ (by
      simp only [CreateIssueCommandV1.columns, hcolumn, hkey, Option.all_none, Bool.and_self])
    have htitle : accentedText.utf8ByteSize ≤ 200 := hfit.1
    omega

end Dandori
