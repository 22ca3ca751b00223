import Dandori.HexText
import Dandori.IssueRepository

/-!
# Fingerprints of the first version

Records written before the versioned fingerprint hold the fields of the command in one text, joined by
their names. Identifiers and the priority can be read back from it. The title and the description
cannot: the name of the description may stand in either of them, and a missing description leaves the
same text as an empty one.
-/

namespace Dandori.IssueRepository

structure SamePayload (command other : CreateIssueCommandV1) : Prop where
  projectId : command.projectId = other.projectId
  milestoneId : command.milestoneId = other.milestoneId
  title : command.title = other.title
  description : command.description = other.description
  priority : command.priority = other.priority

/-- The text of a `uuid::Uuid`: lower-case hexadecimal digits and hyphens. -/
def HexUuidTexts (codec : Codec) : Prop :=
  ∀ u, ∀ c ∈ (codec.uuidText u).toList, c = '-' ∨ ∃ d < 16, c = hexDigit d

/-- Against a record with the old fingerprint of `other`, `command` only matches with the same payload
or with that fingerprint as its own; any other call fails and changes nothing. -/
structure ToldApart (codec : Codec) (command other : CreateIssueCommandV1) : Prop where
  matches_payload :
    matchesRequestFingerprint codec (legacyV1Fingerprint codec other) command = true →
      SamePayload command other ∨ legacyV1Fingerprint codec other = command.requestFingerprint
  conflict : ¬SamePayload command other →
    legacyV1Fingerprint codec other ≠ command.requestFingerprint →
    ∀ reservation, reservation.storedFingerprint = legacyV1Fingerprint codec other →
      branchOnStoredFingerprint codec command reservation = .error .idempotencyConflict
  call_fails : ¬SamePayload command other →
    legacyV1Fingerprint codec other ≠ command.requestFingerprint →
    ∀ call env db row, call.command = command →
      db.idempotencyRecords.find? (idempotencyRowKey command) = some row →
      row.requestFingerprint = legacyV1Fingerprint codec other →
      ∃ e, createIssueTransactional codec call env db = (.error e, db) ∧
        (e = .idempotencyConflict ∨ ∃ d, e = .sqlx d)

def descriptionText (command : CreateIssueCommandV1) : String := command.description.getD ""

def descriptionName : String := "|description="

/-- The title of `other` runs past the name of the description of `command`. -/
def TitleReachesPast (command other : CreateIssueCommandV1) : Prop :=
  ReachesPast descriptionName.toList command.title.toList (descriptionText command).toList
    other.title.toList (descriptionText other).toList

/-- Different payloads with one text: the descriptions are `None` and `Some("")`, or one title holds
the name of the description followed by a part of the other's description. -/
def Confusable (command other : CreateIssueCommandV1) : Prop :=
  command.projectId = other.projectId ∧ command.milestoneId = other.milestoneId ∧
    command.priority = other.priority ∧
    ((command.title = other.title ∧ command.description ≠ other.description ∧
        descriptionText command = descriptionText other) ∨
      TitleReachesPast command other ∨ TitleReachesPast other command)

section Texts

variable {codec : Codec}

theorem hexDigit_ne {c : Char} (hc : ∀ d < 16, hexDigit d ≠ c) (hdash : c ≠ '-')
    (htext : HexUuidTexts codec) (u : Uuid) : c ∉ (codec.uuidText u).toList := by
  intro hmem
  rcases htext u c hmem with h | ⟨d, hd, h⟩
  · exact hdash h
  · exact hc d hd h.symm

def milestoneText (codec : Codec) (milestoneId : Option Uuid) : String :=
  (milestoneId.map codec.uuidText).getD "null"

theorem bar_notMem_milestoneText (htext : HexUuidTexts codec) (m : Option Uuid) :
    '|' ∉ (milestoneText codec m).toList := by
  cases m with
  | none =>
      have hnull : '|' ∉ "null".toList := by decide
      exact hnull
  | some u => exact hexDigit_ne (by decide) (by decide) htext u

theorem milestoneText_injective (htext : HexUuidTexts codec) :
    Function.Injective (milestoneText codec) := by
  have hnull (u : Uuid) : codec.uuidText u ≠ "null" := by
    intro h
    have hn : 'n' ∉ (codec.uuidText u).toList := hexDigit_ne (by decide) (by decide) htext u
    rw [h] at hn
    exact hn (by decide)
  intro m m' h
  cases m with
  | none =>
      cases m' with
      | none => rfl
      | some u => exact absurd h.symm (hnull u)
  | some u =>
      cases m' with
      | none => exact absurd h (hnull u)
      | some v => rw [codec.uuidText_injective h]

/-- The four priorities end in four letters. -/
theorem append_priority_inj {x y : List Char} {p q : IssuePriority}
    (h : x ++ (priorityAsStr p).toList = y ++ (priorityAsStr q).toList) : p = q ∧ x = y := by
  have hlast (z : List Char) (r : IssuePriority) :
      (z ++ (priorityAsStr r).toList).getLast? = (priorityAsStr r).toList.getLast? := by
    rw [List.getLast?_append]
    cases r <;> rfl
  have hpq : (priorityAsStr p).toList.getLast? = (priorityAsStr q).toList.getLast? := by
    rw [← hlast x p, ← hlast y q, h]
  have heq : p = q := by
    revert hpq
    cases p <;> cases q <;> decide
  rw [heq] at h
  exact ⟨heq, List.append_cancel_right h⟩

/-- The title and the description as they stand in the fingerprint. -/
def bodyText (command : CreateIssueCommandV1) : List Char :=
  command.title.toList ++ descriptionName.toList ++ (descriptionText command).toList

theorem legacyV1Fingerprint_eq (command : CreateIssueCommandV1) :
    legacyV1Fingerprint codec command = "project_id=" ++ codec.uuidText command.projectId ++
      "|milestone_id=" ++ milestoneText codec command.milestoneId ++ "|title=" ++ command.title ++
      descriptionName ++ descriptionText command ++ "|priority=" ++
      priorityAsStr command.priority := rfl

theorem toList_legacyV1Fingerprint (command : CreateIssueCommandV1) :
    (legacyV1Fingerprint codec command).toList =
      "project_id=".toList ++ ((codec.uuidText command.projectId).toList ++ '|' ::
        ("milestone_id=".toList ++ ((milestoneText codec command.milestoneId).toList ++ '|' ::
          ("title=".toList ++ (bodyText command ++ "|priority=".toList ++
            (priorityAsStr command.priority).toList))))) := by
  have hmilestone (l : List Char) :
      "|milestone_id=".toList ++ l = '|' :: ("milestone_id=".toList ++ l) := rfl
  have htitle (l : List Char) : "|title=".toList ++ l = '|' :: ("title=".toList ++ l) := rfl
  rw [legacyV1Fingerprint_eq]
  simp only [String.toList_append, bodyText, List.append_assoc]
  rw [hmilestone, htitle]

theorem legacyV1Fingerprint_eq_iff (htext : HexUuidTexts codec)
    {command other : CreateIssueCommandV1} :
    legacyV1Fingerprint codec command = legacyV1Fingerprint codec other ↔
      command.projectId = other.projectId ∧ command.milestoneId = other.milestoneId ∧
        command.priority = other.priority ∧ bodyText command = bodyText other := by
  constructor
  · intro h
    have hlist := congrArg String.toList h
    rw [toList_legacyV1Fingerprint, toList_legacyV1Fingerprint] at hlist
    have hbar (u : Uuid) : '|' ∉ (codec.uuidText u).toList :=
      hexDigit_ne (by decide) (by decide) htext u
    obtain ⟨hproject, hrest⟩ :=
      delimited_inj (hbar _) (hbar _) (List.append_cancel_left hlist)
    obtain ⟨hmilestone, hrest⟩ := delimited_inj (bar_notMem_milestoneText htext _)
      (bar_notMem_milestoneText htext _) (List.append_cancel_left hrest)
    obtain ⟨hpriority, hbody⟩ := append_priority_inj (List.append_cancel_left hrest)
    exact ⟨codec.uuidText_injective (String.toList_inj.mp hproject),
      milestoneText_injective htext (String.toList_inj.mp hmilestone), hpriority,
      List.append_cancel_right hbody⟩
  · intro ⟨hproject, hmilestone, hpriority, hbody⟩
    apply String.toList_inj.mp
    rw [toList_legacyV1Fingerprint, toList_legacyV1Fingerprint, hproject, hmilestone, hpriority, hbody]

theorem bodyText_eq_iff {command other : CreateIssueCommandV1} :
    bodyText command = bodyText other ↔
      (command.title = other.title ∧ descriptionText command = descriptionText other) ∨
        TitleReachesPast command other ∨ TitleReachesPast other command := by
  have hname : descriptionName.toList = '|' :: "description=".toList := rfl
  simp only [bodyText, TitleReachesPast, hname]
  rw [append_separator_iff (by decide), String.toList_inj, String.toList_inj]

theorem titleReachesPast_ne {command other : CreateIssueCommandV1}
    (h : TitleReachesPast command other) : command.title ≠ other.title := by
  intro heq
  obtain ⟨m, htitle, _⟩ := h
  have hlength := congrArg List.length htitle
  rw [heq] at hlength
  simp only [List.length_append] at hlength
  have hname : descriptionName.toList.length = 13 := by decide
  omega

/-- The old fingerprints of two commands agree exactly for one payload and for confusable ones. -/
theorem legacyV1Fingerprint_eq_iff_confusable (htext : HexUuidTexts codec)
    (command other : CreateIssueCommandV1) :
    legacyV1Fingerprint codec command = legacyV1Fingerprint codec other ↔
      SamePayload command other ∨ Confusable command other := by
  rw [legacyV1Fingerprint_eq_iff htext, bodyText_eq_iff]
  constructor
  · rintro ⟨hproject, hmilestone, hpriority, ⟨htitle, htext⟩ | hreaches⟩
    · by_cases hdescription : command.description = other.description
      · exact Or.inl ⟨hproject, hmilestone, htitle, hdescription, hpriority⟩
      · exact Or.inr ⟨hproject, hmilestone, hpriority, Or.inl ⟨htitle, hdescription, htext⟩⟩
    · exact Or.inr ⟨hproject, hmilestone, hpriority, Or.inr hreaches⟩
  · rintro (h | ⟨hproject, hmilestone, hpriority, ⟨htitle, _, htext⟩ | hreaches⟩)
    · have htext : descriptionText command = descriptionText other := by
        rw [descriptionText, descriptionText, h.description]
      exact ⟨h.projectId, h.milestoneId, h.priority, Or.inl ⟨h.title, htext⟩⟩
    · exact ⟨hproject, hmilestone, hpriority, Or.inl ⟨htitle, htext⟩⟩
    · exact ⟨hproject, hmilestone, hpriority, Or.inr hreaches⟩

theorem Confusable.not_samePayload {command other : CreateIssueCommandV1}
    (h : Confusable command other) : ¬SamePayload command other := by
  intro hsame
  rcases h with ⟨_, _, _, ⟨_, hne, _⟩ | hreaches | hreaches⟩
  · exact hne hsame.description
  · exact titleReachesPast_ne hreaches hsame.title
  · exact titleReachesPast_ne hreaches hsame.title.symm

/-- No old fingerprint carries the version prefix. -/
theorem legacyV1Fingerprint_unversioned (command : CreateIssueCommandV1) :
    "v2:".toList.isPrefixOf (legacyV1Fingerprint codec command).toList = false := by
  rw [toList_legacyV1Fingerprint]
  rfl

theorem matchesRequestFingerprint_legacy (codec : Codec) (command other : CreateIssueCommandV1) :
    matchesRequestFingerprint codec (legacyV1Fingerprint codec other) command = true ↔
      legacyV1Fingerprint codec other = command.requestFingerprint ∨
        legacyV1Fingerprint codec command = legacyV1Fingerprint codec other := by
  simp only [matchesRequestFingerprint, legacyV1Fingerprint_unversioned, Bool.not_false,
    Bool.true_and, Bool.or_eq_true, decide_eq_true_eq]
  rw [@eq_comm _ (legacyV1Fingerprint codec command)]

end Texts

theorem branchOnStoredFingerprint_conflict {codec : Codec} {command : CreateIssueCommandV1}
    {reservation : IdempotencyReservation}
    (h : matchesRequestFingerprint codec reservation.storedFingerprint command = false) :
    branchOnStoredFingerprint codec command reservation = .error .idempotencyConflict := if_pos h

/-- A call that finds a record with a fingerprint it does not match. -/
theorem createIssueTransactional_mismatch {codec : Codec} {call : CreateIssueCall} {db : Db}
    {row : IdempotencyRow} (env : Env)
    (hrow : db.idempotencyRecords.find? (idempotencyRowKey call.command) = some row)
    (h : matchesRequestFingerprint codec row.requestFingerprint call.command = false) :
    ∃ e, createIssueTransactional codec call env db = (.error e, db) ∧
      (e = .idempotencyConflict ∨ ∃ d, e = .sqlx d) := by
  rcases createIssueTransactional_cases codec call env db with
    ⟨e, he, hd | hfree⟩ | ⟨row', hrow', _, he⟩ | ⟨db', hfresh, _⟩
  · exact ⟨e, he, Or.inr hd⟩
  · rw [hrow] at hfree
    cases hfree
  · rw [hrow] at hrow'
    cases hrow'
    rw [branchOnStoredFingerprint_conflict h] at he
    exact ⟨_, he, Or.inl rfl⟩
  · have hfree := hfresh.unreserved
    rw [hrow] at hfree
    cases hfree

/-- Two payloads are told apart exactly when the command carries the stored text as its own
fingerprint or the payloads are not confusable. -/
theorem toldApart_iff (codec : Codec) (htext : HexUuidTexts codec)
    (command other : CreateIssueCommandV1) :
    ToldApart codec command other ↔
      legacyV1Fingerprint codec other = command.requestFingerprint ∨ ¬Confusable command other := by
  have hmatches := matchesRequestFingerprint_legacy codec command other
  have heq := legacyV1Fingerprint_eq_iff_confusable htext command other
  constructor
  · intro h
    by_cases hown : legacyV1Fingerprint codec other = command.requestFingerprint
    · exact Or.inl hown
    · refine Or.inr (fun hconfusable => ?_)
      rcases h.matches_payload (hmatches.mpr (Or.inr (heq.mpr (Or.inr hconfusable)))) with
        hsame | hown'
      · exact hconfusable.not_samePayload hsame
      · exact hown hown'
  · intro h
    have hpayload : matchesRequestFingerprint codec (legacyV1Fingerprint codec other) command = true →
        SamePayload command other ∨ legacyV1Fingerprint codec other = command.requestFingerprint := by
      intro hm
      rcases hmatches.mp hm with hown | hlegacy
      · exact Or.inr hown
      · rcases heq.mp hlegacy with hsame | hconfusable
        · exact Or.inl hsame
        · exact Or.inr (h.resolve_right (fun hn => hn hconfusable))
    have hmismatch (hsame : ¬SamePayload command other)
        (hown : legacyV1Fingerprint codec other ≠ command.requestFingerprint) :
        matchesRequestFingerprint codec (legacyV1Fingerprint codec other) command = false := by
      cases hm : matchesRequestFingerprint codec (legacyV1Fingerprint codec other) command with
      | false => rfl
      | true => exact absurd (hpayload hm) (not_or.mpr ⟨hsame, hown⟩)
    refine ⟨hpayload, fun hsame hown reservation hstored => ?_,
      fun hsame hown call env db row hcommand hrow hstored => ?_⟩
    · apply branchOnStoredFingerprint_conflict
      rw [hstored]
      exact hmismatch hsame hown
    · subst hcommand
      apply createIssueTransactional_mismatch env hrow
      rw [hstored]
      exact hmismatch hsame hown

theorem validate_key : IdempotencyKey.validate "key" = .ok () := rfl

def titledCommand (title : String) (description : Option String) : CreateIssueCommandV1 where
  commandId := 1
  idempotencyKey := ⟨"key", validate_key⟩
  requestFingerprint := "v2:0"
  issueId := 2
  workspaceId := 3
  projectId := 4
  milestoneId := none
  title := title
  description := description
  priority := .medium
  actorId := 5

theorem toldApart_iff_describedCommand :
    ToldApart Codec.hyphenated (titledCommand "a" none) (titledCommand "a" (some "b")) := by
  refine (toldApart_iff Codec.hyphenated (fun u c hc => Uuid.mem_hyphenated hc) _ _).mpr
    (Or.inr (fun h => ?_))
  rcases h with ⟨_, _, _, ⟨_, _, htext⟩ | hreaches | hreaches⟩
  · have hne : descriptionText (titledCommand "a" none) ≠
        descriptionText (titledCommand "a" (some "b")) := by decide
    exact hne htext
  · exact titleReachesPast_ne hreaches rfl
  · exact titleReachesPast_ne hreaches rfl

/-- The title `a|description=` against the description `|description=`, and a missing description
against an empty one. -/
theorem shiftedDescription_not_toldApart :
    ((titledCommand "a|description=" none).validate = .ok () ∧
      (titledCommand "a" (some "|description=")).validate = .ok () ∧
      ¬ToldApart Codec.hyphenated (titledCommand "a|description=" none)
        (titledCommand "a" (some "|description="))) ∧
    (titledCommand "a" none).validate = .ok () ∧ (titledCommand "a" (some "")).validate = .ok () ∧
      ¬ToldApart Codec.hyphenated (titledCommand "a" none) (titledCommand "a" (some "")) := by
  refine ⟨⟨by decide +kernel, by decide +kernel, fun h => ?_⟩, by decide +kernel, by decide +kernel,
    fun h => ?_⟩
  · rcases h.matches_payload (by decide +kernel) with hsame | hown
    · have hne : "a|description=" ≠ "a" := by decide
      exact hne hsame.title
    · revert hown
      decide +kernel
  · rcases h.matches_payload (by decide +kernel) with hsame | hown
    · cases hsame.description
    · revert hown
      decide +kernel

end Dandori.IssueRepository
