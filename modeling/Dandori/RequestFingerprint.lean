import Dandori.IssueService
import Dandori.JsonWriter
import Dandori.TextLimits
import Mathlib

/-!
# Versioned request fingerprints

The fingerprint of a request is the hexadecimal SHA-256 digest of a JSON text of its payload, behind the
version. The text determines the payload, so two requests have one fingerprint exactly when their
payloads agree or their texts collide. The digest function is a parameter with 32 bytes of output.
-/

namespace Dandori

/-- `serde_json::to_vec`. -/
def Value.toVec (v : Value) : ByteArray := (String.ofList v.write).toUTF8

/-- `hex::encode(Sha256::digest(serde_json::to_vec(..)))`. -/
def Codec.DigestsWith (codec : Codec) (sha256 : ByteArray → Vector UInt8 32) : Prop :=
  ∀ v, codec.digestHex v = String.ofList (hexEncode (sha256 v.toVec).toList)

theorem toVec_inj {v w : Value} (hv : v.NumberFree) (hw : w.NumberFree) (h : v.toVec = w.toVec) :
    v = w := by
  have htext : v.write = w.write := String.ofList_injective (String.toByteArray_inj.mp h)
  have happend : v.write ++ [] = w.write ++ [] := by rw [htext]
  exact (Value.write_unambiguous v w [] [] hv hw happend).1

theorem fingerprintPayload_numberFree (codec : Codec) (r : CreateIssueRequest) :
    (fingerprintPayload codec r).NumberFree := by
  have hmilestone : (Value.ofOption codec.uuid r.milestoneId).NumberFree := by
    cases r.milestoneId <;> trivial
  have hdescription : (Value.ofOption Value.string r.description).NumberFree := by
    cases r.description <;> trivial
  exact ⟨trivial, trivial, hmilestone, trivial, hdescription, trivial, trivial⟩

/-! ## The fingerprint -/

/-- A fingerprint that command validation and its column accept. -/
structure StorableFingerprint (fingerprint : String) : Prop where
  versioned : "v2:".toList.isPrefixOf fingerprint.toList = true
  nonblank : trimIsEmpty fingerprint = false
  length_le : fingerprint.length ≤ 128
  validates : ∀ command : CreateIssueCommandV1, command.requestFingerprint = fingerprint →
    ∀ code message, command.validate = .error (.validation code message) →
      code ≠ "request_fingerprint_required" ∧ code ≠ "request_fingerprint_too_long"
  column : charLengthBetween 1 128 fingerprint = true

section Fingerprint

variable {codec : Codec} {sha256 : ByteArray → Vector UInt8 32}

theorem toList_createIssueFingerprint (hdigest : codec.DigestsWith sha256) (r : CreateIssueRequest) :
    (createIssueFingerprint codec r).toList =
      'v' :: '2' :: ':' :: hexEncode (sha256 (fingerprintPayload codec r).toVec).toList := by
  rw [createIssueFingerprint, hdigest, String.toList_append, String.toList_ofList, String.toList_ofList]
  rfl

theorem length_createIssueFingerprint (hdigest : codec.DigestsWith sha256) (r : CreateIssueRequest) :
    (createIssueFingerprint codec r).length = 67 := by
  rw [← String.length_toList, toList_createIssueFingerprint hdigest]
  simp only [List.length_cons, length_hexEncode, Vector.length_toList]

theorem ascii_createIssueFingerprint (hdigest : codec.DigestsWith sha256) (r : CreateIssueRequest) :
    Ascii (createIssueFingerprint codec r) := by
  have hdigit : ∀ d < 16, (hexDigit d).toNat ≤ 127 := by decide
  intro c hc
  rw [toList_createIssueFingerprint hdigest] at hc
  rcases List.mem_cons.mp hc with rfl | hc
  · decide
  rcases List.mem_cons.mp hc with rfl | hc
  · decide
  rcases List.mem_cons.mp hc with rfl | hc
  · decide
  obtain ⟨b, _, hb⟩ := List.mem_flatMap.mp hc
  obtain ⟨d, hd, rfl⟩ := mem_hexDigits hb
  exact hdigit d hd

/-- Validation of a command whose fingerprint is neither blank nor long only fails for other fields. -/
theorem validate_error_code {command : CreateIssueCommandV1}
    (hblank : trimIsEmpty command.requestFingerprint = false)
    (hfit : command.requestFingerprint.utf8ByteSize ≤ 128) {code message : String}
    (h : command.validate = .error (.validation code message)) :
    code ∈ ["title_required", "title_too_long", "idempotency_key_required",
      "idempotency_key_too_long", "description_too_long"] := by
  have hlong : ¬CreateIssueCommandV1.maxRequestFingerprintLength <
      command.requestFingerprint.utf8ByteSize := Nat.not_lt.mpr hfit
  simp only [CreateIssueCommandV1.validate, ite_error_eq_error, DomainError.validation.injEq, hblank,
    hlong, Bool.false_eq_true, false_and, false_or, not_false_eq_true, true_and] at h
  rcases h with ⟨_, rfl, _⟩ | ⟨_, ⟨_, rfl, _⟩ | ⟨_, ⟨_, rfl, _⟩ | ⟨_, ⟨_, rfl, _⟩ | ⟨_, h⟩⟩⟩⟩
  · decide
  · decide
  · decide
  · decide
  · rcases h with ⟨_, rfl, _⟩ | ⟨_, h⟩
    · decide
    · cases h

theorem storable_createIssueFingerprint (hdigest : codec.DigestsWith sha256)
    (r : CreateIssueRequest) : StorableFingerprint (createIssueFingerprint codec r) := by
  have hlength := length_createIssueFingerprint hdigest r
  have hbytes := utf8ByteSize_of_ascii (ascii_createIssueFingerprint hdigest r)
  have hversioned : "v2:".toList.isPrefixOf (createIssueFingerprint codec r).toList = true := by
    rw [toList_createIssueFingerprint hdigest]
    rfl
  have hnonblank : trimIsEmpty (createIssueFingerprint codec r) = false := by
    rw [trimIsEmpty, toList_createIssueFingerprint hdigest]
    rfl
  refine ⟨hversioned, hnonblank, by omega, fun command hcommand code message h => ?_, ?_⟩
  · rw [← hcommand] at hnonblank hbytes
    have hcode := validate_error_code hnonblank (by rw [hbytes, hcommand, hlength]; decide) h
    constructor
    · rintro rfl
      revert hcode
      decide
    · rintro rfl
      revert hcode
      decide
  · rw [charLengthBetween_of_nonblank hnonblank]
    exact decide_eq_true (by omega)

/-- Two requests whose texts do not collide have one fingerprint exactly when their payloads agree, and
every fingerprint can be stored. -/
theorem createIssueFingerprint_identifies (codec : Codec) (sha256 : ByteArray → Vector UInt8 32)
    (hdigest : codec.DigestsWith sha256) (r₁ r₂ : CreateIssueRequest)
    (hcollision : sha256 (fingerprintPayload codec r₁).toVec =
      sha256 (fingerprintPayload codec r₂).toVec →
        (fingerprintPayload codec r₁).toVec = (fingerprintPayload codec r₂).toVec) :
    (createIssueFingerprint codec r₁ = createIssueFingerprint codec r₂ ↔ r₁.SamePayload r₂) ∧
      ∀ r, StorableFingerprint (createIssueFingerprint codec r) := by
  refine ⟨?_, storable_createIssueFingerprint hdigest⟩
  constructor
  · intro h
    have hlist := congrArg String.toList h
    rw [toList_createIssueFingerprint hdigest, toList_createIssueFingerprint hdigest] at hlist
    simp only [List.cons.injEq, true_and] at hlist
    have hdigestEq := Vector.toList_inj.mp (hexEncode_injective hlist)
    have hvalue := toVec_inj (fingerprintPayload_numberFree codec r₁)
      (fingerprintPayload_numberFree codec r₂) (hcollision hdigestEq)
    exact (fingerprintPayload_eq_iff codec).mp hvalue
  · intro h
    rw [createIssueFingerprint, createIssueFingerprint, (fingerprintPayload_eq_iff codec).mpr h]

end Fingerprint

/-! ## Two requests -/

def describedRequest (description : Option String) : CreateIssueRequest where
  idempotencyKey := "key"
  projectId := 4
  milestoneId := none
  title := "say \"hi\"\n"
  description := description
  priority := .medium

/-- The digests of the texts of two requests. -/
def tableSha256 (bytes : ByteArray) : Vector UInt8 32 :=
  if bytes = (fingerprintPayload Codec.hyphenated (describedRequest none)).toVec then
    #v[0xb6, 0x1a, 0x5a, 0x99, 0x77, 0x5e, 0xe3, 0x79, 0xa8, 0xe5, 0xd4, 0xf1, 0x39, 0x5d, 0x12, 0x65,
      0x1a, 0xdd, 0x9a, 0x40, 0x69, 0x32, 0x80, 0x75, 0xdc, 0xb6, 0xd2, 0x93, 0x7a, 0xaa, 0xe6, 0xcc]
  else if bytes = (fingerprintPayload Codec.hyphenated (describedRequest (some ""))).toVec then
    #v[0xff, 0xab, 0x6c, 0xa4, 0x99, 0x6e, 0xf2, 0x53, 0xed, 0x7d, 0x7f, 0xdc, 0x32, 0xd3, 0x55, 0x24,
      0x96, 0x6d, 0x04, 0x4f, 0x75, 0x74, 0xed, 0x63, 0x8d, 0xc0, 0x2e, 0xa6, 0x89, 0x01, 0xae, 0xb5]
  else Vector.replicate 32 0

def Codec.digesting (sha256 : ByteArray → Vector UInt8 32) : Codec :=
  { Codec.hyphenated with digestHex := fun v => String.ofList (hexEncode (sha256 v.toVec).toList) }

theorem tableSha256_described :
    tableSha256 (fingerprintPayload Codec.hyphenated (describedRequest none)).toVec ≠
      tableSha256 (fingerprintPayload Codec.hyphenated (describedRequest (some ""))).toVec := by
  have hne : (fingerprintPayload Codec.hyphenated (describedRequest (some ""))).toVec ≠
      (fingerprintPayload Codec.hyphenated (describedRequest none)).toVec := by
    intro h
    have hvalue := toVec_inj (fingerprintPayload_numberFree _ _) (fingerprintPayload_numberFree _ _) h
    cases ((fingerprintPayload_eq_iff Codec.hyphenated).mp hvalue).description
  rw [tableSha256, if_pos rfl, tableSha256, if_neg hne, if_pos rfl]
  decide

theorem fingerprintPayload_digesting (sha256 : ByteArray → Vector UInt8 32) (r : CreateIssueRequest) :
    fingerprintPayload (Codec.digesting sha256) r = fingerprintPayload Codec.hyphenated r := by
  have huuid : (Codec.digesting sha256).uuid = Codec.hyphenated.uuid := rfl
  rw [fingerprintPayload, fingerprintPayload, huuid]

/-- A missing and an empty description have different fingerprints. -/
theorem createIssueFingerprint_identifies_described :
    createIssueFingerprint (Codec.digesting tableSha256) (describedRequest none) ≠
      createIssueFingerprint (Codec.digesting tableSha256) (describedRequest (some "")) := by
  intro h
  have hsame := (createIssueFingerprint_identifies (Codec.digesting tableSha256) tableSha256
    (fun _ => rfl) (describedRequest none) (describedRequest (some "")) (by
      rw [fingerprintPayload_digesting, fingerprintPayload_digesting]
      intro heq
      exact absurd heq tableSha256_described)).1.mp h
  cases hsame.description

end Dandori
