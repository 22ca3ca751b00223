import Dandori.AllowedAlgorithms

/-!
# Tokens without a key id

A document is kept as a map of its named keys and its first unnamed key. For a token without a `kid` the
summary tells a single key from several only by the size of the map: with two different key ids the
token is refused, and otherwise some key is taken, however many keys the document has.
-/

namespace Dandori.Authentication

variable {Params Key : Type} {jwks : JwksLibrary Params Key} {keyset keyset' : JwkKeyset Key}

def JwkKeyset.kids (keyset : JwkKeyset Key) : List String := keyset.keys.map Prod.fst

/-- Two keys of the document have different key ids. -/
def TwoKids (keys : List (Jwk Params)) : Prop :=
  ∃ kid kid', kid ≠ kid' ∧ (∃ jwk ∈ keys, jwk.keyId = some kid) ∧ ∃ jwk ∈ keys, jwk.keyId = some kid'

/-! ## The summary of a document -/

theorem JwkKeyset.mem_kids_insert (keyset : JwkKeyset Key) (kid other : String) (entry : JwkEntry Key) :
    other ∈ (keyset.insert kid entry).kids ↔ other = kid ∨ other ∈ keyset.kids := by
  simp only [kids, insert, List.map_cons, List.mem_cons, List.mem_map, List.mem_filter,
    decide_eq_true_eq]
  constructor
  · rintro (rfl | ⟨k, ⟨hk, _⟩, rfl⟩)
    · exact Or.inl rfl
    · exact Or.inr ⟨k, hk, rfl⟩
  · rintro (rfl | ⟨k, hk, rfl⟩)
    · exact Or.inl rfl
    · by_cases hkid : k.1 = kid
      · exact Or.inl hkid
      · exact Or.inr ⟨k, ⟨hk, hkid⟩, rfl⟩

/-- What one key adds to the summary. -/
theorem addJwk_summary {jwk : Jwk Params} (h : addJwk jwks keyset jwk = .ok keyset') :
    (∀ kid, kid ∈ keyset'.kids ↔ kid ∈ keyset.kids ∨ jwk.keyId = some kid) ∧
      (keyset'.fallbackKey.isSome = true ↔
        keyset.fallbackKey.isSome = true ∨ jwk.keyId = none) := by
  obtain ⟨added, _, ⟨kid, hkid, rfl⟩ | ⟨hkid, hfallback, rfl⟩ | ⟨hkid, hfallback, rfl⟩⟩ :=
    addJwk_cases h
  · refine ⟨fun other => ?_, ?_⟩
    · rw [JwkKeyset.mem_kids_insert, hkid, Option.some.injEq, or_comm, @eq_comm _ other]
    · simp only [JwkKeyset.insert, hkid, reduceCtorEq, or_false]
  · simp [JwkKeyset.kids, hkid]
  · simp [hkid, hfallback]

theorem addJwks_summary {keys : List (Jwk Params)} (h : addJwks jwks keyset keys = .ok keyset') :
    (∀ kid, kid ∈ keyset'.kids ↔ kid ∈ keyset.kids ∨ ∃ jwk ∈ keys, jwk.keyId = some kid) ∧
      (keyset'.fallbackKey.isSome = true ↔
        keyset.fallbackKey.isSome = true ∨ ∃ jwk ∈ keys, jwk.keyId = none) := by
  induction keys generalizing keyset with
  | nil =>
      cases h
      simp
  | cons jwk rest ih =>
      obtain ⟨middle, hadd, hrest⟩ := addJwks_cons h
      obtain ⟨hkids, hfallback⟩ := addJwk_summary hadd
      obtain ⟨hkids', hfallback'⟩ := ih hrest
      refine ⟨fun kid => ?_, ?_⟩
      · simp only [hkids', hkids, List.mem_cons, exists_eq_or_imp, or_assoc]
      · simp only [hfallback', hfallback, List.mem_cons, exists_eq_or_imp, or_assoc]

/-- The map has two entries exactly when the document has two key ids. -/
theorem two_le_length_keys_iff {keys : List (Jwk Params)}
    (h : addJwks jwks .empty keys = .ok keyset) : 2 ≤ keyset.keys.length ↔ TwoKids keys := by
  have hkids (kid : String) : kid ∈ keyset.kids ↔ ∃ jwk ∈ keys, jwk.keyId = some kid := by
    have hmem := (addJwks_summary h).1 kid
    have hnone : kid ∉ (JwkKeyset.empty : JwkKeyset Key).kids := List.not_mem_nil
    simpa only [hnone, false_or] using hmem
  have hlength : keyset.keys.length = keyset.kids.length := (List.length_map _).symm
  have hnodup : keyset.kids.Nodup := keyset.nodup
  rw [TwoKids, hlength]
  simp only [← hkids]
  revert hnodup
  cases keyset.kids with
  | nil => simp
  | cons kid rest =>
      intro hnodup
      cases rest with
      | nil =>
          constructor
          · intro hle
            simp at hle
          · intro ⟨a, b, hne, ha, hb⟩
            rw [List.mem_singleton.mp ha, List.mem_singleton.mp hb] at hne
            exact absurd rfl hne
      | cons kid' rest =>
          constructor
          · intro _
            refine ⟨kid, kid', ?_, List.mem_cons_self, List.mem_cons_of_mem _ List.mem_cons_self⟩
            rintro rfl
            exact (List.nodup_cons.mp hnodup).1 List.mem_cons_self
          · intro _
            simp only [List.length_cons]
            omega

/-! ## Selection -/

section Selection

variable {header : Header} {entry : JwkEntry Key}

theorem select_of_two (hkid : header.kid = none) (h : 2 ≤ keyset.keys.length) :
    keyset.select header = .error .missingKid := by
  simp only [JwkKeyset.select, hkid]
  rw [if_neg (by omega)]

/-- The keyset of a document with at most one key id always gives a key. -/
theorem select_of_le_one {keys : List (Jwk Params)} (hadd : addJwks jwks .empty keys = .ok keyset)
    (hne : keys ≠ []) (hkid : header.kid = none) (h : keyset.keys.length ≤ 1) :
    ∃ entry, keyset.select header = .ok entry := by
  simp only [JwkKeyset.select, hkid, if_pos h]
  cases hkeys : keyset.keys with
  | cons k rest => exact ⟨_, rfl⟩
  | nil =>
      obtain ⟨jwk, rest, rfl⟩ := List.exists_cons_of_ne_nil hne
      obtain ⟨hkids, hfallback⟩ := addJwks_summary hadd
      have hnone : jwk.keyId = none := by
        cases hid : jwk.keyId with
        | none => rfl
        | some kid =>
            have hmem := (hkids kid).mpr (Or.inr ⟨jwk, List.mem_cons_self, hid⟩)
            rw [JwkKeyset.kids, hkeys] at hmem
            cases hmem
      have hsome := hfallback.mpr (Or.inr ⟨jwk, List.mem_cons_self, hnone⟩)
      obtain ⟨entry, hentry⟩ := Option.isSome_iff_exists.mp hsome
      exact ⟨entry, by rw [hentry]; rfl⟩

theorem select_singleton {jwk : Jwk Params} (hadd : addJwks jwks .empty [jwk] = .ok keyset)
    (hkid : header.kid = none) :
    ∃ entry, tryFromJwk jwks jwk = .ok entry ∧ keyset.select header = .ok entry := by
  simp only [addJwks, addJwk] at hadd
  cases hjwk : tryFromJwk jwks jwk with
  | error e =>
      rw [hjwk] at hadd
      cases hadd
  | ok entry =>
      rw [hjwk] at hadd
      refine ⟨entry, rfl, ?_⟩
      cases hid : jwk.keyId with
      | some kid =>
          simp only [hid] at hadd
          cases hadd
          simp only [JwkKeyset.select, hkid]
          rfl
      | none =>
          simp only [hid] at hadd
          cases hadd
          simp only [JwkKeyset.select, hkid]
          rfl

end Selection

/-! ## Tokens without a key id -/

section Tokens

variable (jwks) (lib : JwtLibrary Key) (codec : Codec) (authenticator : JwtAuthenticator Key)
  (now : Int) (token : String)

/-- `authenticate_token` goes on to verify the token with this key. -/
def VerifiesWith (entry : JwkEntry Key) : Prop :=
  ∃ header, lib.decodeHeader token = .ok header ∧ authenticator.keyset.select header = .ok entry

/-- The token is verified with the key of a document that has one, and refused for a document that has
several. -/
structure OnlySingleKey (keys : List (Jwk Params)) : Prop where
  single : ∀ entry, VerifiesWith lib authenticator token entry →
    ∃ jwk, keys = [jwk] ∧ tryFromJwk jwks jwk = .ok entry
  verified : ∀ jwk, keys = [jwk] → ∃ entry, VerifiesWith lib authenticator token entry
  missing : 2 ≤ keys.length →
    authenticateToken lib codec authenticator now token = .error .missingKid

variable {jwks lib codec authenticator now token}

theorem authenticateToken_missingKid {header : Header} (hheader : lib.decodeHeader token = .ok header)
    (hselect : authenticator.keyset.select header = .error .missingKid) :
    authenticateToken lib codec authenticator now token = .error .missingKid := by
  simp only [authenticateToken, hheader, hselect]

/-- A token without a `kid` is only verified against a single-key document exactly when the document has
one key, or two keys with different key ids. -/
theorem onlySingleKey_iff (jwks : JwksLibrary Params Key) (raw : String) (keys : List (Jwk Params))
    (hraw : jwks.fromStr raw = .ok keys) (lib : JwtLibrary Key) (codec : Codec)
    (authenticator : JwtAuthenticator Key) (hparse : parseJwks jwks raw = .ok authenticator.keyset)
    (now : Int) (token : String) (header : Header) (hheader : lib.decodeHeader token = .ok header)
    (hkid : header.kid = none) :
    OnlySingleKey jwks lib codec authenticator now token keys ↔ keys.length = 1 ∨ TwoKids keys := by
  obtain ⟨keys', hraw', hne, hadd⟩ := parseJwks_eq_ok hparse
  rw [hraw] at hraw'
  cases hraw'
  have htwo := two_le_length_keys_iff hadd
  have hverifies (entry : JwkEntry Key) (h : VerifiesWith lib authenticator token entry) :
      authenticator.keyset.select header = .ok entry := by
    obtain ⟨header', hheader', hselect⟩ := h
    rw [hheader] at hheader'
    cases hheader'
    exact hselect
  constructor
  · intro h
    by_cases hkids : TwoKids keys
    · exact Or.inr hkids
    · have hle : authenticator.keyset.keys.length ≤ 1 := by
        have hlt := mt htwo.mp hkids
        omega
      obtain ⟨entry, hselect⟩ := select_of_le_one hadd hne hkid hle
      obtain ⟨jwk, rfl, _⟩ := h.single entry ⟨header, hheader, hselect⟩
      exact Or.inl rfl
  · rintro (hone | hkids)
    · obtain ⟨jwk, rfl⟩ := List.length_eq_one_iff.mp hone
      obtain ⟨entry, hentry, hselect⟩ := select_singleton hadd hkid
      refine ⟨fun other hother => ?_, fun _ _ => ⟨entry, header, hheader, hselect⟩, fun hle => ?_⟩
      · have hsame := hverifies other hother
        rw [hselect] at hsame
        cases hsame
        exact ⟨jwk, rfl, hentry⟩
      · rw [hone] at hle
        omega
    · have hselect := select_of_two hkid (htwo.mpr hkids)
      have hlength : keys.length ≠ 1 := by
        intro hone
        obtain ⟨jwk, rfl⟩ := List.length_eq_one_iff.mp hone
        obtain ⟨kid, kid', hkidne, ⟨a, ha, hakid⟩, b, hb, hbkid⟩ := hkids
        rw [List.mem_singleton.mp ha] at hakid
        rw [List.mem_singleton.mp hb, hakid] at hbkid
        exact hkidne (Option.some.inj hbkid)
      refine ⟨fun entry hentry => ?_, fun jwk hjwk => ?_, fun _ =>
        authenticateToken_missingKid hheader hselect⟩
      · have hsame := hverifies entry hentry
        rw [hselect] at hsame
        cases hsame
      · rw [hjwk] at hlength
        exact absurd rfl hlength

end Tokens

/-! ## Documents with several keys -/

def documents : List (String × List (Jwk Unit)) :=
  [("named and unnamed", [⟨some "a", none, ()⟩, ⟨none, none, ()⟩]),
    ("unnamed", [⟨none, none, ()⟩, ⟨none, none, ()⟩]),
    ("repeated", [⟨some "a", none, ()⟩, ⟨some "a", none, ()⟩]),
    ("two names", [⟨some "a", none, ()⟩, ⟨none, none, ()⟩, ⟨some "b", none, ()⟩])]

def documentLibrary : JwksLibrary Unit Unit where
  fromStr raw := .ok ((documents.lookup raw).getD [])
  fromJwk _ := .ok ()

def keysetAuthenticator (keyset : JwkKeyset Unit) : JwtAuthenticator Unit :=
  { unboundAuthenticator with keyset := keyset }

theorem onlySingleKey_iff_twoNames :
    ∃ keyset, parseJwks documentLibrary "two names" = .ok keyset ∧
      OnlySingleKey documentLibrary unboundLibrary .unary (keysetAuthenticator keyset) 0 "token"
        [⟨some "a", none, ()⟩, ⟨none, none, ()⟩, ⟨some "b", none, ()⟩] := by
  refine ⟨_, rfl, (onlySingleKey_iff documentLibrary "two names" _ rfl unboundLibrary .unary
    (keysetAuthenticator _) rfl 0 "token" ⟨.RS256, none⟩ rfl rfl).mpr (Or.inr ?_)⟩
  exact ⟨"a", "b", by decide, ⟨_, List.mem_cons_self, rfl⟩,
    ⟨_, List.mem_cons_of_mem _ (List.mem_cons_of_mem _ List.mem_cons_self), rfl⟩⟩

/-- The document has two keys, and a token without a `kid` is verified with one of them. -/
def PicksOfTwo (raw : String) : Prop :=
  ∃ keys keyset, documentLibrary.fromStr raw = .ok keys ∧ keys.length = 2 ∧
    parseJwks documentLibrary raw = .ok keyset ∧
    ¬OnlySingleKey documentLibrary unboundLibrary .unary (keysetAuthenticator keyset) 0 "token" keys

theorem not_onlySingleKey {keys : List (Jwk Unit)} {keyset : JwkKeyset Unit} (hlength : keys.length = 2)
    {entry : JwkEntry Unit}
    (hverifies : VerifiesWith unboundLibrary (keysetAuthenticator keyset) "token" entry) :
    ¬OnlySingleKey documentLibrary unboundLibrary .unary (keysetAuthenticator keyset) 0 "token"
      keys := by
  intro h
  obtain ⟨jwk, rfl, _⟩ := h.single entry hverifies
  cases hlength

/-- A named key beside an unnamed one, two unnamed keys, and one key id given twice. -/
theorem severalKeys_picksOfTwo :
    PicksOfTwo "named and unnamed" ∧ PicksOfTwo "unnamed" ∧ PicksOfTwo "repeated" := by
  refine ⟨⟨_, _, rfl, rfl, rfl, ?_⟩, ⟨_, _, rfl, rfl, rfl, ?_⟩, ⟨_, _, rfl, rfl, rfl, ?_⟩⟩
  · exact not_onlySingleKey rfl ⟨⟨.RS256, none⟩, rfl, rfl⟩
  · exact not_onlySingleKey rfl ⟨⟨.RS256, none⟩, rfl, rfl⟩
  · exact not_onlySingleKey rfl ⟨⟨.RS256, none⟩, rfl, rfl⟩

end Dandori.Authentication
