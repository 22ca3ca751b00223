import Dandori.Codec

/-!
# Token authentication

`authenticate_token` selects a key, restricts the algorithm and hands the token to the JWT library
with a `Validation`. The library is a parameter with its documented behaviour: the signature is
verified, the claims in `required_spec_claims` must be present, `iss` and `aud` are compared with
the configured values only when present, `exp` is compared, and `nbf` is compared only on request.
-/

namespace Dandori.Authentication

inductive Algorithm
  | HS256
  | HS384
  | HS512
  | ES256
  | ES384
  | RS256
  | RS384
  | RS512
  | PS256
  | PS384
  | PS512
  | EdDSA
  deriving DecidableEq

def Algorithm.debug : Algorithm → String
  | .HS256 => "HS256"
  | .HS384 => "HS384"
  | .HS512 => "HS512"
  | .ES256 => "ES256"
  | .ES384 => "ES384"
  | .RS256 => "RS256"
  | .RS384 => "RS384"
  | .RS512 => "RS512"
  | .PS256 => "PS256"
  | .PS384 => "PS384"
  | .PS512 => "PS512"
  | .EdDSA => "EdDSA"

structure Header where
  alg : Algorithm
  kid : Option String

/-- A claim that may hold one string or several. -/
inductive StringClaim
  | single (value : String)
  | multiple (values : List String)
  deriving DecidableEq

def StringClaim.names (claim : StringClaim) (value : String) : Bool :=
  match claim with
  | .single v => v = value
  | .multiple vs => value ∈ vs

/-- The claims of a token payload; `exp` and `nbf` count seconds. -/
structure Payload where
  iss : Option StringClaim
  aud : Option StringClaim
  exp : Option Int
  nbf : Option Int
  sub : Option String
  workspaceId : Option String

inductive SpecClaim
  | exp
  | nbf
  | aud
  | iss
  | sub
  deriving DecidableEq

def Payload.has (p : Payload) : SpecClaim → Bool
  | .exp => p.exp.isSome
  | .nbf => p.nbf.isSome
  | .aud => p.aud.isSome
  | .iss => p.iss.isSome
  | .sub => p.sub.isSome

structure Validation where
  algorithms : List Algorithm
  requiredSpecClaims : List SpecClaim
  iss : Option (List String)
  aud : Option (List String)
  validateExp : Bool
  validateNbf : Bool
  leeway : Int

namespace Validation

/-- `Validation::new`. -/
def new (alg : Algorithm) : Validation where
  algorithms := [alg]
  requiredSpecClaims := [.exp]
  iss := none
  aud := none
  validateExp := true
  validateNbf := false
  leeway := 60

def setIssuer (v : Validation) (items : List String) : Validation := { v with iss := some items }

def setAudience (v : Validation) (items : List String) : Validation := { v with aud := some items }

end Validation

/-- The comparison with the configured values, made only when both sides are there. -/
def claimMatches (claim : Option StringClaim) (configured : Option (List String)) : Bool :=
  match claim, configured with
  | some c, some values => values.any c.names
  | _, _ => true

def Payload.accepted (p : Payload) (v : Validation) (now : Int) : Bool :=
  v.requiredSpecClaims.all p.has &&
    (!v.validateExp || p.exp.all (now - v.leeway ≤ ·)) &&
    (!v.validateNbf || p.nbf.all (· ≤ now + v.leeway)) &&
    claimMatches p.iss v.iss && claimMatches p.aud v.aud

structure JwtClaims where
  sub : String
  workspaceId : String

/-- The JWT library: header, signature and payload of a token, and `decode` as documented. -/
structure JwtLibrary (Key : Type) where
  decodeHeader : String → Except String Header
  signed : String → Key → Algorithm → Bool
  payload : String → Option Payload
  decode : String → Key → Validation → Int → Except String JwtClaims
  decode_eq_ok : ∀ token key v now claims, decode token key v now = .ok claims ↔
    ∃ header p, decodeHeader token = .ok header ∧ header.alg ∈ v.algorithms ∧
      signed token key header.alg = true ∧ payload token = some p ∧ p.accepted v now = true ∧
      p.sub = some claims.sub ∧ p.workspaceId = some claims.workspaceId

structure JwkEntry (Key : Type) where
  decodingKey : Key
  algorithm : Option Algorithm

structure JwkKeyset (Key : Type) where
  keys : List (String × JwkEntry Key)
  nodup : (keys.map Prod.fst).Nodup
  fallbackKey : Option (JwkEntry Key)

inductive AuthError
  | tokenHeader (error : String)
  | missingKid
  | unknownKid (kid : String)
  | algorithmMismatch
  | disallowedAlgorithm (name : String)
  | tokenVerify (error : String)
  | invalidSub
  | invalidWorkspaceId
  deriving DecidableEq

structure AuthenticatedClaims where
  actorId : Uuid
  workspaceId : Uuid
  deriving DecidableEq

structure JwtAuthenticator (Key : Type) where
  issuer : String
  audience : String
  allowedAlgorithms : List Algorithm
  keyset : JwkKeyset Key

section Authenticate

variable {Key : Type} (lib : JwtLibrary Key) (codec : Codec) (authenticator : JwtAuthenticator Key)

def JwkKeyset.select (keyset : JwkKeyset Key) (header : Header) :
    Except AuthError (JwkEntry Key) :=
  match header.kid with
  | some kid =>
      match keyset.keys.lookup kid with
      | some entry => .ok entry
      | none => .error (.unknownKid kid)
  | none =>
      if keyset.keys.length ≤ 1 then
        match keyset.keys.head? with
        | some (_, entry) => .ok entry
        | none =>
            match keyset.fallbackKey with
            | some entry => .ok entry
            | none => .error .missingKid
      else .error .missingKid

def validation (alg : Algorithm) : Validation :=
  ((Validation.new alg).setIssuer [authenticator.issuer]).setAudience [authenticator.audience]

def authenticateToken (now : Int) (token : String) : Except AuthError AuthenticatedClaims :=
  match lib.decodeHeader token with
  | .error e => .error (.tokenHeader e)
  | .ok header =>
      match authenticator.keyset.select header with
      | .error e => .error e
      | .ok entry =>
          if entry.algorithm.any (· ≠ header.alg) then .error .algorithmMismatch
          else if header.alg ∉ authenticator.allowedAlgorithms then
            .error (.disallowedAlgorithm header.alg.debug)
          else
            match lib.decode token entry.decodingKey (validation authenticator header.alg) now with
            | .error e => .error (.tokenVerify e)
            | .ok claims =>
                match codec.parseUuid claims.sub with
                | none => .error .invalidSub
                | some actorId =>
                    match codec.parseUuid claims.workspaceId with
                    | none => .error .invalidWorkspaceId
                    | some workspaceId => .ok ⟨actorId, workspaceId⟩

def leeway : Int := 60

/-- Everything the code and the library test, apart from the presence of `iss` and `aud`, the form
of `iss`, and `nbf`. -/
structure PassesOtherChecks (now : Int) (token : String) (p : Payload) : Prop where
  payload : lib.payload token = some p
  key : ∃ header entry, lib.decodeHeader token = .ok header ∧
    authenticator.keyset.select header = .ok entry ∧ entry.algorithm.all (· = header.alg) = true ∧
    header.alg ∈ authenticator.allowedAlgorithms ∧ lib.signed token entry.decodingKey header.alg = true
  unexpired : ∃ exp, p.exp = some exp ∧ now - leeway ≤ exp
  issuer : p.iss.all (·.names authenticator.issuer) = true
  audience : p.aud.all (·.names authenticator.audience) = true
  subject : ((p.sub.bind codec.parseUuid).isSome && (p.workspaceId.bind codec.parseUuid).isSome) =
    true

/-- The payload is bound to the configured issuer and audience and to the present. -/
structure StrictlyBound (now : Int) (p : Payload) : Prop where
  issuer : p.iss = some (.single authenticator.issuer)
  audience : ∃ aud, p.aud = some aud ∧ aud.names authenticator.audience = true
  unexpired : ∃ exp, p.exp = some exp ∧ now - leeway ≤ exp
  notBefore : p.nbf.all (· ≤ now + leeway) = true

def AcceptsOnlyStrictlyBound (now : Int) (token : String) : Prop :=
  ∀ claims, authenticateToken lib codec authenticator now token = .ok claims →
    ∃ p, lib.payload token = some p ∧ StrictlyBound authenticator now p

variable {lib codec authenticator} {now : Int} {token : String} {p : Payload}

theorem claimMatches_singleton (claim : Option StringClaim) (value : String) :
    claimMatches claim (some [value]) = claim.all (·.names value) := by
  cases claim <;> simp [claimMatches]

theorem accepted_validation_iff (alg : Algorithm) :
    p.accepted (validation authenticator alg) now = true ↔
      (∃ exp, p.exp = some exp ∧ now - leeway ≤ exp) ∧
        p.iss.all (·.names authenticator.issuer) = true ∧
        p.aud.all (·.names authenticator.audience) = true := by
  simp only [Payload.accepted, validation, Validation.setAudience, Validation.setIssuer,
    Validation.new, claimMatches_singleton, Bool.and_eq_true, List.all_cons, List.all_nil,
    Payload.has, Bool.not_true, Bool.false_or, Bool.not_false, Bool.true_or, and_true, leeway,
    and_assoc]
  cases p.exp with
  | none => simp
  | some exp =>
      simp only [Option.isSome_some, true_and, Option.all_some, Option.some.injEq, exists_eq_left']
      exact and_congr_left (fun _ => decide_eq_true_iff)

/-- A token is accepted exactly when its payload passes the tests that are made. -/
theorem authenticateToken_isOk_iff :
    (∃ claims, authenticateToken lib codec authenticator now token = .ok claims) ↔
      ∃ p, PassesOtherChecks lib codec authenticator now token p := by
  constructor
  · rintro ⟨claims, h⟩
    unfold authenticateToken at h
    cases hheader : lib.decodeHeader token with
    | error e => simp [hheader] at h
    | ok header =>
        simp only [hheader] at h
        cases hkey : authenticator.keyset.select header with
        | error e => simp [hkey] at h
        | ok entry =>
            simp only [hkey] at h
            split_ifs at h with halg hallowed
            cases hdecode : lib.decode token entry.decodingKey
              (validation authenticator header.alg) now with
            | error e => simp [hdecode] at h
            | ok decoded =>
                simp only [hdecode] at h
                obtain ⟨header', p, hheader', _, hsigned, hp, haccepted, hsub, hws⟩ :=
                  (lib.decode_eq_ok _ _ _ _ _).mp hdecode
                have hsame : header' = header := Except.ok.inj (hheader'.symm.trans hheader)
                subst hsame
                obtain ⟨hexp, hiss, haud⟩ := (accepted_validation_iff header'.alg).mp haccepted
                refine ⟨p, hp, ⟨header', entry, hheader, hkey, ?_, by simpa using hallowed, hsigned⟩,
                  hexp, hiss, haud, ?_⟩
                · cases halgo : entry.algorithm <;> simp_all
                · rw [hsub, hws]
                  cases hs : codec.parseUuid decoded.sub with
                  | none => simp [hs] at h
                  | some actorId =>
                      cases hw : codec.parseUuid decoded.workspaceId with
                      | none => simp [hs, hw] at h
                      | some workspaceId => simp [hs, hw]
  · rintro ⟨p, hp, ⟨header, entry, hheader, hkey, halg, hallowed, hsigned⟩, hexp, hiss, haud, hids⟩
    simp only [Bool.and_eq_true, Option.isSome_iff_exists, Option.bind_eq_some_iff] at hids
    obtain ⟨⟨actorId, sub, hsub, hactor⟩, ⟨workspaceId, ws, hws, hworkspace⟩⟩ := hids
    have hdecode : lib.decode token entry.decodingKey (validation authenticator header.alg) now =
        .ok ⟨sub, ws⟩ :=
      (lib.decode_eq_ok _ _ _ _ _).mpr ⟨header, p, hheader, List.mem_singleton.mpr rfl, hsigned, hp,
        (accepted_validation_iff header.alg).mpr ⟨hexp, hiss, haud⟩, hsub, hws⟩
    refine ⟨⟨actorId, workspaceId⟩, ?_⟩
    unfold authenticateToken
    have halg' : entry.algorithm.any (· ≠ header.alg) = false := by
      cases halgo : entry.algorithm <;> simp_all
    simp only [hheader, hkey, halg', Bool.false_eq_true, if_false, not_not.mpr hallowed, hdecode,
      hactor, hworkspace]

/-- Only strictly bound tokens are accepted exactly when every payload that passes the other tests
has a single-valued `iss`, an `aud`, and no `nbf` in the future. -/
theorem acceptsOnlyStrictlyBound_iff {Key : Type} (lib : JwtLibrary Key) (codec : Codec)
    (authenticator : JwtAuthenticator Key) (now : Int) (token : String) :
    AcceptsOnlyStrictlyBound lib codec authenticator now token ↔
      ∀ p, PassesOtherChecks lib codec authenticator now token p →
        (∃ value, p.iss = some (.single value)) ∧ p.aud.isSome = true ∧
          p.nbf.all (· ≤ now + leeway) = true := by
  constructor
  · intro h p hp
    obtain ⟨claims, hok⟩ := authenticateToken_isOk_iff.mpr ⟨p, hp⟩
    obtain ⟨q, hq, hstrict⟩ := h claims hok
    have hsame : q = p := Option.some.inj (hq.symm.trans hp.payload)
    subst hsame
    obtain ⟨aud, haud, _⟩ := hstrict.audience
    exact ⟨⟨_, hstrict.issuer⟩, by simp [haud], hstrict.notBefore⟩
  · intro h claims hok
    obtain ⟨p, hp⟩ := authenticateToken_isOk_iff.mp ⟨claims, hok⟩
    obtain ⟨⟨value, hiss⟩, haud, hnbf⟩ := h p hp
    refine ⟨p, hp.payload, ?_, ?_, hp.unexpired, hnbf⟩
    · have hvalue := hp.issuer
      rw [hiss] at hvalue ⊢
      simp only [Option.all_some, StringClaim.names, decide_eq_true_eq] at hvalue
      rw [hvalue]
    · obtain ⟨aud, haud⟩ := Option.isSome_iff_exists.mp haud
      refine ⟨aud, haud, ?_⟩
      have hnames := hp.audience
      rwa [haud, Option.all_some] at hnames

end Authenticate

/-! ## A token without issuer, audience and a past `nbf` -/

/-- A library for which every text is a correctly signed token with the given header and payload. -/
def libraryOf (header : Header) (p : Payload) : JwtLibrary Unit where
  decodeHeader _ := .ok header
  signed _ _ _ := true
  payload _ := some p
  decode _ _ v now :=
    if header.alg ∈ v.algorithms ∧ p.accepted v now = true then
      match p.sub, p.workspaceId with
      | some sub, some workspaceId => .ok ⟨sub, workspaceId⟩
      | _, _ => .error "Json"
    else .error "InvalidToken"
  decode_eq_ok _ _ v now claims := by
    obtain ⟨sub, workspaceId⟩ := claims
    split_ifs with h
    · cases hsub : p.sub with
      | none => simp [hsub]
      | some a =>
          cases hws : p.workspaceId with
          | none => simp [hws]
          | some b => simp [h.1, h.2, hsub, hws]
    · simp only [false_iff, not_exists, not_and]
      rintro _ _ ⟨⟩ halg _ ⟨⟩ haccepted
      exact absurd ⟨halg, haccepted⟩ h

def unboundPayload : Payload where
  iss := none
  aud := none
  exp := some 3600
  nbf := some 1800
  sub := some (Codec.unary.uuidText 1)
  workspaceId := some (Codec.unary.uuidText 2)

def unboundLibrary : JwtLibrary Unit := libraryOf ⟨.RS256, none⟩ unboundPayload

def unboundAuthenticator : JwtAuthenticator Unit where
  issuer := "https://issuer.example"
  audience := "dandori"
  allowedAlgorithms := [.RS256]
  keyset := ⟨[("key", ⟨(), some .RS256⟩)], by simp, none⟩

theorem unboundPayload_passes : PassesOtherChecks unboundLibrary .unary unboundAuthenticator 0
    "token" unboundPayload where
  payload := rfl
  key := ⟨⟨.RS256, none⟩, ⟨(), some .RS256⟩, rfl, rfl, rfl, List.mem_singleton.mpr rfl, rfl⟩
  unexpired := ⟨3600, rfl, by decide⟩
  issuer := rfl
  audience := rfl
  subject := by simp [unboundPayload, Codec.parseUuid_uuidText]

/-- A token that names no issuer and no audience and starts in half an hour is accepted. -/
theorem unboundPayload_authenticated :
    (∃ claims, authenticateToken unboundLibrary .unary unboundAuthenticator 0 "token" =
      .ok claims) ∧
    ¬AcceptsOnlyStrictlyBound unboundLibrary .unary unboundAuthenticator 0 "token" := by
  have hok := authenticateToken_isOk_iff.mpr ⟨_, unboundPayload_passes⟩
  refine ⟨hok, fun h => ?_⟩
  obtain ⟨claims, hclaims⟩ := hok
  obtain ⟨p, hp, hstrict⟩ := h claims hclaims
  cases hp
  cases hstrict.issuer

end Dandori.Authentication
