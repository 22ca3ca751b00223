import Dandori.Authentication
import Dandori.LabelledRun

/-!
# The algorithms of an authenticator

The list of allowed algorithms is parsed once from the environment, and outside the dev profile no
symmetric algorithm passes the parser. The key set is replaced by every successful refresh, but the list
is not, and a token has to name an algorithm of the list whatever key it selects. The JWKS library is
a parameter, and what a refresh loads comes with the event.
-/

namespace Dandori.Authentication

def Algorithm.symmetric : Algorithm → Bool
  | .HS256 => true
  | .HS384 => true
  | .HS512 => true
  | _ => false

/-! ## The configuration -/

/-- What configuration and key loading can fail with. -/
inductive ConfigError
  | missingEnv (name : String)
  | invalidJwksSource
  | invalidEnvNumber (name : String)
  | loadJwks (error : String)
  | invalidJwks (error : String)
  | emptyJwks
  | buildDecodingKey (error : String)
  | algorithmMismatch

inductive AuthProfile
  | dev
  | prod
  deriving DecidableEq

/-- `current_profile`, given the value of `DANDORI_PROFILE` and `cfg!(debug_assertions)`. -/
def currentProfile (value : Option String) (debugAssertions : Bool) : AuthProfile :=
  match value with
  | some "dev" => .dev
  | some _ => .prod
  | none => if debugAssertions then .dev else .prod

/-- One name of the list. -/
def parseAlgorithm (profile : AuthProfile) (item : String) : Except ConfigError Algorithm :=
  match item with
  | "RS256" => .ok .RS256
  | "RS384" => .ok .RS384
  | "RS512" => .ok .RS512
  | "PS256" => .ok .PS256
  | "PS384" => .ok .PS384
  | "PS512" => .ok .PS512
  | "ES256" => .ok .ES256
  | "ES384" => .ok .ES384
  | "EdDSA" => .ok .EdDSA
  | "HS256" => if profile = .dev then .ok .HS256 else .error .algorithmMismatch
  | "HS384" => if profile = .dev then .ok .HS384 else .error .algorithmMismatch
  | "HS512" => if profile = .dev then .ok .HS512 else .error .algorithmMismatch
  | _ => .error .algorithmMismatch

/-- `str::trim`. -/
def trim (value : List Char) : List Char :=
  ((value.dropWhile isWhitespace).reverse.dropWhile isWhitespace).reverse

/-- `value.split(',')`, each item trimmed. -/
def splitItems (value : String) : List String :=
  (value.toList.splitOn ',').map (fun raw => String.ofList (trim raw))

def parseItems (profile : AuthProfile) : List String → Except ConfigError (List Algorithm)
  | [] => .ok []
  | item :: rest =>
      if item.isEmpty then parseItems profile rest
      else match parseAlgorithm profile item with
        | .error e => .error e
        | .ok algorithm => (parseItems profile rest).map (algorithm :: ·)

def parseAllowedAlgorithmsWithProfile (value : String) (profile : AuthProfile) :
    Except ConfigError (List Algorithm) :=
  match parseItems profile (splitItems value) with
  | .error e => .error e
  | .ok parsed => if parsed.isEmpty then .error .algorithmMismatch else .ok parsed

def defaultRuntimeAllowedAlgorithms : List Algorithm :=
  [.RS256, .RS384, .RS512, .PS256, .PS384, .PS512, .ES256, .ES384, .EdDSA]

inductive JwksSource
  | path (path : String)
  | url (url : String)

structure JwksRefreshConfig where
  intervalMillis : ℕ
  timeoutMillis : ℕ
  maxBackoffMillis : ℕ

def JwksRefreshConfig.default : JwksRefreshConfig := ⟨300000, 2000, 300000⟩

structure OidcConfig where
  issuer : String
  audience : String
  jwksSource : JwksSource
  allowedAlgorithms : List Algorithm
  jwksRefresh : JwksRefreshConfig

/-- The environment variables, each `std::env::var(..).ok()`. -/
structure OidcEnv where
  profile : Option String
  issuer : Option String
  audience : Option String
  jwksPath : Option String
  jwksUrl : Option String
  allowedAlgs : Option String
  refreshIntervalMillis : Option String
  refreshTimeoutMillis : Option String
  refreshMaxBackoffMillis : Option String

/-- `str::parse::<u64>`. -/
def parseU64 (raw : String) : Option ℕ :=
  let digits : List Char := match raw.toList with
    | '+' :: rest => rest
    | cs => cs
  let value : ℕ := digits.foldl (fun n c => 10 * n + (c.toNat - '0'.toNat)) 0
  if digits.isEmpty = false ∧ digits.all Char.isDigit ∧ value < 2 ^ 64 then some value else none

def parseEnvU64 (name : String) (value : Option String) (fallback : ℕ) : Except ConfigError ℕ :=
  match value with
  | none => .ok fallback
  | some raw =>
      match parseU64 raw with
      | some n => .ok n
      | none => .error (.invalidEnvNumber name)

def requireEnv (name : String) (value : Option String) : Except ConfigError String :=
  match value with
  | some v => .ok v
  | none => .error (.missingEnv name)

def jwksSourceOf (env : OidcEnv) : Except ConfigError JwksSource :=
  match env.jwksPath, env.jwksUrl with
  | some path, none => .ok (.path path)
  | none, some url => .ok (.url url)
  | _, _ => .error .invalidJwksSource

def allowedAlgorithmsOf (env : OidcEnv) (profile : AuthProfile) :
    Except ConfigError (List Algorithm) :=
  match env.allowedAlgs with
  | some value => parseAllowedAlgorithmsWithProfile value profile
  | none => .ok defaultRuntimeAllowedAlgorithms

/-- `OidcConfig::from_env`. -/
def fromEnv (env : OidcEnv) (debugAssertions : Bool) : Except ConfigError OidcConfig := do
  let issuer ← requireEnv "DANDORI_OIDC_ISSUER" env.issuer
  let audience ← requireEnv "DANDORI_OIDC_AUDIENCE" env.audience
  let jwksSource ← jwksSourceOf env
  let allowedAlgorithms ← allowedAlgorithmsOf env (currentProfile env.profile debugAssertions)
  let intervalMillis ← parseEnvU64 "DANDORI_OIDC_JWKS_REFRESH_INTERVAL_MILLIS"
    env.refreshIntervalMillis JwksRefreshConfig.default.intervalMillis
  let timeoutMillis ← parseEnvU64 "DANDORI_OIDC_JWKS_REFRESH_TIMEOUT_MILLIS"
    env.refreshTimeoutMillis JwksRefreshConfig.default.timeoutMillis
  let maxBackoffMillis ← parseEnvU64 "DANDORI_OIDC_JWKS_REFRESH_MAX_BACKOFF_MILLIS"
    env.refreshMaxBackoffMillis JwksRefreshConfig.default.maxBackoffMillis
  return ⟨issuer, audience, jwksSource, allowedAlgorithms,
    ⟨intervalMillis, timeoutMillis, maxBackoffMillis⟩⟩

/-! ## The key set -/

/-- The algorithms that a JWK can declare. -/
inductive KeyAlgorithm
  | HS256
  | HS384
  | HS512
  | ES256
  | ES384
  | RS256
  | RS384
  | RS512
  | PS256
  | PS384
  | PS512
  | EdDSA
  | RSA1_5
  | RSA_OAEP
  | RSA_OAEP_256

def mapKeyAlgorithm : KeyAlgorithm → Except ConfigError Algorithm
  | .HS256 => .ok .HS256
  | .HS384 => .ok .HS384
  | .HS512 => .ok .HS512
  | .ES256 => .ok .ES256
  | .ES384 => .ok .ES384
  | .RS256 => .ok .RS256
  | .RS384 => .ok .RS384
  | .RS512 => .ok .RS512
  | .PS256 => .ok .PS256
  | .PS384 => .ok .PS384
  | .PS512 => .ok .PS512
  | .EdDSA => .ok .EdDSA
  | _ => .error .algorithmMismatch

/-- A key of a JWKS document; `params` are the key type and its parameters. -/
structure Jwk (Params : Type) where
  keyId : Option String
  keyAlgorithm : Option KeyAlgorithm
  params : Params

/-- `serde_json::from_str::<JwkSet>` and `DecodingKey::from_jwk`. -/
structure JwksLibrary (Params Key : Type) where
  fromStr : String → Except String (List (Jwk Params))
  fromJwk : Jwk Params → Except String Key

section Keyset

variable {Params Key : Type} (jwks : JwksLibrary Params Key)

def tryFromJwk (jwk : Jwk Params) : Except ConfigError (JwkEntry Key) :=
  match jwks.fromJwk jwk with
  | .error e => .error (.buildDecodingKey e)
  | .ok decodingKey =>
      match jwk.keyAlgorithm with
      | none => .ok ⟨decodingKey, none⟩
      | some declared =>
          match mapKeyAlgorithm declared with
          | .error e => .error e
          | .ok algorithm => .ok ⟨decodingKey, some algorithm⟩

namespace JwkKeyset

protected def empty : JwkKeyset Key := ⟨[], List.nodup_nil, none⟩

/-- `HashMap::insert`. -/
def insert (keyset : JwkKeyset Key) (kid : String) (entry : JwkEntry Key) : JwkKeyset Key where
  keys := (kid, entry) :: keyset.keys.filter (fun k => k.1 ≠ kid)
  nodup := by
    rw [List.map_cons, List.nodup_cons]
    refine ⟨fun hmem => ?_, keyset.nodup.sublist (List.filter_sublist.map _)⟩
    obtain ⟨k, hk, hkid⟩ := List.mem_map.mp hmem
    simpa [hkid] using (List.mem_filter.mp hk).2
  fallbackKey := keyset.fallbackKey

def Has (keyset : JwkKeyset Key) (entry : JwkEntry Key) : Prop :=
  (∃ kid, (kid, entry) ∈ keyset.keys) ∨ keyset.fallbackKey = some entry

end JwkKeyset

def addJwk (keyset : JwkKeyset Key) (jwk : Jwk Params) : Except ConfigError (JwkKeyset Key) :=
  match tryFromJwk jwks jwk with
  | .error e => .error e
  | .ok entry =>
      match jwk.keyId with
      | some kid => .ok (keyset.insert kid entry)
      | none =>
          if keyset.fallbackKey.isNone then .ok { keyset with fallbackKey := some entry }
          else .ok keyset

def addJwks : JwkKeyset Key → List (Jwk Params) → Except ConfigError (JwkKeyset Key)
  | keyset, [] => .ok keyset
  | keyset, jwk :: rest =>
      match addJwk jwks keyset jwk with
      | .error e => .error e
      | .ok keyset => addJwks keyset rest

def parseJwks (raw : String) : Except ConfigError (JwkKeyset Key) :=
  match jwks.fromStr raw with
  | .error e => .error (.invalidJwks e)
  | .ok keys =>
      if keys.isEmpty then .error .emptyJwks
      else match addJwks jwks .empty keys with
        | .error e => .error e
        | .ok keyset =>
            if keyset.keys.isEmpty && keyset.fallbackKey.isNone then .error .emptyJwks
            else .ok keyset

/-- `JwtAuthenticator::from_config`, given what loading the JWKS source gave. -/
def fromConfig (config : OidcConfig) (loaded : Except ConfigError String) :
    Except ConfigError (JwtAuthenticator Key) :=
  match loaded with
  | .error e => .error e
  | .ok raw =>
      match parseJwks jwks raw with
      | .error e => .error e
      | .ok keyset => .ok ⟨config.issuer, config.audience, config.allowedAlgorithms, keyset⟩

/-- How one round of the refresh task ends. -/
inductive Refresh
  | loaded (raw : String)
  | failed (error : ConfigError)
  | timedOut

/-- The key set is replaced by a document that parses; everything else stays. -/
def refresh (authenticator : JwtAuthenticator Key) : Refresh → JwtAuthenticator Key
  | .loaded raw =>
      match parseJwks jwks raw with
      | .ok keyset => { authenticator with keyset := keyset }
      | .error _ => authenticator
  | .failed _ => authenticator
  | .timedOut => authenticator

def Refresh.document? : Refresh → Option String
  | .loaded raw => some raw
  | .failed _ => none
  | .timedOut => none

abbrev RefreshRun : JwtAuthenticator Key → List Refresh → JwtAuthenticator Key → Prop :=
  Run (fun authenticator event => some (refresh jwks authenticator event))

/-- The entry was built from a key of the document. -/
def FromDocument (raw : String) (jwk : Jwk Params) (entry : JwkEntry Key) : Prop :=
  ∃ keys, jwks.fromStr raw = .ok keys ∧ jwk ∈ keys ∧ tryFromJwk jwks jwk = .ok entry

end Keyset

/-! ## What passes the parser -/

section Parser

variable {profile : AuthProfile} {algorithm : Algorithm}

theorem parseAlgorithm_eq_ok {item : String} (h : parseAlgorithm profile item = .ok algorithm) :
    item = algorithm.debug ∧ (profile = .prod → algorithm.symmetric = false) := by
  unfold parseAlgorithm at h
  split at h <;> first
    | (cases h; exact ⟨rfl, fun _ => rfl⟩)
    | (split at h <;> cases h; exact ⟨rfl, fun hprod => absurd hprod (by simp_all)⟩)
    | cases h

theorem parseItems_eq_ok {items : List String} {parsed : List Algorithm}
    (h : parseItems profile items = .ok parsed) (hmem : algorithm ∈ parsed) :
    algorithm.debug ∈ items ∧ (profile = .prod → algorithm.symmetric = false) := by
  induction items generalizing parsed with
  | nil =>
      cases h
      cases hmem
  | cons item rest ih =>
      simp only [parseItems] at h
      split_ifs at h
      · obtain ⟨hitem, hsymmetric⟩ := ih h hmem
        exact ⟨List.mem_cons_of_mem _ hitem, hsymmetric⟩
      · cases hitem : parseAlgorithm profile item with
        | error e =>
            rw [hitem] at h
            cases h
        | ok first =>
            rw [hitem] at h
            cases hrest : parseItems profile rest with
            | error e =>
                rw [hrest] at h
                cases h
            | ok others =>
                rw [hrest] at h
                cases h
                rcases List.mem_cons.mp hmem with rfl | hmem
                · obtain ⟨hname, hsymmetric⟩ := parseAlgorithm_eq_ok hitem
                  exact ⟨hname ▸ List.mem_cons_self, hsymmetric⟩
                · obtain ⟨hname, hsymmetric⟩ := ih hrest hmem
                  exact ⟨List.mem_cons_of_mem _ hname, hsymmetric⟩

/-- The algorithm is one of the list: named in the variable, or a default when it is not set. -/
def Named (env : OidcEnv) (algorithm : Algorithm) : Prop :=
  match env.allowedAlgs with
  | some value => algorithm.debug ∈ splitItems value
  | none => algorithm ∈ defaultRuntimeAllowedAlgorithms

theorem allowedAlgorithmsOf_eq_ok {env : OidcEnv} {allowed : List Algorithm}
    (h : allowedAlgorithmsOf env profile = .ok allowed) (hmem : algorithm ∈ allowed) :
    Named env algorithm ∧ (profile = .prod → algorithm.symmetric = false) := by
  unfold allowedAlgorithmsOf at h
  unfold Named
  cases hvalue : env.allowedAlgs with
  | none =>
      rw [hvalue] at h
      cases h
      refine ⟨hmem, fun _ => ?_⟩
      have hall : ∀ a ∈ defaultRuntimeAllowedAlgorithms, a.symmetric = false := by decide
      exact hall algorithm hmem
  | some value =>
      rw [hvalue] at h
      simp only [parseAllowedAlgorithmsWithProfile] at h
      cases hparsed : parseItems profile (splitItems value) with
      | error e =>
          rw [hparsed] at h
          cases h
      | ok parsed =>
          rw [hparsed] at h
          simp only at h
          split_ifs at h
          cases h
          exact parseItems_eq_ok hparsed hmem

theorem bind_eq_ok {ε α β : Type} {x : Except ε α} {f : α → Except ε β} {b : β}
    (h : (x >>= f) = .ok b) : ∃ a, x = .ok a ∧ f a = .ok b := by
  cases x with
  | error e => cases h
  | ok a => exact ⟨a, rfl, h⟩

theorem fromEnv_eq_ok {env : OidcEnv} {debugAssertions : Bool} {config : OidcConfig}
    (h : fromEnv env debugAssertions = .ok config) :
    allowedAlgorithmsOf env (currentProfile env.profile debugAssertions) =
      .ok config.allowedAlgorithms := by
  unfold fromEnv at h
  obtain ⟨_, _, h⟩ := bind_eq_ok h
  obtain ⟨_, _, h⟩ := bind_eq_ok h
  obtain ⟨_, _, h⟩ := bind_eq_ok h
  obtain ⟨allowed, hallowed, h⟩ := bind_eq_ok h
  obtain ⟨_, _, h⟩ := bind_eq_ok h
  obtain ⟨_, _, h⟩ := bind_eq_ok h
  obtain ⟨_, _, h⟩ := bind_eq_ok h
  cases h
  exact hallowed

end Parser

/-! ## What a key set holds -/

section Keyset

variable {Params Key : Type} {jwks : JwksLibrary Params Key} {keyset keyset' : JwkKeyset Key}
  {entry : JwkEntry Key}

theorem JwkKeyset.has_of_select {header : Header} (h : keyset.select header = .ok entry) :
    keyset.Has entry := by
  unfold select at h
  split at h
  · split at h
    · next found hfound =>
        cases h
        obtain ⟨front, back, hkeys, _⟩ := List.lookup_eq_some_iff.mp hfound
        exact Or.inl ⟨_, hkeys ▸ List.mem_append_right _ List.mem_cons_self⟩
    · cases h
  · split_ifs at h
    split at h
    · next kid found hfound =>
        cases h
        exact Or.inl ⟨kid, List.mem_of_mem_head? hfound⟩
    · split at h
      · next found hfound =>
          cases h
          exact Or.inr hfound
      · cases h

/-- A key becomes an entry, which goes under its key id, becomes the fallback key, or is dropped. -/
theorem addJwk_cases {jwk : Jwk Params} (h : addJwk jwks keyset jwk = .ok keyset') :
    ∃ added, tryFromJwk jwks jwk = .ok added ∧
      ((∃ kid, jwk.keyId = some kid ∧ keyset' = keyset.insert kid added) ∨
        (jwk.keyId = none ∧ keyset.fallbackKey = none ∧
          keyset' = { keyset with fallbackKey := some added }) ∨
        (jwk.keyId = none ∧ keyset.fallbackKey.isSome = true ∧ keyset' = keyset)) := by
  unfold addJwk at h
  cases hjwk : tryFromJwk jwks jwk with
  | error e =>
      rw [hjwk] at h
      cases h
  | ok added =>
      simp only [hjwk] at h
      refine ⟨added, rfl, ?_⟩
      cases hkid : jwk.keyId with
      | some kid =>
          simp only [hkid] at h
          cases h
          exact Or.inl ⟨kid, rfl, rfl⟩
      | none =>
          simp only [hkid] at h
          right
          split_ifs at h with hfallback
          · cases h
            exact Or.inl ⟨rfl, Option.isNone_iff_eq_none.mp hfallback, rfl⟩
          · cases h
            exact Or.inr ⟨rfl, by simpa [Option.isSome_iff_ne_none] using hfallback, rfl⟩

theorem addJwks_cons {jwk : Jwk Params} {rest : List (Jwk Params)}
    (h : addJwks jwks keyset (jwk :: rest) = .ok keyset') :
    ∃ middle, addJwk jwks keyset jwk = .ok middle ∧ addJwks jwks middle rest = .ok keyset' := by
  simp only [addJwks] at h
  cases hadd : addJwk jwks keyset jwk with
  | error e =>
      rw [hadd] at h
      cases h
  | ok middle =>
      rw [hadd] at h
      exact ⟨middle, rfl, h⟩

theorem parseJwks_eq_ok {raw : String} (h : parseJwks jwks raw = .ok keyset) :
    ∃ keys, jwks.fromStr raw = .ok keys ∧ keys ≠ [] ∧ addJwks jwks .empty keys = .ok keyset := by
  unfold parseJwks at h
  split at h
  · cases h
  · next keys hkeys =>
      split_ifs at h with hempty
      split at h
      · cases h
      · next parsed hparsed =>
          split_ifs at h
          cases h
          exact ⟨keys, hkeys, fun hnil => hempty (List.isEmpty_iff.mpr hnil), hparsed⟩

theorem has_of_addJwk {jwk : Jwk Params} (h : addJwk jwks keyset jwk = .ok keyset')
    (hentry : keyset'.Has entry) : keyset.Has entry ∨ tryFromJwk jwks jwk = .ok entry := by
  obtain ⟨added, hadded, ⟨kid, _, rfl⟩ | ⟨_, _, rfl⟩ | ⟨_, _, rfl⟩⟩ := addJwk_cases h
  · rcases hentry with ⟨kid', hmem⟩ | hfallback
    · rcases List.mem_cons.mp hmem with hsame | hmem
      · cases hsame
        exact Or.inr hadded
      · exact Or.inl (Or.inl ⟨kid', (List.mem_filter.mp hmem).1⟩)
    · exact Or.inl (Or.inr hfallback)
  · rcases hentry with hkeys | hfallback
    · exact Or.inl (Or.inl hkeys)
    · cases hfallback
      exact Or.inr hadded
  · exact Or.inl hentry

theorem has_of_addJwks {keys : List (Jwk Params)} (h : addJwks jwks keyset keys = .ok keyset')
    (hentry : keyset'.Has entry) :
    keyset.Has entry ∨ ∃ jwk ∈ keys, tryFromJwk jwks jwk = .ok entry := by
  induction keys generalizing keyset with
  | nil =>
      cases h
      exact Or.inl hentry
  | cons jwk rest ih =>
      obtain ⟨middle, hadd, hrest⟩ := addJwks_cons h
      rcases ih hrest with hmiddle | ⟨jwk', hjwk', hbuilt⟩
      · rcases has_of_addJwk hadd hmiddle with hold | hbuilt
        · exact Or.inl hold
        · exact Or.inr ⟨jwk, List.mem_cons_self, hbuilt⟩
      · exact Or.inr ⟨jwk', List.mem_cons_of_mem _ hjwk', hbuilt⟩

theorem fromDocument_of_parseJwks {raw : String} (h : parseJwks jwks raw = .ok keyset)
    (hentry : keyset.Has entry) : ∃ jwk, FromDocument jwks raw jwk entry := by
  obtain ⟨keys, hkeys, _, hparsed⟩ := parseJwks_eq_ok h
  rcases has_of_addJwks hparsed hentry with (⟨kid, hmem⟩ | hnone) | ⟨jwk, hjwk, hbuilt⟩
  · cases hmem
  · cases hnone
  · exact ⟨jwk, keys, hkeys, hjwk, hbuilt⟩

theorem tryFromJwk_algorithm {jwk : Jwk Params} {declared : KeyAlgorithm}
    (h : tryFromJwk jwks jwk = .ok entry) (hdeclared : jwk.keyAlgorithm = some declared) :
    ∃ algorithm, mapKeyAlgorithm declared = .ok algorithm ∧ entry.algorithm = some algorithm := by
  unfold tryFromJwk at h
  split at h
  · cases h
  · rw [hdeclared] at h
    simp only at h
    split at h
    · cases h
    · next algorithm hmapped =>
        cases h
        exact ⟨algorithm, hmapped, rfl⟩

/-- A refresh keeps the list, and takes its keys from a document that has been loaded. -/
theorem refresh_run {a₀ a : JwtAuthenticator Key} {refreshes : List Refresh}
    (h : RefreshRun jwks a₀ refreshes a) :
    a.allowedAlgorithms = a₀.allowedAlgorithms ∧ (a.keyset = a₀.keyset ∨
      ∃ raw ∈ refreshes.filterMap Refresh.document?, parseJwks jwks raw = .ok a.keyset) := by
  have hstart : a₀.allowedAlgorithms = a₀.allowedAlgorithms ∧ (a₀.keyset = a₀.keyset ∨
      ∃ raw ∈ ([] : List Refresh).filterMap Refresh.document?,
        parseJwks jwks raw = .ok a₀.keyset) := ⟨rfl, Or.inl rfl⟩
  refine Run.history (P := fun refreshes a => a.allowedAlgorithms = a₀.allowedAlgorithms ∧
    (a.keyset = a₀.keyset ∨ ∃ raw ∈ refreshes.filterMap Refresh.document?,
      parseJwks jwks raw = .ok a.keyset)) ?_ h hstart
  rintro pre s event t ⟨hlist, hkeys⟩ ⟨⟩
  have hgrow : s.keyset = a₀.keyset ∨ ∃ raw ∈ (pre ++ [event]).filterMap Refresh.document?,
      parseJwks jwks raw = .ok s.keyset := by
    refine hkeys.imp id (fun ⟨raw, hraw, hparsed⟩ => ⟨raw, ?_, hparsed⟩)
    rw [List.filterMap_append]
    exact List.mem_append_left _ hraw
  cases event with
  | loaded raw =>
      simp only [refresh]
      cases hparsed : parseJwks jwks raw with
      | ok keyset =>
          refine ⟨hlist, Or.inr ⟨raw, ?_, hparsed⟩⟩
          rw [List.filterMap_append]
          exact List.mem_append_right _ (List.mem_singleton.mpr rfl)
      | error e => exact ⟨hlist, hgrow⟩
  | failed e => exact ⟨hlist, hgrow⟩
  | timedOut => exact ⟨hlist, hgrow⟩

end Keyset

/-- What an authenticator of the environment accepts: no symmetric algorithm, and only an algorithm of
the list that agrees with what the selected key of a loaded document declares. -/
structure AcceptsNamed {Params Key : Type} (jwt : JwtLibrary Key) (jwks : JwksLibrary Params Key)
    (codec : Codec) (env : OidcEnv) (documents : List String) (a : JwtAuthenticator Key) : Prop where
  symmetric : ∀ now token header, jwt.decodeHeader token = .ok header →
    header.alg.symmetric = true → ∀ claims, authenticateToken jwt codec a now token ≠ .ok claims
  named : ∀ now token claims, authenticateToken jwt codec a now token = .ok claims →
    ∃ header entry, jwt.decodeHeader token = .ok header ∧ Named env header.alg ∧
      a.keyset.select header = .ok entry ∧
      (∀ declared, entry.algorithm = some declared → header.alg = declared) ∧
      ∃ raw ∈ documents, ∃ jwk, FromDocument jwks raw jwk entry ∧
        ∀ declared, jwk.keyAlgorithm = some declared → mapKeyAlgorithm declared = .ok header.alg

/-- In the prod profile, whatever the list of the environment, the documents and the refreshes, no
authenticator accepts a token with a symmetric algorithm. -/
theorem acceptsNamed_of_prod {Params Key : Type} (jwt : JwtLibrary Key)
    (jwks : JwksLibrary Params Key) (codec : Codec) (env : OidcEnv) (debugAssertions : Bool)
    (hprofile : currentProfile env.profile debugAssertions = .prod) {config : OidcConfig}
    (hconfig : fromEnv env debugAssertions = .ok config) {raw : String} {a₀ a : JwtAuthenticator Key}
    (hauthenticator : fromConfig jwks config (.ok raw) = .ok a₀) {refreshes : List Refresh}
    (hrun : RefreshRun jwks a₀ refreshes a) :
    AcceptsNamed jwt jwks codec env (raw :: refreshes.filterMap Refresh.document?) a := by
  obtain ⟨hlist, hkeys⟩ := refresh_run hrun
  have hallowed := fromEnv_eq_ok hconfig
  have hstart : a₀.allowedAlgorithms = config.allowedAlgorithms ∧
      parseJwks jwks raw = .ok a₀.keyset := by
    unfold fromConfig at hauthenticator
    dsimp only at hauthenticator
    split at hauthenticator
    · cases hauthenticator
    · next keyset hparsed =>
        cases hauthenticator
        exact ⟨rfl, hparsed⟩
  have hdocument : ∃ doc ∈ raw :: refreshes.filterMap Refresh.document?,
      parseJwks jwks doc = .ok a.keyset := by
    rcases hkeys with hsame | ⟨doc, hdoc, hparsed⟩
    · exact ⟨raw, List.mem_cons_self, hsame ▸ hstart.2⟩
    · exact ⟨doc, List.mem_cons_of_mem _ hdoc, hparsed⟩
  have haccepted : ∀ now token claims, authenticateToken jwt codec a now token = .ok claims →
      ∃ header entry, jwt.decodeHeader token = .ok header ∧ a.keyset.select header = .ok entry ∧
        entry.algorithm.all (· = header.alg) = true ∧ Named env header.alg ∧
        header.alg.symmetric = false := by
    intro now token claims hok
    obtain ⟨p, hp⟩ := authenticateToken_isOk_iff.mp ⟨claims, hok⟩
    obtain ⟨header, entry, hheader, hselect, hdeclared, hmem, _⟩ := hp.key
    rw [hlist, hstart.1] at hmem
    obtain ⟨hnamed, hsymmetric⟩ := allowedAlgorithmsOf_eq_ok hallowed hmem
    exact ⟨header, entry, hheader, hselect, hdeclared, hnamed, hsymmetric hprofile⟩
  constructor
  · intro now token header hheader hsymmetric claims hok
    obtain ⟨header', _, hheader', _, _, _, hnot⟩ := haccepted now token claims hok
    have hsame : header' = header := Except.ok.inj (hheader'.symm.trans hheader)
    rw [hsame, hsymmetric] at hnot
    cases hnot
  · intro now token claims hok
    obtain ⟨header, entry, hheader, hselect, hdeclared, hnamed, _⟩ := haccepted now token claims hok
    have hagrees : ∀ declared, entry.algorithm = some declared → header.alg = declared := by
      intro declared hsome
      rw [hsome, Option.all_some, decide_eq_true_eq] at hdeclared
      exact hdeclared.symm
    obtain ⟨doc, hdoc, hparsed⟩ := hdocument
    obtain ⟨jwk, hjwk⟩ := fromDocument_of_parseJwks hparsed (JwkKeyset.has_of_select hselect)
    refine ⟨header, entry, hheader, hnamed, hselect, hagrees, doc, hdoc, jwk, hjwk, ?_⟩
    intro declared hsome
    obtain ⟨_, _, _, hbuilt⟩ := hjwk
    obtain ⟨algorithm, hmapped, hentry⟩ := tryFromJwk_algorithm hbuilt hsome
    rw [hmapped, hagrees algorithm hentry]

/-! ## A rotation to a symmetric key -/

example : parseAllowedAlgorithmsWithProfile "RS256,HS256" .prod = .error .algorithmMismatch := by
  rfl

/-- The first document holds an RSA key, the later ones an `oct` key without an algorithm. -/
def rotatingLibrary : JwksLibrary Unit Unit where
  fromStr raw :=
    if raw = "rsa" then .ok [⟨some "key", some .RS256, ()⟩] else .ok [⟨some "key", none, ()⟩]
  fromJwk _ := .ok ()

def prodEnv : OidcEnv where
  profile := none
  issuer := some "https://issuer.example"
  audience := some "dandori"
  jwksPath := some "jwks.json"
  jwksUrl := none
  allowedAlgs := some " RS256, ES256,"
  refreshIntervalMillis := none
  refreshTimeoutMillis := none
  refreshMaxBackoffMillis := none

theorem acceptsNamed_of_rotation : currentProfile prodEnv.profile false = .prod ∧
    ∃ config a₀ a, fromEnv prodEnv false = .ok config ∧
      config.allowedAlgorithms = [.RS256, .ES256] ∧
      fromConfig rotatingLibrary config (.ok "rsa") = .ok a₀ ∧
      RefreshRun rotatingLibrary a₀ [.timedOut, .loaded "oct"] a ∧
      AcceptsNamed (libraryOf ⟨.HS256, some "key"⟩ unboundPayload) rotatingLibrary .unary prodEnv
        ["rsa", "oct"] a := by
  have hconfig : fromEnv prodEnv false = .ok ⟨"https://issuer.example", "dandori",
    .path "jwks.json", [.RS256, .ES256], .default⟩ := by rfl
  have hrun : RefreshRun rotatingLibrary ⟨"https://issuer.example", "dandori", [.RS256, .ES256],
      JwkKeyset.empty.insert "key" ⟨(), some .RS256⟩⟩ [.timedOut, .loaded "oct"] _ := Run.of_foldlM rfl
  exact ⟨rfl, _, _, _, hconfig, rfl, rfl, hrun,
    acceptsNamed_of_prod _ rotatingLibrary .unary prodEnv false rfl hconfig rfl hrun⟩

end Dandori.Authentication
