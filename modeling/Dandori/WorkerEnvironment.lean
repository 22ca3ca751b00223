import Dandori.IntegerText
import Dandori.WorkerService

/-!
# The environment of the worker binary

`main` reads its configuration from environment variables, one after another, and stops at the first
that is not accepted. A number is parsed in the integer type of its field and compared with inclusive
bounds; the bucket window is written `MIN..MAX`. What a worker starts with is exactly what its
variables say, and every configuration within the bounds can be written down for it.
-/

namespace Dandori

open PartitionRepository

namespace WorkerEnvironment

/-! ## Reading variables -/

/-- `std::env::var`; a value that is not Unicode comes with its `Debug` text. -/
inductive Var
  | notPresent
  | notUnicode (raw : String)
  | present (raw : String)

/-- What `main` starts from: the variables, the `Debug` text of a string, UUIDs in text, and the id
generated for a worker without one. -/
structure Process where
  codec : Codec
  var : String → Var
  debug : String → String
  nowV7 : Uuid

def u32 : IntType := ⟨0, 2 ^ 32 - 1, by decide⟩

def u64 : IntType := ⟨0, 2 ^ 64 - 1, by decide⟩

/-- On the 64-bit targets of the binary. -/
def usize : IntType := ⟨0, 2 ^ 64 - 1, by decide⟩

def i32 : IntType := ⟨-2 ^ 31, 2 ^ 31 - 1, by decide⟩

def i64 : IntType := ⟨-2 ^ 63, 2 ^ 63 - 1, by decide⟩

/-- A numeric variable. Its default passes its own check, and the bounds are values of its type. -/
structure Setting where
  name : String
  ty : IntType
  default : Int
  min : Int
  max : Int
  default_mem : min ≤ default ∧ default ≤ max
  fits : ty.min ≤ min ∧ max ≤ ty.max

def Setting.intervalMs : Setting :=
  ⟨"DANDORI_WORKER_INTERVAL_MS", u64, 1000, 50, 600000, by decide, by decide⟩

def Setting.partitionBatch : Setting :=
  ⟨"DANDORI_WORKER_PARTITION_BATCH", usize, 64, 1, 10000, by decide, by decide⟩

def Setting.partitionLeaseSeconds : Setting :=
  ⟨"DANDORI_WORKER_PARTITION_LEASE_SECONDS", i64, 60, 1, 3600, by decide, by decide⟩

def Setting.publishConcurrency : Setting :=
  ⟨"DANDORI_WORKER_PUBLISH_CONCURRENCY", usize, 8, 1, 256, by decide, by decide⟩

def Setting.tenantMaxConcurrency : Setting :=
  ⟨"DANDORI_WORKER_TENANT_MAX_CONCURRENCY", usize, 8, 1, 256, by decide, by decide⟩

def Setting.httpConnectTimeoutMs : Setting :=
  ⟨"DANDORI_WORKER_HTTP_CONNECT_TIMEOUT_MS", u64, 2000, 1, 120000, by decide, by decide⟩

def Setting.httpRequestTimeoutMs : Setting :=
  ⟨"DANDORI_WORKER_HTTP_REQUEST_TIMEOUT_MS", u64, 10000, 1, 600000, by decide, by decide⟩

def Setting.retryJitterMs : Setting :=
  ⟨"DANDORI_WORKER_RETRY_JITTER_MS", u64, 2000, 0, 60000, by decide, by decide⟩

def Setting.circuitFailureThreshold : Setting :=
  ⟨"DANDORI_WORKER_CIRCUIT_FAILURE_THRESHOLD", u32, 10, 0, 10000, by decide, by decide⟩

def Setting.circuitCooldownSeconds : Setting :=
  ⟨"DANDORI_WORKER_CIRCUIT_COOLDOWN_SECONDS", i64, 30, 0, 3600, by decide, by decide⟩

def Setting.batchSize : Setting := ⟨"DANDORI_WORKER_BATCH_SIZE", i64, 32, 1, 10000, by decide, by decide⟩

def Setting.leaseSeconds : Setting :=
  ⟨"DANDORI_WORKER_LEASE_SECONDS", i64, 30, 1, 3600, by decide, by decide⟩

def Setting.maxAttempts : Setting :=
  ⟨"DANDORI_WORKER_MAX_ATTEMPTS", i32, 5, 1, 1000, by decide, by decide⟩

def Setting.retryBackoffSeconds : Setting :=
  ⟨"DANDORI_WORKER_RETRY_BACKOFF_SECONDS", i64, 15, 0, 3600, by decide, by decide⟩

def Setting.deliveredRetentionHours : Setting :=
  ⟨"DANDORI_WORKER_DELIVERED_RETENTION_HOURS", i64, 24, 1, 8760, by decide, by decide⟩

def Setting.deadLetterRetentionHours : Setting :=
  ⟨"DANDORI_WORKER_DEAD_LETTER_RETENTION_HOURS", i64, 168, 1, 17520, by decide, by decide⟩

def Setting.idempotencyRetentionHours : Setting :=
  ⟨"DANDORI_WORKER_IDEMPOTENCY_RETENTION_HOURS", i64, 168, 1, 17520, by decide, by decide⟩

def Setting.httpPoolMaxIdlePerHost : Setting :=
  ⟨"DANDORI_WORKER_HTTP_POOL_MAX_IDLE_PER_HOST", usize, 16, 0, 1024, by decide, by decide⟩

/-- `text.split_once(separator)` on the characters. -/
def splitOnce (separator : List Char) : List Char → Option (List Char × List Char)
  | [] => if separator.isEmpty then some ([], []) else none
  | c :: cs =>
      if separator.isPrefixOf (c :: cs) then some ([], (c :: cs).drop separator.length)
      else (splitOnce separator cs).map (fun p => (c :: p.1, p.2))

def parseBounded (debug : String → String) (s : Setting) (raw : Option String) : Except String Int :=
  match raw with
  | none => .ok s.default
  | some raw =>
      match s.ty.parse raw with
      | .error err => .error s!"{s.name} invalid value {debug raw}: {err.message}"
      | .ok parsed =>
          if s.min ≤ parsed ∧ parsed ≤ s.max then .ok parsed
          else .error s!"{s.name}={parsed} out of range [{s.min}, {s.max}]"

def parseBool (debug : String → String) (name : String) (raw : Option String) (default : Bool) :
    Except String Bool :=
  match raw with
  | none => .ok default
  | some raw =>
      let lower := raw.map Char.toLower
      if lower ∈ ["1", "true", "yes", "on"] then .ok true
      else if lower ∈ ["0", "false", "no", "off", ""] then .ok false
      else .error s!"{name} invalid boolean: {debug lower}"

/-- The message of a refused window; `ShardBucketRange.new` has no other error. -/
def rangeMessage (e : StoreError) : String :=
  match e with
  | .invalidInput message => s!"invalid input: {message}"
  | _ => ""

def parseBucketRange (debug : String → String) (name : String) (raw : Option String) :
    Except String ShardBucketRange :=
  match raw with
  | none => .ok .full
  | some raw =>
      match splitOnce ['.', '.'] raw.toList with
      | none => .error s!"{name} must be formatted as MIN..MAX, got {debug raw}"
      | some (minStr, maxStr) =>
          match i32.parse (String.ofList minStr) with
          | .error _ => .error s!"{name} min {debug (String.ofList minStr)} is not an integer"
          | .ok min =>
              match i32.parse (String.ofList maxStr) with
              | .error _ => .error s!"{name} max {debug (String.ofList maxStr)} is not an integer"
              | .ok max =>
                  match ShardBucketRange.new min max with
                  | .error err => .error s!"{name} invalid shard bucket range: {rangeMessage err}"
                  | .ok buckets => .ok buckets

section Read

variable (p : Process)

def readEnv (name : String) : Except String (Option String) :=
  match p.var name with
  | .present raw => .ok (some raw)
  | .notPresent => .ok none
  | .notUnicode raw => .error s!"{name} contains non-UTF8 bytes: {raw}"

def parseEnvBounded (s : Setting) : Except String Int := do
  let raw ← readEnv p s.name
  parseBounded p.debug s raw

def parseEnvBool (name : String) (default : Bool) : Except String Bool := do
  let raw ← readEnv p name
  parseBool p.debug name raw default

def parseShardBucketRange (name : String) : Except String ShardBucketRange := do
  let raw ← readEnv p name
  parseBucketRange p.debug name raw

def databaseUrl : Except String String :=
  match p.var "DANDORI_DATABASE_URL" with
  | .present raw => .ok raw
  | _ => .error "DANDORI_DATABASE_URL is required"

def workerInstanceId : Except String Uuid :=
  match p.var "DANDORI_WORKER_INSTANCE_ID" with
  | .present raw =>
      match p.codec.parseUuid raw with
      | some id => .ok id
      | none => .error s!"DANDORI_WORKER_INSTANCE_ID invalid uuid: {p.debug raw}"
  | .notPresent => .ok p.nowV7
  | .notUnicode raw => .error s!"DANDORI_WORKER_INSTANCE_ID contains non-UTF8 bytes: {raw}"

end Read

/-- What `main` has read when it builds the service. The fields of `OutboxWorkerConfig` for the HTTP
publisher come beside it. -/
structure Resolved where
  databaseUrl : String
  runMigrations : Bool
  intervalMs : ℕ
  config : OutboxWorkerConfig
  httpConnectTimeoutMs : ℕ
  httpRequestTimeoutMs : ℕ
  httpPoolMaxIdlePerHost : ℕ
  circuitFailureThreshold : UInt32
  circuitCooldownSeconds : Int

/-- `main` up to the call of `build_outbox_worker_service`. -/
def resolve (p : Process) : Except String Resolved := do
  let databaseUrl ← databaseUrl p
  let runMigrations ← parseEnvBool p "DANDORI_RUN_MIGRATIONS" false
  let workerInstanceId ← workerInstanceId p
  let intervalMs ← parseEnvBounded p .intervalMs
  let partitionBatch ← parseEnvBounded p .partitionBatch
  let partitionLeaseSeconds ← parseEnvBounded p .partitionLeaseSeconds
  let publishConcurrency ← parseEnvBounded p .publishConcurrency
  let tenantMaxConcurrency ← parseEnvBounded p .tenantMaxConcurrency
  let httpConnectTimeoutMs ← parseEnvBounded p .httpConnectTimeoutMs
  let httpRequestTimeoutMs ← parseEnvBounded p .httpRequestTimeoutMs
  let retryJitterMs ← parseEnvBounded p .retryJitterMs
  let circuitFailureThreshold ← parseEnvBounded p .circuitFailureThreshold
  let circuitCooldownSeconds ← parseEnvBounded p .circuitCooldownSeconds
  let batchSize ← parseEnvBounded p .batchSize
  let leaseSeconds ← parseEnvBounded p .leaseSeconds
  let maxAttempts ← parseEnvBounded p .maxAttempts
  let retryBackoffSeconds ← parseEnvBounded p .retryBackoffSeconds
  let deliveredRetentionHours ← parseEnvBounded p .deliveredRetentionHours
  let deadLetterRetentionHours ← parseEnvBounded p .deadLetterRetentionHours
  let idempotencyRetentionHours ← parseEnvBounded p .idempotencyRetentionHours
  let httpPoolMaxIdlePerHost ← parseEnvBounded p .httpPoolMaxIdlePerHost
  let partitionShardBuckets ← parseShardBucketRange p "DANDORI_WORKER_BUCKET_RANGE"
  return {
    databaseUrl
    runMigrations
    intervalMs := intervalMs.toNat
    config := {
      workspaceIds := none
      workerInstanceId
      batchSize
      leaseSeconds
      maxAttempts := Int32.ofInt maxAttempts
      retryBackoffSeconds
      deliveredRetentionHours
      deadLetterRetentionHours
      idempotencyRetentionHours
      publishConcurrency := publishConcurrency.toNat
      retryJitterMs := retryJitterMs.toNat
      partitionBatch := partitionBatch.toNat
      partitionLeaseSeconds
      partitionShardBuckets
      tenantMaxConcurrency := tenantMaxConcurrency.toNat }
    httpConnectTimeoutMs := httpConnectTimeoutMs.toNat
    httpRequestTimeoutMs := httpRequestTimeoutMs.toNat
    httpPoolMaxIdlePerHost := httpPoolMaxIdlePerHost.toNat
    circuitFailureThreshold := UInt32.ofNat circuitFailureThreshold.toNat
    circuitCooldownSeconds }

/-! ## What the variables say -/

section Spec

variable (p : Process)

/-- The variable is not set and `n` is the default, or it is set to a text of `n` within the bounds. -/
def Reads (s : Setting) (n : Int) : Prop :=
  (p.var s.name = .notPresent ∧ n = s.default) ∨
    ∃ raw, p.var s.name = .present raw ∧ s.ty.Writes raw n ∧ s.min ≤ n ∧ n ≤ s.max

def ReadsBool (name : String) (default b : Bool) : Prop :=
  (p.var name = .notPresent ∧ b = default) ∨
    ∃ raw, p.var name = .present raw ∧
      (b = true ∧ raw.map Char.toLower ∈ ["1", "true", "yes", "on"] ∨
        b = false ∧ raw.map Char.toLower ∈ ["0", "false", "no", "off", ""])

/-- Two numbers with `..` between them, the first one not greater than the second. -/
def ReadsBuckets (name : String) (buckets : ShardBucketRange) : Prop :=
  (p.var name = .notPresent ∧ buckets = .full) ∨
    ∃ raw minStr maxStr, p.var name = .present raw ∧
      splitOnce ['.', '.'] raw.toList = some (minStr, maxStr) ∧
      i32.Writes (String.ofList minStr) buckets.min ∧ i32.Writes (String.ofList maxStr) buckets.max

/-- The id in the variable, or the generated one. -/
def ReadsInstanceId (id : Uuid) : Prop :=
  (p.var "DANDORI_WORKER_INSTANCE_ID" = .notPresent ∧ id = p.nowV7) ∨
    ∃ raw, p.var "DANDORI_WORKER_INSTANCE_ID" = .present raw ∧ p.codec.parseUuid raw = some id

/-- Every field is what its variable says. -/
structure Describes (r : Resolved) : Prop where
  databaseUrl : p.var "DANDORI_DATABASE_URL" = .present r.databaseUrl
  runMigrations : ReadsBool p "DANDORI_RUN_MIGRATIONS" false r.runMigrations
  workspaceIds : r.config.workspaceIds = none
  workerInstanceId : ReadsInstanceId p r.config.workerInstanceId
  intervalMs : Reads p .intervalMs r.intervalMs
  partitionBatch : Reads p .partitionBatch r.config.partitionBatch
  partitionLeaseSeconds : Reads p .partitionLeaseSeconds r.config.partitionLeaseSeconds
  publishConcurrency : Reads p .publishConcurrency r.config.publishConcurrency
  tenantMaxConcurrency : Reads p .tenantMaxConcurrency r.config.tenantMaxConcurrency
  httpConnectTimeoutMs : Reads p .httpConnectTimeoutMs r.httpConnectTimeoutMs
  httpRequestTimeoutMs : Reads p .httpRequestTimeoutMs r.httpRequestTimeoutMs
  retryJitterMs : Reads p .retryJitterMs r.config.retryJitterMs
  circuitFailureThreshold : Reads p .circuitFailureThreshold r.circuitFailureThreshold.toNat
  circuitCooldownSeconds : Reads p .circuitCooldownSeconds r.circuitCooldownSeconds
  batchSize : Reads p .batchSize r.config.batchSize
  leaseSeconds : Reads p .leaseSeconds r.config.leaseSeconds
  maxAttempts : Reads p .maxAttempts r.config.maxAttempts.toInt
  retryBackoffSeconds : Reads p .retryBackoffSeconds r.config.retryBackoffSeconds
  deliveredRetentionHours : Reads p .deliveredRetentionHours r.config.deliveredRetentionHours
  deadLetterRetentionHours : Reads p .deadLetterRetentionHours r.config.deadLetterRetentionHours
  idempotencyRetentionHours : Reads p .idempotencyRetentionHours r.config.idempotencyRetentionHours
  httpPoolMaxIdlePerHost : Reads p .httpPoolMaxIdlePerHost r.httpPoolMaxIdlePerHost
  partitionShardBuckets :
    ReadsBuckets p "DANDORI_WORKER_BUCKET_RANGE" r.config.partitionShardBuckets

end Spec

section Readers

variable {p : Process} {s : Setting} {n : Int} {name : String}

theorem bind_eq_ok_iff {α β : Type} {x : Except String α} {f : α → Except String β} {b : β} :
    (x >>= f) = .ok b ↔ ∃ a, x = .ok a ∧ f a = .ok b := by
  cases x with
  | error e =>
      refine iff_of_false nofun ?_
      rintro ⟨_, h, _⟩
      cases h
  | ok a =>
      constructor
      · exact fun h => ⟨a, rfl, h⟩
      · rintro ⟨_, h, hf⟩
        cases h
        exact hf

theorem readEnv_bind_eq_ok_iff {α : Type} {f : Option String → Except String α} {a : α} :
    (readEnv p name >>= f) = .ok a ↔ (p.var name = .notPresent ∧ f none = .ok a) ∨
      ∃ raw, p.var name = .present raw ∧ f (some raw) = .ok a := by
  unfold readEnv
  cases p.var name with
  | notPresent =>
      refine ⟨fun h => Or.inl ⟨rfl, h⟩, ?_⟩
      rintro (⟨_, h⟩ | ⟨_, h, _⟩)
      · exact h
      · cases h
  | notUnicode raw =>
      refine iff_of_false nofun ?_
      rintro (⟨h, _⟩ | ⟨_, h, _⟩) <;> cases h
  | present raw =>
      refine ⟨fun h => Or.inr ⟨raw, rfl, h⟩, ?_⟩
      rintro (⟨h, _⟩ | ⟨_, h, hf⟩)
      · cases h
      · cases h
        exact hf

theorem Reads.bounds (h : Reads p s n) : s.min ≤ n ∧ n ≤ s.max := by
  rcases h with ⟨_, rfl⟩ | ⟨_, _, _, hbounds⟩
  · exact s.default_mem
  · exact hbounds

theorem parseBounded_some_eq_ok_iff {debug : String → String} {raw : String} :
    parseBounded debug s (some raw) = .ok n ↔ s.ty.Writes raw n ∧ s.min ≤ n ∧ n ≤ s.max := by
  have hfits : s.min ≤ n ∧ n ≤ s.max → s.ty.Fits n := fun h =>
    ⟨s.fits.1.trans h.1, h.2.trans s.fits.2⟩
  have hparse : s.ty.Writes raw n ∧ s.min ≤ n ∧ n ≤ s.max ↔
      s.ty.parse raw = .ok n ∧ s.min ≤ n ∧ n ≤ s.max := by
    rw [IntType.parse_eq_ok_iff]
    tauto
  rw [hparse, parseBounded]
  cases s.ty.parse raw with
  | error err => simp
  | ok parsed =>
      by_cases hbounds : s.min ≤ parsed ∧ parsed ≤ s.max
      · simp only [if_pos hbounds, Except.ok.injEq]
        constructor
        · rintro rfl
          exact ⟨rfl, hbounds⟩
        · exact fun h => h.1
      · simp only [if_neg hbounds, Except.ok.injEq]
        refine iff_of_false nofun ?_
        rintro ⟨rfl, h⟩
        exact hbounds h

theorem parseEnvBounded_eq_ok_iff : parseEnvBounded p s = .ok n ↔ Reads p s n := by
  have hdefault : parseBounded p.debug s none = .ok n ↔ n = s.default := by
    rw [parseBounded, Except.ok.injEq, eq_comm]
  unfold parseEnvBounded Reads
  simp only [readEnv_bind_eq_ok_iff, hdefault, parseBounded_some_eq_ok_iff]

theorem Reads.unique {m : Int} (hn : Reads p s n) (hm : Reads p s m) : n = m :=
  Except.ok.inj ((parseEnvBounded_eq_ok_iff.mpr hn).symm.trans (parseEnvBounded_eq_ok_iff.mpr hm))

theorem parseEnvBool_eq_ok_iff {default b : Bool} :
    parseEnvBool p name default = .ok b ↔ ReadsBool p name default b := by
  have hapart : ∀ text ∈ ["1", "true", "yes", "on"], text ∉ ["0", "false", "no", "off", ""] := by decide
  have hsome : ∀ raw, parseBool p.debug name (some raw) default = .ok b ↔
      (b = true ∧ raw.map Char.toLower ∈ ["1", "true", "yes", "on"] ∨
        b = false ∧ raw.map Char.toLower ∈ ["0", "false", "no", "off", ""]) := by
    intro raw
    unfold parseBool
    by_cases htrue : raw.map Char.toLower ∈ ["1", "true", "yes", "on"]
    · have hfalse := hapart _ htrue
      simp only [if_pos htrue, Except.ok.injEq]
      tauto
    · by_cases hfalse : raw.map Char.toLower ∈ ["0", "false", "no", "off", ""]
      · simp only [if_neg htrue, if_pos hfalse, Except.ok.injEq]
        tauto
      · simp only [if_neg htrue, if_neg hfalse]
        exact iff_of_false nofun (by tauto)
  have hnone : parseBool p.debug name none default = .ok b ↔ b = default := by
    rw [parseBool, Except.ok.injEq, eq_comm]
  unfold parseEnvBool ReadsBool
  simp only [readEnv_bind_eq_ok_iff, hnone, hsome]

theorem new_eq_ok_iff {min max : Int} {buckets : ShardBucketRange} :
    ShardBucketRange.new min max = .ok buckets ↔ min = buckets.min ∧ max = buckets.max := by
  obtain ⟨lo, hi, hlo, hle, hhi⟩ := buckets
  unfold ShardBucketRange.new
  constructor
  · intro h
    split_ifs at h
    cases h
    exact ⟨rfl, rfl⟩
  · rintro ⟨rfl, rfl⟩
    rw [dif_pos ⟨⟨hlo, hle.trans hhi⟩, hlo.trans hle, hhi⟩, dif_neg (Int.not_lt.mpr hle)]

theorem parseShardBucketRange_eq_ok_iff {buckets : ShardBucketRange} :
    parseShardBucketRange p name = .ok buckets ↔ ReadsBuckets p name buckets := by
  have hmin : i32.Fits buckets.min := by
    have hbounds := buckets.bounds
    simp only [IntType.Fits, i32, maxBucket] at hbounds ⊢
    omega
  have hmax : i32.Fits buckets.max := by
    have hbounds := buckets.bounds
    simp only [IntType.Fits, i32, maxBucket] at hbounds ⊢
    omega
  have hsome : ∀ raw, parseBucketRange p.debug name (some raw) = .ok buckets ↔
      ∃ minStr maxStr, splitOnce ['.', '.'] raw.toList = some (minStr, maxStr) ∧
        i32.Writes (String.ofList minStr) buckets.min ∧
        i32.Writes (String.ofList maxStr) buckets.max := by
    intro raw
    simp only [parseBucketRange]
    constructor
    · intro h
      split at h
      · cases h
      · next minStr maxStr hsplit =>
          split at h
          · cases h
          · next min hmin =>
              split at h
              · cases h
              · next max hmax =>
                  split at h
                  · cases h
                  · next hnew =>
                      cases h
                      obtain ⟨rfl, rfl⟩ := new_eq_ok_iff.mp hnew
                      exact ⟨minStr, maxStr, hsplit, (IntType.parse_eq_ok_iff.mp hmin).1,
                        (IntType.parse_eq_ok_iff.mp hmax).1⟩
    · rintro ⟨minStr, maxStr, hsplit, hlo, hhi⟩
      simp only [hsplit, IntType.parse_eq_ok_iff.mpr ⟨hlo, hmin⟩, IntType.parse_eq_ok_iff.mpr ⟨hhi, hmax⟩,
        new_eq_ok_iff.mpr ⟨rfl, rfl⟩]
  have hnone : parseBucketRange p.debug name none = .ok buckets ↔ buckets = .full := by
    rw [parseBucketRange, Except.ok.injEq, eq_comm]
  unfold parseShardBucketRange ReadsBuckets
  simp only [readEnv_bind_eq_ok_iff, hnone, hsome]
  tauto

theorem ReadsBuckets.unique {b c : ShardBucketRange} (hb : ReadsBuckets p name b)
    (hc : ReadsBuckets p name c) : b = c :=
  Except.ok.inj ((parseShardBucketRange_eq_ok_iff.mpr hb).symm.trans
    (parseShardBucketRange_eq_ok_iff.mpr hc))

theorem databaseUrl_eq_ok_iff {url : String} :
    databaseUrl p = .ok url ↔ p.var "DANDORI_DATABASE_URL" = .present url := by
  unfold databaseUrl
  cases p.var "DANDORI_DATABASE_URL" <;> simp

theorem workerInstanceId_eq_ok_iff {id : Uuid} :
    workerInstanceId p = .ok id ↔ ReadsInstanceId p id := by
  unfold workerInstanceId ReadsInstanceId
  cases p.var "DANDORI_WORKER_INSTANCE_ID" with
  | notPresent => simp [eq_comm]
  | notUnicode raw => simp
  | present raw => cases h : p.codec.parseUuid raw <;> simp [h]

end Readers

/-! ## The whole configuration -/

section Resolve

variable {p : Process} {r : Resolved}

theorem Reads.toNat {s : Setting} {n : Int} (hs : 0 ≤ s.min) (h : Reads p s n) :
    Reads p s (n.toNat : Int) := by
  rwa [Int.toNat_of_nonneg (hs.trans h.bounds.1)]

theorem Reads.ofInt {n : Int} (h : Reads p .maxAttempts n) :
    Reads p .maxAttempts (Int32.ofInt n).toInt := by
  have hbounds := h.bounds
  simp only [Setting.maxAttempts] at hbounds
  rwa [Int32.toInt_ofInt_of_le (by omega) (by omega)]

theorem Reads.ofNat {n : Int} (h : Reads p .circuitFailureThreshold n) :
    Reads p .circuitFailureThreshold ((UInt32.ofNat n.toNat).toNat : Int) := by
  have hbounds := h.bounds
  simp only [Setting.circuitFailureThreshold] at hbounds
  have hnat : (UInt32.ofNat n.toNat).toNat = n.toNat := by
    rw [UInt32.toNat_ofNat', Nat.mod_eq_of_lt (by omega)]
  rw [hnat]
  exact h.toNat (by decide)

theorem describes_iff : resolve p = .ok r ↔ Describes p r := by
  simp only [resolve, bind_eq_ok_iff, databaseUrl_eq_ok_iff, parseEnvBool_eq_ok_iff,
    workerInstanceId_eq_ok_iff, parseEnvBounded_eq_ok_iff, parseShardBucketRange_eq_ok_iff]
  constructor
  · rintro ⟨url, hurl, migrations, hmigrations, id, hid, interval, hinterval, batch, hbatch, lease,
      hlease, publish, hpublish, tenant, htenant, connect, hconnect, request, hrequest, jitter, hjitter,
      threshold, hthreshold, cooldown, hcooldown, size, hsize, seconds, hseconds, attempts, hattempts,
      backoff, hbackoff, delivered, hdelivered, dead, hdead, idempotency, hidempotency, pool, hpool,
      buckets, hbuckets, hr⟩
    cases hr
    exact {
      databaseUrl := hurl
      runMigrations := hmigrations
      workspaceIds := rfl
      workerInstanceId := hid
      intervalMs := hinterval.toNat (by decide)
      partitionBatch := hbatch.toNat (by decide)
      partitionLeaseSeconds := hlease
      publishConcurrency := hpublish.toNat (by decide)
      tenantMaxConcurrency := htenant.toNat (by decide)
      httpConnectTimeoutMs := hconnect.toNat (by decide)
      httpRequestTimeoutMs := hrequest.toNat (by decide)
      retryJitterMs := hjitter.toNat (by decide)
      circuitFailureThreshold := hthreshold.ofNat
      circuitCooldownSeconds := hcooldown
      batchSize := hsize
      leaseSeconds := hseconds
      maxAttempts := hattempts.ofInt
      retryBackoffSeconds := hbackoff
      deliveredRetentionHours := hdelivered
      deadLetterRetentionHours := hdead
      idempotencyRetentionHours := hidempotency
      httpPoolMaxIdlePerHost := hpool.toNat (by decide)
      partitionShardBuckets := hbuckets }
  · intro h
    have hthreshold : UInt32.ofNat ((r.circuitFailureThreshold.toNat : Int).toNat) =
        r.circuitFailureThreshold := by
      rw [Int.toNat_natCast, UInt32.ofNat_toNat]
    have hattempts : Int32.ofInt r.config.maxAttempts.toInt = r.config.maxAttempts := by
      rw [Int32.ofInt_toInt]
    refine ⟨_, h.databaseUrl, _, h.runMigrations, _, h.workerInstanceId, _, h.intervalMs, _,
      h.partitionBatch, _, h.partitionLeaseSeconds, _, h.publishConcurrency, _, h.tenantMaxConcurrency,
      _, h.httpConnectTimeoutMs, _, h.httpRequestTimeoutMs, _, h.retryJitterMs, _,
      h.circuitFailureThreshold, _, h.circuitCooldownSeconds, _, h.batchSize, _, h.leaseSeconds, _,
      h.maxAttempts, _, h.retryBackoffSeconds, _, h.deliveredRetentionHours, _,
      h.deadLetterRetentionHours, _, h.idempotencyRetentionHours, _, h.httpPoolMaxIdlePerHost, _,
      h.partitionShardBuckets, ?_⟩
    rw [hthreshold, hattempts, ← h.workspaceIds]
    rfl

end Resolve

/-! ## Configurations that can be written down -/

def Setting.Within (s : Setting) (n : Int) : Prop := s.min ≤ n ∧ n ≤ s.max

instance (s : Setting) (n : Int) : Decidable (s.Within n) := inferInstanceAs (Decidable (_ ∧ _))

/-- Workspaces are leased dynamically, and every number is within its bounds. -/
structure Resolved.InBounds (r : Resolved) : Prop where
  workspaceIds : r.config.workspaceIds = none
  intervalMs : Setting.intervalMs.Within r.intervalMs
  partitionBatch : Setting.partitionBatch.Within r.config.partitionBatch
  partitionLeaseSeconds : Setting.partitionLeaseSeconds.Within r.config.partitionLeaseSeconds
  publishConcurrency : Setting.publishConcurrency.Within r.config.publishConcurrency
  tenantMaxConcurrency : Setting.tenantMaxConcurrency.Within r.config.tenantMaxConcurrency
  httpConnectTimeoutMs : Setting.httpConnectTimeoutMs.Within r.httpConnectTimeoutMs
  httpRequestTimeoutMs : Setting.httpRequestTimeoutMs.Within r.httpRequestTimeoutMs
  retryJitterMs : Setting.retryJitterMs.Within r.config.retryJitterMs
  circuitFailureThreshold :
    Setting.circuitFailureThreshold.Within r.circuitFailureThreshold.toNat
  circuitCooldownSeconds : Setting.circuitCooldownSeconds.Within r.circuitCooldownSeconds
  batchSize : Setting.batchSize.Within r.config.batchSize
  leaseSeconds : Setting.leaseSeconds.Within r.config.leaseSeconds
  maxAttempts : Setting.maxAttempts.Within r.config.maxAttempts.toInt
  retryBackoffSeconds : Setting.retryBackoffSeconds.Within r.config.retryBackoffSeconds
  deliveredRetentionHours :
    Setting.deliveredRetentionHours.Within r.config.deliveredRetentionHours
  deadLetterRetentionHours :
    Setting.deadLetterRetentionHours.Within r.config.deadLetterRetentionHours
  idempotencyRetentionHours :
    Setting.idempotencyRetentionHours.Within r.config.idempotencyRetentionHours
  httpPoolMaxIdlePerHost : Setting.httpPoolMaxIdlePerHost.Within r.httpPoolMaxIdlePerHost

/-- A text for each variable. -/
def Resolved.texts (codec : Codec) (r : Resolved) : List (String × String) :=
  [("DANDORI_DATABASE_URL", r.databaseUrl),
    ("DANDORI_RUN_MIGRATIONS", if r.runMigrations then "true" else "false"),
    ("DANDORI_WORKER_INSTANCE_ID", codec.uuidText r.config.workerInstanceId),
    (Setting.intervalMs.name, toString (r.intervalMs : Int)),
    (Setting.partitionBatch.name, toString (r.config.partitionBatch : Int)),
    (Setting.partitionLeaseSeconds.name, toString r.config.partitionLeaseSeconds),
    (Setting.publishConcurrency.name, toString (r.config.publishConcurrency : Int)),
    (Setting.tenantMaxConcurrency.name, toString (r.config.tenantMaxConcurrency : Int)),
    (Setting.httpConnectTimeoutMs.name, toString (r.httpConnectTimeoutMs : Int)),
    (Setting.httpRequestTimeoutMs.name, toString (r.httpRequestTimeoutMs : Int)),
    (Setting.retryJitterMs.name, toString (r.config.retryJitterMs : Int)),
    (Setting.circuitFailureThreshold.name, toString (r.circuitFailureThreshold.toNat : Int)),
    (Setting.circuitCooldownSeconds.name, toString r.circuitCooldownSeconds),
    (Setting.batchSize.name, toString r.config.batchSize),
    (Setting.leaseSeconds.name, toString r.config.leaseSeconds),
    (Setting.maxAttempts.name, toString r.config.maxAttempts.toInt),
    (Setting.retryBackoffSeconds.name, toString r.config.retryBackoffSeconds),
    (Setting.deliveredRetentionHours.name, toString r.config.deliveredRetentionHours),
    (Setting.deadLetterRetentionHours.name, toString r.config.deadLetterRetentionHours),
    (Setting.idempotencyRetentionHours.name, toString r.config.idempotencyRetentionHours),
    (Setting.httpPoolMaxIdlePerHost.name, toString (r.httpPoolMaxIdlePerHost : Int)),
    ("DANDORI_WORKER_BUCKET_RANGE", toString r.config.partitionShardBuckets.min ++ ".." ++
      toString r.config.partitionShardBuckets.max)]

/-- A process with these variables and no others. -/
def Resolved.process (codec : Codec) (r : Resolved) : Process where
  codec := codec
  var name := ((r.texts codec).lookup name).elim .notPresent .present
  debug text := text
  nowV7 := 0

section Written

variable {codec : Codec} {r : Resolved} {s : Setting} {n : Int} {separator : List Char}

theorem splitOnce_append {c : Char} {cs before : List Char} (h : c ∉ before) (after : List Char) :
    splitOnce (c :: cs) (before ++ (c :: cs ++ after)) = some (before, after) := by
  induction before with
  | nil =>
      rw [List.nil_append, List.cons_append, splitOnce, if_pos (by simp)]
      simp
  | cons b before ih =>
      have hb : c ≠ b := fun hb => h (hb ▸ List.mem_cons_self)
      rw [List.cons_append, splitOnce, if_neg (by simp [hb]), ih (fun hc => h (List.mem_cons_of_mem b hc))]
      rfl

theorem reads_process (hmem : ((r.texts codec).lookup s.name) = some (toString n)) (h : s.Within n) :
    Reads (r.process codec) s n := by
  have hfits : s.ty.Fits n := ⟨s.fits.1.trans h.1, h.2.trans s.fits.2⟩
  refine Or.inr ⟨toString n, ?_, IntType.writes_toString hfits, h⟩
  change ((r.texts codec).lookup s.name).elim Var.notPresent Var.present = _
  rw [hmem]
  rfl

theorem toString_natural {n : Int} (hn : 0 ≤ n) : '.' ∉ (toString n).toList := by
  obtain ⟨k, rfl⟩ := Int.eq_ofNat_of_zero_le hn
  have htext : (toString (k : Int)).toList = Nat.toDigits 10 k := Nat.toList_repr
  rw [htext]
  intro hdot
  exact absurd (Nat.isDigit_of_mem_toDigits (by decide) (by decide) hdot) (by decide)

theorem readsBuckets_process (codec : Codec) (r : Resolved) :
    ReadsBuckets (r.process codec) "DANDORI_WORKER_BUCKET_RANGE" r.config.partitionShardBuckets := by
  have hbounds := r.config.partitionShardBuckets.bounds
  have hmin : i32.Fits r.config.partitionShardBuckets.min := by
    simp only [IntType.Fits, i32, maxBucket] at hbounds ⊢
    omega
  have hmax : i32.Fits r.config.partitionShardBuckets.max := by
    simp only [IntType.Fits, i32, maxBucket] at hbounds ⊢
    omega
  refine Or.inr ⟨_, (toString r.config.partitionShardBuckets.min).toList,
    (toString r.config.partitionShardBuckets.max).toList, rfl, ?_, ?_, ?_⟩
  · rw [String.toList_append, String.toList_append, List.append_assoc]
    exact splitOnce_append (toString_natural hbounds.1) _
  · rw [String.ofList_toList]
    exact IntType.writes_toString hmin
  · rw [String.ofList_toList]
    exact IntType.writes_toString hmax

theorem describes_process (codec : Codec) (h : r.InBounds) : Describes (r.process codec) r where
  databaseUrl := rfl
  runMigrations := by
    refine Or.inr ⟨if r.runMigrations then "true" else "false", rfl, ?_⟩
    cases r.runMigrations with
    | true => exact Or.inl ⟨rfl, by decide +kernel⟩
    | false => exact Or.inr ⟨rfl, by decide +kernel⟩
  workspaceIds := h.workspaceIds
  workerInstanceId := Or.inr ⟨_, rfl, codec.parseUuid_uuidText _⟩
  intervalMs := reads_process rfl h.intervalMs
  partitionBatch := reads_process rfl h.partitionBatch
  partitionLeaseSeconds := reads_process rfl h.partitionLeaseSeconds
  publishConcurrency := reads_process rfl h.publishConcurrency
  tenantMaxConcurrency := reads_process rfl h.tenantMaxConcurrency
  httpConnectTimeoutMs := reads_process rfl h.httpConnectTimeoutMs
  httpRequestTimeoutMs := reads_process rfl h.httpRequestTimeoutMs
  retryJitterMs := reads_process rfl h.retryJitterMs
  circuitFailureThreshold := reads_process rfl h.circuitFailureThreshold
  circuitCooldownSeconds := reads_process rfl h.circuitCooldownSeconds
  batchSize := reads_process rfl h.batchSize
  leaseSeconds := reads_process rfl h.leaseSeconds
  maxAttempts := reads_process rfl h.maxAttempts
  retryBackoffSeconds := reads_process rfl h.retryBackoffSeconds
  deliveredRetentionHours := reads_process rfl h.deliveredRetentionHours
  deadLetterRetentionHours := reads_process rfl h.deadLetterRetentionHours
  idempotencyRetentionHours := reads_process rfl h.idempotencyRetentionHours
  httpPoolMaxIdlePerHost := reads_process rfl h.httpPoolMaxIdlePerHost
  partitionShardBuckets := readsBuckets_process codec r

theorem Describes.inBounds {p : Process} (h : Describes p r) : r.InBounds where
  workspaceIds := h.workspaceIds
  intervalMs := h.intervalMs.bounds
  partitionBatch := h.partitionBatch.bounds
  partitionLeaseSeconds := h.partitionLeaseSeconds.bounds
  publishConcurrency := h.publishConcurrency.bounds
  tenantMaxConcurrency := h.tenantMaxConcurrency.bounds
  httpConnectTimeoutMs := h.httpConnectTimeoutMs.bounds
  httpRequestTimeoutMs := h.httpRequestTimeoutMs.bounds
  retryJitterMs := h.retryJitterMs.bounds
  circuitFailureThreshold := h.circuitFailureThreshold.bounds
  circuitCooldownSeconds := h.circuitCooldownSeconds.bounds
  batchSize := h.batchSize.bounds
  leaseSeconds := h.leaseSeconds.bounds
  maxAttempts := h.maxAttempts.bounds
  retryBackoffSeconds := h.retryBackoffSeconds.bounds
  deliveredRetentionHours := h.deliveredRetentionHours.bounds
  deadLetterRetentionHours := h.deadLetterRetentionHours.bounds
  idempotencyRetentionHours := h.idempotencyRetentionHours.bounds
  httpPoolMaxIdlePerHost := h.httpPoolMaxIdlePerHost.bounds

end Written

/-! ## The first variable that is refused -/

/-- Each variable with its reading, in the order of `main`. -/
def readings (p : Process) : List (String × Except String Unit) :=
  [("DANDORI_DATABASE_URL", discard (databaseUrl p)),
    ("DANDORI_RUN_MIGRATIONS", discard (parseEnvBool p "DANDORI_RUN_MIGRATIONS" false)),
    ("DANDORI_WORKER_INSTANCE_ID", discard (workerInstanceId p))] ++
  [Setting.intervalMs, .partitionBatch, .partitionLeaseSeconds, .publishConcurrency,
    .tenantMaxConcurrency, .httpConnectTimeoutMs, .httpRequestTimeoutMs, .retryJitterMs,
    .circuitFailureThreshold, .circuitCooldownSeconds, .batchSize, .leaseSeconds, .maxAttempts,
    .retryBackoffSeconds, .deliveredRetentionHours, .deadLetterRetentionHours,
    .idempotencyRetentionHours, .httpPoolMaxIdlePerHost].map
      (fun s => (s.name, discard (parseEnvBounded p s))) ++
  [("DANDORI_WORKER_BUCKET_RANGE",
    discard (parseShardBucketRange p "DANDORI_WORKER_BUCKET_RANGE"))]

/-- The readings are made one after another, and the first error is the error of `x`. -/
def StopsAtFirst {α : Type} (readings : List (String × Except String Unit)) (x : Except String α) :
    Prop :=
  ∀ e, x = .error e ↔ ∃ pre name post, readings = pre ++ (name, .error e) :: post ∧
    ∀ reading ∈ pre, reading.2 = .ok ()

section Refused

variable {α β : Type} {readings : List (String × Except String Unit)}

theorem StopsAtFirst.pure (a : α) : StopsAtFirst [] (.ok a : Except String α) := by
  intro e
  refine iff_of_false nofun ?_
  rintro ⟨pre, name, post, h, _⟩
  simp at h

theorem StopsAtFirst.bind {x : Except String α} {f : α → Except String β} (name : String)
    (h : ∀ a, StopsAtFirst readings (f a)) :
    StopsAtFirst ((name, discard x) :: readings) (x >>= f) := by
  intro e
  cases x with
  | error e' =>
      constructor
      · intro he
        cases he
        exact ⟨[], name, readings, rfl, by simp⟩
      · rintro ⟨pre, name', post, hreadings, hpre⟩
        cases pre with
        | nil =>
            cases hreadings
            rfl
        | cons reading pre =>
            cases hreadings
            cases hpre _ List.mem_cons_self
  | ok a =>
      refine (h a e).trans ⟨?_, ?_⟩
      · rintro ⟨pre, name', post, rfl, hpre⟩
        refine ⟨(name, .ok ()) :: pre, name', post, rfl, fun reading hreading => ?_⟩
        rcases List.mem_cons.mp hreading with rfl | hreading
        · rfl
        · exact hpre reading hreading
      · rintro ⟨pre, name', post, hreadings, hpre⟩
        cases pre with
        | nil => cases hreadings
        | cons reading pre =>
            cases hreadings
            exact ⟨pre, name', post, rfl, fun reading hreading =>
              hpre reading (List.mem_cons_of_mem _ hreading)⟩

theorem resolve_stopsAtFirst (p : Process) : StopsAtFirst (WorkerEnvironment.readings p) (resolve p) := by
  repeat' refine StopsAtFirst.bind _ (fun _ => ?_)
  exact StopsAtFirst.pure _

end Refused

section Messages

variable {p : Process} {name e : String}

theorem readEnv_bind_error {α : Type} {f : Option String → Except String α}
    (hf : ∀ raw e, f raw = .error e → ∃ rest, e = name ++ rest)
    (h : (readEnv p name >>= f) = .error e) : ∃ rest, e = name ++ rest := by
  unfold readEnv at h
  cases hvar : p.var name with
  | notPresent =>
      rw [hvar] at h
      exact hf none e h
  | present raw =>
      rw [hvar] at h
      exact hf (some raw) e h
  | notUnicode raw =>
      rw [hvar] at h
      cases h
      exact ⟨_, String.append_assoc ..⟩

theorem parseEnvBounded_error {s : Setting} (h : parseEnvBounded p s = .error e) :
    ∃ rest, e = s.name ++ rest := by
  refine readEnv_bind_error (fun raw e h => ?_) h
  unfold parseBounded at h
  split at h
  · cases h
  · split at h
    · cases h
      exact ⟨_, by simp only [String.append_assoc]; rfl⟩
    · split_ifs at h
      cases h
      exact ⟨_, by simp only [String.append_assoc]; rfl⟩

theorem parseEnvBool_error {default : Bool} (h : parseEnvBool p name default = .error e) :
    ∃ rest, e = name ++ rest := by
  refine readEnv_bind_error (fun raw e h => ?_) h
  unfold parseBool at h
  split at h
  · cases h
  · dsimp only at h
    split_ifs at h
    cases h
    exact ⟨_, by simp only [String.append_assoc]; rfl⟩

theorem parseShardBucketRange_error (h : parseShardBucketRange p name = .error e) :
    ∃ rest, e = name ++ rest := by
  refine readEnv_bind_error (fun raw e h => ?_) h
  unfold parseBucketRange at h
  split at h
  · cases h
  · split at h
    · cases h
      exact ⟨_, by simp only [String.append_assoc]; rfl⟩
    · split at h
      · cases h
        exact ⟨_, by simp only [String.append_assoc]; rfl⟩
      · split at h
        · cases h
          exact ⟨_, by simp only [String.append_assoc]; rfl⟩
        · split at h
          · cases h
            exact ⟨_, by simp only [String.append_assoc]; rfl⟩
          · cases h

theorem discard_eq_error {α : Type} {x : Except String α} (h : discard x = .error e) :
    x = .error e := by
  cases x with
  | error e' =>
      cases h
      rfl
  | ok a => cases h

theorem databaseUrl_error (h : databaseUrl p = .error e) :
    ∃ rest, e = "DANDORI_DATABASE_URL" ++ rest := by
  unfold databaseUrl at h
  split at h
  · cases h
  · cases h
    exact ⟨" is required", by decide⟩

theorem workerInstanceId_error (h : workerInstanceId p = .error e) :
    ∃ rest, e = "DANDORI_WORKER_INSTANCE_ID" ++ rest := by
  unfold workerInstanceId at h
  split at h
  · split at h
    · cases h
    · cases h
      exact ⟨" invalid uuid: " ++ _, by rw [← String.append_assoc]; rfl⟩
  · cases h
  · cases h
    exact ⟨" contains non-UTF8 bytes: " ++ _, by rw [← String.append_assoc]; rfl⟩

/-- Every refusal names its variable. -/
theorem readings_names (h : (name, .error e) ∈ readings p) : ∃ rest, e = name ++ rest := by
  rcases List.mem_append.mp h with h | h
  · rcases List.mem_append.mp h with h | h
    · simp only [List.mem_cons, List.not_mem_nil, or_false, Prod.mk.injEq] at h
      rcases h with ⟨rfl, he⟩ | ⟨rfl, he⟩ | ⟨rfl, he⟩
      · exact databaseUrl_error (discard_eq_error he.symm)
      · exact parseEnvBool_error (discard_eq_error he.symm)
      · exact workerInstanceId_error (discard_eq_error he.symm)
    · obtain ⟨s, _, hs⟩ := List.mem_map.mp h
      obtain ⟨rfl, he⟩ := Prod.mk.inj hs
      exact parseEnvBounded_error (discard_eq_error he)
  · simp only [List.mem_singleton, Prod.mk.injEq] at h
    obtain ⟨rfl, he⟩ := h
    exact parseShardBucketRange_error (discard_eq_error he.symm)

end Messages

/-- A worker starts exactly when every variable is accepted, and then with what the variables say. It
refuses to start with the error of the first variable that is not accepted, and the error names it. -/
theorem resolve_spec (p : Process) : (∀ r, resolve p = .ok r ↔ Describes p r) ∧
    ∀ e, resolve p = .error e ↔ ∃ pre name post, readings p = pre ++ (name, .error e) :: post ∧
      (∀ reading ∈ pre, reading.2 = .ok ()) ∧ ∃ rest, e = name ++ rest := by
  refine ⟨fun r => describes_iff, fun e => ?_⟩
  rw [resolve_stopsAtFirst p e]
  constructor
  · rintro ⟨pre, name, post, hreadings, hpre⟩
    have hmem : (name, .error e) ∈ readings p := by
      rw [hreadings]
      exact List.mem_append_right pre List.mem_cons_self
    exact ⟨pre, name, post, hreadings, hpre, readings_names hmem⟩
  · rintro ⟨pre, name, post, hreadings, hpre, _⟩
    exact ⟨pre, name, post, hreadings, hpre⟩

/-- The configurations that some environment starts are those within the bounds. -/
theorem startable_iff (codec : Codec) (r : Resolved) :
    (∃ p : Process, p.codec = codec ∧ resolve p = .ok r) ↔ r.InBounds := by
  constructor
  · rintro ⟨p, _, h⟩
    exact (describes_iff.mp h).inBounds
  · intro h
    exact ⟨r.process codec, rfl, describes_iff.mpr (describes_process codec h)⟩

end WorkerEnvironment
end Dandori
