import Dandori.Session
import Mathlib.Data.List.Sort

/-!
# Partition leases

`acquire_partitions` is one statement: it lists the workspaces of a bucket window through a function
that orders and truncates them, keeps those that no other owner holds, and upserts a lease for each.
The lease table and the listing function are outside row-level security.
-/

namespace Dandori.PartitionRepository

def i32Max : Int := 2 ^ 31 - 1

def i32Min : Int := -2 ^ 31

def maxBucket : Int := 1023

/-- An inclusive window of shard buckets. -/
structure ShardBucketRange where
  min : Int
  max : Int
  bounds : 0 ≤ min ∧ min ≤ max ∧ max ≤ maxBucket

namespace ShardBucketRange

def new (min max : Int) : Except StoreError ShardBucketRange :=
  if hb : (0 ≤ min ∧ min ≤ maxBucket) ∧ 0 ≤ max ∧ max ≤ maxBucket then
    if h : max < min then
      .error (.invalidInput s!"shard bucket range min ({min}) exceeds max ({max})")
    else .ok ⟨min, max, hb.1.1, Int.not_lt.mp h, hb.2.2⟩
  else .error (.invalidInput s!"shard bucket range {min}..{max} out of bounds [0,{maxBucket}]")

def full : ShardBucketRange := ⟨0, maxBucket, by decide⟩

def contains (buckets : ShardBucketRange) (bucket : Fin 1024) : Bool :=
  buckets.min ≤ (bucket.val : Int) && (bucket.val : Int) ≤ buckets.max

end ShardBucketRange

/-- `ORDER BY shard_bucket, id`. -/
def bucketOrder (r s : WorkspaceRow) : Prop :=
  r.shardBucket < s.shardBucket ∨ (r.shardBucket = s.shardBucket ∧ r.id ≤ s.id)

instance : DecidableRel bucketOrder := fun _ _ => inferInstanceAs (Decidable (_ ∨ _))

/-- The workspaces of a bucket window in the order of the listing function. -/
def windowWorkspaces (db : Db) (buckets : ShardBucketRange) : List WorkspaceRow :=
  (db.workspaces.rows.filter (fun w => buckets.contains w.shardBucket)).insertionSort bucketOrder

/-- `list_workspace_ids_for_partition_lease`. It is `SECURITY DEFINER`, and its owner is taken to bypass
row-level security: the policy of `workspace` is forced, so that any other owner would be shown no row
but that of the workspace set in its session. -/
def listWorkspaceIdsForPartitionLease (db : Db) (buckets : ShardBucketRange) (maxRows : ℕ) :
    List WorkspaceRow :=
  (windowWorkspaces db buckets).take maxRows

/-- Another owner holds a lease of the workspace that ends after `now`. -/
def heldByOther (leases : Table PartitionLeaseRow.workspaceId unchecked) (ownerId : Uuid)
    (now : Timestamp) (workspaceId : Uuid) : Bool :=
  (leases.find? workspaceId).any (fun l => now < l.leasedUntil && l.leaseOwner ≠ ownerId)

/-- `i32::try_from(limit.min(i64::from(i32::MAX))).unwrap_or(i32::MAX)`. -/
def scanLimit (limit : Int) : Int :=
  let capped := min limit i32Max
  if i32Min ≤ capped then capped else i32Max

structure AcquireCall where
  ownerId : Uuid
  now : Timestamp
  leaseUntil : Timestamp
  limit : Int
  buckets : ShardBucketRange

namespace AcquireCall

variable (call : AcquireCall)

def candidates (db : Db) : List WorkspaceRow :=
  (listWorkspaceIdsForPartitionLease db call.buckets (scanLimit call.limit).toNat).filter
    (fun w => !heldByOther db.partitionLeases call.ownerId call.now w.id)

def leaseRow (w : WorkspaceRow) : PartitionLeaseRow where
  workspaceId := w.id
  shardBucket := w.shardBucket
  leaseOwner := call.ownerId
  leasedAt := call.now
  leasedUntil := call.leaseUntil
  updatedAt := call.now

end AcquireCall

/-- `ON CONFLICT (workspace_id) DO UPDATE … WHERE leased_until <= excluded.leased_at OR lease_owner
= excluded.lease_owner RETURNING workspace_id`, for one proposed row. -/
def upsertLease (row : PartitionLeaseRow)
    (leases : Table PartitionLeaseRow.workspaceId unchecked) :
    Option (Table PartitionLeaseRow.workspaceId unchecked × List Uuid) :=
  match leases.find? row.workspaceId with
  | none => (leases.insert? row).map (fun t => (t, [row.workspaceId]))
  | some old =>
      if old.leasedUntil ≤ row.leasedAt ∨ old.leaseOwner = row.leaseOwner then
        (leases.update? (fun r => r.workspaceId = row.workspaceId)
          (fun r => { row with workspaceId := r.workspaceId }) (fun _ => rfl)).map
          (fun t => (t, [row.workspaceId]))
      else some (leases, [])

def upsertLeases : List PartitionLeaseRow → Table PartitionLeaseRow.workspaceId unchecked →
    Option (Table PartitionLeaseRow.workspaceId unchecked × List Uuid)
  | [], leases => some (leases, [])
  | row :: rows, leases => do
      let (leases, returned) ← upsertLease row leases
      let (leases, rest) ← upsertLeases rows leases
      return (leases, returned ++ rest)

def acquirePartitions (call : AcquireCall) (env : Env) (db : Db) :
    Except StoreError (List Uuid) × Db :=
  if env.faults.head?.getD false then (.error (.sqlx .fault), db)
  else if scanLimit call.limit < 0 then (.error (.sqlx .negativeLimit), db)
  else match upsertLeases ((call.candidates db).map call.leaseRow) db.partitionLeases with
    | none => (.error (.sqlx .unique), db)
    | some (leases, returned) => (.ok returned, { db with partitionLeases := leases })

def renewPartitions (ownerId : Uuid) (workspaceIds : List Uuid) (now newLeaseUntil : Timestamp)
    (env : Env) (db : Db) : Except StoreError (List Uuid) × Db :=
  let renewed (r : PartitionLeaseRow) : Bool :=
    r.workspaceId ∈ workspaceIds && r.leaseOwner = ownerId && now < r.leasedUntil
  if workspaceIds.isEmpty then (.ok [], db)
  else if env.faults.head?.getD false then (.error (.sqlx .fault), db)
  else match db.partitionLeases.update? renewed
      (fun r => { r with leasedUntil := newLeaseUntil, updatedAt := now }) (fun _ => rfl) with
    | none => (.error (.sqlx .check), db)
    | some leases =>
        (.ok ((db.partitionLeases.rows.filter renewed).map PartitionLeaseRow.workspaceId),
          { db with partitionLeases := leases })

def releasePartitions (ownerId : Uuid) (workspaceIds : List Uuid) (env : Env) (db : Db) :
    Except StoreError ℕ × Db :=
  let released (r : PartitionLeaseRow) : Bool :=
    r.workspaceId ∈ workspaceIds && r.leaseOwner = ownerId
  if workspaceIds.isEmpty then (.ok 0, db)
  else if env.faults.head?.getD false then (.error (.sqlx .fault), db)
  else (.ok (db.partitionLeases.rows.filter released).length,
    { db with partitionLeases := db.partitionLeases.filter (fun r => !released r) })

/-! ## What an acquisition does -/

section Spec

variable {leases : Table PartitionLeaseRow.workspaceId unchecked} {row : PartitionLeaseRow}

/-- A proposed lease of a workspace no other owner holds is written and returned. -/
theorem upsertLease_of_available
    (h : heldByOther leases row.leaseOwner row.leasedAt row.workspaceId = false) :
    ∃ t, upsertLease row leases = some (t, [row.workspaceId]) ∧
      ∀ w, t.find? w = if w = row.workspaceId then some row else leases.find? w := by
  unfold upsertLease
  cases hold : leases.find? row.workspaceId with
  | none =>
      obtain ⟨t, ht⟩ := Table.insert?_isSome (t := leases) (r := row) rfl
        (Table.find?_eq_none.mp hold)
      exact ⟨t, by simp only [ht, Option.map_some], Table.find?_of_insert? ht⟩
  | some old =>
      have hfree : old.leasedUntil ≤ row.leasedAt ∨ old.leaseOwner = row.leaseOwner := by
        simp only [heldByOther, hold, Option.any_some, Bool.and_eq_false_iff, decide_eq_false_iff_not,
          Int.not_lt, not_not] at h
        exact h
      obtain ⟨t, ht⟩ : ∃ t, leases.update? (fun r => r.workspaceId = row.workspaceId)
          (fun r => { row with workspaceId := r.workspaceId }) (fun _ => rfl) = some t :=
        Table.update?_isSome (fun _ _ _ => rfl)
      refine ⟨t, by simp only [if_pos hfree, ht, Option.map_some], fun w => ?_⟩
      rw [Table.find?_of_update? ht, hold]
      have hkey : old.workspaceId = row.workspaceId := (Table.find?_eq_some.mp hold).2
      simp only [Option.map_some, hkey]

/-- Proposed leases of distinct available workspaces are all written and returned. -/
theorem upsertLeases_of_available {rows : List PartitionLeaseRow}
    (hnodup : (rows.map PartitionLeaseRow.workspaceId).Nodup)
    (h : ∀ row ∈ rows, heldByOther leases row.leaseOwner row.leasedAt row.workspaceId = false) :
    ∃ t, upsertLeases rows leases = some (t, rows.map PartitionLeaseRow.workspaceId) ∧
      (∀ row ∈ rows, t.find? row.workspaceId = some row) ∧
      ∀ w, w ∉ rows.map PartitionLeaseRow.workspaceId → t.find? w = leases.find? w := by
  induction rows generalizing leases with
  | nil => exact ⟨leases, rfl, by simp, fun _ _ => rfl⟩
  | cons row rows ih =>
      rw [List.map_cons, List.nodup_cons] at hnodup
      obtain ⟨t, ht, hfind⟩ := upsertLease_of_available (h row List.mem_cons_self)
      have hrest : ∀ x ∈ rows, heldByOther t x.leaseOwner x.leasedAt x.workspaceId = false := by
        intro x hx
        have hne : x.workspaceId ≠ row.workspaceId := fun he =>
          hnodup.1 (he ▸ List.mem_map_of_mem hx)
        have hxt := h x (List.mem_cons_of_mem _ hx)
        simp only [heldByOther] at hxt ⊢
        rw [hfind, if_neg hne]
        exact hxt
      obtain ⟨u, hu, hmem, hother⟩ := ih hnodup.2 hrest
      refine ⟨u, ?_, ?_, ?_⟩
      · simp only [upsertLeases, ht, Option.bind_eq_bind, Option.bind_some, hu]
        rfl
      · intro x hx
        rcases List.mem_cons.mp hx with rfl | hx
        · rw [hother _ hnodup.1, hfind, if_pos rfl]
        · exact hmem x hx
      · intro w hw
        simp only [List.map_cons, List.mem_cons, not_or] at hw
        rw [hother w hw.2, hfind, if_neg hw.1]

theorem windowWorkspaces_nodup (db : Db) (buckets : ShardBucketRange) :
    ((windowWorkspaces db buckets).map WorkspaceRow.id).Nodup := by
  have hperm := (List.perm_insertionSort bucketOrder
    (db.workspaces.rows.filter (fun w => buckets.contains w.shardBucket))).map WorkspaceRow.id
  refine hperm.nodup_iff.mpr ?_
  have hsorted := db.workspaces.sorted.sublist
    (List.filter_sublist (p := fun w => buckets.contains w.shardBucket))
  exact List.pairwise_map.mpr (hsorted.imp (fun h => h.ne))

theorem mem_windowWorkspaces {db : Db} {buckets : ShardBucketRange} {w : WorkspaceRow} :
    w ∈ windowWorkspaces db buckets ↔
      w ∈ db.workspaces ∧ buckets.contains w.shardBucket = true := by
  unfold windowWorkspaces
  rw [(List.perm_insertionSort bucketOrder _).mem_iff, List.mem_filter]
  rfl

theorem AcquireCall.candidates_nodup (call : AcquireCall) (db : Db) :
    ((call.candidates db).map WorkspaceRow.id).Nodup := by
  refine (windowWorkspaces_nodup db call.buckets).sublist (List.Sublist.map _ ?_)
  exact List.filter_sublist.trans (List.take_sublist _ _)

theorem AcquireCall.candidates_available {call : AcquireCall} {db : Db} {w : WorkspaceRow}
    (h : w ∈ call.candidates db) :
    heldByOther db.partitionLeases call.ownerId call.now w.id = false := by
  have hw := (List.mem_filter.mp h).2
  simpa using hw

/-- Run as one statement, an acquisition leases every candidate. -/
theorem acquirePartitions_of_allowed (call : AcquireCall) (env : Env) (db : Db)
    (henv : env.faults.head?.getD false = false) (hlimit : 0 ≤ scanLimit call.limit) :
    ∃ leases, acquirePartitions call env db =
        (.ok ((call.candidates db).map WorkspaceRow.id), { db with partitionLeases := leases }) ∧
      (∀ w ∈ call.candidates db, leases.find? w.id = some (call.leaseRow w)) ∧
      ∀ w, w ∉ (call.candidates db).map WorkspaceRow.id →
        leases.find? w = db.partitionLeases.find? w := by
  have hids : ((call.candidates db).map call.leaseRow).map PartitionLeaseRow.workspaceId =
      (call.candidates db).map WorkspaceRow.id := by
    rw [List.map_map]
    rfl
  obtain ⟨t, ht, hmem, hother⟩ := @upsertLeases_of_available db.partitionLeases
    ((call.candidates db).map call.leaseRow) (hids ▸ call.candidates_nodup db) (by
      intro row hrow
      obtain ⟨w, hw, rfl⟩ := List.mem_map.mp hrow
      exact AcquireCall.candidates_available hw)
  refine ⟨t, ?_, fun w hw => hmem _ (List.mem_map_of_mem hw), fun w hw => hother w (hids ▸ hw)⟩
  unfold acquirePartitions
  rw [henv, if_neg Bool.false_ne_true, if_neg (not_lt.mpr hlimit), ht, hids]

/-- An acquisition that fails leaves the database alone. -/
theorem acquirePartitions_cases (call : AcquireCall) (env : Env) (db : Db) :
    (∃ e, acquirePartitions call env db = (.error e, db)) ∨
    ∃ leases, acquirePartitions call env db =
        (.ok ((call.candidates db).map WorkspaceRow.id), { db with partitionLeases := leases }) ∧
      (∀ w ∈ call.candidates db, leases.find? w.id = some (call.leaseRow w)) ∧
      ∀ w, w ∉ (call.candidates db).map WorkspaceRow.id →
        leases.find? w = db.partitionLeases.find? w := by
  cases henv : env.faults.head?.getD false with
  | true =>
      left
      unfold acquirePartitions
      rw [henv, if_pos rfl]
      exact ⟨_, rfl⟩
  | false =>
      by_cases hlimit : scanLimit call.limit < 0
      · left
        unfold acquirePartitions
        rw [henv, if_neg Bool.false_ne_true, if_pos hlimit]
        exact ⟨_, rfl⟩
      · exact Or.inr (acquirePartitions_of_allowed call env db henv (not_lt.mp hlimit))

theorem acquirePartitions_ok_faults {call : AcquireCall} {env : Env} {db db' : Db}
    {returned : List Uuid} (h : acquirePartitions call env db = (.ok returned, db')) :
    env.faults.head?.getD false = false := by
  unfold acquirePartitions at h
  split at h
  · cases h
  · next hfault => simpa using hfault

/-- A release changes nothing, having failed or been asked for nothing, or deletes leases of the
owner. -/
theorem releasePartitions_cases (ownerId : Uuid) (workspaceIds : List Uuid) (env : Env) (db : Db) :
    (∃ result, releasePartitions ownerId workspaceIds env db = (result, db) ∧
      ∀ n, result = .ok n → workspaceIds = []) ∨
    ∃ n, releasePartitions ownerId workspaceIds env db =
      (.ok n, { db with partitionLeases := db.partitionLeases.filter (fun r =>
          !(r.workspaceId ∈ workspaceIds && r.leaseOwner = ownerId)) }) := by
  unfold releasePartitions
  split_ifs with hempty hfault
  · exact Or.inl ⟨_, rfl, fun _ _ => List.isEmpty_iff.mp hempty⟩
  · exact Or.inl ⟨_, rfl, fun n hn => by cases hn⟩
  · exact Or.inr ⟨_, rfl⟩

end Spec
end Dandori.PartitionRepository
