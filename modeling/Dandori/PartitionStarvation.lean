import Dandori.PartitionRepository

/-!
# Which acquisitions starve a workspace

The listing function truncates before the availability filter, so a window whose first workspaces
are held by other owners hides the available ones behind them. An acquisition is filled up to its
limit exactly when nothing available lies behind the truncation, or when the limit itself is reached
by a prefix of available workspaces.
-/

namespace Dandori.PartitionRepository

namespace AcquireCall

variable (call : AcquireCall) (db : Db)

def availableTo (w : WorkspaceRow) : Bool :=
  !heldByOther db.partitionLeases call.ownerId call.now w.id

def available : List WorkspaceRow :=
  (windowWorkspaces db call.buckets).filter (call.availableTo db)

/-- The acquisition returns as many workspaces as its limit and the availability allow, and every
workspace it passes over below its limit is held by another owner. -/
def FillsLimit : Prop :=
  ∃ ids db', acquirePartitions call .quiet db = (.ok ids, db') ∧
    ids.length = min call.limit.toNat (call.available db).length ∧
    (ids.length < call.limit.toNat → ∀ w ∈ windowWorkspaces db call.buckets, w.id ∉ ids →
      heldByOther db.partitionLeases call.ownerId call.now w.id = true)

def scanned : ℕ := (scanLimit call.limit).toNat

variable {call}

theorem scanLimit_nonneg (h : 0 ≤ call.limit) : 0 ≤ scanLimit call.limit := by
  simp only [scanLimit, i32Max, i32Min]
  split_ifs <;> omega

theorem scanned_eq (h : 0 ≤ call.limit) : call.scanned = min call.limit.toNat i32Max.toNat := by
  simp only [scanned, scanLimit, i32Max, i32Min]
  split_ifs <;> omega

variable (call)

theorem candidates_eq : call.candidates db =
    ((windowWorkspaces db call.buckets).take call.scanned).filter (call.availableTo db) := rfl

theorem available_length : (call.available db).length = (call.candidates db).length +
    (((windowWorkspaces db call.buckets).drop call.scanned).filter (call.availableTo db)).length := by
  rw [candidates_eq call db, ← List.length_append, ← List.filter_append, List.take_append_drop]
  rfl

theorem candidates_length_le : (call.candidates db).length ≤ call.scanned :=
  (List.length_filter_le _ _).trans (List.length_take_le _ _)

variable {call db}

theorem candidates_id_mem {w : WorkspaceRow} (hw : w ∈ windowWorkspaces db call.buckets) :
    w.id ∈ (call.candidates db).map WorkspaceRow.id ↔ w ∈ call.candidates db := by
  constructor
  · intro h
    obtain ⟨x, hx, hid⟩ := List.mem_map.mp h
    have hxw : x ∈ windowWorkspaces db call.buckets :=
      (List.filter_sublist.trans (List.take_sublist _ _)).subset hx
    rwa [← Table.eq_of_key_eq (mem_windowWorkspaces.mp hxw).1 (mem_windowWorkspaces.mp hw).1 hid]
  · exact List.mem_map_of_mem

/-- Without available workspaces behind the truncation the acquisition is filled. -/
theorem candidates_of_none_behind
    (h : ∀ w ∈ (windowWorkspaces db call.buckets).drop call.scanned, call.availableTo db w = false) :
    (call.available db).length = (call.candidates db).length := by
  rw [available_length call db, List.filter_eq_nil_iff.mpr (fun w hw => by simp [h w hw])]
  rfl

theorem held_of_not_candidate {w : WorkspaceRow}
    (hw : w ∈ (windowWorkspaces db call.buckets).take call.scanned)
    (hnot : w ∉ call.candidates db) :
    heldByOther db.partitionLeases call.ownerId call.now w.id = true := by
  by_contra hheld
  refine hnot (List.mem_filter.mpr ⟨hw, ?_⟩)
  simpa [availableTo] using hheld

/-- With available workspaces behind the truncation, a filled acquisition took a whole prefix. -/
theorem prefix_available_of_filled (hlimit : 0 ≤ call.limit)
    (hbehind : 0 < (((windowWorkspaces db call.buckets).drop call.scanned).filter
      (call.availableTo db)).length)
    (hlen : (call.candidates db).length = min call.limit.toNat (call.available db).length) :
    call.scanned = call.limit.toNat ∧
      ∀ w ∈ (windowWorkspaces db call.buckets).take call.scanned, call.availableTo db w = true := by
  have hscan := scanned_eq hlimit
  have hle := candidates_length_le call db
  rw [available_length call db] at hlen
  have hfull : (call.candidates db).length = call.scanned := by omega
  refine ⟨by omega, List.length_filter_eq_length_iff.mp ?_⟩
  have htake := List.length_take_le call.scanned (windowWorkspaces db call.buckets)
  have hfilter := List.length_filter_le (call.availableTo db)
    ((windowWorkspaces db call.buckets).take call.scanned)
  rw [candidates_eq call db] at hfull
  omega

/-- A whole prefix of available workspaces below the limit leaves nothing behind it. -/
theorem none_behind_of_prefix_available (hmax : call.scanned = call.limit.toNat)
    (hfront : ∀ w ∈ (windowWorkspaces db call.buckets).take call.scanned,
      call.availableTo db w = true)
    (hshort : (call.candidates db).length < call.limit.toNat) :
    (windowWorkspaces db call.buckets).drop call.scanned = [] := by
  rw [candidates_eq call db, List.filter_eq_self.mpr hfront, List.length_take, hmax] at hshort
  exact List.drop_eq_nil_of_le (by omega)

/-- An acquisition is filled exactly when no available workspace lies behind the scanned prefix of
the window, or the limit fits the scan and its whole prefix is available. -/
theorem fillsLimit_iff (call : AcquireCall) (db : Db) (hlimit : 0 ≤ call.limit) :
    call.FillsLimit db ↔
      (∀ w ∈ (windowWorkspaces db call.buckets).drop (min call.limit.toNat i32Max.toNat),
        heldByOther db.partitionLeases call.ownerId call.now w.id = true) ∨
      (call.limit ≤ i32Max ∧ ∀ w ∈ (windowWorkspaces db call.buckets).take call.limit.toNat,
        heldByOther db.partitionLeases call.ownerId call.now w.id = false) := by
  have hscan := scanned_eq hlimit
  have hi32 : i32Max = 2147483647 := rfl
  rw [← hscan]
  obtain ⟨leases, hrun, _, _⟩ := acquirePartitions_of_allowed call .quiet db rfl
    (scanLimit_nonneg hlimit)
  constructor
  · rintro ⟨ids, db', h, hlen, _⟩
    rw [hrun] at h
    cases h
    rw [List.length_map] at hlen
    rcases Nat.eq_zero_or_pos (((windowWorkspaces db call.buckets).drop call.scanned).filter
        (call.availableTo db)).length with hnone | hbehind
    · left
      intro w hw
      have hnot := List.filter_eq_nil_iff.mp (List.length_eq_zero_iff.mp hnone) w hw
      simpa [availableTo] using hnot
    · obtain ⟨hmax, hfront⟩ := prefix_available_of_filled hlimit hbehind hlen
      refine Or.inr ⟨by omega, fun w hw => ?_⟩
      rw [← hmax] at hw
      simpa [availableTo] using hfront w hw
  · intro h
    have hmaxed : call.limit ≤ i32Max → call.scanned = call.limit.toNat := fun _ => by omega
    have hnone : (call.candidates db).length < call.limit.toNat →
        ∀ w ∈ (windowWorkspaces db call.buckets).drop call.scanned,
          heldByOther db.partitionLeases call.ownerId call.now w.id = true := by
      intro hshort w hw
      rcases h with hbehind | ⟨hmax, hfront⟩
      · exact hbehind w hw
      · rw [none_behind_of_prefix_available (hmaxed hmax) (fun x hx => by
          rw [hmaxed hmax] at hx
          simp [availableTo, hfront x hx]) hshort] at hw
        cases hw
    refine ⟨_, _, hrun, ?_, ?_⟩
    · rw [List.length_map]
      by_cases hshort : (call.candidates db).length < call.limit.toNat
      · have hsame : (call.available db).length = (call.candidates db).length :=
          candidates_of_none_behind (fun w hw => by simp [availableTo, hnone hshort w hw])
        omega
      · have hle := candidates_length_le call db
        rw [available_length call db]
        omega
    · intro hshort w hw hnot
      rw [List.length_map] at hshort
      rw [candidates_id_mem hw] at hnot
      rw [← List.take_append_drop call.scanned (windowWorkspaces db call.buckets)] at hw
      rcases List.mem_append.mp hw with hw | hw
      · exact held_of_not_candidate hw hnot
      · exact hnone hshort w hw

end AcquireCall

/-! ## A starved workspace -/

/-- Workspaces 1 and 2 share a bucket, and worker 10 holds workspace 1 for a minute. -/
def starvedDb : Db :=
  { Db.empty with
    workspaces := Db.twoWorkspaces
    partitionLeases := ⟨[⟨1, 0, 10, 0, seconds 60, 0⟩], by decide, by decide⟩ }

def starvedCall : AcquireCall where
  ownerId := 11
  now := 0
  leaseUntil := seconds 60
  limit := 1
  buckets := .full

/-- Worker 11 asks for one workspace, gets none, and workspace 2 is free. -/
theorem starvedCall_not_fillsLimit :
    (acquirePartitions starvedCall .quiet starvedDb).1 = .ok [] ∧
      (starvedCall.available starvedDb).map WorkspaceRow.id = [2] ∧
      ¬starvedCall.FillsLimit starvedDb := by
  have hrun : (acquirePartitions starvedCall .quiet starvedDb).1 = .ok [] := by rfl
  have havail : (starvedCall.available starvedDb).map WorkspaceRow.id = [2] := by decide
  refine ⟨hrun, havail, ?_⟩
  rintro ⟨ids, db', h, hlen, _⟩
  rw [h] at hrun
  cases hrun
  have hone : (starvedCall.available starvedDb).length = 1 := by decide
  rw [hone] at hlen
  cases hlen

theorem fillsLimit_iff_starvedCall :
    (0 : Int) ≤ starvedCall.limit ∧ (starvedCall.FillsLimit starvedDb ↔
      (∀ w ∈ (windowWorkspaces starvedDb starvedCall.buckets).drop
          (min starvedCall.limit.toNat i32Max.toNat),
        heldByOther starvedDb.partitionLeases starvedCall.ownerId starvedCall.now w.id = true) ∨
      (starvedCall.limit ≤ i32Max ∧
        ∀ w ∈ (windowWorkspaces starvedDb starvedCall.buckets).take starvedCall.limit.toNat,
          heldByOther starvedDb.partitionLeases starvedCall.ownerId starvedCall.now w.id = false)) :=
  ⟨by decide, AcquireCall.fillsLimit_iff starvedCall starvedDb (by decide)⟩

end Dandori.PartitionRepository
