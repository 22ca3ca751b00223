import Dandori.LabelledRun
import Dandori.PartitionRepository

/-!
# Exclusive windows of partition leases

A run is a sequence of acquisitions, renewals and releases by any owners. A workspace that a call has
granted keeps its lease row until the clock passes its end, its owner releases it, or its owner moves
the end; as long as the row stands, no call of another owner returns the workspace.
-/

namespace Dandori.PartitionRepository

inductive PartitionCall
  | acquire (call : AcquireCall) (env : Env)
  | renew (ownerId : Uuid) (workspaceIds : List Uuid) (now newLeaseUntil : Timestamp) (env : Env)
  | release (ownerId : Uuid) (workspaceIds : List Uuid) (env : Env)

namespace PartitionCall

def run : PartitionCall → Db → Db
  | acquire call env, db => (acquirePartitions call env db).2
  | renew ownerId workspaceIds now newLeaseUntil env, db =>
      (renewPartitions ownerId workspaceIds now newLeaseUntil env db).2
  | release ownerId workspaceIds env, db => (releasePartitions ownerId workspaceIds env db).2

def now? : PartitionCall → Option Timestamp
  | acquire call _ => some call.now
  | renew _ _ now _ _ => some now
  | release _ _ _ => none

def ownerId : PartitionCall → Uuid
  | acquire call _ => call.ownerId
  | renew ownerId _ _ _ _ => ownerId
  | release ownerId _ _ => ownerId

/-- The call returns the workspace to its owner with the end `leasedUntil`. -/
def Returns (db : Db) (workspaceId : Uuid) (leasedUntil : Timestamp) : PartitionCall → Prop
  | acquire call env => ∃ ids, (acquirePartitions call env db).1 = .ok ids ∧ workspaceId ∈ ids ∧
      call.leaseUntil = leasedUntil
  | renew ownerId workspaceIds now newLeaseUntil env => ∃ ids,
      (renewPartitions ownerId workspaceIds now newLeaseUntil env db).1 = .ok ids ∧
        workspaceId ∈ ids ∧ newLeaseUntil = leasedUntil
  | release _ _ _ => False

/-- The owner releases the workspace or sets another end than `leasedUntil` on it. -/
def Ends (db : Db) (owner workspaceId : Uuid) (leasedUntil : Timestamp) (c : PartitionCall) : Prop :=
  c.ownerId = owner ∧
    match c with
    | release ownerId workspaceIds env => workspaceId ∈ workspaceIds ∧
        ∃ n, (releasePartitions ownerId workspaceIds env db).1 = .ok n
    | c => ∃ leasedUntil', leasedUntil' ≠ leasedUntil ∧ c.Returns db workspaceId leasedUntil'

def IsAcquire : PartitionCall → Prop
  | acquire _ _ => True
  | _ => False

end PartitionCall

abbrev PartitionRun : Db → List PartitionCall → Db → Prop :=
  Run (fun db call => some (PartitionCall.run call db))

/-- What the callers of the lease table rely on. -/
structure ExclusiveWindows (db : Db) (calls : List PartitionCall) : Prop where
  window : ∀ pre a mid b post s t workspaceId leasedUntil leasedUntil' now,
    calls = pre ++ a :: (mid ++ b :: post) →
    PartitionRun db pre s → a.Returns s workspaceId leasedUntil →
    PartitionRun db (pre ++ a :: mid) t → b.Returns t workspaceId leasedUntil' →
    b.now? = some now → now < leasedUntil →
      b.ownerId = a.ownerId ∨ ∃ mid₁ c mid₂ u, mid = mid₁ ++ c :: mid₂ ∧
        PartitionRun db (pre ++ a :: mid₁) u ∧ c.Ends u a.ownerId workspaceId leasedUntil
  others : ∀ pre c post s, calls = pre ++ c :: post → PartitionRun db pre s → ¬c.IsAcquire →
    ∀ l, l.leaseOwner ≠ c.ownerId → (l ∈ (c.run s).partitionLeases ↔ l ∈ s.partitionLeases)

/-! ## One call -/

section Call

variable {db : Db} {workspaceId owner : Uuid} {leasedUntil : Timestamp} {c : PartitionCall}

/-- A renewal changes nothing, or moves the end of the running leases of the owner. -/
theorem renewPartitions_cases (ownerId : Uuid) (workspaceIds : List Uuid)
    (now newLeaseUntil : Timestamp) (env : Env) (db : Db) :
    ((renewPartitions ownerId workspaceIds now newLeaseUntil env db).2 = db ∧
      ∀ ids, (renewPartitions ownerId workspaceIds now newLeaseUntil env db).1 = .ok ids →
        ids = []) ∨
    ∃ ids leases, renewPartitions ownerId workspaceIds now newLeaseUntil env db =
        (.ok ids, { db with partitionLeases := leases }) ∧
      (∀ w, w ∈ ids ↔ ∃ l ∈ db.partitionLeases, l.workspaceId = w ∧ w ∈ workspaceIds ∧
        l.leaseOwner = ownerId ∧ now < l.leasedUntil) ∧
      ∀ l, l ∈ leases ↔ ∃ l₀ ∈ db.partitionLeases,
        (if l₀.workspaceId ∈ workspaceIds ∧ l₀.leaseOwner = ownerId ∧ now < l₀.leasedUntil then
          { l₀ with leasedUntil := newLeaseUntil, updatedAt := now } else l₀) = l := by
  unfold renewPartitions
  split_ifs with hempty hfault
  · exact Or.inl ⟨rfl, fun ids hids => by cases hids; rfl⟩
  · exact Or.inl ⟨rfl, fun ids hids => by cases hids⟩
  · right
    set renewed := fun r : PartitionLeaseRow => decide (r.workspaceId ∈ workspaceIds) &&
      decide (r.leaseOwner = ownerId) && decide (now < r.leasedUntil) with hrenewed
    obtain ⟨u, hu⟩ : ∃ u, db.partitionLeases.update? renewed
        (fun r => { r with leasedUntil := newLeaseUntil, updatedAt := now }) (fun _ => rfl) =
        some u := Table.update?_isSome (fun _ _ _ => rfl)
    refine ⟨(db.partitionLeases.rows.filter renewed).map PartitionLeaseRow.workspaceId, u, ?_,
      fun w => ?_, fun l => ?_⟩
    · dsimp only
      rw [hu]
    · simp only [List.mem_map, List.mem_filter, hrenewed, Bool.and_eq_true, decide_eq_true_eq]
      constructor
      · rintro ⟨l, ⟨hl, ⟨hids, howner⟩, hnow⟩, rfl⟩
        exact ⟨l, hl, rfl, hids, howner, hnow⟩
      · rintro ⟨l, hl, rfl, hids, howner, hnow⟩
        exact ⟨l, ⟨hl, ⟨hids, howner⟩, hnow⟩, rfl⟩
    · rw [Table.mem_of_update? hu]
      simp only [hrenewed, Bool.and_eq_true, decide_eq_true_eq, and_assoc]

def Held (db : Db) (owner workspaceId : Uuid) (leasedUntil : Timestamp) : Prop :=
  ∃ l, db.partitionLeases.find? workspaceId = some l ∧ l.leaseOwner = owner ∧
    l.leasedUntil = leasedUntil

theorem held_of_returns (h : c.Returns db workspaceId leasedUntil) :
    Held (c.run db) c.ownerId workspaceId leasedUntil := by
  cases c with
  | acquire call env =>
      obtain ⟨ids, hok, hid, rfl⟩ := h
      rcases acquirePartitions_cases call env db with ⟨e, he⟩ | ⟨leases, he, hleased, _⟩
      · rw [he] at hok
        cases hok
      · rw [he] at hok
        cases hok
        obtain ⟨row, hrow, rfl⟩ := List.mem_map.mp hid
        refine ⟨call.leaseRow row, ?_, rfl, rfl⟩
        rw [PartitionCall.run, he]
        exact hleased row hrow
  | renew ownerId workspaceIds now newLeaseUntil env =>
      obtain ⟨ids, hok, hid, rfl⟩ := h
      rcases renewPartitions_cases ownerId workspaceIds now newLeaseUntil env db with
        ⟨_, hnone⟩ | ⟨ids', leases, he, hids, hleases⟩
      · rw [hnone ids hok] at hid
        cases hid
      · rw [he] at hok
        cases hok
        obtain ⟨l, hl, rfl, hmem, howner, hnow⟩ := (hids workspaceId).mp hid
        refine ⟨{ l with leasedUntil := newLeaseUntil, updatedAt := now }, ?_, howner, rfl⟩
        rw [PartitionCall.run, he, Table.find?_eq_some, hleases]
        exact ⟨⟨l, hl, if_pos ⟨hmem, howner, hnow⟩⟩, rfl⟩
  | release ownerId workspaceIds env => exact h.elim

theorem Held.owner_of_candidate {call : AcquireCall} {row : WorkspaceRow}
    (hheld : Held db owner row.id leasedUntil) (hnow : call.now < leasedUntil)
    (hrow : row ∈ call.candidates db) : call.ownerId = owner := by
  obtain ⟨l, hl, rfl, rfl⟩ := hheld
  have hfree := AcquireCall.candidates_available hrow
  simp only [heldByOther, hl, Option.any_some, Bool.and_eq_false_iff, decide_eq_false_iff_not,
    not_not] at hfree
  rcases hfree with hnot | howner
  · exact absurd hnow hnot
  · exact howner.symm

theorem Held.owner_of_returns (hheld : Held db owner workspaceId leasedUntil)
    (hnow : ∀ now, c.now? = some now → now < leasedUntil) {leasedUntil' : Timestamp}
    (h : c.Returns db workspaceId leasedUntil') : c.ownerId = owner := by
  cases c with
  | acquire call env =>
      obtain ⟨ids, hok, hid, _⟩ := h
      rcases acquirePartitions_cases call env db with ⟨e, he⟩ | ⟨leases, he, _, _⟩
      · rw [he] at hok
        cases hok
      · rw [he] at hok
        cases hok
        obtain ⟨row, hrow, rfl⟩ := List.mem_map.mp hid
        exact hheld.owner_of_candidate (hnow call.now rfl) hrow
  | renew ownerId workspaceIds now newLeaseUntil env =>
      obtain ⟨ids, hok, hid, _⟩ := h
      rcases renewPartitions_cases ownerId workspaceIds now newLeaseUntil env db with
        ⟨_, hnone⟩ | ⟨ids', leases, he, hids, _⟩
      · rw [hnone ids hok] at hid
        cases hid
      · rw [he] at hok
        cases hok
        obtain ⟨l, hl, hkey, _, howner, _⟩ := (hids workspaceId).mp hid
        obtain ⟨l', hl', rfl, _⟩ := hheld
        obtain ⟨hmem', hkey'⟩ := Table.find?_eq_some.mp hl'
        have hsame : l = l' := Table.eq_of_key_eq hl hmem' (hkey.trans hkey'.symm)
        rw [hsame] at howner
        exact howner.symm
  | release ownerId workspaceIds env => exact h.elim

/-- While the window runs, a call keeps the lease row unless the owner ends the window. -/
theorem Held.run_or_ends (hheld : Held db owner workspaceId leasedUntil)
    (hnow : ∀ now, c.now? = some now → now < leasedUntil) :
    Held (c.run db) owner workspaceId leasedUntil ∨ c.Ends db owner workspaceId leasedUntil := by
  by_cases hreturns : ∃ leasedUntil', c.Returns db workspaceId leasedUntil'
  · obtain ⟨leasedUntil', hreturns⟩ := hreturns
    have howner : c.ownerId = owner := hheld.owner_of_returns hnow hreturns
    by_cases hsame : leasedUntil' = leasedUntil
    · subst hsame
      exact Or.inl (howner ▸ held_of_returns hreturns)
    · refine Or.inr ⟨howner, ?_⟩
      cases c with
      | acquire call env => exact ⟨leasedUntil', hsame, hreturns⟩
      | renew ownerId workspaceIds now newLeaseUntil env => exact ⟨leasedUntil', hsame, hreturns⟩
      | release ownerId workspaceIds env => exact hreturns.elim
  · obtain ⟨l, hl, howner, huntil⟩ := hheld
    obtain ⟨hmem, hkey⟩ := Table.find?_eq_some.mp hl
    cases c with
    | acquire call env =>
        left
        rcases acquirePartitions_cases call env db with ⟨e, he⟩ | ⟨leases, he, _, hother⟩
        · exact ⟨l, by rw [PartitionCall.run, he]; exact hl, howner, huntil⟩
        · have hnot : workspaceId ∉ (call.candidates db).map WorkspaceRow.id := fun hid =>
            hreturns ⟨call.leaseUntil, _, by rw [he], hid, rfl⟩
          exact ⟨l, by rw [PartitionCall.run, he]; exact (hother _ hnot).trans hl, howner, huntil⟩
    | renew ownerId workspaceIds now newLeaseUntil env =>
        left
        rcases renewPartitions_cases ownerId workspaceIds now newLeaseUntil env db with
          ⟨hdb, _⟩ | ⟨ids, leases, he, hids, hleases⟩
        · exact ⟨l, by rw [PartitionCall.run, hdb]; exact hl, howner, huntil⟩
        · have hnot : ¬(l.workspaceId ∈ workspaceIds ∧ l.leaseOwner = ownerId ∧
              now < l.leasedUntil) := by
            rintro ⟨hwid, ho, hlt⟩
            have hid : workspaceId ∈ ids :=
              (hids workspaceId).mpr ⟨l, hmem, hkey, hkey ▸ hwid, ho, hlt⟩
            exact hreturns ⟨newLeaseUntil, ids, by rw [he], hid, rfl⟩
          refine ⟨l, ?_, howner, huntil⟩
          rw [PartitionCall.run, he, Table.find?_eq_some, hleases]
          exact ⟨⟨l, hmem, if_neg hnot⟩, hkey⟩
    | release ownerId workspaceIds env =>
        by_cases hends : ownerId = owner ∧ workspaceId ∈ workspaceIds ∧
            ∃ n, (releasePartitions ownerId workspaceIds env db).1 = .ok n
        · exact Or.inr hends
        · left
          rcases releasePartitions_cases ownerId workspaceIds env db with ⟨_, he, _⟩ | ⟨n, he⟩
          · exact ⟨l, by rw [PartitionCall.run, he]; exact hl, howner, huntil⟩
          · have hkept : ¬(workspaceId ∈ workspaceIds ∧ owner = ownerId) := fun h =>
              hends ⟨h.2.symm, h.1, n, by rw [he]⟩
            refine ⟨l, ?_, howner, huntil⟩
            rw [PartitionCall.run, he, Table.find?_filter, hl]
            simp [Option.filter, hkey, howner, hkept]

theorem mem_run_of_other (hacquire : ¬c.IsAcquire) {l : PartitionLeaseRow}
    (howner : l.leaseOwner ≠ c.ownerId) :
    l ∈ (c.run db).partitionLeases ↔ l ∈ db.partitionLeases := by
  cases c with
  | acquire call env => exact absurd trivial hacquire
  | renew ownerId workspaceIds now newLeaseUntil env =>
      rcases renewPartitions_cases ownerId workspaceIds now newLeaseUntil env db with
        ⟨hdb, _⟩ | ⟨ids, leases, he, _, hleases⟩
      · rw [PartitionCall.run, hdb]
      · rw [PartitionCall.run, he, hleases]
        constructor
        · rintro ⟨l₀, hl₀, rfl⟩
          split_ifs at howner ⊢ with hrenewed
          · exact absurd hrenewed.2.1 howner
          · exact hl₀
        · intro hl
          exact ⟨l, hl, if_neg (fun h => howner h.2.1)⟩
  | release ownerId workspaceIds env =>
      rw [PartitionCall.run]
      rcases releasePartitions_cases ownerId workspaceIds env db with ⟨_, he, _⟩ | ⟨_, he⟩
      · rw [he]
      · rw [he, Table.mem_filter]
        have hne : l.leaseOwner ≠ ownerId := howner
        simp [hne]

end Call

/-! ## Histories of calls -/

theorem now_le_of_sorted {mid₁ mid₂ post : List PartitionCall} {c b : PartitionCall}
    {calls pre : List PartitionCall} (hcalls : calls = pre ++ ((mid₁ ++ c :: mid₂) ++ b :: post))
    (hsorted : (calls.filterMap PartitionCall.now?).Pairwise (· ≤ ·)) {now now' : Timestamp}
    (hc : c.now? = some now) (hb : b.now? = some now') : now ≤ now' := by
  rw [hcalls, List.filterMap_append, List.pairwise_append] at hsorted
  have hrest := hsorted.2.1
  rw [List.append_assoc, List.filterMap_append, List.pairwise_append, List.cons_append,
    List.filterMap_cons_some hc] at hrest
  have hall := (List.pairwise_cons.mp hrest.2.1).1
  refine hall now' ?_
  rw [List.filterMap_append, List.filterMap_cons_some hb]
  exact List.mem_append_right _ List.mem_cons_self

/-- In every history on a clock that never goes back, a returned workspace stays with its owner until
the end of the lease, unless the owner gives it up. -/
theorem exclusiveWindows_of_sorted (db : Db) (calls : List PartitionCall)
    (hsorted : (calls.filterMap PartitionCall.now?).Pairwise (· ≤ ·)) :
    ExclusiveWindows db calls where
  window := by
    intro pre a mid b post s t workspaceId leasedUntil leasedUntil' now hcalls hs ha ht hb hnow hlt
    have hstep : ∀ u c v, Held u a.ownerId workspaceId leasedUntil →
        some (PartitionCall.run c u) = some v → Held v a.ownerId workspaceId leasedUntil ∨
          (c.Ends u a.ownerId workspaceId leasedUntil ∨ ∃ now, c.now? = some now ∧ leasedUntil ≤ now) := by
      intro u c v hheld hv
      cases hv
      by_cases hc : ∃ now, c.now? = some now ∧ leasedUntil ≤ now
      · exact Or.inr (Or.inr hc)
      · push Not at hc
        exact (hheld.run_or_ends hc).imp id Or.inl
    obtain ⟨s', hs', hrest⟩ := Run.append_iff.mp ht
    have hsame : s' = s := hs'.deterministic hs
    subst hsame
    have hmid := Run.total_cons_iff.mp hrest
    rcases Run.until_exit hstep hmid (held_of_returns ha) with
      hheld | ⟨mid₁, c, mid₂, u, v, hsplit, hu, _, _, hexit⟩
    · left
      refine hheld.owner_of_returns (fun now' hnow' => ?_) hb
      rw [hnow] at hnow'
      cases hnow'
      exact hlt
    · right
      rcases hexit with hends | ⟨now', hnow', hle⟩
      · exact ⟨mid₁, c, mid₂, u, hsplit, hs.append (Run.total_cons_iff.mpr hu), hends⟩
      · have hcalls' : calls = (pre ++ [a]) ++ ((mid₁ ++ c :: mid₂) ++ b :: post) := by
          rw [hcalls, hsplit]
          simp
        have hle' := now_le_of_sorted hcalls' hsorted hnow' hnow
        exact absurd hlt (not_lt.mpr (hle.trans hle'))
  others _ _ _ _ _ _ hacquire _ howner := mem_run_of_other hacquire howner

def contestedDb : Db :=
  { Db.empty with
    workspaces := Db.twoWorkspaces }

/-- Owner 9 renews its lease of workspace 1 while owner 10 asks for both workspaces. -/
def contestedCalls : List PartitionCall :=
  [.acquire ⟨9, 0, seconds 60, 1, .full⟩ .quiet,
    .acquire ⟨10, seconds 30, seconds 90, 2, .full⟩ .quiet,
    .renew 9 [1] (seconds 40) (seconds 100) .quiet, .release 10 [1, 2] .quiet]

example : (acquirePartitions ⟨10, seconds 30, seconds 90, 2, .full⟩ .quiet
    ((contestedCalls.take 1).foldl (fun db c => c.run db) contestedDb)).1 = .ok [2] := by
  rfl

theorem exclusiveWindows_contestedCalls :
    (contestedCalls.filterMap PartitionCall.now?).Pairwise (· ≤ ·) ∧
      ExclusiveWindows contestedDb contestedCalls := by
  have hsorted : (contestedCalls.filterMap PartitionCall.now?).Pairwise (· ≤ ·) := by decide
  exact ⟨hsorted, exclusiveWindows_of_sorted contestedDb contestedCalls hsorted⟩

end Dandori.PartitionRepository
