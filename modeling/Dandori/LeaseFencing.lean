import Dandori.LabelledRun
import Dandori.OutboxRepository

/-!
# Fencing and exclusion of outbox leases

A run is a sequence of lease calls and marks by any workers. A lease of a row is outstanding from the
call that hands it out until a mark under its token commits, and superseded once the row is handed
out under another token. The token of a row changes only when a lease call stamps the row or a mark
clears it, and a lease call passes over rows whose lease runs beyond its clock.
-/

namespace Dandori.OutboxRepository

inductive OutboxMark
  | delivered (auth : AuthContext) (outboxId leaseToken leaseOwner : Uuid) (now : Timestamp)
  | failed (auth : AuthContext) (outboxId : Uuid) (failure : OutboxFailureContext)

namespace OutboxMark

def transition : OutboxMark → LeaseTransition
  | delivered auth outboxId leaseToken leaseOwner now =>
      deliveredMark auth outboxId leaseToken leaseOwner now
  | failed auth outboxId failure => failedMark auth outboxId failure

def run (codec : Codec) : OutboxMark → Env → Db → Except StoreError Unit × Db
  | delivered auth outboxId leaseToken leaseOwner now =>
      markOutboxDelivered codec auth outboxId leaseToken leaseOwner now
  | failed auth outboxId failure => markOutboxFailed codec auth outboxId failure

theorem run_eq (codec : Codec) (mark : OutboxMark) (env : Env) (db : Db) :
    mark.run codec env db = mark.transition.run codec env db := by
  cases mark <;> rfl

theorem written_leaseToken (mark : OutboxMark) (r : OutboxRow) :
    (mark.transition.written r).leaseToken = none := by
  cases mark with
  | delivered => rfl
  | failed auth outboxId failure => exact (written_failedMark_lease auth outboxId failure r).2.2.1

end OutboxMark

inductive OutboxCall
  | lease (call : LeaseCall) (env : Env)
  | mark (mark : OutboxMark) (env : Env)

namespace OutboxCall

def run (codec : Codec) : OutboxCall → Db → Db
  | lease call env, db => (leaseOutboxBatch codec call env db).2
  | mark m env, db => (m.run codec env db).2

theorem run_lease (codec : Codec) (call : LeaseCall) (env : Env) (db : Db) :
    (lease call env).run codec db = (leaseOutboxBatch codec call env db).2 := rfl

theorem run_mark (codec : Codec) (m : OutboxMark) (env : Env) (db : Db) :
    (mark m env).run codec db = (m.transition.run codec env db).2 := by
  rw [← m.run_eq]
  rfl

def now : OutboxCall → Timestamp
  | lease call _ => call.now
  | mark m _ => m.transition.now

def token? : OutboxCall → Option Uuid
  | lease call _ => some call.leaseToken
  | mark _ _ => none

/-- The call hands out the row `outboxId` under `token` until `leasedUntil`. -/
def Grants (codec : Codec) (db : Db) (outboxId token : Uuid) (leasedUntil : Timestamp) :
    OutboxCall → Prop
  | lease call env => ∃ batch, (leaseOutboxBatch codec call env db).1 = .ok batch ∧
      ∃ m ∈ batch, m.id = outboxId ∧ m.leaseToken = token ∧ m.leasedUntil = leasedUntil
  | mark _ _ => False

def CarriesToken (token : Uuid) : OutboxCall → Prop
  | lease _ _ => False
  | mark m _ => m.transition.leaseToken = token

def Carries (outboxId token : Uuid) : OutboxCall → Prop
  | lease _ _ => False
  | mark m _ => m.transition.outboxId = outboxId ∧ m.transition.leaseToken = token

def Consumes (codec : Codec) (db : Db) (outboxId token : Uuid) : OutboxCall → Prop
  | lease _ _ => False
  | mark m env => m.transition.outboxId = outboxId ∧ m.transition.leaseToken = token ∧
      (m.run codec env db).1 = .ok ()

end OutboxCall

section Runs

variable (codec : Codec)

abbrev LeaseRun : Db → List OutboxCall → Db → Prop :=
  Run (fun db call => some (OutboxCall.run codec call db))

/-- The lease calls generate different tokens, and none that a row already has. -/
def FreshTokens (db : Db) (calls : List OutboxCall) : Prop :=
  (calls.filterMap OutboxCall.token?).Nodup ∧
    ∀ r ∈ db.outbox, ∀ token, r.leaseToken = some token →
      token ∉ calls.filterMap OutboxCall.token?

/-- In the run of `calls` the row was handed out under `token` and later under another token. -/
def Superseded (db : Db) (calls : List OutboxCall) (outboxId token : Uuid) : Prop :=
  ∃ xs a ys b zs s t u token' u', calls = xs ++ a :: (ys ++ b :: zs) ∧
    LeaseRun codec db xs s ∧ a.Grants codec s outboxId token u ∧
    LeaseRun codec db (xs ++ a :: ys) t ∧ b.Grants codec t outboxId token' u' ∧ token' ≠ token

/-- In the run of `calls` the row was handed out under `token` until `leasedUntil`, and no mark has
consumed this lease. -/
def Outstanding (db : Db) (calls : List OutboxCall) (outboxId token : Uuid)
    (leasedUntil : Timestamp) : Prop :=
  ∃ xs a ys s, calls = xs ++ a :: ys ∧ LeaseRun codec db xs s ∧
    a.Grants codec s outboxId token leasedUntil ∧
    ∀ ys₁ c ys₂ t, ys = ys₁ ++ c :: ys₂ → LeaseRun codec db (xs ++ a :: ys₁) t →
      ¬c.Consumes codec t outboxId token

/-- A superseded token changes nothing on any row. -/
def FencesToken (db : Db) (calls : List OutboxCall) : Prop :=
  ∀ pre c post s outboxId token, calls = pre ++ c :: post →
    Superseded codec db pre outboxId token → LeaseRun codec db pre s → c.CarriesToken token →
      c.run codec s = s

structure Fenced (db : Db) (calls : List OutboxCall) : Prop where
  superseded : ∀ pre c post s outboxId token, calls = pre ++ c :: post →
    Superseded codec db pre outboxId token → LeaseRun codec db pre s → c.Carries outboxId token →
      c.run codec s = s
  once : ∀ pre c mid d post s t outboxId token, calls = pre ++ c :: (mid ++ d :: post) →
    LeaseRun codec db pre s → c.Consumes codec s outboxId token →
      LeaseRun codec db (pre ++ c :: mid) t → ¬d.Consumes codec t outboxId token

/-- A row is handed out when every outstanding lease of it has expired, so that at no time two
outstanding leases of a row are unexpired. -/
structure Exclusive (db : Db) (calls : List OutboxCall) : Prop where
  granted : ∀ pre c post s outboxId token u token' u', calls = pre ++ c :: post →
    LeaseRun codec db pre s → c.Grants codec s outboxId token' u' →
      Outstanding codec db pre outboxId token u → u ≤ c.now
  holder : ∀ pre post outboxId token u token' u' now, calls = pre ++ post →
    (∀ c ∈ pre, c.now ≤ now) → Outstanding codec db pre outboxId token u →
      Outstanding codec db pre outboxId token' u' → now < u → now < u' → token = token'

end Runs

/-! ## What one call does to the leases -/

namespace OutboxCall

variable {codec : Codec} {c : OutboxCall} {db : Db} {r x : OutboxRow} {outboxId token : Uuid}
  {u : Timestamp}

theorem Consumes.row (h : c.Consumes codec db outboxId token) :
    (∃ r ∈ db.outbox, r.id = outboxId ∧ r.leaseToken = some token) ∧
      ∀ x ∈ (c.run codec db).outbox, x.id = outboxId → x.leaseToken = none := by
  cases c with
  | lease => cases h
  | mark m env =>
      obtain ⟨rfl, rfl, hok⟩ := h
      have hrun : m.transition.run codec env db = (.ok (), (m.run codec env db).2) := by
        rw [← m.run_eq, ← hok]
      constructor
      · obtain ⟨_, _, r, hr, hguard, _⟩ := LeaseTransition.run_eq_ok.mp hrun
        obtain ⟨_, hid, hheld⟩ := LeaseTransition.guard_iff.mp hguard
        simp only [heldBy, Bool.and_eq_true, decide_eq_true_eq] at hheld
        exact ⟨r, hr, hid, hheld.1.1.2⟩
      · intro x hx hid
        obtain ⟨y, _, rfl⟩ := (LeaseTransition.mem_run_iff x hrun).mp hx
        split_ifs at hid ⊢ with hy
        · exact m.written_leaseToken y
        · exact absurd hid hy

theorem Carries.refused (hc : c.Carries outboxId token)
    (h : ∀ r ∈ db.outbox, r.id = outboxId → r.leaseToken ≠ some token) : c.run codec db = db := by
  cases c with
  | lease => cases hc
  | mark m env =>
      obtain ⟨rfl, rfl⟩ := hc
      rw [run_mark]
      rcases LeaseTransition.run_cases codec m.transition env db with ⟨e, he⟩ | ⟨r, hr, hguard, _⟩
      · rw [he]
      · obtain ⟨_, hid, hheld⟩ := LeaseTransition.guard_iff.mp hguard
        simp only [heldBy, Bool.and_eq_true, decide_eq_true_eq] at hheld
        exact absurd hheld.1.1.2 (h r hr hid)

theorem Grants.row (h : c.Grants codec db outboxId token u) : c.token? = some token ∧
    (∃ r ∈ db.outbox, r.id = outboxId ∧ ∃ workspaceId, isCandidate workspaceId c.now r = true) ∧
    ∃ x ∈ (c.run codec db).outbox, x.id = outboxId ∧ x.status = .leased ∧
      x.leaseToken = some token ∧ x.leasedUntil = some u := by
  cases c with
  | mark => cases h
  | lease call env =>
      obtain ⟨batch, hbatch, m, hm, rfl, rfl, rfl⟩ := h
      have hlease : leaseOutboxBatch codec call env db =
          (.ok batch, (leaseOutboxBatch codec call env db).2) := Prod.ext hbatch rfl
      obtain ⟨r, hr, hcandidate, hleased, rfl⟩ := leaseOutboxBatch_message hlease hm
      exact ⟨rfl, ⟨r, hr, rfl, _, hcandidate⟩, call.leased r, hleased, rfl, rfl, rfl, rfl⟩

theorem Grants.until_le (h : c.Grants codec db outboxId token u) {v : Timestamp} (hr : r ∈ db.outbox)
    (hid : r.id = outboxId) (hstatus : r.status = .leased) (huntil : r.leasedUntil = some v) :
    v ≤ c.now := by
  obtain ⟨_, ⟨r', hr', hid', workspaceId, hcand⟩, _⟩ := h.row
  have hsame : r' = r := Table.eq_of_key_eq hr' hr (hid'.trans hid.symm)
  subst hsame
  have hdue : r'.workspaceId = workspaceId ∧ v ≤ c.now := by
    simpa [isCandidate, hstatus, huntil] using hcand
  exact hdue.2

theorem Grants.token_eq {db' : Db} {token' : Uuid} {u' : Timestamp}
    (h : c.Grants codec db outboxId token u) (h' : c.Grants codec db' outboxId token' u') :
    token = token' := Option.some.inj (h.row.1.symm.trans h'.row.1)

/-- A row has a token after a call that it had before or that the call generated. -/
theorem token_of_run (hx : x ∈ (c.run codec db).outbox) (htoken : x.leaseToken = some token) :
    (∃ r ∈ db.outbox, r.id = x.id ∧ r.leaseToken = some token) ∨ c.token? = some token := by
  cases c with
  | lease call env =>
      rw [run_lease] at hx
      rcases row_of_leaseOutboxBatch hx with hold | ⟨r, _, _, rfl⟩
      · exact Or.inl ⟨x, hold, rfl, htoken⟩
      · exact Or.inr htoken
  | mark m env =>
      left
      rw [run_mark] at hx
      rcases LeaseTransition.run_cases codec m.transition env db with ⟨e, he⟩ | ⟨_, _, _, _, v, he, _⟩
      · rw [he] at hx
        exact ⟨x, hx, rfl, htoken⟩
      · obtain ⟨r, hr, hrx⟩ := (LeaseTransition.mem_run_iff x he).mp (by rwa [he] at hx)
        split_ifs at hrx with hid
        · rw [← hrx, m.written_leaseToken] at htoken
          cases htoken
        · exact ⟨r, hr, by rw [hrx], by rw [hrx, htoken]⟩

/-- A lease that runs beyond the clock of the call is left alone by everything but its own mark. -/
theorem mem_run_of_leased (hr : r ∈ db.outbox) (hstatus : r.status = .leased)
    (htoken : r.leaseToken = some token) (huntil : r.leasedUntil = some u) (hnow : c.now < u)
    (hc : ¬c.Consumes codec db r.id token) : r ∈ (c.run codec db).outbox := by
  cases c with
  | lease call env =>
      rw [run_lease]
      rcases leaseOutboxBatch_cases codec call env db with ⟨e, he⟩ | ⟨ids, v, he, hids, hv⟩
      · rw [he]
        exact hr
      · rw [he]
        refine (hv r).mpr ⟨r, hr, if_neg (fun hin => ?_)⟩
        have hcandidate := hids r hr hin
        have hdue : r.workspaceId = call.auth.workspaceId ∧ u ≤ call.now := by
          simpa [isCandidate, hstatus, huntil] using hcandidate
        exact absurd hdue.2 (not_le.mpr hnow)
  | mark m env =>
      rw [run_mark]
      rcases LeaseTransition.run_cases codec m.transition env db with
        ⟨e, he⟩ | ⟨x, hx, hguard, _, v, he, _⟩
      · rw [he]
        exact hr
      · rw [he]
        refine (LeaseTransition.mem_run_of_ne he (fun hid => ?_)).mpr hr
        obtain ⟨_, hxid, hheld⟩ := LeaseTransition.guard_iff.mp hguard
        have hsame : x = r := Table.eq_of_key_eq hx hr (hxid.trans hid.symm)
        subst hsame
        simp only [heldBy, Bool.and_eq_true, decide_eq_true_eq] at hheld
        refine hc ⟨hid.symm, ?_, ?_⟩
        · exact Option.some.inj (hheld.1.1.2.symm.trans htoken)
        · rw [m.run_eq, he]

end OutboxCall

/-! ## What a run does to the leases -/

section RunLemmas

variable {codec : Codec} {db s t : Db} {calls rest : List OutboxCall} {outboxId token : Uuid}
  {u : Timestamp}

theorem noToken_of_run (h : LeaseRun codec s calls t)
    (htoken : token ∉ calls.filterMap OutboxCall.token?)
    (hs : ∀ r ∈ s.outbox, r.id = outboxId → r.leaseToken ≠ some token) :
    ∀ r ∈ t.outbox, r.id = outboxId → r.leaseToken ≠ some token := by
  refine Run.invariant_of (P := fun s => ∀ r ∈ s.outbox, r.id = outboxId → r.leaseToken ≠ some token)
    (C := fun c => c.token? ≠ some token) ?_ h ?_ hs
  · rintro s c t hs hc ⟨⟩ x hx hid hx'
    rcases OutboxCall.token_of_run hx hx' with ⟨r, hr, hrx, hr'⟩ | hgenerated
    · exact hs r hr (hrx.trans hid) hr'
    · exact hc hgenerated
  · intro c hc hgenerated
    exact htoken (List.mem_filterMap.mpr ⟨c, hc, hgenerated⟩)

theorem freshTokens_of_run (h : LeaseRun codec s calls t) (hfresh : FreshTokens s (calls ++ rest)) :
    FreshTokens t rest := by
  induction h with
  | nil s => exact hfresh
  | @cons s _ _ c calls hc _ ih =>
      cases hc
      refine ih ?_
      obtain ⟨hnodup, hrows⟩ := hfresh
      rw [List.cons_append] at hnodup hrows
      have hsub : ((calls ++ rest).filterMap OutboxCall.token?).Sublist
          ((c :: (calls ++ rest)).filterMap OutboxCall.token?) :=
        (List.sublist_cons_self c _).filterMap _
      refine ⟨hnodup.sublist hsub, fun x hx token htoken hmem => ?_⟩
      rcases OutboxCall.token_of_run hx htoken with ⟨r, hr, _, hr'⟩ | hgenerated
      · exact hrows r hr token hr' (hsub.subset hmem)
      · rw [List.filterMap_cons_some hgenerated, List.nodup_cons] at hnodup
        exact hnodup.1 hmem

/-- A superseded token is gone from its row and no later call generates it. -/
theorem Superseded.gone (h : Superseded codec db calls outboxId token)
    (hfresh : FreshTokens db (calls ++ rest)) (hrun : LeaseRun codec db calls s) :
    ∀ r ∈ s.outbox, r.id = outboxId → r.leaseToken ≠ some token := by
  obtain ⟨xs, a, ys, b, zs, s₁, s₂, u, token', u', rfl, _, ha, hb₂, hb, hne⟩ := h
  obtain ⟨hatoken, _⟩ := ha.row
  obtain ⟨hbtoken, _, x, hx, hxid, _, hxtoken, _⟩ := hb.row
  have hzs : LeaseRun codec (b.run codec s₂) zs s := by
    rw [← List.cons_append, ← List.append_assoc] at hrun
    obtain ⟨t, ht, hrest⟩ := Run.append_iff.mp hrun
    rw [hb₂.deterministic ht]
    exact Run.total_cons_iff.mp hrest
  refine noToken_of_run hzs ?_ ?_
  · intro hmem
    have hnodup := hfresh.1
    simp only [List.append_assoc, List.cons_append, List.filterMap_append,
      List.filterMap_cons_some hatoken, List.filterMap_cons_some hbtoken] at hnodup
    have hafter := (List.nodup_cons.mp (List.nodup_append.mp hnodup).2.1).1
    exact hafter (List.mem_append_right _ (List.mem_cons_of_mem _ (List.mem_append_left _ hmem)))
  · intro r hr hid htoken
    rw [Table.eq_of_key_eq hr hx (hid.trans hxid.symm), hxtoken] at htoken
    exact hne (Option.some.inj htoken)

/-- The row of an outstanding lease is leased while the clock has not reached the end. -/
theorem Outstanding.row (h : Outstanding codec db calls outboxId token u)
    (hrun : LeaseRun codec db calls s) (hnow : ∀ c ∈ calls, c.now < u) :
    ∃ r ∈ s.outbox, r.id = outboxId ∧ r.status = .leased ∧ r.leaseToken = some token ∧
      r.leasedUntil = some u := by
  obtain ⟨xs, a, ys, s₁, rfl, hxs, ha, hunconsumed⟩ := h
  obtain ⟨_, _, r, hr, rfl, hstatus, htoken, huntil⟩ := ha.row
  have hys : LeaseRun codec (a.run codec s₁) ys s := by
    obtain ⟨t, ht, hrest⟩ := Run.append_iff.mp hrun
    rw [hxs.deterministic ht]
    exact Run.total_cons_iff.mp hrest
  have hkept : LeaseRun codec (a.run codec s₁) ys s ∧ r ∈ s.outbox := by
    refine Run.history_of (P := fun ys₁ t => LeaseRun codec (a.run codec s₁) ys₁ t ∧ r ∈ t.outbox)
      (C := fun ys₁ c => c.now < u ∧ ∀ t, LeaseRun codec (a.run codec s₁) ys₁ t →
        ¬c.Consumes codec t r.id token) ?_ hys ?_ ⟨.nil _, hr⟩
    · rintro ys₁ t c t' ⟨ht, hmem⟩ ⟨hc, hunc⟩ ⟨⟩
      exact ⟨ht.append (.single rfl),
        OutboxCall.mem_run_of_leased hmem hstatus htoken huntil hc (hunc t ht)⟩
    · rintro ys₁ c ys₂ rfl
      refine ⟨hnow c (by simp), fun t ht => hunconsumed ys₁ c ys₂ t rfl ?_⟩
      exact hxs.append (Run.total_cons_iff.mpr ht)
  exact ⟨r, hkept.2, rfl, hstatus, htoken, huntil⟩

theorem Outstanding.until_le {c : OutboxCall} {token' : Uuid} {u' : Timestamp}
    (h : Outstanding codec db calls outboxId token u) (hrun : LeaseRun codec db calls s)
    (hnow : ∀ d ∈ calls, d.now ≤ c.now) (hc : c.Grants codec s outboxId token' u') : u ≤ c.now := by
  by_contra hlt
  obtain ⟨r, hr, hid, hstatus, _, huntil⟩ :=
    h.row hrun (fun d hd => lt_of_le_of_lt (hnow d hd) (not_le.mp hlt))
  exact hlt (hc.until_le hr hid hstatus huntil)

/-- Of two leases of a row, the earlier one has expired or is consumed. -/
theorem not_granted_twice {xs zs ys : List OutboxCall} {a b : OutboxCall} {s₁ s₂ : Db}
    {token' : Uuid} {u' now : Timestamp}
    (hsorted : (xs ++ a :: (zs ++ b :: ys)).Pairwise (·.now ≤ ·.now)) (hxs : LeaseRun codec db xs s₁)
    (ha : a.Grants codec s₁ outboxId token u) (hzs : LeaseRun codec db (xs ++ a :: zs) s₂)
    (hb : b.Grants codec s₂ outboxId token' u')
    (hunconsumed : ∀ ys₁ c ys₂ t, zs ++ b :: ys = ys₁ ++ c :: ys₂ →
      LeaseRun codec db (xs ++ a :: ys₁) t → ¬c.Consumes codec t outboxId token)
    (hnow : b.now ≤ now) (hu : now < u) : False := by
  have hout : Outstanding codec db (xs ++ a :: zs) outboxId token u := by
    refine ⟨xs, a, zs, s₁, rfl, hxs, ha, ?_⟩
    rintro ys₁ c ys₂ t rfl ht
    exact hunconsumed ys₁ c (ys₂ ++ b :: ys) t (by simp) ht
  have hbefore : ∀ d ∈ xs ++ a :: zs, d.now ≤ b.now := fun d hd => by
    rw [← List.cons_append, ← List.append_assoc] at hsorted
    exact (List.pairwise_append.mp hsorted).2.2 d hd b List.mem_cons_self
  exact absurd (hout.until_le hzs hbefore hb) (not_le.mpr (lt_of_le_of_lt hnow hu))

theorem Outstanding.token_eq {token' : Uuid} {u' now : Timestamp}
    (hsorted : calls.Pairwise (·.now ≤ ·.now)) (hnow : ∀ c ∈ calls, c.now ≤ now)
    (h : Outstanding codec db calls outboxId token u)
    (h' : Outstanding codec db calls outboxId token' u') (hu : now < u) (hu' : now < u') :
    token = token' := by
  obtain ⟨xs, a, ys, s₁, rfl, hxs, ha, hys⟩ := h
  obtain ⟨xs', b, ys', s₂, heq, hxs', hb, hys'⟩ := h'
  have hcases := heq
  rw [List.append_eq_append_iff] at hcases
  rcases hcases with ⟨zs, hfront, hback⟩ | ⟨zs, hfront, hback⟩
  · rcases List.cons_eq_append_iff.mp hback with ⟨rfl, hcons⟩ | ⟨zs, rfl, rfl⟩
    · cases hcons
      exact ha.token_eq hb
    · subst hfront
      exact (not_granted_twice hsorted hxs ha hxs' hb hys (hnow b (by simp)) hu).elim
  · rcases List.cons_eq_append_iff.mp hback with ⟨rfl, hcons⟩ | ⟨zs, rfl, rfl⟩
    · cases hcons
      exact ha.token_eq hb
    · subst hfront
      rw [heq] at hsorted
      exact (not_granted_twice hsorted hxs' hb hxs ha hys' (hnow a (by simp)) hu').elim

end RunLemmas

/-- With fresh tokens a superseded lease can no longer be marked and a lease is consumed once,
whatever the clocks say; when the clock does not run backwards, leases of a row exclude each other. -/
theorem leases_fenced_and_exclusive (codec : Codec) (db : Db) (calls : List OutboxCall)
    (hfresh : FreshTokens db calls) :
    Fenced codec db calls ∧
      (calls.Pairwise (·.now ≤ ·.now) → Exclusive codec db calls) := by
  refine ⟨⟨?_, ?_⟩, fun hsorted => ⟨?_, ?_⟩⟩
  · rintro pre c post s outboxId token rfl hsuperseded hrun hc
    exact hc.refused (hsuperseded.gone hfresh hrun)
  · rintro pre c mid d post s t outboxId token rfl hpre hc hmid hd
    obtain ⟨⟨r, hr, _, htoken⟩, hcleared⟩ := hc.row
    obtain ⟨⟨x, hx, hid, hx'⟩, _⟩ := hd.row
    have hlater := (freshTokens_of_run hpre hfresh).2 r hr token htoken
    obtain ⟨s', hs', hrest⟩ := Run.append_iff.mp hmid
    rw [hs'.deterministic hpre] at hrest
    refine noToken_of_run (Run.total_cons_iff.mp hrest) ?_ ?_ x hx hid hx'
    · intro hmem
      refine hlater (((List.sublist_append_left mid _).trans
        (List.sublist_cons_self c _)).filterMap _ |>.subset hmem)
    · intro y hy hyid
      rw [hcleared y hy hyid]
      exact Option.some_ne_none token |>.symm
  · rintro pre c post s outboxId token u token' u' rfl hrun hc hout
    refine hout.until_le hrun (fun d hd => ?_) hc
    exact (List.pairwise_append.mp hsorted).2.2 d hd c List.mem_cons_self
  · rintro pre post outboxId token u token' u' now rfl hnow hout hout' hu hu'
    exact hout.token_eq (List.pairwise_append.mp hsorted).1 hnow hout' hu hu'

/-! ## One token for two rows -/

def dueRow (id eventId : Uuid) : OutboxRow where
  id := id
  workspaceId := 1
  eventId := eventId
  eventType := EventType.issueCreatedV1.asStr
  aggregateType := "issue"
  aggregateId := eventId
  occurredAt := 0
  correlationId := eventId
  payload := .null
  attempts := 0
  availableAt := 0
  status := .pending
  leasedAt := none
  leasedUntil := none
  leaseToken := none
  leaseOwner := none
  publishedAt := none
  lastError := none
  createdAt := 0
  updatedAt := 0

def dueDb : Db :=
  { Db.empty with
    workspaces := Db.oneWorkspace
    outbox := ⟨[dueRow 5 3, dueRow 6 4], by decide, by decide⟩ }

/-- Worker 9 leases both rows under token 7. -/
def firstLease : OutboxCall := .lease ⟨⟨1, 9⟩, 0, seconds 30, 2, 7⟩ .quiet

/-- Worker 10, whose clock shows 31 s, takes row 5 over under token 8. -/
def takeover : OutboxCall := .lease ⟨⟨1, 10⟩, seconds 31, seconds 30, 1, 8⟩ .quiet

/-- Worker 9, whose clock shows 20 s, marks row 6 under token 7. -/
def lateMark : OutboxCall := .mark (.delivered ⟨1, 9⟩ 6 7 9 (seconds 20)) .quiet

/-- Worker 9, whose clock shows 32 s, marks row 5 under token 7. -/
def staleMark : OutboxCall := .mark (.delivered ⟨1, 9⟩ 5 7 9 (seconds 32)) .quiet

theorem takeover_freshTokens (mark : OutboxMark) :
    FreshTokens dueDb [firstLease, takeover, .mark mark .quiet] := by
  have htokens : [firstLease, takeover, .mark mark .quiet].filterMap OutboxCall.token? = [7, 8] := rfl
  unfold FreshTokens
  rw [htokens]
  refine ⟨by simp, fun r hr token htoken => ?_⟩
  have hnone : ∀ r ∈ dueDb.outbox.rows, r.leaseToken = none := by simp [dueDb, dueRow]
  rw [hnone r hr] at htoken
  cases htoken

theorem firstLease_run : LeaseRun Codec.unary dueDb [firstLease] (firstLease.run Codec.unary dueDb) :=
  .single rfl

theorem firstLease_grants : firstLease.Grants Codec.unary dueDb 5 7 (seconds 30) :=
  ⟨_, rfl, _, List.mem_cons_self, rfl, rfl, rfl⟩

theorem takeover_grants :
    takeover.Grants Codec.unary (firstLease.run Codec.unary dueDb) 5 8 (seconds 61) :=
  ⟨_, rfl, _, List.mem_cons_self, rfl, rfl, rfl⟩

theorem takeover_supersedes : Superseded Codec.unary dueDb [firstLease, takeover] 5 7 :=
  ⟨[], firstLease, [], takeover, [], _, _, _, 8, _, rfl, .nil _, firstLease_grants, firstLease_run,
    takeover_grants, by decide⟩

/-- Token 7 is superseded for row 5 and still moves row 6 of the same batch. -/
theorem lateMark_not_fenced : FreshTokens dueDb [firstLease, takeover, lateMark] ∧
    ¬FencesToken Codec.unary dueDb [firstLease, takeover, lateMark] := by
  refine ⟨takeover_freshTokens _, fun h => ?_⟩
  have hsame := h [firstLease, takeover] lateMark [] _ 5 7 rfl takeover_supersedes
    (firstLease_run.append (.single rfl)) rfl
  have hstatus := congrArg (fun db : Db => db.outbox.rows.map OutboxRow.status) hsame
  revert hstatus
  decide

/-- Row 5 is taken over once its first lease has expired, and the late mark of it changes nothing. -/
theorem leases_fenced_and_exclusive_takeover :
    FreshTokens dueDb [firstLease, takeover, staleMark] ∧
    [firstLease, takeover, staleMark].Pairwise (·.now ≤ ·.now) ∧
    Fenced Codec.unary dueDb [firstLease, takeover, staleMark] ∧
    Exclusive Codec.unary dueDb [firstLease, takeover, staleMark] ∧
    takeover.Grants Codec.unary (firstLease.run Codec.unary dueDb) 5 8 (seconds 61) ∧
    Outstanding Codec.unary dueDb [firstLease] 5 7 (seconds 30) ∧ seconds 30 ≤ takeover.now ∧
    ∀ s, LeaseRun Codec.unary dueDb [firstLease, takeover] s → staleMark.run Codec.unary s = s := by
  have hsorted : [firstLease, takeover, staleMark].Pairwise (·.now ≤ ·.now) := by decide
  obtain ⟨hfenced, hexclusive⟩ := leases_fenced_and_exclusive Codec.unary dueDb
    [firstLease, takeover, staleMark] (takeover_freshTokens _)
  have houtstanding : Outstanding Codec.unary dueDb [firstLease] 5 7 (seconds 30) := by
    refine ⟨[], firstLease, [], dueDb, rfl, .nil _, firstLease_grants, fun ys₁ c ys₂ t h _ => ?_⟩
    exact absurd h (by simp)
  refine ⟨takeover_freshTokens _, hsorted, hfenced, hexclusive hsorted, takeover_grants, houtstanding,
    ?_, fun s hs => ?_⟩
  · exact (hexclusive hsorted).granted [firstLease] takeover [staleMark] _ 5 7 _ 8 _ rfl firstLease_run
      takeover_grants houtstanding
  · exact hfenced.superseded [firstLease, takeover] staleMark [] s 5 7 rfl takeover_supersedes hs
      ⟨rfl, rfl⟩

end Dandori.OutboxRepository
