import Dandori.RegistryLookup

/-!
# Routing by schema version

The payload of a message declares its schema version. A version that fits `u32` is looked up as it is. A
larger one is read as if the payload declared none, and the message goes to the handlers of version 1,
which is only right when no newer handler is registered.
-/

namespace Dandori.OutboxRegistry

open OutboxRepository

variable {m : Type → Type}

/-- The handler that `dispatch` runs. -/
def route (registry : OutboxRegistry m) (message : OutboxMessage) : Option (OutboxHandler m) :=
  registry.resolve message.eventType ((resolveSchemaVersion message).getD 1)

/-- The payload has `n`, a `u64`, as its top-level `schema_version`. -/
def Declares (message : OutboxMessage) (n : ℕ) : Prop :=
  message.payload.get "schema_version" = some (.number n) ∧ n < 2 ^ 64

/-- `dispatch` runs a handler of the greatest version up to `n`, and fails as unsupported when there is
none. -/
structure HonoursVersion [Monad m] (handlers : List (OutboxHandler m)) (message : OutboxMessage)
    (n : ℕ) : Prop where
  chosen : ∀ handler, (registered handlers).route message = some handler →
    handler ∈ handlersOf message.eventType handlers ∧ handler.schemaVersion.toNat ≤ n ∧
      ∀ other ∈ handlersOf message.eventType handlers, other.schemaVersion.toNat ≤ n →
        other.schemaVersion ≤ handler.schemaVersion
  missing : (registered handlers).route message = none →
    ∀ other ∈ handlersOf message.eventType handlers, ¬other.schemaVersion.toNat ≤ n
  runs : ∀ publisher handler, (registered handlers).route message = some handler →
    (registered handlers).dispatch publisher message = handler.handle publisher message
  unsupported : ∀ publisher, (registered handlers).route message = none →
    ∃ text, (registered handlers).dispatch publisher message = pure (.error ⟨.unsupported, text⟩)

/-- A newer version never gets an older handler. -/
def NeverDowngrades (handlers : List (OutboxHandler m)) (message newer : OutboxMessage) : Prop :=
  ∀ handler newerHandler, (registered handlers).route message = some handler →
    (registered handlers).route newer = some newerHandler →
    handler.schemaVersion ≤ newerHandler.schemaVersion

/-- `n` fits `u32`, or no handler of the message's type is newer than version 1. -/
def VersionFits (handlers : List (OutboxHandler m)) (message : OutboxMessage) (n : ℕ) : Prop :=
  n < 2 ^ 32 ∨ ∀ handler ∈ handlersOf message.eventType handlers, handler.schemaVersion ≤ 1

section Routing

variable {handlers : List (OutboxHandler m)} {message newer : OutboxMessage} {n k : ℕ}

theorem resolveSchemaVersion_of_declares (h : Declares message n) :
    resolveSchemaVersion message = if n < 2 ^ 32 then some (UInt32.ofNat n) else none := by
  obtain ⟨hget, hlt⟩ := h
  have hu64 : (Value.number n).asU64 = some n := by
    have hrange : (0 : Int) ≤ n ∧ (n : Int) < 2 ^ 64 := by omega
    rw [Value.asU64, if_pos hrange, Int.toNat_natCast]
  have hbind : resolveSchemaVersion message = (message.payload.get "schema_version").bind (fun v =>
      v.asU64.bind (fun n => if n < 2 ^ 32 then some (UInt32.ofNat n) else none)) := rfl
  rw [hbind, hget, Option.bind_some, hu64, Option.bind_some]

theorem route_of_fits (h : Declares message n) (hn : n < 2 ^ 32) :
    (registered handlers).route message =
      (registered handlers).resolve message.eventType (UInt32.ofNat n) := by
  rw [route, resolveSchemaVersion_of_declares h, if_pos hn, Option.getD_some]

/-- A version that does not fit is taken for version 1. -/
theorem route_of_not_fits (h : Declares message n) (hn : ¬n < 2 ^ 32) :
    (registered handlers).route message = (registered handlers).resolve message.eventType 1 := by
  rw [route, resolveSchemaVersion_of_declares h, if_neg hn, Option.getD_none]

theorem le_ofNat_iff (hn : n < 2 ^ 32) (v : UInt32) : v ≤ UInt32.ofNat n ↔ v.toNat ≤ n := by
  rw [UInt32.le_iff_toNat_le, UInt32.toNat_ofNat_of_lt' hn]

theorem resolve_some (handlers : List (OutboxHandler m)) {eventType : String} {version : UInt32}
    {handler : OutboxHandler m}
    (h : (registered handlers).resolve eventType version = some handler) :
    Selected handlers eventType version handler := by
  have hindexes := indexes_registered handlers
  rw [resolve_eq_scan hindexes] at h
  exact (scan_eq_some_iff hindexes).mp h

theorem resolve_none (handlers : List (OutboxHandler m)) {eventType : String} {version : UInt32}
    (h : (registered handlers).resolve eventType version = none) :
    ∀ handler ∈ handlersOf eventType handlers, ¬handler.schemaVersion ≤ version := by
  have hindexes := indexes_registered handlers
  rw [resolve_eq_scan hindexes] at h
  exact (scan_eq_none_iff hindexes).mp h

variable [Monad m]

theorem dispatch_of_route_some {registry : OutboxRegistry m} {handler : OutboxHandler m}
    (publisher : OutboxPublisher m) (h : registry.route message = some handler) :
    registry.dispatch publisher message = handler.handle publisher message := by
  rw [route] at h
  simp only [dispatch, h]

theorem dispatch_of_route_none {registry : OutboxRegistry m} (publisher : OutboxPublisher m)
    (h : registry.route message = none) :
    ∃ text, registry.dispatch publisher message = pure (.error ⟨.unsupported, text⟩) := by
  rw [route] at h
  simp only [dispatch, h]
  exact ⟨_, rfl⟩

/-- The lookup may be made for any version `v` that admits the same handlers as `n`. -/
theorem honoursVersion_of_resolve {v : UInt32}
    (hroute : (registered handlers).route message =
      (registered handlers).resolve message.eventType v)
    (hv : ∀ handler ∈ handlersOf message.eventType handlers,
      handler.schemaVersion ≤ v ↔ handler.schemaVersion.toNat ≤ n) :
    HonoursVersion handlers message n where
  chosen handler h := by
    rw [hroute] at h
    have hselected := resolve_some handlers h
    have hmem := hselected.mem
    exact ⟨hmem, (hv handler hmem).mp hselected.le, fun other hother hle =>
      hselected.greatest other hother ((hv other hother).mpr hle)⟩
  missing h := by
    rw [hroute] at h
    intro other hother hle
    exact resolve_none handlers h other hother ((hv other hother).mpr hle)
  runs publisher handler h := dispatch_of_route_some publisher h
  unsupported publisher h := dispatch_of_route_none publisher h

theorem honoursVersion_of_fits (h : Declares message n) (hfits : VersionFits handlers message n) :
    HonoursVersion handlers message n := by
  by_cases hn : n < 2 ^ 32
  · exact honoursVersion_of_resolve (route_of_fits h hn) (fun handler _ => le_ofNat_iff hn _)
  · have hold := hfits.resolve_left hn
    refine honoursVersion_of_resolve (route_of_not_fits h hn) (fun handler hmem => ?_)
    have hlt := handler.schemaVersion.toNat_lt
    exact ⟨fun _ => by omega, fun _ => hold handler hmem⟩

theorem fits_of_honoursVersion (h : Declares message n) (hhonours : HonoursVersion handlers message n) :
    VersionFits handlers message n := by
  by_cases hn : n < 2 ^ 32
  · exact Or.inl hn
  · refine Or.inr (fun other hother => ?_)
    have hlt := other.schemaVersion.toNat_lt
    have hle : other.schemaVersion.toNat ≤ n := by omega
    have hroute := @route_of_not_fits m handlers message n h hn
    cases hresolve : (registered handlers).resolve message.eventType 1 with
    | none => exact absurd hle (hhonours.missing (hroute.trans hresolve) other hother)
    | some handler =>
        have hgreatest := (hhonours.chosen handler (hroute.trans hresolve)).2.2 other hother hle
        exact Std.le_trans hgreatest (resolve_some handlers hresolve).le

theorem neverDowngrades_of_honours (htype : newer.eventType = message.eventType) (hle : n ≤ k)
    (h : HonoursVersion handlers message n) (hnewer : HonoursVersion handlers newer k) :
    NeverDowngrades handlers message newer := by
  intro handler newerHandler hroute hroute'
  obtain ⟨hmem, hn, _⟩ := h.chosen handler hroute
  rw [← htype] at hmem
  exact (hnewer.chosen newerHandler hroute').2.2 handler hmem (by omega)

/-- Two messages of one type with the versions `n ≤ k` are routed by their versions exactly when each
version fits. -/
theorem honoursVersion_iff (handlers : List (OutboxHandler m)) (message newer : OutboxMessage)
    (n k : ℕ) (htype : newer.eventType = message.eventType) (h : Declares message n)
    (hnewer : Declares newer k) (hle : n ≤ k) :
    (HonoursVersion handlers message n ∧ HonoursVersion handlers newer k ∧
        NeverDowngrades handlers message newer) ↔
      VersionFits handlers message n ∧ VersionFits handlers newer k := by
  constructor
  · intro ⟨hhonours, hhonours', _⟩
    exact ⟨fits_of_honoursVersion h hhonours, fits_of_honoursVersion hnewer hhonours'⟩
  · intro ⟨hfits, hfits'⟩
    have hhonours := honoursVersion_of_fits h hfits
    have hhonours' := honoursVersion_of_fits hnewer hfits'
    exact ⟨hhonours, hhonours', neverDowngrades_of_honours htype hle hhonours hhonours'⟩

end Routing

/-! ## Handlers of two versions -/

def handlerOfVersion (version : UInt32) : OutboxHandler Id where
  eventType := "issue.created.v1"
  schemaVersion := version
  handle _ _ := pure (.ok ())

def messageOfVersion (n : ℕ) : OutboxMessage where
  id := 1
  workspaceId := 2
  eventId := 3
  eventType := "issue.created.v1"
  aggregateType := "issue"
  aggregateId := 4
  correlationId := 5
  payload := .object [("schema_version", .number n)]
  attempts := 0
  leaseToken := 6
  leaseOwner := 7
  leasedUntil := 8

theorem messageOfVersion_declares {n : ℕ} (h : n < 2 ^ 64) : Declares (messageOfVersion n) n := by
  exact ⟨rfl, h⟩

/-- Versions 2 and 5 where 1 and 3 are registered. -/
theorem honoursVersion_iff_twoVersions :
    NeverDowngrades [handlerOfVersion 1, handlerOfVersion 3] (messageOfVersion 2)
      (messageOfVersion 5) :=
  ((honoursVersion_iff [handlerOfVersion 1, handlerOfVersion 3] (messageOfVersion 2)
    (messageOfVersion 5) 2 5 rfl (messageOfVersion_declares (by decide))
    (messageOfVersion_declares (by decide)) (by decide)).mpr
      ⟨Or.inl (by decide), Or.inl (by decide)⟩).2.2

/-- Version 2^32 goes to version 1 where 2 is registered, and version 2 does not. -/
theorem largeVersion_not_honoured :
    Declares (messageOfVersion (2 ^ 32)) (2 ^ 32) ∧
    ¬HonoursVersion [handlerOfVersion 1, handlerOfVersion 2] (messageOfVersion (2 ^ 32)) (2 ^ 32) ∧
    ¬NeverDowngrades [handlerOfVersion 1, handlerOfVersion 2] (messageOfVersion 2)
      (messageOfVersion (2 ^ 32)) := by
  have hdeclares : Declares (messageOfVersion (2 ^ 32)) (2 ^ 32) :=
    messageOfVersion_declares (by decide)
  have hlarge : (registered [handlerOfVersion 1, handlerOfVersion 2]).route
      (messageOfVersion (2 ^ 32)) = some (handlerOfVersion 1) := by
    rw [route_of_not_fits hdeclares (by decide)]
    rfl
  have hsmall : (registered [handlerOfVersion 1, handlerOfVersion 2]).route (messageOfVersion 2) =
      some (handlerOfVersion 2) := by
    rw [route_of_fits (messageOfVersion_declares (by decide)) (by decide)]
    rfl
  refine ⟨hdeclares, fun h => ?_, fun h => ?_⟩
  · have hmem : handlerOfVersion 2 ∈ handlersOf "issue.created.v1"
        [handlerOfVersion 1, handlerOfVersion 2] :=
      List.mem_filter.mpr ⟨List.mem_cons_of_mem _ List.mem_cons_self, rfl⟩
    have hgreatest := (h.chosen _ hlarge).2.2 (handlerOfVersion 2) hmem (by decide)
    revert hgreatest
    decide
  · have hle := h _ _ hsmall hlarge
    revert hle
    decide

end Dandori.OutboxRegistry
