import Dandori.Registry
import Dandori.VersionIndex
import Mathlib.Data.List.Induction

/-!
# Looking up handlers

A registry keeps each handler twice: under its event type and version, where a later registration
replaces the earlier one, and in the sorted list of its event type, where both stay. `Indexes` says what
the two hold after a sequence of registrations. Both ways to look a handler up then find the one that
was registered last under the greatest version up to the version asked for.
-/

namespace Dandori.OutboxRegistry

variable {m : Type → Type}

def handlersOf (eventType : String) (handlers : List (OutboxHandler m)) : List (OutboxHandler m) :=
  handlers.filter (fun h => h.eventType = eventType)

/-- The registry after these calls of `register`. -/
def registered (handlers : List (OutboxHandler m)) : OutboxRegistry m :=
  handlers.foldl register new

def versions (registry : OutboxRegistry m) (eventType : String) : List (UInt32 × OutboxHandler m) :=
  (registry.byType eventType).getD []

/-- The version scan of `resolve`. -/
def scan (registry : OutboxRegistry m) (eventType : String) (schemaVersion : UInt32) :
    Option (OutboxHandler m) :=
  ((registry.versions eventType).reverse.find? (fun entry => entry.1 ≤ schemaVersion)).map Prod.snd

theorem resolve_eq (registry : OutboxRegistry m) (eventType : String) (schemaVersion : UInt32) :
    registry.resolve eventType schemaVersion =
      (registry.byKey (eventType, schemaVersion)).or (registry.scan eventType schemaVersion) := by
  unfold resolve scan versions
  cases registry.byKey (eventType, schemaVersion) with
  | some handler => rfl
  | none =>
      cases registry.byType eventType with
      | none => rfl
      | some entries =>
          cases hfind : entries.reverse.find? (fun entry => entry.1 ≤ schemaVersion) with
          | none => simp [hfind]
          | some entry => simp [hfind]

/-- `sorted` holds the handlers of one event type: by version, and in their order for each version. -/
structure SortedVersions (handlers sorted : List (OutboxHandler m)) : Prop where
  pairwise : sorted.Pairwise (fun a b => a.schemaVersion ≤ b.schemaVersion)
  stable : ∀ version, sorted.filter (fun h => h.schemaVersion = version) =
    handlers.filter (fun h => h.schemaVersion = version)

def entryOf (handler : OutboxHandler m) : UInt32 × OutboxHandler m := (handler.schemaVersion, handler)

/-- What the two indexes hold once `handlers` have been registered. -/
structure Indexes (handlers : List (OutboxHandler m)) (registry : OutboxRegistry m) : Prop where
  byKey : ∀ eventType version, registry.byKey (eventType, version) =
    ((handlersOf eventType handlers).filter (fun h => h.schemaVersion = version)).getLast?
  byType : ∀ eventType, ∃ sorted, registry.versions eventType = sorted.map entryOf ∧
    SortedVersions (handlersOf eventType handlers) sorted

theorem handlersOf_append (eventType : String) (handlers : List (OutboxHandler m))
    (handler : OutboxHandler m) :
    handlersOf eventType (handlers ++ [handler]) = handlersOf eventType handlers ++
      (if handler.eventType = eventType then [handler] else []) := by
  rw [handlersOf, List.filter_append, List.filter_singleton]
  by_cases h : handler.eventType = eventType <;> simp [handlersOf, h]

theorem byKey_register (registry : OutboxRegistry m) (handler : OutboxHandler m)
    (key : String × UInt32) : (registry.register handler).byKey key =
      if key = (handler.eventType, handler.schemaVersion) then some handler
      else registry.byKey key := rfl

theorem versions_register (registry : OutboxRegistry m) (handler : OutboxHandler m)
    (eventType : String) :
    (registry.register handler).versions eventType =
      if eventType = handler.eventType then
        (registry.versions eventType ++ [entryOf handler]).insertionSort (fun a b => a.1 ≤ b.1)
      else registry.versions eventType := by
  unfold versions register
  by_cases h : eventType = handler.eventType
  · simp only [if_pos h]
    rfl
  · simp only [if_neg h]

theorem indexes_new : Indexes [] (new : OutboxRegistry m) where
  byKey _ _ := rfl
  byType _ := ⟨[], rfl, List.Pairwise.nil, fun _ => rfl⟩

/-- A new handler is sorted behind the earlier ones of its version. -/
theorem sortedVersions_insert {handlers sorted : List (OutboxHandler m)}
    (h : SortedVersions handlers sorted) (handler : OutboxHandler m) :
    ∃ sorted', (sorted.map entryOf ++ [entryOf handler]).insertionSort (fun a b => a.1 ≤ b.1) =
      sorted'.map entryOf ∧ SortedVersions (handlers ++ [handler]) sorted' := by
  refine ⟨(sorted ++ [handler]).insertionSort (fun a b => a.schemaVersion ≤ b.schemaVersion), ?_,
    pairwise_insertionSort_key _, fun version => ?_⟩
  · have hmap := List.map_insertionSort
      (fun a b : OutboxHandler m => a.schemaVersion ≤ b.schemaVersion)
      (fun a b : UInt32 × OutboxHandler m => a.1 ≤ b.1) entryOf (sorted ++ [handler])
      (fun _ _ _ _ => Iff.rfl)
    rw [hmap, List.map_append]
    rfl
  · rw [filter_insertionSort_key, List.filter_append, List.filter_append, h.stable]

/-- A registration for another event type leaves both indexes of this one alone; one for this type
goes to the end of the handlers of its version. -/
theorem indexes_register {handlers : List (OutboxHandler m)} {registry : OutboxRegistry m}
    (h : Indexes handlers registry) (handler : OutboxHandler m) :
    Indexes (handlers ++ [handler]) (registry.register handler) where
  byKey eventType version := by
    have hkey := h.byKey eventType version
    rw [handlersOf_append, List.filter_append, byKey_register]
    by_cases htype : handler.eventType = eventType
    · rw [if_pos htype, List.filter_singleton]
      by_cases hversion : handler.schemaVersion = version
      · rw [if_pos (by rw [htype, hversion]), decide_eq_true hversion, cond_true, List.getLast?_concat]
      · have hne : (eventType, version) ≠ (handler.eventType, handler.schemaVersion) := by
          intro heq
          exact hversion (Prod.mk.inj heq).2.symm
        rw [if_neg hne, decide_eq_false hversion, cond_false, List.append_nil, hkey]
    · have hne : (eventType, version) ≠ (handler.eventType, handler.schemaVersion) := by
        intro heq
        exact htype (Prod.mk.inj heq).1.symm
      rw [if_neg hne, if_neg htype, List.filter_nil, List.append_nil, hkey]
  byType eventType := by
    obtain ⟨sorted, hversions, hsorted⟩ := h.byType eventType
    rw [versions_register, handlersOf_append]
    by_cases htype : eventType = handler.eventType
    · rw [if_pos htype, if_pos htype.symm, hversions]
      exact sortedVersions_insert hsorted handler
    · rw [if_neg htype, if_neg (fun heq => htype heq.symm), List.append_nil]
      exact ⟨sorted, hversions, hsorted⟩

theorem indexes_registered (handlers : List (OutboxHandler m)) :
    Indexes handlers (registered handlers) := by
  induction handlers using List.reverseRecOn with
  | nil => exact indexes_new
  | append_singleton handlers handler ih =>
      rw [registered, List.foldl_append]
      exact indexes_register ih handler

/-! ## The handler that is found -/

/-- `handler` was registered last among the handlers of `eventType` with the greatest version up to
`version`. -/
abbrev Selected (handlers : List (OutboxHandler m)) (eventType : String) (version : UInt32)
    (handler : OutboxHandler m) : Prop :=
  LatestUpTo OutboxHandler.schemaVersion (handlersOf eventType handlers) version handler

section Lookup

variable {handlers : List (OutboxHandler m)} {registry : OutboxRegistry m} {eventType : String}
  {version : UInt32} {handler : OutboxHandler m}

theorem scan_eq_find (h : Indexes handlers registry) (eventType : String) (version : UInt32) :
    ∃ sorted, SortedVersions (handlersOf eventType handlers) sorted ∧
      registry.scan eventType version =
        sorted.reverse.find? (fun handler => handler.schemaVersion ≤ version) := by
  obtain ⟨sorted, hversions, hsorted⟩ := h.byType eventType
  refine ⟨sorted, hsorted, ?_⟩
  rw [scan, hversions, ← List.map_reverse, List.find?_map, Option.map_map]
  exact congrFun Option.map_id _

theorem scan_eq_some_iff (h : Indexes handlers registry) :
    registry.scan eventType version = some handler ↔ Selected handlers eventType version handler := by
  obtain ⟨sorted, hsorted, hscan⟩ := scan_eq_find h eventType version
  rw [hscan, find?_reverse_of_sorted hsorted.pairwise]
  exact latestUpTo_congr hsorted.stable

theorem scan_eq_none_iff (h : Indexes handlers registry) :
    registry.scan eventType version = none ↔
      ∀ handler ∈ handlersOf eventType handlers, ¬handler.schemaVersion ≤ version := by
  obtain ⟨sorted, hsorted, hscan⟩ := scan_eq_find h eventType version
  rw [hscan, List.find?_eq_none]
  simp only [List.mem_reverse, mem_iff_of_filter_key hsorted.stable, decide_eq_true_eq]

/-- The exact match is the handler that the scan would find. -/
theorem scan_of_byKey (h : Indexes handlers registry)
    (hkey : registry.byKey (eventType, version) = some handler) :
    registry.scan eventType version = some handler := by
  rw [h.byKey, getLast?_filter_eq_some, decide_eq_true_eq] at hkey
  simp only [decide_eq_false_iff_not] at hkey
  obtain ⟨rfl, before, after, hl, hafter⟩ := hkey
  exact (scan_eq_some_iff h).mpr ⟨Std.le_refl _, fun _ _ hle => hle, before, after, hl, hafter⟩

theorem resolve_eq_scan (h : Indexes handlers registry) (eventType : String) (version : UInt32) :
    registry.resolve eventType version = registry.scan eventType version := by
  rw [resolve_eq]
  cases hkey : registry.byKey (eventType, version) with
  | some handler =>
      rw [scan_of_byKey h hkey]
      rfl
  | none => rfl

/-- For every sequence of registrations: what `resolve` returns and when it returns nothing, that the
exact match agrees with the scan, and that only the handlers of the event type matter. -/
theorem resolve_registered (handlers : List (OutboxHandler m)) (eventType : String)
    (version : UInt32) :
    (∀ handler, (registered handlers).resolve eventType version = some handler ↔
      Selected handlers eventType version handler) ∧
    ((registered handlers).resolve eventType version = none ↔
      ∀ handler ∈ handlers, handler.eventType = eventType → ¬handler.schemaVersion ≤ version) ∧
    (∀ handler, (registered handlers).byKey (eventType, version) = some handler →
      (registered handlers).scan eventType version = some handler) ∧
    ∀ others : List (OutboxHandler m), handlersOf eventType others = handlersOf eventType handlers →
      (registered others).resolve eventType version =
        (registered handlers).resolve eventType version := by
  have h := indexes_registered handlers
  refine ⟨fun handler => ?_, ?_, fun handler hkey => scan_of_byKey h hkey, fun others hothers => ?_⟩
  · rw [resolve_eq_scan h]
    exact scan_eq_some_iff h
  · rw [resolve_eq_scan h, scan_eq_none_iff h]
    simp only [handlersOf, List.mem_filter, decide_eq_true_eq, and_imp]
  · rw [resolve_eq_scan h, resolve_eq_scan (indexes_registered others)]
    apply Option.ext
    intro handler
    rw [scan_eq_some_iff h, scan_eq_some_iff (indexes_registered others), Selected, hothers]

end Lookup
end Dandori.OutboxRegistry
