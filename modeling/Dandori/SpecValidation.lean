import Dandori.EarlyReturn
import Dandori.Domain

/-!
# Validation of graphs and workflows

A graph is checked edge by edge with the set of edges seen so far, a workflow transition by transition,
and the first fault is returned. What passes is well formed.
-/

namespace Dandori

/-- `CrateError::Validation`. -/
abbrev ValidationText := String

/-! ## Graphs -/

structure GraphEdge where
  fromNode : Uuid
  toNode : Uuid
  deriving DecidableEq

structure GraphSpec where
  nodes : List Uuid
  edges : List GraphEdge

namespace GraphSpec

def checkEdge (nodes : List Uuid) (seenEdges : List (Uuid × Uuid)) (edge : GraphEdge) :
    Except ValidationText (List (Uuid × Uuid)) :=
  if edge.fromNode = edge.toNode then throw "self-loop edges are not allowed"
  else if edge.fromNode ∉ nodes ∨ edge.toNode ∉ nodes then throw "edges must reference known nodes"
  else if (edge.fromNode, edge.toNode) ∈ seenEdges then
    throw "duplicate directed edges are not allowed"
  else return (seenEdges ++ [(edge.fromNode, edge.toNode)])

def validate (spec : GraphSpec) : Except ValidationText Unit := do
  if spec.nodes.isEmpty then throw "graph must contain at least one node"
  let _ ← spec.edges.foldlM (checkEdge spec.nodes) []
  return ()

/-- The graph has a node, and its edges are between different nodes of it, each there once. -/
structure WellFormed (spec : GraphSpec) : Prop where
  nonempty : spec.nodes ≠ []
  irreflexive : ∀ e ∈ spec.edges, e.fromNode ≠ e.toNode
  known : ∀ e ∈ spec.edges, e.fromNode ∈ spec.nodes ∧ e.toNode ∈ spec.nodes
  nodup : spec.edges.Nodup

/-- What is wrong with an edge after the edges before it. -/
inductive EdgeFault (nodes : List Uuid) (before : List GraphEdge) (edge : GraphEdge) :
    ValidationText → Prop
  | selfLoop (h : edge.fromNode = edge.toNode) :
      EdgeFault nodes before edge "self-loop edges are not allowed"
  | unknown (hloop : edge.fromNode ≠ edge.toNode) (h : edge.fromNode ∉ nodes ∨ edge.toNode ∉ nodes) :
      EdgeFault nodes before edge "edges must reference known nodes"
  | duplicate (hloop : edge.fromNode ≠ edge.toNode)
      (hknown : edge.fromNode ∈ nodes ∧ edge.toNode ∈ nodes) (h : edge ∈ before) :
      EdgeFault nodes before edge "duplicate directed edges are not allowed"

/-- The check of an edge as a function of the edges before it. -/
def edgeFault (nodes : List Uuid) (before : List GraphEdge) (edge : GraphEdge) :
    Option ValidationText :=
  if edge.fromNode = edge.toNode then some "self-loop edges are not allowed"
  else if edge.fromNode ∉ nodes ∨ edge.toNode ∉ nodes then some "edges must reference known nodes"
  else if edge ∈ before then some "duplicate directed edges are not allowed"
  else none

theorem edgeFault_eq_some {nodes : List Uuid} {before : List GraphEdge} {edge : GraphEdge}
    {text : ValidationText} :
    edgeFault nodes before edge = some text ↔ EdgeFault nodes before edge text := by
  unfold edgeFault
  constructor
  · intro h
    split at h
    · rename_i hloop
      cases h
      exact .selfLoop hloop
    · rename_i hloop
      split at h
      · rename_i hunknown
        cases h
        exact .unknown hloop hunknown
      · rename_i hknown
        rw [not_or, not_not, not_not] at hknown
        split at h
        · rename_i hmem
          cases h
          exact .duplicate hloop hknown hmem
        · cases h
  · intro h
    cases h with
    | selfLoop h => rw [if_pos h]
    | unknown hloop h => rw [if_neg hloop, if_pos h]
    | duplicate hloop hknown h =>
        rw [if_neg hloop, if_neg (by rw [not_or, not_not, not_not]; exact hknown), if_pos h]

theorem edgeFault_eq_none {nodes : List Uuid} {before : List GraphEdge} {edge : GraphEdge} :
    edgeFault nodes before edge = none ↔ edge.fromNode ≠ edge.toNode ∧
      (edge.fromNode ∈ nodes ∧ edge.toNode ∈ nodes) ∧ edge ∉ before := by
  unfold edgeFault
  split
  · simp [*]
  · split
    · rename_i hunknown
      rw [← not_and_or] at hunknown
      simp [hunknown]
    · rename_i hknown
      rw [← not_and_or, not_not] at hknown
      split
      · simp [*]
      · simp [*]

/-- The pair of an edge. -/
def pair (edge : GraphEdge) : Uuid × Uuid := (edge.fromNode, edge.toNode)

theorem mem_pairs {before : List GraphEdge} {edge : GraphEdge} :
    (edge.fromNode, edge.toNode) ∈ before.map pair ↔ edge ∈ before := by
  constructor
  · intro h
    obtain ⟨other, hother, heq⟩ := List.mem_map.mp h
    obtain ⟨hfrom, hto⟩ := Prod.mk.inj heq
    have hsame : other = edge := by
      cases other
      cases edge
      cases hfrom
      cases hto
      rfl
    exact hsame ▸ hother
  · exact fun h => List.mem_map_of_mem h

theorem checkEdge_returnsFirst (nodes : List Uuid) :
    ReturnsFirst (edgeFault nodes) (checkEdge nodes) (List.map pair) := by
  refine .of_eq fun before edge => ?_
  unfold checkEdge edgeFault
  simp only [mem_pairs]
  split
  · rfl
  · split
    · rfl
    · split
      · rfl
      · rw [List.map_append]
        rfl

theorem forall_mem_append_singleton {l : List GraphEdge} {x : GraphEdge} {P : GraphEdge → Prop} :
    (∀ e ∈ l ++ [x], P e) ↔ (∀ e ∈ l, P e) ∧ P x := by
  simp only [List.mem_append, List.mem_singleton, or_imp, forall_and, forall_eq]

theorem wellFormed_iff {nodes : List Uuid} {edges : List GraphEdge} (hnodes : nodes ≠ []) :
    WellFormed ⟨nodes, edges⟩ ↔ Faultless (edgeFault nodes) edges := by
  induction edges using List.reverseRecOn with
  | nil => exact ⟨fun _ => .nil, fun _ => ⟨hnodes, by simp, by simp, List.nodup_nil⟩⟩
  | append_singleton edges edge ih =>
      have hnodup : (edges ++ [edge]).Nodup ↔ edges.Nodup ∧ edge ∉ edges :=
        (List.perm_append_singleton edge edges).nodup_iff.trans
          (List.nodup_cons.trans and_comm)
      rw [faultless_append_singleton, ← ih, edgeFault_eq_none]
      constructor
      · intro h
        obtain ⟨hirreflexive, hloop⟩ := forall_mem_append_singleton.mp h.irreflexive
        obtain ⟨hknown, hedge⟩ := forall_mem_append_singleton.mp h.known
        obtain ⟨hold, hnew⟩ := hnodup.mp h.nodup
        exact ⟨⟨hnodes, hirreflexive, hknown, hold⟩, hloop, hedge, hnew⟩
      · rintro ⟨h, hloop, hedge, hnew⟩
        exact {
          nonempty := hnodes
          irreflexive := forall_mem_append_singleton.mpr ⟨h.irreflexive, hloop⟩
          known := forall_mem_append_singleton.mpr ⟨h.known, hedge⟩
          nodup := hnodup.mpr ⟨h.nodup, hnew⟩ }

/-- What a refused graph is refused for: no node, or the first edge that does not fit those before it. -/
inductive Refusal (spec : GraphSpec) : ValidationText → Prop
  | empty (h : spec.nodes = []) : Refusal spec "graph must contain at least one node"
  | edge {before after : List GraphEdge} {edge : GraphEdge} {text : ValidationText}
      (hsplit : spec.edges = before ++ edge :: after) (hbefore : WellFormed ⟨spec.nodes, before⟩)
      (h : EdgeFault spec.nodes before edge text) : Refusal spec text

theorem refusal_iff {nodes : List Uuid} {edges : List GraphEdge} (hnodes : nodes ≠ [])
    {text : ValidationText} :
    Refusal ⟨nodes, edges⟩ text ↔ FirstFault (edgeFault nodes) edges text := by
  constructor
  · intro h
    cases h with
    | empty h => exact absurd h hnodes
    | edge hsplit hbefore h =>
        exact ⟨_, _, _, hsplit, (wellFormed_iff hnodes).mp hbefore, edgeFault_eq_some.mpr h⟩
  · rintro ⟨before, edge, after, hsplit, hbefore, hfault⟩
    exact .edge hsplit ((wellFormed_iff hnodes).mpr hbefore) (edgeFault_eq_some.mp hfault)

/-- The graphs that pass are the well-formed ones, and the others are refused for their first fault. -/
theorem validate_firstFault (spec : GraphSpec) : (validate spec = .ok () ↔ WellFormed spec) ∧
    ∀ text, validate spec = .error text ↔ Refusal spec text := by
  obtain ⟨nodes, edges⟩ := spec
  by_cases hnodes : nodes = []
  · subst hnodes
    have hvalidate : validate ⟨[], edges⟩ = .error "graph must contain at least one node" := rfl
    rw [hvalidate]
    refine ⟨iff_of_false (fun h => by cases h) fun h => h.nonempty rfl, fun text => ?_⟩
    constructor
    · intro h
      cases h
      exact .empty rfl
    · intro h
      cases h with
      | empty _ => rfl
      | edge _ hbefore _ => exact absurd rfl hbefore.nonempty
  · have hvalidate : validate ⟨nodes, edges⟩ =
        (edges.foldlM (checkEdge nodes) (List.map pair [])).map fun _ => () := by
      cases nodes with
      | nil => exact absurd rfl hnodes
      | cons node nodes => rfl
    have hreturns := checkEdge_returnsFirst nodes
    rw [hvalidate, wellFormed_iff hnodes, ← map_foldlM_eq_ok_iff hreturns]
    refine ⟨Iff.rfl, fun text => ?_⟩
    rw [refusal_iff hnodes, map_foldlM_eq_error_iff hreturns]

end GraphSpec

/-! ## Workflows -/

structure Transition where
  fromState : String
  toState : String
  action : String

structure WorkflowSpec where
  name : String
  initialState : String
  states : List String
  transitions : List Transition

namespace WorkflowSpec

def checkTransition (states : List String) (_ : Unit) (transition : Transition) :
    Except ValidationText Unit :=
  if trimIsEmpty transition.action then throw "transition action must not be empty"
  else if transition.fromState ∉ states ∨ transition.toState ∉ states then
    throw "transition endpoints must reference known states"
  else return ()

def validate (spec : WorkflowSpec) : Except ValidationText Unit := do
  if trimIsEmpty spec.name then throw "workflow name must not be empty"
  if spec.states.isEmpty then throw "workflow must contain at least one state"
  if spec.initialState ∉ spec.states then
    throw "initial state must be part of the declared state set"
  spec.transitions.foldlM (checkTransition spec.states) ()

/-- A name, an initial state that is declared, and named transitions between declared states. -/
structure WellFormed (spec : WorkflowSpec) : Prop where
  named : trimIsEmpty spec.name = false
  initial : spec.initialState ∈ spec.states
  actions : ∀ t ∈ spec.transitions, trimIsEmpty t.action = false
  known : ∀ t ∈ spec.transitions, t.fromState ∈ spec.states ∧ t.toState ∈ spec.states

/-- What is wrong with a transition. -/
def transitionFault (states : List String) (transition : Transition) : Option ValidationText :=
  if trimIsEmpty transition.action then some "transition action must not be empty"
  else if transition.fromState ∉ states ∨ transition.toState ∉ states then
    some "transition endpoints must reference known states"
  else none

/-- What a refused workflow is refused for: the first of its checks, or the first bad transition. -/
inductive Refusal (spec : WorkflowSpec) : ValidationText → Prop
  | name (h : trimIsEmpty spec.name = true) : Refusal spec "workflow name must not be empty"
  | states (hname : trimIsEmpty spec.name = false) (h : spec.states = []) :
      Refusal spec "workflow must contain at least one state"
  | initial (hname : trimIsEmpty spec.name = false) (hstates : spec.states ≠ [])
      (h : spec.initialState ∉ spec.states) :
      Refusal spec "initial state must be part of the declared state set"
  | transition {before after : List Transition} {transition : Transition} {text : ValidationText}
      (hsplit : spec.transitions = before ++ transition :: after)
      (hbefore : WellFormed { spec with transitions := before })
      (h : transitionFault spec.states transition = some text) : Refusal spec text

theorem transitionFault_eq_none {states : List String} {t : Transition} :
    transitionFault states t = none ↔
      trimIsEmpty t.action = false ∧ t.fromState ∈ states ∧ t.toState ∈ states := by
  unfold transitionFault
  split
  · simp [*]
  · split
    · rename_i hunknown
      rw [← not_and_or] at hunknown
      simp [hunknown]
    · rename_i hknown
      rw [← not_and_or, not_not] at hknown
      simp [*]

theorem checkTransition_returnsFirst (states : List String) :
    ReturnsFirst (fun _ => transitionFault states) (checkTransition states) (fun _ => ()) := by
  refine .of_eq fun _ t => ?_
  unfold checkTransition transitionFault
  split
  · rfl
  · split
    · rfl
    · rfl

section

variable {spec : WorkflowSpec}

theorem wellFormed_iff (hname : trimIsEmpty spec.name = false)
    (hinitial : spec.initialState ∈ spec.states) {transitions : List Transition} :
    WellFormed { spec with transitions := transitions } ↔
      Faultless (fun _ => transitionFault spec.states) transitions := by
  rw [faultless_iff_forall]
  simp only [transitionFault_eq_none]
  constructor
  · exact fun h t ht => ⟨h.actions t ht, h.known t ht⟩
  · exact fun h => ⟨hname, hinitial, fun t ht => (h t ht).1, fun t ht => (h t ht).2⟩

theorem refusal_iff (hname : trimIsEmpty spec.name = false)
    (hinitial : spec.initialState ∈ spec.states) {text : ValidationText} :
    Refusal spec text ↔ FirstFault (fun _ => transitionFault spec.states) spec.transitions text := by
  constructor
  · intro h
    cases h with
    | name h => rw [hname] at h; cases h
    | states _ h => rw [h] at hinitial; cases hinitial
    | initial _ _ h => exact absurd hinitial h
    | transition hsplit hbefore h =>
        exact ⟨_, _, _, hsplit, (wellFormed_iff hname hinitial).mp hbefore, h⟩
  · rintro ⟨before, t, after, hsplit, hbefore, hfault⟩
    exact .transition hsplit ((wellFormed_iff hname hinitial).mpr hbefore) hfault

/-- The states that the transitions lead to from the initial one. -/
inductive Reached (spec : WorkflowSpec) : String → Prop
  | initial : Reached spec spec.initialState
  | step {t : Transition} (ht : t ∈ spec.transitions) (h : Reached spec t.fromState) :
      Reached spec t.toState

theorem WellFormed.declared (h : WellFormed spec) {state : String} (hstate : Reached spec state) :
    state ∈ spec.states := by
  cases hstate with
  | initial => exact h.initial
  | step ht _ => exact (h.known _ ht).2

/-- A refusal before the loop over the transitions. -/
theorem spec_of_refused {refusal : ValidationText} (hvalidate : validate spec = .error refusal)
    (hrefusal : Refusal spec refusal) (hill : ¬ WellFormed spec)
    (honly : ∀ text, Refusal spec text → text = refusal) :
    (validate spec = .ok () ↔ WellFormed spec) ∧
      ∀ text, validate spec = .error text ↔ Refusal spec text := by
  rw [hvalidate]
  refine ⟨iff_of_false (fun h => by cases h) hill, fun text => ⟨fun h => ?_, fun h => ?_⟩⟩
  · cases h
    exact hrefusal
  · rw [honly text h]

/-- The workflows that pass are the well-formed ones, and the others are refused for their first fault;
what passes never leaves the declared states. -/
theorem validate_declares (spec : WorkflowSpec) : (validate spec = .ok () ↔ WellFormed spec) ∧
    (∀ text, validate spec = .error text ↔ Refusal spec text) ∧
    (validate spec = .ok () → ∀ state, Reached spec state → state ∈ spec.states) := by
  suffices hspec : (validate spec = .ok () ↔ WellFormed spec) ∧
      ∀ text, validate spec = .error text ↔ Refusal spec text from
    ⟨hspec.1, hspec.2, fun h state hstate => (hspec.1.mp h).declared hstate⟩
  cases hname : trimIsEmpty spec.name with
  | true =>
      have hvalidate : validate spec = .error "workflow name must not be empty" := by
        rw [validate, if_pos hname]
        rfl
      refine spec_of_refused hvalidate (.name hname) (fun h => ?_) fun text h => ?_
      · rw [h.named] at hname
        cases hname
      · cases h with
        | name _ => rfl
        | states h _ => rw [hname] at h; cases h
        | initial h _ _ => rw [hname] at h; cases h
        | transition _ h _ =>
            have hnamed : trimIsEmpty spec.name = false := h.named
            rw [hname] at hnamed
            cases hnamed
  | false =>
      have hpasses : ¬ trimIsEmpty spec.name = true := by simp [hname]
      by_cases hstates : spec.states = []
      · have hvalidate : validate spec = .error "workflow must contain at least one state" := by
          rw [validate, if_neg hpasses, if_pos (List.isEmpty_iff.mpr hstates)]
          rfl
        refine spec_of_refused hvalidate (.states hname hstates) (fun h => ?_) fun text h => ?_
        · have hinitial := h.initial
          rw [hstates] at hinitial
          cases hinitial
        · cases h with
          | name h => exact absurd h hpasses
          | states _ _ => rfl
          | initial _ h _ => exact absurd hstates h
          | transition _ h _ =>
              have hinitial : spec.initialState ∈ spec.states := h.initial
              rw [hstates] at hinitial
              cases hinitial
      · have hsome : ¬ spec.states.isEmpty = true := fun h => hstates (List.isEmpty_iff.mp h)
        by_cases hinitial : spec.initialState ∈ spec.states
        · have hvalidate : validate spec =
              (spec.transitions.foldlM (checkTransition spec.states) ()).map fun _ => () := by
            rw [validate, if_neg hpasses, if_neg hsome, if_neg (not_not.mpr hinitial)]
            change spec.transitions.foldlM (checkTransition spec.states) () = _
            cases spec.transitions.foldlM (checkTransition spec.states) () with
            | ok _ => rfl
            | error _ => rfl
          have hreturns := checkTransition_returnsFirst spec.states
          rw [hvalidate]
          constructor
          · rw [map_foldlM_eq_ok_iff hreturns]
            exact (wellFormed_iff hname hinitial).symm
          · intro text
            rw [refusal_iff hname hinitial, map_foldlM_eq_error_iff hreturns]
        · have hvalidate : validate spec =
              .error "initial state must be part of the declared state set" := by
            rw [validate, if_neg hpasses, if_neg hsome, if_pos hinitial]
            rfl
          refine spec_of_refused hvalidate (.initial hname hstates hinitial)
            (fun h => hinitial h.initial) fun text h => ?_
          cases h with
          | name h => exact absurd h hpasses
          | states _ h => exact absurd h hstates
          | initial _ _ _ => rfl
          | transition _ h _ => exact absurd h.initial hinitial

end
end WorkflowSpec
end Dandori
