import Mathlib.Algebra.BigOperators.Group.List.Basic
import Mathlib.Algebra.GroupWithZero.Nat
import Mathlib.Algebra.Order.BigOperators.Group.List
import Mathlib.Algebra.Order.Ring.Nat
import Mathlib.Data.List.Flatten
import Mathlib.Logic.Relation

/-!
# Draining a stack of pending nodes

A node emits results and has nodes below it. A loop pops a node, emits its results and pushes the nodes
below it, until the stack is empty; the weight of the stack falls with every node. What it emits is what a
depth-first walk emits that takes the nodes below each node from the last to the first.
-/

namespace Dandori

structure Expansion (τ β : Type*) where
  emits : τ → List β
  below : τ → List τ
  size : τ → ℕ
  size_below : ∀ x, ((below x).map size).sum < size x

namespace Expansion

variable {τ β : Type*} (E : Expansion τ β)

def weight (stack : List τ) : ℕ := (stack.map E.size).sum

theorem weight_pop (x : τ) (stack : List τ) :
    E.weight ((E.below x).reverse ++ stack) < E.weight (x :: stack) := by
  unfold weight
  rw [List.map_append, List.sum_append, List.map_reverse, List.sum_reverse, List.map_cons,
    List.sum_cons]
  exact Nat.add_lt_add_right (E.size_below x) _

/-- The top of the stack is its head. -/
def drain : List τ → List β → List β
  | [], out => out
  | x :: stack, out => drain ((E.below x).reverse ++ stack) (out ++ E.emits x)
termination_by stack => E.weight stack
decreasing_by simpa using E.weight_pop x stack

theorem size_lt_of_mem {x y : τ} (h : y ∈ E.below x) : E.size y < E.size x :=
  (List.single_le_sum (fun _ _ => Nat.zero_le _) _ (List.mem_map_of_mem h)).trans_lt (E.size_below x)

/-- The walk from one node. -/
def visit (x : τ) : List β :=
  E.emits x ++ (E.below x).reverse.flatMap fun y => visit y
termination_by E.size x
decreasing_by exact E.size_lt_of_mem (by simpa using ‹_ ∈ _›)

theorem visit_eq (x : τ) : E.visit x = E.emits x ++ (E.below x).reverse.flatMap E.visit := by
  rw [visit]

theorem drain_eq (stack : List τ) (out : List β) :
    E.drain stack out = out ++ stack.flatMap E.visit := by
  induction stack, out using drain.induct E with
  | case1 out => rw [drain, List.flatMap_nil, List.append_nil]
  | case2 x stack out ih =>
      rw [List.unattach_reverse, List.unattach_attach] at ih
      rw [drain, ih, List.flatMap_append, List.flatMap_cons, E.visit_eq x, List.append_assoc,
        List.append_assoc]

/-- The nodes at or below a node. -/
def Reaches : τ → τ → Prop := Relation.ReflTransGen fun x y => y ∈ E.below x

theorem mem_visit {x : τ} {b : β} : b ∈ E.visit x ↔ ∃ y, E.Reaches x y ∧ b ∈ E.emits y := by
  constructor
  · intro h
    induction x using visit.induct E with
    | case1 x ih =>
        rw [visit_eq, List.mem_append, List.mem_flatMap] at h
        rcases h with h | ⟨y, hy, h⟩
        · exact ⟨x, .refl, h⟩
        · obtain ⟨z, hz, hb⟩ := ih y (List.mem_reverse.mp hy) h
          exact ⟨z, .head (List.mem_reverse.mp hy) hz, hb⟩
  · rintro ⟨y, hy, hb⟩
    induction hy using Relation.ReflTransGen.head_induction_on with
    | refl =>
        rw [visit_eq]
        exact List.mem_append_left _ hb
    | head hxz _ ih =>
        rw [visit_eq]
        exact List.mem_append_right _ (List.mem_flatMap.mpr ⟨_, List.mem_reverse.mpr hxz, ih⟩)

/-- A listing that follows the nodes in any order has the same results as often. -/
theorem visit_perm {listing : τ → List β}
    (hlisting : ∀ x, (listing x).Perm (E.emits x ++ (E.below x).flatMap listing)) (x : τ) :
    (E.visit x).Perm (listing x) := by
  induction x using visit.induct E with
  | case1 x ih =>
      rw [visit_eq]
      refine (List.Perm.append_left _ ?_).trans (hlisting x).symm
      refine ((List.reverse_perm _).flatMap_right _).trans ?_
      exact List.Perm.flatMap_left _ ih

end Expansion
end Dandori
