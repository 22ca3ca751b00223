import Mathlib.Data.List.Sort

/-!
# The least items of a list

`Least key n l s` says what a selection `ORDER BY key LIMIT n` is meant to pick from `l`, without a
sorting algorithm: as many items as there are, up to `n`, and none of them behind an item that is left
out. Sorting and truncating makes this selection.
-/

namespace Dandori

variable {α κ : Type*}

/-- `s` holds the `n` items of `l` with the least keys, or all of `l` when it is shorter. -/
structure Least [LT κ] (key : α → κ) (n : ℕ) (l s : List α) : Prop where
  subset : s ⊆ l
  nodup : s.Nodup
  length : s.length = min n l.length
  before : ∀ a ∈ s, ∀ b ∈ l, b ∉ s → key a < key b

namespace Least

variable [LinearOrder κ] {key : α → κ} {n : ℕ} {l s : List α}

theorem of_perm {l' : List α} (h : Least key n l s) (hperm : l.Perm l') : Least key n l' s where
  subset _ ha := hperm.subset (h.subset ha)
  nodup := h.nodup
  length := by rw [h.length, hperm.length_eq]
  before a ha b hb := h.before a ha b (hperm.mem_iff.mpr hb)

theorem take_of_sorted (hsorted : l.Pairwise (fun a b => key a < key b)) :
    Least key n l (l.take n) where
  subset _ ha := List.mem_of_mem_take ha
  nodup := (hsorted.imp (fun h heq => h.ne (congrArg key heq))).sublist (List.take_sublist n l)
  length := List.length_take
  before a ha b hb hnot := by
    rw [← List.take_append_drop n l] at hsorted hb
    rcases List.mem_append.mp hb with hb | hb
    · exact absurd hb hnot
    · exact (List.pairwise_append.mp hsorted).2.2 a ha b hb

/-- Sorting by the key and truncating picks the least items. -/
theorem take_insertionSort {r : α → α → Prop} [DecidableRel r] (hr : ∀ a b, r a b ↔ key a ≤ key b)
    (hkeys : (l.map key).Nodup) : Least key n l ((l.insertionSort r).take n) := by
  have hperm := List.perm_insertionSort r l
  have htotal : Std.Total r := ⟨fun a b => by
    rw [hr, hr]
    exact le_total _ _⟩
  have htrans : IsTrans α r := ⟨fun a b c hab hbc => by
    rw [hr] at hab hbc ⊢
    exact hab.trans hbc⟩
  have hle : (l.insertionSort r).Pairwise (fun a b => key a ≤ key b) :=
    (List.pairwise_insertionSort r l).imp (fun h => (hr _ _).mp h)
  have hne : (l.insertionSort r).Pairwise (fun a b => key a ≠ key b) :=
    List.pairwise_map.mp ((hperm.map key).nodup_iff.mpr hkeys)
  have hsorted := (hle.and hne).imp (fun h => lt_of_le_of_ne h.1 h.2)
  exact (take_of_sorted hsorted).of_perm hperm

end Least
end Dandori
