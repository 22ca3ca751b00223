import Mathlib.Data.List.Sort

/-!
# Indexes by version

Items with a key are kept sorted by it, and an item that comes later stands behind the earlier ones of
its key. `LatestUpTo` says which item a lookup is meant to find, in any order of the list: of the
greatest key up to a bound, the last item. Scanning the sorted list from its end finds that item, and
sorting does not change which one it is.
-/

namespace Dandori

variable {α κ : Type*}

/-- Of the items with the greatest key up to `v`, the last one. -/
structure LatestUpTo [LE κ] (key : α → κ) (l : List α) (v : κ) (e : α) : Prop where
  le : key e ≤ v
  greatest : ∀ e' ∈ l, key e' ≤ v → key e' ≤ key e
  last : ∃ before after, l = before ++ e :: after ∧ ∀ e' ∈ after, key e' ≠ key e

theorem getLast?_filter_eq_some {p : α → Bool} {l : List α} {e : α} :
    (l.filter p).getLast? = some e ↔
      p e = true ∧ ∃ before after, l = before ++ e :: after ∧ ∀ e' ∈ after, p e' = false := by
  rw [List.getLast?_filter, List.find?_eq_some_iff_append]
  constructor
  · rintro ⟨he, as, bs, hl, has⟩
    refine ⟨he, bs.reverse, as.reverse, ?_, fun e' he' => ?_⟩
    · have hreverse := congrArg List.reverse hl
      simp only [List.reverse_reverse, List.reverse_append, List.reverse_cons, List.append_assoc,
        List.singleton_append] at hreverse
      exact hreverse
    · have hnot := has e' (List.mem_reverse.mp he')
      simpa using hnot
  · rintro ⟨he, before, after, rfl, hafter⟩
    refine ⟨he, after.reverse, before.reverse, ?_, fun e' he' => ?_⟩
    · simp only [List.reverse_append, List.reverse_cons, List.append_assoc, List.singleton_append]
    · rw [hafter e' (List.mem_reverse.mp he')]
      rfl

theorem mem_iff_of_filter_key [DecidableEq κ] {key : α → κ} {l l' : List α}
    (h : ∀ k, l'.filter (fun e => key e = k) = l.filter (fun e => key e = k)) (e : α) :
    e ∈ l' ↔ e ∈ l := by
  have hfilter (l : List α) : e ∈ l ↔ e ∈ l.filter (fun a => key a = key e) := by
    simp only [List.mem_filter, decide_true, and_true]
  rw [hfilter l', h, ← hfilter l]

section Lookup

variable [LE κ] {key : α → κ} {l : List α} {v : κ} {e : α}

theorem LatestUpTo.mem (h : LatestUpTo key l v e) : e ∈ l := by
  obtain ⟨before, after, rfl, _⟩ := h.last
  exact List.mem_append_right before List.mem_cons_self

theorem latestUpTo_iff_filter [DecidableEq κ] :
    LatestUpTo key l v e ↔ key e ≤ v ∧ (∀ e' ∈ l, key e' ≤ v → key e' ≤ key e) ∧
      (l.filter (fun e' => key e' = key e)).getLast? = some e := by
  rw [getLast?_filter_eq_some]
  simp only [decide_true, decide_eq_false_iff_not, true_and]
  exact ⟨fun h => ⟨h.le, h.greatest, h.last⟩, fun ⟨hle, hgreatest, hlast⟩ => ⟨hle, hgreatest, hlast⟩⟩

/-- Only the items of each key, in their order, matter. -/
theorem latestUpTo_congr [DecidableEq κ] {l' : List α}
    (h : ∀ k, l'.filter (fun e => key e = k) = l.filter (fun e => key e = k)) :
    LatestUpTo key l' v e ↔ LatestUpTo key l v e := by
  rw [latestUpTo_iff_filter, latestUpTo_iff_filter, h]
  simp only [mem_iff_of_filter_key h]

variable [Std.IsLinearOrder κ] [DecidableLE κ]

/-- In a sorted list the last item up to `v` has the greatest key up to `v`, and is the last of it. -/
theorem getLast?_filter_le_of_sorted (hsorted : l.Pairwise (fun a b => key a ≤ key b)) :
    (l.filter (fun e' => key e' ≤ v)).getLast? = some e ↔ LatestUpTo key l v e := by
  rw [getLast?_filter_eq_some, decide_eq_true_eq]
  simp only [decide_eq_false_iff_not]
  constructor
  · rintro ⟨hle, before, after, rfl, hafter⟩
    have hsorted' := List.pairwise_append.mp hsorted
    refine ⟨hle, fun e' he' hle' => ?_, before, after, rfl, fun e' he' hkey => ?_⟩
    · rcases List.mem_append.mp he' with hbefore | hrest
      · exact hsorted'.2.2 e' hbefore e List.mem_cons_self
      · rcases List.mem_cons.mp hrest with rfl | hrest
        · exact Std.le_refl _
        · exact absurd hle' (hafter e' hrest)
    · exact hafter e' he' (hkey ▸ hle)
  · intro h
    obtain ⟨before, after, rfl, hafter⟩ := h.last
    have hsorted' := List.pairwise_append.mp hsorted
    refine ⟨h.le, before, after, rfl, fun e' he' hle' => hafter e' he' ?_⟩
    have hmem : e' ∈ before ++ e :: after := List.mem_append_right _ (List.mem_cons_of_mem _ he')
    exact Std.le_antisymm (h.greatest e' hmem hle') ((List.pairwise_cons.mp hsorted'.2.1).1 e' he')

theorem find?_reverse_of_sorted (hsorted : l.Pairwise (fun a b => key a ≤ key b)) :
    l.reverse.find? (fun e' => key e' ≤ v) = some e ↔ LatestUpTo key l v e := by
  rw [← List.getLast?_filter]
  exact getLast?_filter_le_of_sorted hsorted

theorem pairwise_insertionSort_key (l : List α) :
    (l.insertionSort (fun a b => key a ≤ key b)).Pairwise (fun a b => key a ≤ key b) := by
  have htotal : Std.Total (fun a b : α => key a ≤ key b) := ⟨fun _ _ => Std.le_total⟩
  have htrans : IsTrans α (fun a b => key a ≤ key b) := ⟨fun _ _ _ => Std.le_trans⟩
  exact List.pairwise_insertionSort _ l

theorem filter_orderedInsert_key [DecidableEq κ] (a : α) (l : List α) (k : κ) :
    (l.orderedInsert (fun a b => key a ≤ key b) a).filter (fun b => key b = k) =
      (a :: l).filter (fun b => key b = k) := by
  induction l with
  | nil => rfl
  | cons b l ih =>
      by_cases hab : key a ≤ key b
      · rw [List.orderedInsert_cons, if_pos hab]
      · have hne : ¬(key a = k ∧ key b = k) := by
          intro ⟨ha, hb⟩
          rw [ha, hb] at hab
          exact hab (Std.le_refl k)
        rw [List.orderedInsert_cons, if_neg hab, List.filter_cons, ih]
        by_cases hb : key b = k
        · have ha : ¬key a = k := fun ha => hne ⟨ha, hb⟩
          simp only [List.filter_cons, hb, ha, decide_true, decide_false, if_true, Bool.false_eq_true,
            if_false]
        · simp only [List.filter_cons, hb, decide_false, Bool.false_eq_true, if_false]

/-- Sorting is stable. -/
theorem filter_insertionSort_key [DecidableEq κ] (l : List α) (k : κ) :
    (l.insertionSort (fun a b => key a ≤ key b)).filter (fun b => key b = k) =
      l.filter (fun b => key b = k) := by
  induction l with
  | nil => rfl
  | cons a l ih =>
      rw [List.insertionSort_cons, filter_orderedInsert_key, List.filter_cons, ih, List.filter_cons]

end Lookup
end Dandori
