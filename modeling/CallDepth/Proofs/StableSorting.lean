/-
# Stable sorting

Sorting and leaving items out commute (`filter_mergeSort`), since a stable sort puts each item
between those strictly before it and the others (`mergeSort_cons_eq`). So items that no comparison
tells apart keep the order they had (`filter_mergeSort_of_tied`).

In a list where no item that passes a test follows one that fails it, the items that pass are the
longest prefix of such items (`filter_eq_takeWhile`).
-/

namespace CallDepth

section Sorting

variable {α : Type} {le : α → α → Bool}

/-- An item goes between those strictly below it and the others. -/
theorem mergeSort_cons_eq (trans : ∀ a b c, le a b → le b c → le a c)
    (total : ∀ a b, le a b || le b a) (item : α) (list : List α) :
    (item :: list).mergeSort le =
      (list.mergeSort le).filter (fun other => !le item other) ++
        item :: (list.mergeSort le).filter (fun other => le item other) := by
  obtain ⟨below, above, whole, rest, strictly⟩ := List.mergeSort_cons trans total item list
  have sorted := List.pairwise_mergeSort trans total (item :: list)
  rw [whole, List.pairwise_append, List.pairwise_cons] at sorted
  obtain ⟨-, ⟨reached, -⟩, -⟩ := sorted
  have keep_below : below.filter (fun other => !le item other) = below :=
    List.filter_eq_self.2 strictly
  have drop_above : above.filter (fun other => !le item other) = [] :=
    List.filter_eq_nil_iff.2 fun other member => by simp [reached other member]
  have drop_below : below.filter (fun other => le item other) = [] :=
    List.filter_eq_nil_iff.2 fun other member => by simpa using strictly other member
  have keep_above : above.filter (fun other => le item other) = above :=
    List.filter_eq_self.2 reached
  rw [whole, rest, List.filter_append, List.filter_append, keep_below, drop_above, drop_below,
    keep_above, List.append_nil, List.nil_append]

/-- What is left of a sorted list is what is left, sorted. -/
theorem filter_mergeSort (trans : ∀ a b c, le a b → le b c → le a c)
    (total : ∀ a b, le a b || le b a) (keep : α → Bool) (list : List α) :
    (list.mergeSort le).filter keep = (list.filter keep).mergeSort le := by
  induction list with
  | nil => simp
  | cons item rest ih =>
      cases kept : keep item with
      | false =>
          obtain ⟨below, above, whole, split, -⟩ := List.mergeSort_cons trans total item rest
          rw [List.filter_cons_of_neg (by simp [kept]), ← ih, whole, split]
          simp [kept]
      | true =>
          have swap : ∀ side : α → Bool, ((rest.mergeSort le).filter side).filter keep =
              ((rest.filter keep).mergeSort le).filter side := by
            intro side
            rw [← ih, List.filter_filter, List.filter_filter]
            simp only [Bool.and_comm]
          rw [mergeSort_cons_eq trans total, List.filter_append, List.filter_cons_of_pos kept,
            swap, swap, List.filter_cons_of_pos kept, mergeSort_cons_eq trans total]

/-- Items that no comparison tells apart keep their order. -/
theorem filter_mergeSort_of_tied (trans : ∀ a b c, le a b → le b c → le a c)
    (total : ∀ a b, le a b || le b a) {keep : α → Bool} (list : List α)
    (tied : ∀ a b, keep a = true → keep b = true → le a b = true) :
    (list.mergeSort le).filter keep = list.filter keep := by
  rw [filter_mergeSort trans total]
  apply List.mergeSort_of_pairwise
  apply List.pairwise_of_forall_mem_list
  intro first firstMember second secondMember
  exact tied first second (List.mem_filter.1 firstMember).2 (List.mem_filter.1 secondMember).2

end Sorting

/-- Items that pass a test, none of them behind one that fails it, are a prefix. -/
theorem filter_eq_takeWhile {α : Type} {keep : α → Bool} {list : List α}
    (leading : list.Pairwise fun first second => keep second = true → keep first = true) :
    list.filter keep = list.takeWhile keep := by
  induction list with
  | nil => rfl
  | cons item rest ih =>
      obtain ⟨front, later⟩ := List.pairwise_cons.1 leading
      cases kept : keep item with
      | true => rw [List.filter_cons_of_pos kept, List.takeWhile_cons_of_pos kept, ih later]
      | false =>
          have behind : ∀ other ∈ rest, ¬ keep other = true := by
            intro other member passes
            have := front other member passes
            simp [kept] at this
          have fails : ¬ keep item = true := by simp [kept]
          rw [List.filter_cons_of_neg fails, List.takeWhile_cons_of_neg fails]
          exact List.filter_eq_nil_iff.2 behind

end CallDepth
