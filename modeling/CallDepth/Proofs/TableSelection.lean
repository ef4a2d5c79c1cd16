/-
# The rows of a table

A table shows a stable sorted selection of the rows, and a higher threshold cuts its tail
(`selection_sorted_stable`).

The order of the table is that of a key in a linear order: the depth, greatest first, then the code
points of file, contract and function (`DepthRow.sortKey`, `DepthRow.precedes_iff`). Visibility and
mutability are no part of the key, so different rows may have the same one; these keep the order in
which they were given. All is stated of items that have rows, so that even equal rows are told
apart.
-/
import CallDepth.Proofs.StableSorting
import CallDepth.Report.Table
import Mathlib.Data.List.Lex
import Mathlib.Data.Prod.Lex
import Mathlib.Data.String.Basic

namespace CallDepth

def codePoints (text : String) : List Nat :=
  text.toList.map Char.toNat

/-- Texts are in the order of their code points. -/
theorem codePoints_strictMono : StrictMono codePoints := by
  intro first second before
  apply List.map_lt
  · intro c d smaller
    exact smaller
  · exact String.lt_iff_toList_lt.1 before

namespace DepthRow

/-- What the order of the table looks at: the depth, greatest first, then the code points of file,
contract and function. -/
def sortKey (row : DepthRow) : Natᵒᵈ ×ₗ List Nat ×ₗ List Nat ×ₗ List Nat :=
  toLex (OrderDual.toDual row.depth,
    toLex (codePoints row.file, toLex (codePoints row.contract, codePoints row.function)))

/-- The order of the table is that of the keys. -/
theorem precedes_iff {first second : DepthRow} :
    first.precedes second = true ↔ first.sortKey ≤ second.sortKey := by
  simp only [sortKey, Prod.Lex.toLex_le_toLex, OrderDual.toDual_lt_toDual, OrderDual.toDual_inj,
    codePoints_strictMono.lt_iff_lt, codePoints_strictMono.le_iff_le,
    codePoints_strictMono.injective.eq_iff]
  unfold precedes
  -- The first key in which the rows differ decides.
  by_cases depth : first.depth = second.depth
  · by_cases file : first.file = second.file
    · by_cases contract : first.contract = second.contract
      · simp [depth, file, contract]
      · simp [depth, file, contract]
    · simp [depth, file]
  · simp [depth]

theorem depth_le_of_sortKey_le {first second : DepthRow}
    (before : first.sortKey ≤ second.sortKey) : second.depth ≤ first.depth :=
  Prod.Lex.monotone_fst _ _ before

end DepthRow

section Selection

variable {α : Type} (row : α → DepthRow)

theorem precedes_trans (first second third : α)
    (before : (row first).precedes (row second) = true)
    (after : (row second).precedes (row third) = true) :
    (row first).precedes (row third) = true := by
  rw [DepthRow.precedes_iff] at before after ⊢
  exact before.trans after

theorem precedes_total (first second : α) :
    ((row first).precedes (row second) || (row second).precedes (row first)) = true := by
  rw [Bool.or_eq_true, DepthRow.precedes_iff, DepthRow.precedes_iff]
  exact le_total _ _

theorem selectBy_perm (minDepth : Nat) (items : List α) :
    (selectBy row minDepth items).Perm (items.filter fun item => minDepth ≤ (row item).depth) :=
  List.mergeSort_perm _ _

theorem selectBy_sorted (minDepth : Nat) (items : List α) :
    (selectBy row minDepth items).Pairwise fun first second =>
      (row first).sortKey ≤ (row second).sortKey := by
  have sorted := List.pairwise_mergeSort (precedes_trans row) (precedes_total row)
    (items.filter fun item => minDepth ≤ (row item).depth)
  exact sorted.imp DepthRow.precedes_iff.1

/-- Items of one key are selected in the order in which they were given. -/
theorem filter_selectBy_key (minDepth : Nat) (items : List α)
    (key : Natᵒᵈ ×ₗ List Nat ×ₗ List Nat ×ₗ List Nat) :
    (selectBy row minDepth items).filter (fun item => (row item).sortKey = key) =
      (items.filter fun item => minDepth ≤ (row item).depth).filter fun item =>
        (row item).sortKey = key := by
  apply filter_mergeSort_of_tied (precedes_trans row) (precedes_total row)
  intro first second firstKey secondKey
  rw [decide_eq_true_eq] at firstKey secondKey
  rw [DepthRow.precedes_iff, firstKey, secondKey]

/-- A higher threshold leaves the items out that do not reach it. -/
theorem selectBy_eq_filter {low high : Nat} (raised : low ≤ high) (items : List α) :
    selectBy row high items =
      (selectBy row low items).filter fun item => high ≤ (row item).depth := by
  have both : ∀ item, (decide (high ≤ (row item).depth) && decide (low ≤ (row item).depth)) =
      decide (high ≤ (row item).depth) := by
    intro item
    rw [Bool.and_eq_left_iff_imp]
    simp only [decide_eq_true_eq]
    omega
  rw [selectBy, selectBy, filter_mergeSort (precedes_trans row) (precedes_total row),
    List.filter_filter]
  simp only [both]

/-- The items that reach a threshold come first. -/
theorem filter_selectBy_eq_takeWhile (low high : Nat) (items : List α) :
    (selectBy row low items).filter (fun item => high ≤ (row item).depth) =
      (selectBy row low items).takeWhile fun item => high ≤ (row item).depth := by
  apply filter_eq_takeWhile
  refine (selectBy_sorted row low items).imp fun before reached => ?_
  have deeper := DepthRow.depth_le_of_sortKey_le before
  rw [decide_eq_true_eq] at reached ⊢
  omega

end Selection

/-- A table shows a stable sorted selection. The selected items are those whose rows reach the
threshold, each as often as it was given; they are in the order of the keys, and those of one key in
the order in which they were given. Raising the threshold leaves the longest prefix of items that
reach it. For rows that are items themselves, this is about `select`. -/
theorem selection_sorted_stable {α : Type} (row : α → DepthRow) (low high : Nat)
    (raised : low ≤ high) (items : List α) :
    (selectBy row low items).Perm (items.filter fun item => low ≤ (row item).depth) ∧
    (selectBy row low items).Pairwise (fun first second =>
      (row first).sortKey ≤ (row second).sortKey) ∧
    (∀ key, (selectBy row low items).filter (fun item => (row item).sortKey = key) =
      (items.filter fun item => low ≤ (row item).depth).filter fun item =>
        (row item).sortKey = key) ∧
    selectBy row high items <+: selectBy row low items ∧
    selectBy row high items =
      (selectBy row low items).takeWhile fun item => high ≤ (row item).depth := by
  have cut : selectBy row high items =
      (selectBy row low items).takeWhile fun item => high ≤ (row item).depth := by
    rw [selectBy_eq_filter row raised, filter_selectBy_eq_takeWhile]
  refine ⟨selectBy_perm row low items, selectBy_sorted row low items,
    filter_selectBy_key row low items, ?_, cut⟩
  rw [cut]
  exact List.takeWhile_prefix _

/-- Rows of four keys; two have the same key and different visibilities. -/
def stalls : List DepthRow :=
  [⟨"b.json", "B", "x", "public", "", 2⟩, ⟨"a.json", "A", "y", "public", "", 0⟩,
    ⟨"a.json", "Z", "w", "public", "", 2⟩, ⟨"a.json", "A", "z", "public", "view", 5⟩,
    ⟨"a.json", "Z", "w", "external", "", 2⟩]

theorem select_stalls :
    select 1 stalls =
      [⟨"a.json", "A", "z", "public", "view", 5⟩, ⟨"a.json", "Z", "w", "public", "", 2⟩,
        ⟨"a.json", "Z", "w", "external", "", 2⟩, ⟨"b.json", "B", "x", "public", "", 2⟩] := by
  have reached : stalls.filter (fun item => 1 ≤ (id item).depth) =
      [⟨"b.json", "B", "x", "public", "", 2⟩, ⟨"a.json", "Z", "w", "public", "", 2⟩,
        ⟨"a.json", "A", "z", "public", "view", 5⟩, ⟨"a.json", "Z", "w", "external", "", 2⟩] := by
    decide
  rw [select, selectBy, reached]
  simp only [mergeSort_cons_eq (precedes_trans id) (precedes_total id), List.mergeSort_nil]
  decide +kernel

/-- The rows of the same key stay in their order, and raising the threshold from 1 to 3 leaves the
first row. -/
theorem stalls_sorted_stable :
    1 ≤ 3 ∧
    (select 1 stalls).Perm (stalls.filter fun row => 1 ≤ row.depth) ∧
    (select 1 stalls).Pairwise (fun first second => first.sortKey ≤ second.sortKey) ∧
    (∀ key, (select 1 stalls).filter (fun row => row.sortKey = key) =
      (stalls.filter fun row => 1 ≤ row.depth).filter fun row => row.sortKey = key) ∧
    select 3 stalls <+: select 1 stalls ∧
    select 3 stalls = [⟨"a.json", "A", "z", "public", "view", 5⟩] := by
  have raised : 1 ≤ 3 := by decide
  obtain ⟨same, sorted, stable, shorter, cut⟩ := selection_sorted_stable id 1 3 raised stalls
  refine ⟨raised, same, sorted, stable, shorter, cut.trans ?_⟩
  change (select 1 stalls).takeWhile _ = _
  rw [select_stalls]
  decide

end CallDepth
