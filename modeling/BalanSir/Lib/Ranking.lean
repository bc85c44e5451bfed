/-
# The best of a list

What stands first in a list sorted by a key.
-/

import Mathlib.Data.List.Sort
import Mathlib.Data.Prod.Lex

namespace BalanSir.Lib

open List

variable {α κ : Type*} [LinearOrder κ] {r : α → α → Prop} [DecidableRel r] {key : α → κ}
  {l : List α}

/-- **The first of the sorted list is a best one.** -/
theorem head?_insertionSort (hr : ∀ a ∈ l, ∀ b ∈ l, r a b ↔ key a ≤ key b) {a : α}
    (ha : (l.insertionSort r).head? = some a) : a ∈ l ∧ ∀ b ∈ l, key a ≤ key b := by
  obtain ⟨rest, hs⟩ := List.head?_eq_some_iff.1 ha
  have hm : ∀ b, b ∈ l ↔ b ∈ a :: rest := fun b => by rw [← hs, mem_insertionSort]
  -- the keys of the sorted list are the sorted keys
  have hk : ((a :: rest).map key).Pairwise (· ≤ ·) := by
    rw [← hs, map_insertionSort r (· ≤ ·) key l hr]
    exact pairwise_insertionSort _ _
  rw [map_cons, pairwise_cons] at hk
  refine ⟨(hm a).2 mem_cons_self, fun b hb => ?_⟩
  rcases List.mem_cons.1 ((hm b).1 hb) with rfl | hb
  · exact le_rfl
  · exact hk.1 _ (mem_map_of_mem hb)

theorem head?_insertionSort_eq_none : (l.insertionSort r).head? = none ↔ l = [] := by
  rw [head?_eq_none_iff, ← length_eq_zero_iff, length_insertionSort, length_eq_zero_iff]

variable {S : Type*} [LinearOrder S] {a b : κ × S}

def scoreOrder (a b : κ × S) : Ordering := (cmp b.2 a.2).then (cmp a.1 b.1)

def scorePlace (a : κ × S) : Sᵒᵈ ×ₗ κ := toLex (OrderDual.toDual a.2, a.1)

theorem scorePlace_le_iff :
    scorePlace a ≤ scorePlace b ↔ b.2 < a.2 ∨ a.2 = b.2 ∧ a.1 ≤ b.1 := Prod.Lex.toLex_le_toLex

theorem scoreOrder_ne_gt_iff : scoreOrder a b ≠ .gt ↔ scorePlace a ≤ scorePlace b := by
  rw [scoreOrder, scorePlace_le_iff, ne_eq, Ordering.then_eq_gt, cmp_eq_gt_iff, cmp_eq_eq_iff,
    cmp_eq_gt_iff, not_or, not_and, not_lt, not_lt]
  constructor
  · rintro ⟨hle, hk⟩
    rcases hle.lt_or_eq with hlt | heq
    · exact .inl hlt
    · exact .inr ⟨heq.symm, hk heq⟩
  · rintro (hlt | ⟨heq, hk⟩)
    · exact ⟨hlt.le, fun h => absurd h hlt.ne⟩
    · exact ⟨heq.ge, fun _ => hk⟩

end BalanSir.Lib
