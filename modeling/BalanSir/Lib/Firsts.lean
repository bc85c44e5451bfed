/-
# First occurrences, by key

The first entry under each key, and sorting by it.
-/

import Mathlib.Data.List.Sort

namespace BalanSir.Lib

open List

variable {α κ : Type} (key : α → κ)

section Firsts

variable [DecidableEq κ]

def firstsFrom (seen : List κ) : List α → List α
  | [] => []
  | a :: l => if key a ∈ seen then firstsFrom seen l else a :: firstsFrom (key a :: seen) l

/-- The first of the entries with one key. -/
def firsts (l : List α) : List α := firstsFrom key [] l

variable {key} {l : List α} {a : α}

theorem mem_firstsFrom {seen : List κ} :
    a ∈ firstsFrom key seen l ↔ key a ∉ seen ∧ l.find? (key · = key a) = some a := by
  induction l generalizing seen with
  | nil => simp [firstsFrom]
  | cons b l ih =>
    rw [firstsFrom, find?_cons]
    by_cases hb : key b ∈ seen
    · rw [if_pos hb, ih]
      by_cases hab : key b = key a
      · -- a seen key is never taken again
        rw [hab] at hb
        simp [hb]
      · simp [hab]
    · rw [if_neg hb, mem_cons, ih, mem_cons, not_or]
      by_cases hab : key b = key a
      · rw [hab] at hb
        simp only [hab, decide_true, Option.some.injEq, not_true, false_and, or_false]
        exact ⟨fun h => ⟨hb, h.symm⟩, fun h => h.2.symm⟩
      · have hne : a ≠ b := fun h => hab (by rw [h])
        simp [hab, hne, Ne.symm hab]

theorem mem_firsts : a ∈ firsts key l ↔ l.find? (key · = key a) = some a := by
  simp [firsts, mem_firstsFrom]

theorem exists_mem_firsts (h : a ∈ l) : ∃ b ∈ firsts key l, key b = key a := by
  obtain ⟨b, hb⟩ : ∃ b, l.find? (key · = key a) = some b :=
    Option.isSome_iff_exists.1 (List.find?_isSome.2 ⟨a, h, by simp⟩)
  have hk : key b = key a := by simpa using find?_some hb
  exact ⟨b, mem_firsts.2 (by rw [hk]; exact hb), hk⟩

theorem mem_of_mem_firsts (h : a ∈ firsts key l) : a ∈ l :=
  mem_of_find?_eq_some (mem_firsts.1 h)

theorem eq_of_mem_firsts {b : α} (ha : a ∈ firsts key l) (hb : b ∈ firsts key l)
    (h : key a = key b) : a = b := by
  rw [mem_firsts] at ha hb
  rw [h, hb, Option.some.injEq] at ha
  exact ha.symm

variable {l' : List α}

theorem mem_firsts_append :
    a ∈ firsts key (l ++ l') ↔
      a ∈ firsts key l ∨ (a ∈ firsts key l' ∧ ∀ b ∈ l, key b ≠ key a) := by
  simp only [mem_firsts, find?_append]
  cases h : l.find? (key · = key a) with
  | some b =>
    have hb : key b = key a := by simpa using find?_some h
    have hm := mem_of_find?_eq_some h
    constructor
    · exact .inl
    · rintro (hab | ⟨-, hne⟩)
      · exact hab
      · exact absurd hb (hne b hm)
  | none =>
    simp only [find?_eq_none, decide_eq_true_eq] at h
    simp only [reduceCtorEq, false_or]
    exact ⟨fun ha => ⟨ha, h⟩, fun ha => ha.1⟩

theorem pairwise_firstsFrom (seen : List κ) (l : List α) :
    (firstsFrom key seen l).Pairwise fun a b => key a ≠ key b := by
  induction l generalizing seen with
  | nil => exact .nil
  | cons a l ih =>
    rw [firstsFrom]
    split_ifs with h
    · exact ih seen
    · refine .cons (fun b hb => ?_) (ih _)
      have hn := (mem_firstsFrom.1 hb).1
      exact fun he => hn (by simp [he])

end Firsts

section Sorted

variable [DecidableEq κ] [LinearOrder κ]

def sortedFirsts (l : List α) : List α := (firsts key l).insertionSort fun a b => key a ≤ key b

variable {key}

@[simp] theorem mem_sortedFirsts :
    a ∈ sortedFirsts key l ↔ a ∈ firsts key l := mem_insertionSort _

theorem pairwise_sortedFirsts (l : List α) :
    (sortedFirsts key l).Pairwise fun a b => key a < key b := by
  have hle := pairwise_insertionSort (fun a b => key a ≤ key b) (firsts key l)
  have hne : (sortedFirsts key l).Pairwise fun a b => key a ≠ key b :=
    (perm_insertionSort _ _).pairwise_iff (fun h => h.symm) |>.2 (pairwise_firstsFrom [] l)
  exact (hle.and hne).imp fun h => lt_of_le_of_ne h.1 h.2

theorem sortedFirsts_eq_iff :
    sortedFirsts key l = sortedFirsts key l' ↔ ∀ a, a ∈ firsts key l ↔ a ∈ firsts key l' := by
  constructor
  · intro h a
    rw [← mem_sortedFirsts, h, mem_sortedFirsts]
  · intro h
    refine (pairwise_sortedFirsts l).eq_of_mem_iff (pairwise_sortedFirsts l') fun a => ?_
    rw [mem_sortedFirsts, mem_sortedFirsts, h]

theorem sortedFirsts_append_eq_right :
    sortedFirsts key (l ++ l') = sortedFirsts key l' ↔
      ∀ a ∈ sortedFirsts key l, a ∈ sortedFirsts key l' := by
  simp only [sortedFirsts_eq_iff, mem_firsts_append, mem_sortedFirsts]
  constructor
  · exact fun h a ha => (h a).1 (.inl ha)
  · intro h a
    constructor
    · rintro (ha | ha)
      · exact h a ha
      · exact ha.1
    · intro ha
      by_cases hk : ∃ b ∈ l, key b = key a
      · obtain ⟨b, hb, hba⟩ := hk
        obtain ⟨c, hc, hcb⟩ : ∃ c ∈ firsts key l, key c = key b := exists_mem_firsts hb
        have hca : c = a := eq_of_mem_firsts (h c hc) ha (hcb.trans hba)
        exact .inl (hca ▸ hc)
      · exact .inr ⟨ha, fun b hb hba => hk ⟨b, hb, hba⟩⟩

theorem sortedFirsts_append_eq_left :
    sortedFirsts key (l ++ l') = sortedFirsts key l ↔
      ∀ a ∈ sortedFirsts key l', ∃ b ∈ sortedFirsts key l, key b = key a := by
  simp only [sortedFirsts_eq_iff, mem_firsts_append, mem_sortedFirsts]
  constructor
  · intro h a ha
    by_cases hk : ∃ b ∈ l, key b = key a
    · obtain ⟨b, hb, hba⟩ := hk
      obtain ⟨c, hc, hcb⟩ : ∃ c ∈ firsts key l, key c = key b := exists_mem_firsts hb
      exact ⟨c, hc, hcb.trans hba⟩
    · exact ⟨a, (h a).1 (.inr ⟨ha, fun b hb hba => hk ⟨b, hb, hba⟩⟩), rfl⟩
  · intro h a
    constructor
    · rintro (ha | ⟨ha, hne⟩)
      · exact ha
      · obtain ⟨b, hb, hba⟩ := h a ha
        exact absurd hba (hne b (mem_of_mem_firsts hb))
    · exact .inl

end Sorted

end BalanSir.Lib
