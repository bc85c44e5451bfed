/-
# The last stretch of a list

The longest end of a list that meets a predicate.
-/

import Mathlib.Data.List.TakeWhile

namespace BalanSir.Lib

open List

variable {α : Type*} {p : α → Bool}

/-- How many of the last elements have `p` in a row. -/
def streak (p : α → Bool) (l : List α) : ℕ := (l.reverse.takeWhile p).length

theorem streak_concat (l : List α) (x : α) :
    streak p (l ++ [x]) = if p x then streak p l + 1 else 0 := by
  unfold streak
  rw [reverse_concat, takeWhile_cons]
  split_ifs
  · rfl
  · rfl

def EndsWith (n : ℕ) (p : α → Bool) (l : List α) : Prop :=
  ∃ before last, l = before ++ last ∧ last.length = n ∧ ∀ x ∈ last, p x = true

theorem endsWith_iff {n : ℕ} {l : List α} : EndsWith n p l ↔ n ≤ streak p l := by
  constructor
  · rintro ⟨before, last, rfl, rfl, hl⟩
    have ha : ∀ x ∈ last.reverse, p x := fun x hx => hl x (List.mem_reverse.1 hx)
    rw [streak, reverse_append, takeWhile_append_of_pos ha, length_append, length_reverse]
    exact Nat.le_add_right ..
  · intro hn
    -- the stretch, read from the end, begins the reversed list
    have ht := take_prefix n (l.reverse.takeWhile p)
    have hw := takeWhile_prefix (l := l.reverse) p
    obtain ⟨rest, hr⟩ := ht.trans hw
    refine ⟨rest.reverse, ((l.reverse.takeWhile p).take n).reverse, ?_, ?_, fun x hx => ?_⟩
    · rw [← reverse_append, hr, reverse_reverse]
    · rw [length_reverse, length_take]
      exact Nat.min_eq_left hn
    · exact mem_takeWhile_imp (mem_of_mem_take (List.mem_reverse.1 hx))

end BalanSir.Lib
