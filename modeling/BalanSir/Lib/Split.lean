/-
# Lists split at a separator

Splitting and joining, and how the parts are found again.
-/

import Mathlib.Data.List.Basic

namespace BalanSir.Lib

open List

variable {α β : Type*} {a : α}

theorem forall_mem_intercalate {p : α → Prop} (ha : p a) (ls : List (List α)) :
    (∀ x ∈ [a].intercalate ls, p x) ↔ ∀ l ∈ ls, ∀ x ∈ l, p x := by
  induction ls with
  | nil => simp
  | cons l ls ih =>
    by_cases hls : ls = []
    · simp [hls]
    · rw [intercalate_cons_of_ne_nil hls, forall_mem_append, forall_mem_append, ih,
        forall_mem_singleton, forall_mem_cons, and_iff_left ha]

theorem map_intercalate (f : α → β) (a : α) (ls : List (List α)) :
    ([a].intercalate ls).map f = [f a].intercalate (ls.map (·.map f)) := by
  induction ls with
  | nil => rfl
  | cons l ls ih =>
    by_cases hls : ls = []
    · simp [hls]
    · rw [intercalate_cons_of_ne_nil hls, map_append, map_append, ih, map_singleton, map_cons,
        intercalate_cons_of_ne_nil (mt List.map_eq_nil_iff.1 hls)]

theorem intercalate_append {ls ls' : List (List α)} (h : ls ≠ []) (h' : ls' ≠ []) :
    [a].intercalate (ls ++ ls') = [a].intercalate ls ++ a :: [a].intercalate ls' := by
  induction ls with
  | nil => exact absurd rfl h
  | cons l ls ih =>
    by_cases hls : ls = []
    · subst hls
      rw [singleton_append, intercalate_cons_of_ne_nil h', intercalate_singleton,
        append_assoc, singleton_append]
    · have hne : ls ++ ls' ≠ [] := append_ne_nil_of_right_ne_nil ls h'
      rw [cons_append, intercalate_cons_of_ne_nil hne, ih hls, intercalate_cons_of_ne_nil hls]
      simp only [append_assoc]

/-- The groups of a list, with separating elements before, between and behind them. -/
inductive Grouped (sep : α → Bool) : List α → List (List α) → Prop
  | done {seps : List α} (hseps : ∀ a ∈ seps, sep a) : Grouped sep seps []
  | group {seps g rest : List α} {gs : List (List α)} (hseps : ∀ a ∈ seps, sep a) (hne : g ≠ [])
      (hg : ∀ a ∈ g, sep a = false) (hrest : ∀ a ∈ rest.head?, sep a) (h : Grouped sep rest gs) :
      Grouped sep (seps ++ (g ++ rest)) (g :: gs)

section Grouped

variable {sep : α → Bool} {xs : List α} {gs : List (List α)}

theorem filter_splitOnP_of_seps {seps : List α} (h : ∀ a ∈ seps, sep a) (xs : List α) :
    (splitOnP sep (seps ++ xs)).filter (!·.isEmpty) = (splitOnP sep xs).filter (!·.isEmpty) := by
  induction seps with
  | nil => rfl
  | cons a seps ih =>
    rw [cons_append, splitOnP_cons_eq_if_modifyHead, if_pos (h a mem_cons_self),
      filter_cons_of_neg (by simp), ih fun b hb => h b (mem_cons_of_mem a hb)]

theorem Grouped.filter_splitOnP (h : Grouped sep xs gs) :
    (splitOnP sep xs).filter (!·.isEmpty) = gs := by
  induction h with
  | @done seps hs =>
    rw [← append_nil seps, filter_splitOnP_of_seps hs]
    rfl
  | @group seps g rest gs hs hne hg hr h ih =>
    have hk (parts : List (List α)) :
        (g :: parts).filter (!·.isEmpty) = g :: parts.filter (!·.isEmpty) :=
      filter_cons_of_pos (by simp [hne])
    rw [filter_splitOnP_of_seps hs]
    cases rest with
    | nil =>
      rw [append_nil, splitOnP_eq_singleton hg, hk, ← ih]
      rfl
    | cons b rest =>
      have hb : sep b := hr b rfl
      rw [splitOnP_append_cons _ _ hb, splitOnP_eq_singleton hg, singleton_append, hk, ← ih,
        splitOnP_cons_eq_if_modifyHead, if_pos hb, filter_cons_of_neg (by simp)]

theorem Grouped.of_mem (h : Grouped sep xs gs) :
    ∀ g ∈ gs, g ≠ [] ∧ ∀ a ∈ g, a ∈ xs ∧ sep a = false := by
  induction h with
  | done hs => simp
  | @group seps g rest gs hs hne hg hr h ih =>
    refine forall_mem_cons.2 ⟨⟨hne, fun a ha => ⟨?_, hg a ha⟩⟩, fun g' hg' => ?_⟩
    · exact mem_append_right _ (mem_append_left _ ha)
    · refine ⟨(ih g' hg').1, fun a ha => ⟨?_, ((ih g' hg').2 a ha).2⟩⟩
      exact mem_append_right _ (mem_append_right _ ((ih g' hg').2 a ha).1)

theorem Grouped.exists_cons (h : Grouped sep xs gs) (a : α) : ∃ gs', Grouped sep (a :: xs) gs' := by
  by_cases ha : sep a
  · cases h with
    | done hs => exact ⟨_, .done (forall_mem_cons.2 ⟨ha, hs⟩)⟩
    | group hs hne hg hr h =>
      refine ⟨_, @Grouped.group _ _ (a :: _) _ _ _ ?_ hne hg hr h⟩
      exact forall_mem_cons.2 ⟨ha, hs⟩
  · have ha : ∀ b ∈ [a], sep b = false := by simpa using ha
    have hn : ∀ b ∈ ([] : List α), sep b = true := by simp
    by_cases hh : ∀ b ∈ xs.head?, sep b
    · exact ⟨_, .group hn (cons_ne_nil a []) ha hh h⟩
    · cases h with
      | done hs => exact absurd (fun b hb => hs b (mem_of_mem_head? hb)) hh
      | @group seps g rest gs hs hne hg hr h =>
        cases seps with
        | nil =>
          refine ⟨_, .group hn (cons_ne_nil a g) ?_ hr h⟩
          exact forall_mem_cons.2 ⟨ha a mem_cons_self, hg⟩
        | cons b seps =>
          refine absurd (fun c hc => ?_) hh
          cases hc
          exact hs b mem_cons_self

theorem grouped_iff : Grouped sep xs gs ↔ (splitOnP sep xs).filter (!·.isEmpty) = gs := by
  refine ⟨Grouped.filter_splitOnP, ?_⟩
  rintro rfl
  have hex : ∃ gs, Grouped sep xs gs := by
    induction xs with
    | nil => exact ⟨[], .done (by simp)⟩
    | cons a xs ih => exact ih.elim fun gs h => h.exists_cons a
  obtain ⟨gs, h⟩ := hex
  rw [h.filter_splitOnP]
  exact h

theorem grouped_intercalate {a : α} (ha : sep a)
    (h : ∀ g ∈ gs, g ≠ [] ∧ ∀ b ∈ g, sep b = false) : Grouped sep ([a].intercalate gs) gs := by
  have hn : ∀ b ∈ ([] : List α), sep b = true := by simp
  induction gs with
  | nil => exact .done hn
  | cons g gs ih =>
    obtain ⟨⟨hne, hg⟩, h⟩ := forall_mem_cons.1 h
    by_cases hgs : gs = []
    · subst hgs
      have ho := Grouped.group hn hne hg (by simp) (.done hn)
      rw [append_nil] at ho
      rwa [intercalate_singleton]
    · rw [intercalate_cons_of_ne_nil hgs, append_assoc]
      refine @Grouped.group _ _ [] _ _ _ hn hne hg (fun b hb => ?_) ?_
      · cases hb
        exact ha
      · rw [grouped_iff, filter_splitOnP_of_seps (by simpa using ha)]
        exact (ih h).filter_splitOnP

end Grouped

variable [DecidableEq α] [DecidableEq β] {xs part : List α}

theorem notMem_of_mem_splitOn (h : part ∈ xs.splitOn a) : a ∉ part := by
  induction xs generalizing part with
  | nil =>
    rw [splitOn_nil, mem_singleton] at h
    rw [h]
    exact not_mem_nil
  | cons x xs ih =>
    rw [splitOn_cons_eq_if_modifyHead] at h
    split_ifs at h with hx
    · rcases List.mem_cons.1 h with rfl | h
      · exact not_mem_nil
      · exact ih h
    · obtain ⟨first, rest, hs⟩ := exists_cons_of_ne_nil (splitOn_ne_nil a xs)
      rw [hs] at h
      rcases List.mem_cons.1 h with rfl | h
      · refine fun hm => (List.mem_cons.1 hm).elim (fun he => hx ?_)
          (ih (hs ▸ mem_cons_self))
        rw [he]
        exact beq_self_eq_true x
      · exact ih (hs ▸ mem_cons_of_mem _ h)

theorem mem_of_mem_splitOn {a x : α} (h : part ∈ xs.splitOn a) (hx : x ∈ part) : x ∈ xs := by
  have hal : ∀ y ∈ [a].intercalate (xs.splitOn a), y ∈ xs ∨ y = a := by
    rw [intercalate_splitOn]
    exact fun y hy => Or.inl hy
  have ha : a ∈ xs ∨ a = a := Or.inr rfl
  rcases (forall_mem_intercalate (p := fun y => y ∈ xs ∨ y = a) ha _).1 hal part h x hx with
    hm | rfl
  · exact hm
  · exact absurd hx (notMem_of_mem_splitOn h)

theorem splitOn_map {f : α → β} {xs : List α} (h : ∀ x ∈ xs, f x = f a → x = a) :
    (xs.map f).splitOn (f a) = (xs.splitOn a).map (·.map f) := by
  induction xs with
  | nil => rfl
  | cons x xs ih =>
    rw [forall_mem_cons] at h
    rw [map_cons, splitOn_cons_eq_if_modifyHead, splitOn_cons_eq_if_modifyHead, ih h.2]
    by_cases hx : x = a
    · subst hx
      rw [if_pos (beq_self_eq_true _), if_pos (beq_self_eq_true _)]
      rfl
    · rw [if_neg (mt beq_iff_eq.1 fun he => hx (h.1 he)), if_neg (mt beq_iff_eq.1 hx)]
      obtain ⟨first, rest, hs⟩ := exists_cons_of_ne_nil (splitOn_ne_nil a xs)
      rw [hs]
      rfl

theorem splitOn_intercalate_eq_flatMap {ls : List (List α)} (h : ls ≠ []) :
    ([a].intercalate ls).splitOn a = ls.flatMap (·.splitOn a) := by
  induction ls with
  | nil => exact absurd rfl h
  | cons l ls ih =>
    by_cases hls : ls = []
    · subst hls
      rw [intercalate_singleton, flatMap_cons, flatMap_nil, append_nil]
    · rw [intercalate_cons_of_ne_nil hls, append_assoc, singleton_append,
        splitOn_append_cons_self, ih hls, flatMap_cons]

theorem splitOn_suffix_iff {xs ys : List α} :
    xs.splitOn a <:+ ys.splitOn a ↔ ys = xs ∨ (a :: xs) <:+ ys := by
  constructor
  · rintro ⟨before, hb⟩
    have hys : ys = [a].intercalate (before ++ xs.splitOn a) := by
      rw [hb, intercalate_splitOn]
    by_cases hn : before = []
    · left
      rw [hys, hn, nil_append, intercalate_splitOn]
    · right
      rw [intercalate_append hn (splitOn_ne_nil a xs), intercalate_splitOn] at hys
      exact ⟨_, hys.symm⟩
  · rintro (rfl | ⟨before, rfl⟩)
    · exact suffix_refl _
    · rw [splitOn_append_cons_self]
      exact suffix_append _ _

end BalanSir.Lib
