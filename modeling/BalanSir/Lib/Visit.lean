/-
# Visiting what is reachable

A depth-first walk that skips what is on the way.
-/

import Mathlib.Data.Finset.Card

namespace BalanSir.Lib

open List

open Relation (ReflTransGen)

section MapM

variable {α β : Type} {f : α → Option (List β)} {xs : List α}

theorem isSome_mapM : (xs.mapM f).isSome ↔ ∀ x ∈ xs, (f x).isSome := by
  induction xs with
  | nil => simp
  | cons x xs ih =>
    rw [mapM_cons, forall_mem_cons, ← ih]
    cases f x with
    | none => simp
    | some l => cases xs.mapM f <;> simp

theorem mem_flatten_of_mapM {ys : List (List β)} {b : β} (h : xs.mapM f = some ys) :
    b ∈ ys.flatten ↔ ∃ x ∈ xs, ∃ l, f x = some l ∧ b ∈ l := by
  induction xs generalizing ys with
  | nil =>
    cases h
    simp
  | cons x xs ih =>
    rw [mapM_cons] at h
    obtain ⟨y, hy, h⟩ := Option.bind_eq_some_iff.1 h
    obtain ⟨ys', hys, h⟩ := Option.bind_eq_some_iff.1 h
    cases h
    simp [ih hys, hy]

end MapM

variable {ν : Type} [DecidableEq ν] {next : ν → List ν} {fuel : ℕ} {seen l : List ν} {n m : ν}

def visit (next : ν → List ν) : ℕ → List ν → ν → Option (List ν)
  | 0, _, _ => none
  | fuel + 1, seen, n =>
    if seen.contains n then some []
    else do
      let below ← (next n).mapM (visit next fuel (n :: seen))
      return below.flatten ++ [n]

theorem visit_of_mem (h : n ∈ seen) (fuel : ℕ) : visit next (fuel + 1) seen n = some [] :=
  if_pos (List.contains_iff_mem.2 h)

theorem visit_of_not_mem (h : n ∉ seen) (fuel : ℕ) :
    visit next (fuel + 1) seen n =
      ((next n).mapM (visit next fuel (n :: seen))).map fun below => below.flatten ++ [n] := by
  rw [visit, if_neg (by rwa [contains_iff_mem])]
  cases (next n).mapM (visit next fuel (n :: seen)) <;> rfl

/-- **The recursion ends**, with fuel for every node that is not on the way yet. -/
theorem visit_isSome {pool : Finset ν} (hp : ∀ a, ∀ b ∈ next a, b ∈ pool)
    (h : (insert n pool \ seen.toFinset).card < fuel) : (visit next fuel seen n).isSome := by
  induction fuel generalizing seen n with
  | zero => exact absurd h (Nat.not_lt_zero _)
  | succ fuel ih =>
    by_cases hn : n ∈ seen
    · rw [visit_of_mem hn]
      rfl
    rw [visit_of_not_mem hn, Option.isSome_map]
    refine isSome_mapM.2 fun b hb => ih (Nat.lt_of_lt_of_le (Finset.card_lt_card ?_)
      (Nat.le_of_lt_succ h))
    -- `n` is on the way now, and `b` was in the pool before
    rw [Finset.insert_eq_self.2 (hp n b hb), toFinset_cons]
    refine (Finset.ssubset_iff_of_subset ?_).2 ⟨n, ?_, ?_⟩
    · exact Finset.sdiff_subset_sdiff (Finset.subset_insert n pool)
        (Finset.subset_insert n seen.toFinset)
    · simp [hn]
    · simp

def Leads (next : ν → List ν) (seen : List ν) (a b : ν) : Prop := b ∈ next a ∧ b ∉ seen

theorem leads_cases (h : ReflTransGen (Leads next seen) n m) :
    m = n ∨ ∃ b ∈ next n, b ∉ n :: seen ∧ ReflTransGen (Leads next (n :: seen)) b m := by
  induction h with
  | refl => exact .inl rfl
  | @tail a m _ hs ih =>
    by_cases hm : m = n
    · exact .inl hm
    have hf : m ∉ n :: seen := by simp [hm, hs.2]
    rcases ih with rfl | ⟨b, hb, hbn, hw⟩
    · exact .inr ⟨m, hs.1, hf, .refl⟩
    · exact .inr ⟨b, hb, hbn, hw.tail ⟨hs.1, hf⟩⟩

/-- **What is visited**: the nodes that are reachable without those on the way. -/
theorem mem_visit (h : visit next fuel seen n = some l) :
    m ∈ l ↔ n ∉ seen ∧ ReflTransGen (Leads next seen) n m := by
  induction fuel generalizing seen n l m with
  | zero => cases h
  | succ fuel ih =>
    by_cases hn : n ∈ seen
    · rw [visit_of_mem hn] at h
      cases h
      simp [hn]
    rw [visit_of_not_mem hn] at h
    obtain ⟨below, hbe, rfl⟩ := Option.map_eq_some_iff.1 h
    rw [mem_append, mem_singleton, mem_flatten_of_mapM hbe]
    constructor
    · rintro (⟨b, hb, l, hl, hm⟩ | rfl)
      · obtain ⟨hf, hwa⟩ := (ih hl).1 hm
        have hw : ∀ a b, Leads next (n :: seen) a b → Leads next seen a b :=
          fun a b hab => ⟨hab.1, fun hs => hab.2 (mem_cons_of_mem n hs)⟩
        exact ⟨hn, .head ⟨hb, fun hs => hf (mem_cons_of_mem n hs)⟩
          (Relation.ReflTransGen.mono hw _ _ hwa)⟩
      · exact ⟨hn, .refl⟩
    · rintro ⟨-, hwa⟩
      rcases leads_cases hwa with rfl | ⟨b, hb, hf, hwa⟩
      · exact .inr rfl
      · have hv := isSome_mapM.1 (Option.isSome_iff_exists.2 ⟨below, hbe⟩) b hb
        obtain ⟨l, hl⟩ := Option.isSome_iff_exists.1 hv
        exact .inl ⟨b, hb, l, hl, (ih hl).2 ⟨hf, hwa⟩⟩

theorem not_mem_visit (h : visit next fuel seen n = some l) (hm : m ∈ l) : m ∉ seen := by
  obtain ⟨hn, hw⟩ := (mem_visit h).1 hm
  cases hw with
  | refl => exact hn
  | tail _ hs => exact hs.2

theorem mem_visit_nil (h : visit next fuel [] n = some l) :
    m ∈ l ↔ ReflTransGen (fun a b => b ∈ next a) n m := by
  have hl : Leads next [] = fun a b => b ∈ next a := by
    funext a b
    simp [Leads]
  rw [mem_visit h, hl]
  simp

end BalanSir.Lib
