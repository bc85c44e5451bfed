/-
# What a selection chooses

`select_for` against the best of the eligible profiles.
-/

import BalanSir.Vpn.Selection

namespace BalanSir.Vpn

open Lib List

variable (config : PoolConfig) (nowMs : ℤ)

section AnyScore

variable {S : Type*} [LinearOrder S] (score : PooledProfile Tracking → S)

def selectBy (pool : Pool) : Option Text × List Exclusion :=
  let excluded := pool.profiles.filterMap (exclusion? config nowMs)
  let candidates := (pool.profiles.filter fun p => weight config nowMs p ≠ 0).map fun p =>
    (p.profile.profileId, score p)
  ((candidates.insertionSort fun a b => scoreOrder a b ≠ .gt).head?.map Prod.fst, excluded)

/-- `p` comes before every other profile with a weight, by score and then id. -/
structure Best (profiles : List (PooledProfile Tracking)) (p : PooledProfile Tracking) : Prop where
  mem : p ∈ profiles
  weight_ne : weight config nowMs p ≠ 0
  first : ∀ q ∈ profiles, q ≠ p → weight config nowMs q ≠ 0 →
    score q < score p ∨ score q = score p ∧ p.profile.profileId < q.profile.profileId

/-- What a selection is for. -/
structure Chooses (pool : Pool) (chosen : Option Text) (excluded : List Exclusion) : Prop where
  best : ∀ id, chosen = some id →
    ∃ p, Best config nowMs score pool.profiles p ∧ p.profile.profileId = id
  none_iff : chosen = none ↔ ∀ p ∈ pool.profiles, weight config nowMs p = 0
  excluded_eq : excluded.map (·.profileId) =
    (pool.profiles.filter fun p => weight config nowMs p = 0).map (·.profile.profileId)

variable {config nowMs score} {p : PooledProfile Tracking}

theorem Best.unique {profiles profiles' : List (PooledProfile Tracking)}
    {p q : PooledProfile Tracking} (hp : Best config nowMs score profiles p)
    (hq : Best config nowMs score profiles' q) (hpe : profiles.Perm profiles') : p = q := by
  by_contra hne
  have hpq := hp.first q (hpe.mem_iff.2 hq.mem) (Ne.symm hne) hq.weight_ne
  have hqp := hq.first p (hpe.mem_iff.1 hp.mem) hne hp.weight_ne
  rcases hpq with hlt | ⟨heq, hid⟩
  · rcases hqp with hlt' | ⟨heq', -⟩
    · exact lt_asymm hlt hlt'
    · exact hlt.ne' heq'
  · rcases hqp with hlt' | ⟨-, hid'⟩
    · exact hlt'.ne' heq
    · exact lt_asymm hid hid'

theorem Chooses.unique {pool pool' : Pool} {chosen chosen' : Option Text}
    {excluded excluded' : List Exclusion} (h : Chooses config nowMs score pool chosen excluded)
    (h' : Chooses config nowMs score pool' chosen' excluded')
    (hpe : pool.profiles.Perm pool'.profiles) : chosen = chosen' := by
  have hn : chosen = none ↔ chosen' = none := by
    rw [h.none_iff, h'.none_iff]
    simp only [hpe.mem_iff]
  cases hc : chosen with
  | none => exact (hn.1 hc).symm
  | some id =>
    cases hc' : chosen' with
    | none => exact absurd (hn.2 hc') (by simp [hc])
    | some id' =>
      obtain ⟨p, hp, rfl⟩ := h.best id hc
      obtain ⟨q, hq, rfl⟩ := h'.best id' hc'
      rw [hp.unique hq hpe]

theorem exclusion?_of_zero (h : weight config nowMs p = 0) :
    ∃ reason, exclusion? config nowMs p = some ⟨p.profile.profileId, reason⟩ :=
  ⟨_, if_pos h⟩

theorem exclusion?_of_ne_zero (h : weight config nowMs p ≠ 0) :
    exclusion? config nowMs p = none := if_neg h

theorem map_exclusion? (profiles : List (PooledProfile Tracking)) :
    (profiles.filterMap (exclusion? config nowMs)).map (·.profileId) =
      (profiles.filter fun p => weight config nowMs p = 0).map (·.profile.profileId) := by
  induction profiles with
  | nil => rfl
  | cons p profiles ih =>
    by_cases hw : weight config nowMs p = 0
    · obtain ⟨reason, hp⟩ := exclusion?_of_zero hw
      rw [filterMap_cons_some hp, filter_cons_of_pos (by simp [hw]), map_cons, map_cons, ih]
    · rw [filterMap_cons_none (exclusion?_of_ne_zero hw),
        filter_cons_of_neg (by simp [hw]), ih]

/-- **The decision does what it is for**, in every pool with distinct ids. -/
theorem chooses_selectBy (s : PoolState) : Chooses config nowMs score s.pool
    (selectBy config nowMs score s.pool).1 (selectBy config nowMs score s.pool).2 where
  best := by
    intro id hc
    obtain ⟨best, hh, rfl⟩ := Option.map_eq_some_iff.1 hc
    obtain ⟨hm, hb⟩ := head?_insertionSort (fun _ _ _ _ => scoreOrder_ne_gt_iff) hh
    obtain ⟨p, hp, rfl⟩ := List.mem_map.1 hm
    obtain ⟨hp, hw⟩ := List.mem_filter.1 hp
    refine ⟨p, ⟨hp, of_decide_eq_true hw, fun q hq hne hwq => ?_⟩, rfl⟩
    have hle := hb _ (mem_map_of_mem (List.mem_filter.2 ⟨hq, decide_eq_true hwq⟩))
    rcases scorePlace_le_iff.1 hle with hlt | ⟨heq, hid⟩
    · exact .inl hlt
    · -- another profile has another id
      have hi : p.profile.profileId ≠ q.profile.profileId := fun h =>
        hne (inj_on_of_nodup_map s.distinct hq hp h.symm)
      exact .inr ⟨heq.symm, lt_of_le_of_ne hid hi⟩
  none_iff := by
    rw [selectBy, Option.map_eq_none_iff, head?_insertionSort_eq_none, map_eq_nil_iff,
      filter_eq_nil_iff]
    simp
  excluded_eq := map_exclusion? _

end AnyScore

def SelectionDecision.chosen? (d : SelectionDecision) : Option Text :=
  if d.candidates = 0 then none else some d.profileId

def scoreValue (p : PooledProfile Tracking) : WithBot (WithTop ℚ) :=
  (score config nowMs p).value?.getD ⊥

variable {config nowMs}

theorem chosen?_selectFor (pool : Pool) :
    (selectFor config nowMs pool).1.chosen? = (ranked config nowMs pool).head?.map (·.id) := by
  unfold selectFor
  dsimp only
  split
  · next best h =>
      have hne : (ranked config nowMs pool).length ≠ 0 := by
        intro hn
        rw [List.length_eq_zero_iff.1 hn] at h
        cases h
      rw [SelectionDecision.chosen?, if_neg hne, h]
      rfl
  · next h => rw [h]; rfl

theorem excluded_selectFor (pool : Pool) : (selectFor config nowMs pool).1.excluded =
    pool.profiles.filterMap (exclusion? config nowMs) := by
  unfold selectFor
  dsimp only
  split
  · rfl
  · rfl

theorem map_candidate? (profiles : List (PooledProfile Tracking)) :
    (profiles.filterMap (candidate? config nowMs)).map (fun c => (c.id, c.score.value?.getD ⊥)) =
      (profiles.filter fun p => weight config nowMs p ≠ 0).map fun p =>
        (p.profile.profileId, scoreValue config nowMs p) := by
  induction profiles with
  | nil => rfl
  | cons p profiles ih =>
    by_cases hw : weight config nowMs p = 0
    · simp [candidate?, hw, ih]
    · simp [candidate?, hw, ih, scoreValue]

/-- **`select_for` is the decision over the values of its scores.** -/
theorem selectFor_eq_selectBy (pool : Pool) :
    ((selectFor config nowMs pool).1.chosen?, (selectFor config nowMs pool).1.excluded) =
      selectBy config nowMs (scoreValue config nowMs) pool := by
  have hs : (ranked config nowMs pool).map (fun c => (c.id, c.score.value?.getD ⊥)) =
      ((pool.profiles.filter fun p => weight config nowMs p ≠ 0).map fun p =>
        (p.profile.profileId, scoreValue config nowMs p)).insertionSort
          fun a b => scoreOrder a b ≠ .gt := by
    rw [← map_candidate?]
    refine map_insertionSort _ _ _ _ fun a ha b hb => ?_
    rw [Candidate.order_eq (score_ne_nan_of_mem ha) (score_ne_nan_of_mem hb)]
  rw [chosen?_selectFor, excluded_selectFor, selectBy, ← hs, head?_map, Option.map_map]
  rfl

/-- **A selection chooses the best profile:** the greatest score among those with a weight, the
smallest id among ties; the order of the pool does not matter. -/
theorem selectFor_chooses_best {S : Type*} [LinearOrder S] (score : PooledProfile Tracking → S)
    (s s' : PoolState) (hperm : s'.pool.profiles.Perm s.pool.profiles) :
    Chooses config nowMs score s.pool (selectBy config nowMs score s.pool).1
      (selectBy config nowMs score s.pool).2 ∧
    (selectBy config nowMs score s'.pool).1 = (selectBy config nowMs score s.pool).1 ∧
    ((selectFor config nowMs s.pool).1.chosen?, (selectFor config nowMs s.pool).1.excluded) =
      selectBy config nowMs (scoreValue config nowMs) s.pool ∧
    (selectFor config nowMs s.pool).2.active = (selectFor config nowMs s.pool).1.chosen? :=
  ⟨chooses_selectBy s, (chooses_selectBy s').unique (chooses_selectBy s) hperm,
    selectFor_eq_selectBy s.pool, (active_selectFor s.pool).trans (chosen?_selectFor s.pool).symm⟩

def twoFreshReversed : PoolState where
  pool := { twoFresh.pool with profiles := twoFresh.pool.profiles.reverse }
  distinct := by decide +kernel

theorem selectFor_chooses_best_twoFresh :
    (selectBy {} 0 (fun _ => 0 : PooledProfile Tracking → ℕ) twoFreshReversed.pool).1 =
      some ['a'] :=
  (selectFor_chooses_best _ twoFresh twoFreshReversed (reverse_perm _)).2.1.trans
    (by decide +kernel)

end BalanSir.Vpn
