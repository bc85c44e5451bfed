/-
# Selection from the pool

`VpnPool`: states, weights, scores and rotations, at a time.
-/

import BalanSir.Health.Path
import BalanSir.Lib.Keyed
import BalanSir.Lib.Ranking
import BalanSir.Vpn.Refresh

namespace BalanSir.Vpn

open Lib
open Health (PathState)

inductive ProfileState where
  | unknown
  | healthy
  | degraded
  | cooldown
  | failed
  | recovering
  deriving DecidableEq

def ProfileState.label : ProfileState → Text
  | .unknown => "Unknown".toList
  | .healthy => "Healthy".toList
  | .degraded => "Degraded".toList
  | .cooldown => "Cooldown".toList
  | .failed => "Failed".toList
  | .recovering => "Recovering".toList

/-- What `PooledProfile` keeps about a profile. -/
structure Tracking where
  state : ProfileState := .unknown
  latencyMs : Option F64 := none
  availability : Option F64 := none
  consecutiveSuccesses : ℕ := 0
  weight : ℕ := 0
  tracker : PathState := .unknown
  lastFailureMs : ℤ := 0
  lastSelectedMs : ℤ := 0
  deriving DecidableEq

abbrev Pool := VpnPool Tracking

structure PoolConfig where
  minDwell : ℕ := 120000
  failureCooldown : ℕ := 60000
  rotationInterval : ℕ := 0
  betterThreshold : F64 := 25
  rampSteps : List ℕ := [10, 25, 50, 100]

def asI64 (n : ℕ) : ℤ := Int.bmod n (2 ^ 64)

theorem asI64_le (n : ℕ) : asI64 n ≤ n := by
  unfold asI64
  rw [Int.bmod_def]
  split_ifs <;> omega

theorem asI64_of_lt {n : ℕ} (h : n < 2 ^ 63) : asI64 n = n := by
  unfold asI64
  rw [Int.bmod_def]
  split_ifs <;> omega

variable (config : PoolConfig) (nowMs : ℤ)

def deriveState (p : PooledProfile Tracking) : ProfileState :=
  let inCooldown := 0 < p.tracking.lastFailureMs ∧
    nowMs - p.tracking.lastFailureMs < asI64 config.failureCooldown
  match p.tracking.tracker with
  | .failing => .failed
  | .degraded => if inCooldown then .cooldown else .degraded
  | .unknown => if inCooldown then .cooldown else .unknown
  | .healthy =>
    if inCooldown then .cooldown
    else
      match p.tracking.state with
      | .failed | .cooldown | .recovering => .recovering
      | _ => .healthy

def rampWeight (p : PooledProfile Tracking) : ℕ :=
  let steps := config.rampSteps
  if steps = [] then 100
  else
    let successes := min p.tracking.consecutiveSuccesses steps.length
    min (max (steps.getD (max successes 1 - 1) 0) 1) 100

def weight (p : PooledProfile Tracking) : ℕ :=
  match deriveState config nowMs p with
  | .unknown => 10
  | .healthy => 100
  | .degraded => 40
  | .recovering => rampWeight config p
  | .cooldown | .failed => 0

def score (p : PooledProfile Tracking) : F64 :=
  let w := F64.ofNat (weight config nowMs p)
  if w = 0 then 0
  else
    let latencyPenalty : F64 := match p.tracking.latencyMs with
      | some lat => if F64.lt 0 lat then (lat / 1000).clamp 0 1 * 15 else 0
      | none => 0
    let availBonus : F64 := match p.tracking.availability with
      | some a => (a * 10).clamp 0 10
      | none => 5
    (w + availBonus - latencyPenalty).max 0

def explainScore (state : ProfileState) (health : Tracking) (score : F64) : Text :=
  let parts := ["state=".toList ++ state.label] ++
    (health.latencyMs.map fun lat => "latency=".toList ++ lat.fixed 0 ++ "ms".toList).toList ++
    (health.availability.map fun a =>
      "availability=".toList ++ (a * 100).fixed 0 ++ "%".toList).toList ++
    (if 0 < health.weight then ["weight=".toList ++ Nat.toDigits 10 health.weight] else [])
  "score ".toList ++ score.fixed 1 ++ " (".toList ++ ", ".toList.intercalate parts ++ ")".toList

structure Exclusion where
  profileId : Text
  reason : Text
  deriving DecidableEq

structure SelectionDecision where
  profileId : Text
  score : F64
  reason : Text
  excluded : List Exclusion
  candidates : ℕ
  deriving DecidableEq

/-- A candidate of `select_for`: its id, its score and the explanation of it. -/
structure Candidate where
  id : Text
  score : F64
  reason : Text
  deriving DecidableEq

def Candidate.order (a b : Candidate) : Ordering :=
  ((b.score.partialCmp a.score).getD .eq).then (cmp a.id b.id)

def candidate? (p : PooledProfile Tracking) : Option Candidate :=
  if weight config nowMs p = 0 then none
  else
    let score := score config nowMs p
    some ⟨p.profile.profileId, score,
      explainScore (deriveState config nowMs p) p.tracking score⟩

def exclusion? (p : PooledProfile Tracking) : Option Exclusion :=
  if weight config nowMs p = 0 then
    some ⟨p.profile.profileId, match deriveState config nowMs p with
      | .cooldown => "in cooldown after failure".toList
      | .failed => "failed health probes".toList
      | _ => "weight zero".toList⟩
  else none

def PooledProfile.selectedAt (nowMs : ℤ) (p : PooledProfile Tracking) : PooledProfile Tracking :=
  { p with tracking := { p.tracking with lastSelectedMs := nowMs } }

def markSelected (id : Text) (profiles : List (PooledProfile Tracking)) :
    List (PooledProfile Tracking) :=
  modifyFirst (·.profile.profileId) id (PooledProfile.selectedAt nowMs) profiles

def profile? (pool : Pool) (id : Text) : Option (PooledProfile Tracking) :=
  lookup (·.profile.profileId) id pool.profiles

def ranked (pool : Pool) : List Candidate :=
  (pool.profiles.filterMap (candidate? config nowMs)).insertionSort fun a b => a.order b ≠ .gt

def selectFor (pool : Pool) : SelectionDecision × Pool :=
  let excluded := pool.profiles.filterMap (exclusion? config nowMs)
  let candidates := ranked config nowMs pool
  match candidates.head? with
  | some best =>
    (⟨best.id, best.score, best.reason, excluded, candidates.length⟩,
      { pool with
        active := some best.id
        profiles := markSelected nowMs best.id pool.profiles })
  | none =>
    (⟨[], 0, "no eligible profile".toList, excluded, 0⟩, { pool with active := none })

def rankedByScore (pool : Pool) : List (Text × F64) :=
  ((pool.profiles.filter fun p => 0 < weight config nowMs p).map fun p =>
    (p.profile.profileId, score config nowMs p)).insertionSort fun a b =>
      (b.2.partialCmp a.2).getD .eq ≠ .gt

def maybePlannedRotate (pool : Pool) : Option Text × Pool :=
  if config.rotationInterval = 0 then (none, pool)
  else
    match pool.active with
    | none => (none, pool)
    | some activeId =>
      let dwell := ((profile? pool activeId).map fun p =>
        nowMs - p.tracking.lastSelectedMs).getD 0
      if dwell < asI64 config.minDwell then (none, pool)
      else
        let ranked := rankedByScore config nowMs pool
        match ranked.find? fun r => r.1 ≠ activeId with
        | none => (none, pool)
        | some bestOther =>
          let activeScore := ((ranked.find? fun r => r.1 = activeId).map Prod.snd).getD 0
          -- a significantly better active profile stays
          if bestOther.2.lt activeScore &&
              (activeScore - bestOther.2).ge config.betterThreshold then (none, pool)
          else
            (some bestOther.1, { pool with
              active := some bestOther.1
              lastRotationMs := nowMs
              lastRotationReason := some ("planned rotation: ".toList ++ bestOther.1 ++
                " better than active ".toList ++ activeId ++ " (".toList ++
                bestOther.2.display ++ " vs ".toList ++ activeScore.fixed 0 ++
                ")".toList) })

def debugId : Option Text → Text
  | none => "None".toList
  | some id => "Some(\"".toList ++ id ++ "\")".toList

def forceRotateTo (profileId reason : Text) (pool : Pool) : Except Text Text × Pool :=
  if pool.profiles.any (·.profile.profileId = profileId) then
    (.ok profileId, { pool with
      active := some profileId
      lastRotationMs := nowMs
      lastRotationReason := some (reason ++ " (was ".toList ++ debugId pool.active ++ ")".toList)
      profiles := markSelected nowMs profileId pool.profiles })
  else (.error ("no profile '".toList ++ profileId ++ "'".toList), pool)

def PooledProfile.view (p : PooledProfile Tracking) : PooledProfile Tracking := p.selectedAt 0

def Pool.view (pool : Pool) : List (PooledProfile Tracking) := pool.profiles.map (·.view)

variable {config nowMs}

theorem view_markSelected (id : Text) (profiles : List (PooledProfile Tracking)) :
    (markSelected nowMs id profiles).map (·.view) = profiles.map (·.view) := by
  have hv : ∀ p : PooledProfile Tracking, (p.selectedAt nowMs).view = p.view := fun _ => rfl
  exact map_modifyFirst hv id profiles

theorem view_selectFor (pool : Pool) : Pool.view (selectFor config nowMs pool).2 = pool.view := by
  unfold selectFor
  dsimp only
  split
  · exact view_markSelected _ _
  · rfl

/-- **All that a planned rotation can do**: nothing, or make an eligible profile active. -/
theorem maybePlannedRotate_cases (config : PoolConfig) (nowMs : ℤ) (pool : Pool) :
    maybePlannedRotate config nowMs pool = (none, pool) ∨
    ∃ activeId, config.rotationInterval ≠ 0 ∧ pool.active = some activeId ∧
      asI64 config.minDwell ≤ ((profile? pool activeId).map fun p =>
        nowMs - p.tracking.lastSelectedMs).getD 0 ∧
      ∃ next reason, next ∈ (rankedByScore config nowMs pool).map Prod.fst ∧
        maybePlannedRotate config nowMs pool = (some next, { pool with
          active := some next
          lastRotationMs := nowMs
          lastRotationReason := some reason }) := by
  unfold maybePlannedRotate
  split_ifs with hi
  · exact .inl rfl
  · cases ha : pool.active with
    | none => exact .inl rfl
    | some activeId =>
      dsimp only
      split_ifs with hd
      · exact .inl rfl
      · cases hb : (rankedByScore config nowMs pool).find? fun r => r.1 ≠ activeId with
        | none => exact .inl rfl
        | some best =>
          dsimp only
          split_ifs
          · exact .inl rfl
          · exact .inr ⟨activeId, hi, rfl, not_lt.1 hd, best.1, _,
              List.mem_map_of_mem (List.mem_of_find?_eq_some hb), rfl⟩

theorem view_maybePlannedRotate (pool : Pool) :
    Pool.view (maybePlannedRotate config nowMs pool).2 = pool.view := by
  rcases maybePlannedRotate_cases config nowMs pool with
    hn | ⟨activeId, -, -, -, next, reason, -, hs⟩
  · rw [hn]
  · rw [hs]
    rfl

theorem view_forceRotateTo (profileId reason : Text) (pool : Pool) :
    Pool.view (forceRotateTo nowMs profileId reason pool).2 = pool.view := by
  unfold forceRotateTo
  split_ifs
  · exact view_markSelected _ _
  · rfl

theorem filterMap_candidate? (pool : Pool) : pool.profiles.filterMap (candidate? config nowMs) =
      pool.view.filterMap (candidate? config nowMs) := by
  rw [Pool.view, List.filterMap_map]
  rfl

variable {pool : Pool} {a b : Candidate}

theorem ranked_congr {pool' : Pool} (h : pool.view = pool'.view) :
    ranked config nowMs pool = ranked config nowMs pool' := by
  unfold ranked
  rw [filterMap_candidate?, filterMap_candidate?, h]

theorem score_ne_nan (p : PooledProfile Tracking) : score config nowMs p ≠ .nan := by
  unfold score
  dsimp only
  split_ifs
  · decide +kernel
  · exact F64.max_ne_nan (by decide +kernel)

def Candidate.rank (c : Candidate) : (WithBot (WithTop ℚ))ᵒᵈ ×ₗ Text :=
  toLex (OrderDual.toDual (c.score.value?.getD ⊥), c.id)

theorem Candidate.order_eq (ha : a.score ≠ .nan) (hb : b.score ≠ .nan) : a.order b =
      scoreOrder (a.id, a.score.value?.getD ⊥) (b.id, b.score.value?.getD ⊥) := by
  obtain ⟨v, hv⟩ := Option.ne_none_iff_exists'.1 (mt F64.value?_eq_none.1 ha)
  obtain ⟨w, hw⟩ := Option.ne_none_iff_exists'.1 (mt F64.value?_eq_none.1 hb)
  rw [order, F64.partialCmp_of_value hw hv, hv, hw, ← cmp_eq_compare, scoreOrder]
  -- the two sides decide the order of texts by different instances
  congr!

theorem Candidate.order_ne_gt (ha : a.score ≠ .nan) (hb : b.score ≠ .nan) :
    a.order b ≠ .gt ↔ a.rank ≤ b.rank := by
  rw [Candidate.order_eq ha hb]
  exact scoreOrder_ne_gt_iff

variable {c : Candidate} {p : PooledProfile Tracking}

theorem mem_candidates : c ∈ pool.profiles.filterMap (candidate? config nowMs) ↔
      ∃ p ∈ pool.profiles, candidate? config nowMs p = some c := List.mem_filterMap

theorem candidate?_eq_none : candidate? config nowMs p = none ↔ weight config nowMs p = 0 := by
  simp [candidate?]

theorem candidate?_eq_some (h : candidate? config nowMs p = some c) :
    weight config nowMs p ≠ 0 ∧ c.id = p.profile.profileId ∧ c.score = score config nowMs p := by
  unfold candidate? at h
  split_ifs at h with hw
  cases h
  exact ⟨hw, rfl, rfl⟩

theorem score_ne_nan_of_mem (hc : c ∈ pool.profiles.filterMap (candidate? config nowMs)) :
    c.score ≠ .nan := by
  obtain ⟨p, -, hp⟩ := mem_candidates.1 hc
  rw [(candidate?_eq_some hp).2.2]
  exact score_ne_nan p

theorem head?_ranked {best : Candidate} (h : (ranked config nowMs pool).head? = some best) :
    (∃ p ∈ pool.profiles, candidate? config nowMs p = some best) ∧
      ∀ p ∈ pool.profiles, ∀ c, candidate? config nowMs p = some c → best.rank ≤ c.rank := by
  have hr : ∀ a ∈ pool.profiles.filterMap (candidate? config nowMs),
      ∀ b ∈ pool.profiles.filterMap (candidate? config nowMs),
        a.order b ≠ .gt ↔ a.rank ≤ b.rank :=
    fun a ha b hb => Candidate.order_ne_gt (score_ne_nan_of_mem ha) (score_ne_nan_of_mem hb)
  obtain ⟨hm, hbe⟩ := head?_insertionSort hr h
  exact ⟨mem_candidates.1 hm, fun p hp c hc => hbe c (mem_candidates.2 ⟨p, hp, hc⟩)⟩

theorem head?_ranked_eq_none :
    (ranked config nowMs pool).head? = none ↔ ∀ p ∈ pool.profiles, weight config nowMs p = 0 := by
  unfold ranked
  rw [head?_insertionSort_eq_none, List.filterMap_eq_nil_iff]
  simp only [candidate?_eq_none]

theorem active_selectFor (pool : Pool) :
    (selectFor config nowMs pool).2.active = (ranked config nowMs pool).head?.map (·.id) := by
  unfold selectFor
  dsimp only
  split
  · next h => rw [h]; rfl
  · next h => rw [h]; rfl

end BalanSir.Vpn
