/-
# The pool with its trackers

`VpnPool` with a `PathHealth` for each profile, over every run of its operations.
-/

import BalanSir.Health.Path
import BalanSir.Vpn.Selection

namespace BalanSir.Vpn

open Lib List
open Health (PathHealth PathHealthConfig PathSample succU32)

/-- `PoolConfig` with the cooldown of the trackers, in nanoseconds. -/
structure LiveConfig extends PoolConfig where
  healthCooldown : ℕ := 10000000000

def pathConfig (config : LiveConfig) : PathHealthConfig where
  latencyThresholdMs := 400
  lossThresholdPct := 10
  enterDegraded := 2
  exitDegraded := 3
  cooldown := config.healthCooldown

/-- `ProfileHealth`, without the texts. -/
structure ProfileHealth where
  state : ProfileState := .unknown
  latencyMs : Option F64 := none
  lossPct : Option F64 := none
  availability : Option F64 := none
  consecutiveSuccesses : ℕ := 0
  consecutiveFailures : ℕ := 0
  failureCount : ℕ := 0
  sampleCount : ℕ := 0
  weight : ℕ := 0
  deriving DecidableEq

/-- What `PooledProfile` keeps beside the profile. -/
structure Live where
  health : ProfileHealth := {}
  tracker : PathHealth
  lastFailureMs : ℤ := 0
  lastSelectedMs : ℤ := 0
  deriving DecidableEq

abbrev LivePool := VpnPool Live

def Live.tracking (l : Live) : Tracking where
  state := l.health.state
  latencyMs := l.health.latencyMs
  availability := l.health.availability
  consecutiveSuccesses := l.health.consecutiveSuccesses
  weight := l.health.weight
  tracker := l.tracker.state
  lastFailureMs := l.lastFailureMs
  lastSelectedMs := l.lastSelectedMs

def PooledProfile.tracked (p : PooledProfile Live) : PooledProfile Tracking :=
  ⟨p.profile, p.tracking.tracking⟩

def LivePool.toPool (pool : LivePool) : Pool where
  profiles := pool.profiles.map (·.tracked)
  active := pool.active
  lastRotationMs := pool.lastRotationMs
  lastRotationReason := pool.lastRotationReason

def PooledProfile.putBack (p : PooledProfile Live) (q : PooledProfile Tracking) :
    PooledProfile Live :=
  { p with tracking := { p.tracking with lastSelectedMs := q.tracking.lastSelectedMs } }

def LivePool.put (pool : LivePool) (after : Pool) : LivePool where
  profiles := pool.profiles.zipWith (·.putBack ·) after.profiles
  active := after.active
  lastRotationMs := after.lastRotationMs
  lastRotationReason := after.lastRotationReason

variable (config : LiveConfig)

def PooledProfile.observe (sample : PathSample) (nowMs : ℤ) (instant : ℕ)
    (p : PooledProfile Live) : PooledProfile Live :=
  let tracker := (p.tracking.tracker.observe sample instant).2
  let shown (x : F64) : Option F64 := if 0 < tracker.samples then some x else none
  let health := { p.tracking.health with
    sampleCount := tracker.samples
    latencyMs := shown tracker.latencyMs
    lossPct := shown tracker.lossPct
    consecutiveFailures := tracker.consecutiveBad
    consecutiveSuccesses :=
      if sample.reachable then succU32 p.tracking.health.consecutiveSuccesses else 0
    failureCount :=
      if sample.reachable then p.tracking.health.failureCount
      else (p.tracking.health.failureCount + 1) % 2 ^ 64 }
  let health := { health with
    availability :=
      if 0 < health.sampleCount then
        some (1 - .ofNat health.failureCount / .ofNat health.sampleCount)
      else none }
  let lastFailureMs := if sample.reachable then p.tracking.lastFailureMs else nowMs
  let p := { p with tracking := { p.tracking with health, tracker, lastFailureMs } }
  let next := deriveState config.toPoolConfig nowMs p.tracked
  let p := { p with tracking := { p.tracking with health := { health with state := next } } }
  let weight := weight config.toPoolConfig nowMs p.tracked
  { p with tracking := { p.tracking with health := { p.tracking.health with weight } } }

def LivePool.profile? (pool : LivePool) (id : Text) : Option (PooledProfile Live) :=
  lookup (·.profile.profileId) id pool.profiles

def LivePool.observeHealth (profileId : Text) (sample : PathSample) (nowMs : ℤ) (instant : ℕ)
    (pool : LivePool) : ProfileState × LivePool :=
  match LivePool.profile? pool profileId with
  | none => (.unknown, pool)
  | some p =>
    ((p.observe config sample nowMs instant).tracking.health.state, { pool with
      profiles := modifyFirst (·.profile.profileId) profileId
        (·.observe config sample nowMs instant) pool.profiles })

/-- An operation of the pool; a sample has `now_ms` and the tracker's own time. -/
inductive PoolOp where
  | atomicReplace (profiles : List VpnProfile)
  | observeHealth (profileId : Text) (sample : PathSample) (nowMs : ℤ) (instant : ℕ)
  | selectFor (nowMs : ℤ)
  | maybePlannedRotate (nowMs : ℤ)
  | forceRotateTo (profileId reason : Text) (nowMs : ℤ)

inductive PoolResult where
  | replaced (count : Except Text ℕ)
  | observed (state : ProfileState)
  | selected (decision : SelectionDecision)
  | rotated (next : Option Text)
  | forced (next : Except Text Text)

def PoolResult.IsErr : PoolResult → Prop
  | .replaced (.error _) | .forced (.error _) => True
  | _ => False

def PoolOp.exec (op : PoolOp) (pool : LivePool) : PoolResult × LivePool :=
  match op with
  | .atomicReplace profiles =>
    match pool.atomicReplace { tracker := .new (pathConfig config) } profiles with
    | .error e => (.replaced (.error e), pool)
    | .ok (count, pool') => (.replaced (.ok count), pool')
  | .observeHealth profileId sample nowMs instant =>
    let (state, pool') := LivePool.observeHealth config profileId sample nowMs instant pool
    (.observed state, pool')
  | .selectFor nowMs =>
    let (decision, after) := Vpn.selectFor config.toPoolConfig nowMs pool.toPool
    (.selected decision, pool.put after)
  | .maybePlannedRotate nowMs =>
    let (next, after) := Vpn.maybePlannedRotate config.toPoolConfig nowMs pool.toPool
    (.rotated next, pool.put after)
  | .forceRotateTo profileId reason nowMs =>
    let (next, after) := Vpn.forceRotateTo nowMs profileId reason pool.toPool
    (.forced next, pool.put after)

def PoolOp.step (op : PoolOp) (pool : LivePool) : LivePool := (op.exec config pool).2

def LivePool.after (ops : List PoolOp) : LivePool := run (PoolOp.step config) ops {}

def PoolOp.Replaces : PoolOp → Prop
  | .atomicReplace profiles => profiles ≠ []
  | _ => False

instance (op : PoolOp) : Decidable op.Replaces :=
  match op with
  | .atomicReplace profiles => inferInstanceAs (Decidable (profiles ≠ []))
  | .observeHealth .. | .selectFor _ | .maybePlannedRotate _ | .forceRotateTo .. => isFalse id

def PoolOp.Observes (id : Text) : PoolOp → Prop
  | .observeHealth profileId .. => profileId = id
  | _ => False

instance (id : Text) (op : PoolOp) : Decidable (op.Observes id) :=
  match op with
  | .observeHealth profileId _ _ _ => inferInstanceAs (Decidable (profileId = id))
  | .atomicReplace _ | .selectFor _ | .maybePlannedRotate _ | .forceRotateTo .. => isFalse nofun

section PutBack

theorem tracked_putBack {p : PooledProfile Live} {q : PooledProfile Tracking}
    (h : q.view = p.tracked.view) : (p.putBack q).tracked = q := by
  obtain ⟨profile, tracking⟩ := q
  obtain ⟨state, latencyMs, availability, successes, weight, tracker, failed, selected⟩ := tracking
  cases h
  rfl

variable {l : List (PooledProfile Live)}

theorem map_tracked_zipWith {l' : List (PooledProfile Tracking)}
    (h : l'.map (·.view) = (l.map (·.tracked)).map (·.view)) :
    (l.zipWith (·.putBack ·) l').map (·.tracked) = l' := by
  induction l generalizing l' with
  | nil => exact (List.map_eq_nil_iff.1 h).symm
  | cons p l ih =>
    cases l' with
    | nil => cases h
    | cons q l' =>
      obtain ⟨hh, ht⟩ := List.cons.inj h
      rw [zipWith_cons_cons, map_cons, ih ht, tracked_putBack hh]

variable {pool : LivePool}

/-- **Nothing is lost**: what selection reads is what the function on it has left. -/
theorem toPool_put {after : Pool} (h : after.view = pool.toPool.view) :
    (pool.put after).toPool = after := by
  rw [LivePool.toPool, LivePool.put, map_tracked_zipWith h]

theorem put_toPool (pool : LivePool) : pool.put pool.toPool = pool := by
  have hs : ∀ p : PooledProfile Live, p.putBack p.tracked = p := fun _ => rfl
  rw [LivePool.put, LivePool.toPool, zipWith_map_right, zipWith_self]
  simp only [hs, map_id']

def PooledProfile.kept (p : PooledProfile Live) : PooledProfile Live :=
  { p with tracking := { p.tracking with lastSelectedMs := 0 } }

theorem map_kept_zipWith {l' : List (PooledProfile Tracking)}
    (h : l.length = l'.length) : (l.zipWith (·.putBack ·) l').map (·.kept) = l.map (·.kept) := by
  induction l generalizing l' with
  | nil => rfl
  | cons p l ih =>
    cases l' with
    | nil => cases h
    | cons q l' =>
      rw [zipWith_cons_cons, map_cons, ih (Nat.succ.inj h)]
      rfl

theorem map_kept_put {after : Pool} (h : after.view = pool.toPool.view) :
    (pool.put after).profiles.map (·.kept) = pool.profiles.map (·.kept) := by
  refine map_kept_zipWith ?_
  have hl := congrArg List.length h
  rw [Pool.view, Pool.view, LivePool.toPool, length_map, length_map, length_map] at hl
  exact hl.symm

end PutBack

def LivePool.ids (pool : LivePool) : List Text := pool.profiles.map (·.profile.profileId)

theorem ids_toPool (pool : LivePool) : pool.toPool.ids = pool.ids := by
  rw [Pool.ids, LivePool.toPool, map_map]
  rfl

theorem ids_put {pool : LivePool} {after : Pool} (h : after.view = pool.toPool.view) :
    LivePool.ids (pool.put after) = pool.ids := by
  rw [← ids_toPool, toPool_put h, ids_eq_view, h, ← ids_eq_view, ids_toPool]

variable {config} {nowMs : ℤ} {pool : Pool}

theorem mem_ids_of_selectFor {id : Text}
    (h : (selectFor config.toPoolConfig nowMs pool).2.active = some id) : id ∈ pool.ids := by
  rw [active_selectFor, Option.map_eq_some_iff] at h
  obtain ⟨best, hb, rfl⟩ := h
  obtain ⟨⟨p, hp, hc⟩, -⟩ := head?_ranked hb
  rw [(candidate?_eq_some hc).2.1]
  exact mem_map_of_mem hp

theorem mem_ids_of_rankedByScore {r : Text × F64}
    (h : r ∈ rankedByScore config.toPoolConfig nowMs pool) : r.1 ∈ pool.ids := by
  rw [rankedByScore, mem_insertionSort, mem_map] at h
  obtain ⟨p, hp, rfl⟩ := h
  exact mem_map_of_mem (mem_of_mem_filter hp)

theorem mem_ids_of_maybePlannedRotate {id : Text}
    (h : (maybePlannedRotate config.toPoolConfig nowMs pool).2.active = some id) :
    pool.active = some id ∨ id ∈ pool.ids := by
  rcases maybePlannedRotate_cases config.toPoolConfig nowMs pool with
    hn | ⟨activeId, -, -, -, next, reason, hne, hs⟩
  · rw [hn] at h
    exact .inl h
  · rw [hs] at h
    obtain rfl := Option.some.inj h
    obtain ⟨r, hr, rfl⟩ := List.mem_map.1 hne
    exact .inr (mem_ids_of_rankedByScore hr)

theorem mem_ids_of_forceRotateTo {profileId reason id : Text}
    (h : (forceRotateTo nowMs profileId reason pool).2.active = some id) :
    pool.active = some id ∨ id ∈ pool.ids := by
  unfold forceRotateTo at h
  split_ifs at h with ha
  · cases h
    obtain ⟨p, hp, hid⟩ := List.any_eq_true.1 ha
    exact .inr (List.mem_map.2 ⟨p, hp, of_decide_eq_true hid⟩)
  · exact .inl h

variable {pool : LivePool}

/-- **All that an operation can be**: a replace, a sample, or an operation of `Vpn.Pool`, put back.
-/
theorem PoolOp.step_cases (op : PoolOp) (config : LiveConfig) (pool : LivePool) :
    (∃ profiles, op = .atomicReplace profiles ∧ profiles ≠ []) ∨
    (∃ id sample nowMs instant, op = .observeHealth id sample nowMs instant) ∨
    ∃ after : Pool, after.view = pool.toPool.view ∧ op.step config pool = pool.put after ∧
      (∀ id, after.active = some id → pool.active = some id ∨ id ∈ pool.ids) ∧
      ¬op.Replaces ∧ ∀ id, ¬op.Observes id := by
  rw [← ids_toPool]
  cases op with
  | atomicReplace profiles =>
    by_cases hn : profiles = []
    · -- nothing is done: the pool is put back as it was read
      subst hn
      exact .inr (.inr ⟨pool.toPool, rfl, (put_toPool pool).symm, fun id h => .inl h,
        fun h => h rfl, nofun⟩)
    · exact .inl ⟨profiles, rfl, hn⟩
  | observeHealth id sample nowMs instant => exact .inr (.inl ⟨id, sample, nowMs, instant, rfl⟩)
  | selectFor nowMs =>
    exact .inr (.inr
      ⟨_, view_selectFor _, rfl, fun id h => .inr (mem_ids_of_selectFor h), nofun, nofun⟩)
  | maybePlannedRotate nowMs =>
    exact .inr (.inr ⟨_, view_maybePlannedRotate _, rfl,
      fun id h => mem_ids_of_maybePlannedRotate h, nofun, nofun⟩)
  | forceRotateTo profileId reason nowMs =>
    exact .inr (.inr ⟨_, view_forceRotateTo _ _ _, rfl,
      fun id h => mem_ids_of_forceRotateTo h, nofun, nofun⟩)

def fresh (config : LiveConfig) (profile : VpnProfile) : PooledProfile Live :=
  ⟨profile, { tracker := .new (pathConfig config) }⟩

theorem exec_atomicReplace {profiles : List VpnProfile} (h : profiles ≠ []) :
    (PoolOp.atomicReplace profiles).exec config pool =
      (.replaced (.ok (profiles.map (fresh config)).length), { pool with
        profiles := profiles.map (fresh config)
        active := pool.active.filter fun active =>
          (profiles.map (fresh config)).any (·.profile.profileId == active) }) := by
  unfold PoolOp.exec VpnPool.atomicReplace
  dsimp only
  rw [if_neg h]
  rfl

theorem step_observeHealth (id : Text) (sample : PathSample) (nowMs : ℤ) (instant : ℕ) :
    (PoolOp.observeHealth id sample nowMs instant).step config pool = { pool with
        profiles := modifyFirst (·.profile.profileId) id
          (·.observe config sample nowMs instant) pool.profiles } := by
  show (LivePool.observeHealth config id sample nowMs instant pool).2 = _
  unfold LivePool.observeHealth
  split
  · next hp => rw [modifyFirst_of_lookup hp]
  · rfl

theorem profile?_observeHealth (id' id : Text) (sample : PathSample) (nowMs : ℤ) (instant : ℕ) :
    LivePool.profile? ((PoolOp.observeHealth id' sample nowMs instant).step config pool) id =
      if id = id' then (LivePool.profile? pool id).map (·.observe config sample nowMs instant)
      else LivePool.profile? pool id := by
  have hid : ∀ p : PooledProfile Live,
      (p.observe config sample nowMs instant).profile.profileId = p.profile.profileId :=
    fun _ => rfl
  rw [step_observeHealth]
  exact lookup_modifyFirst hid id' id pool.profiles

def LivePool.ActiveIn (pool : LivePool) : Prop := ∀ id, pool.active = some id → id ∈ pool.ids

theorem ids_observeHealth (id : Text) (sample : PathSample) (nowMs : ℤ) (instant : ℕ) :
    LivePool.ids ((PoolOp.observeHealth id sample nowMs instant).step config pool) = pool.ids := by
  have hid : ∀ p : PooledProfile Live,
      (p.observe config sample nowMs instant).profile.profileId = p.profile.profileId :=
    fun _ => rfl
  rw [step_observeHealth]
  exact map_modifyFirst hid id pool.profiles

theorem activeIn_step (op : PoolOp) (pool : LivePool) (h : pool.ActiveIn) :
    LivePool.ActiveIn (op.step config pool) := by
  intro id hid
  rcases op.step_cases config pool with
    ⟨profiles, rfl, hne⟩ | ⟨id', sample, nowMs, instant, rfl⟩ | ⟨after, hv, hs, ha, -⟩
  · rw [PoolOp.step, exec_atomicReplace hne] at hid ⊢
    obtain ⟨-, han⟩ := Option.filter_eq_some_iff.1 hid
    obtain ⟨p, hp, hpi⟩ := List.any_eq_true.1 han
    exact List.mem_map.2 ⟨p, hp, eq_of_beq hpi⟩
  · rw [ids_observeHealth]
    rw [step_observeHealth] at hid
    exact h id hid
  · rw [hs] at hid ⊢
    rw [ids_put hv]
    rcases ha id hid with hsa | hm
    · exact h id hsa
    · exact hm

theorem ids_step_ne_nil (op : PoolOp) (pool : LivePool) (h : pool.ids ≠ []) :
    LivePool.ids (op.step config pool) ≠ [] := by
  rcases op.step_cases config pool with
    ⟨profiles, rfl, hne⟩ | ⟨id', sample, nowMs, instant, rfl⟩ | ⟨after, hv, hs, -⟩
  · rw [PoolOp.step, exec_atomicReplace hne]
    simpa [LivePool.ids] using hne
  · rwa [ids_observeHealth]
  · rwa [hs, ids_put hv]

theorem ids_ne_nil_of_replaced {op : PoolOp} {count : ℕ}
    (h : (op.exec config pool).1 = .replaced (.ok count)) :
    LivePool.ids (op.step config pool) ≠ [] := by
  cases op with
  | atomicReplace profiles =>
    by_cases hn : profiles = []
    · rw [hn] at h
      cases h
    · rw [PoolOp.step, exec_atomicReplace hn]
      simpa [LivePool.ids] using hn
  | observeHealth id sample nowMs instant => cases h
  | selectFor nowMs => cases h
  | maybePlannedRotate nowMs => cases h
  | forceRotateTo profileId reason nowMs => cases h

theorem exec_of_isErr {op : PoolOp} (h : (op.exec config pool).1.IsErr) :
    (op.exec config pool).2 = pool := by
  cases op with
  | atomicReplace profiles =>
    by_cases hn : profiles = []
    · rw [hn]
      rfl
    · rw [exec_atomicReplace hn] at h
      exact h.elim
  | observeHealth id sample nowMs instant => exact h.elim
  | selectFor nowMs => exact h.elim
  | maybePlannedRotate nowMs => exact h.elim
  | forceRotateTo profileId reason nowMs =>
    change (PoolResult.forced (forceRotateTo nowMs profileId reason pool.toPool).1).IsErr at h
    show pool.put (forceRotateTo nowMs profileId reason pool.toPool).2 = pool
    unfold forceRotateTo at h ⊢
    split_ifs at h ⊢
    · exact h.elim
    · exact put_toPool pool

/-- **Rotations do not last**: with no sample and no replacement in between, a selection chooses
what it would have chosen before them. -/
theorem active_selectFor_run (pool : LivePool) {ops : List PoolOp}
    (hops : ∀ op ∈ ops, ¬op.Replaces ∧ ∀ id, ¬op.Observes id) :
    ((PoolOp.selectFor nowMs).step config (run (PoolOp.step config) ops pool)).active =
      ((PoolOp.selectFor nowMs).step config pool).active := by
  have hv : (run (PoolOp.step config) ops pool).toPool.view = pool.toPool.view := by
    refine Lib.run_frame (f := fun pool => pool.toPool.view) (fun op hop pool => ?_) pool
    rcases op.step_cases config pool with
      ⟨_, rfl, hne⟩ | ⟨id, _, _, _, rfl⟩ | ⟨after, hv, hs, -⟩
    · exact absurd hne (hops _ hop).1
    · exact absurd rfl ((hops _ hop).2 id)
    · rw [hs, toPool_put hv, hv]
  show (Vpn.selectFor _ nowMs _).2.active = (Vpn.selectFor _ nowMs _).2.active
  rw [active_selectFor, active_selectFor, ranked_congr hv]

def everyMinute : LiveConfig := { rotationInterval := 60000 }

def twoProfiles : List VpnProfile := twoFresh.pool.profiles.map (·.profile)

/-- A planned rotation to `b`, a forced one back to `a` and another planned one. -/
def rotations : List PoolOp :=
  [.maybePlannedRotate 1120000, .forceRotateTo ['a'] "manual".toList 1130000,
    .maybePlannedRotate 1250000]

theorem active_selectFor_rotations :
    let pool := LivePool.after everyMinute [.atomicReplace twoProfiles, .selectFor 1000000]
    (run (PoolOp.step everyMinute) rotations pool).active = some ['b'] ∧
      ((PoolOp.selectFor 1300000).step everyMinute
        (run (PoolOp.step everyMinute) rotations pool)).active = some ['a'] := by
  refine ⟨by decide +kernel, (active_selectFor_run _ ?_).trans (by decide +kernel)⟩
  simp [rotations, PoolOp.Replaces, PoolOp.Observes]

/-- **Whatever is done to the pool**, the active profile is one of it, it is not empty after a
replace, and an operation that returns `Err` changes nothing. -/
theorem live_pool_safe (config : LiveConfig) (ops : List PoolOp) :
    (∀ id, (LivePool.after config ops).active = some id →
      ∃ p ∈ (LivePool.after config ops).profiles, p.profile.profileId = id) ∧
    (∀ (before : List PoolOp) (op : PoolOp) rest count, ops = before ++ op :: rest →
      (op.exec config (LivePool.after config before)).1 = .replaced (.ok count) →
      (LivePool.after config ops).profiles ≠ []) ∧
    ∀ op : PoolOp, (op.exec config (LivePool.after config ops)).1.IsErr →
      (op.exec config (LivePool.after config ops)).2 = LivePool.after config ops := by
  refine ⟨fun id hid => ?_, fun before op rest count hops hr => ?_, fun op => exec_of_isErr⟩
  · have ha : LivePool.ActiveIn (LivePool.after config ops) :=
      run_invariant activeIn_step ops nofun
    exact List.mem_map.1 (ha id hid)
  · have hi : LivePool.ids (LivePool.after config ops) ≠ [] := by
      rw [hops, LivePool.after, run_append]
      exact run_invariant ids_step_ne_nil rest
        (ids_ne_nil_of_replaced hr)
    simpa [LivePool.ids] using hi

end BalanSir.Vpn
