/-
# Recovery

The samples of a profile on its way back, with the pool replaced or not.
-/

import BalanSir.Vpn.Live

namespace BalanSir.Vpn

open Lib
open Health (PathHealth PathHealthConfig PathSample)

variable (config : LiveConfig)

def PoolOp.Good (id : Text) (op : PoolOp) (pool : LivePool) : Prop :=
  match op with
  | .observeHealth profileId sample nowMs _ =>
    profileId = id → ∃ p ∈ LivePool.profile? pool id, sample.reachable = true ∧
      (pathConfig config).degraded sample = false ∧
      p.tracking.lastFailureMs + config.failureCooldown ≤ nowMs
  | _ => True

instance (id : Text) (op : PoolOp) (pool : LivePool) : Decidable (op.Good config id pool) :=
  match op with
  | .observeHealth _ _ _ _ => inferInstanceAs (Decidable (_ → _))
  | .atomicReplace _ | .selectFor _ | .maybePlannedRotate _ | .forceRotateTo .. => isTrue trivial

/-- A `Recovering` profile has only good samples, as many as the ramp has steps. -/
structure Recovers (id : Text) (pool : LivePool) (ops : List PoolOp) : Prop where
  ramp : config.rampSteps ≠ []
  recovering : ∃ p ∈ LivePool.profile? pool id, p.tracking.health.state = .recovering
  good : Along (PoolOp.step config) (PoolOp.Good config id) ops pool
  enough : config.rampSteps.length ≤ ops.countP fun op => op.Observes id

/-- The pool was replaced, and a sample came after it. -/
def Renewed (id : Text) (ops : List PoolOp) : Prop :=
  (∃ op ∈ ops, op.Replaces) ∧
    ∃ op ∈ ops.rtakeWhile fun op => ¬op.Replaces, op.Observes id
  deriving Decidable

variable {config} {id : Text} {ops : List PoolOp} {op : PoolOp}

theorem not_renewed_concat (h : op.Replaces) : ¬Renewed id (ops ++ [op]) := by
  rintro ⟨-, op', hop', -⟩
  rw [List.rtakeWhile_concat_neg _ _ _ (by simpa using h)] at hop'
  cases hop'

theorem renewed_concat (h : ¬op.Replaces) : Renewed id (ops ++ [op]) ↔
    (∃ op ∈ ops, op.Replaces) ∧ (Renewed id ops ∨ op.Observes id) := by
  unfold Renewed
  rw [List.rtakeWhile_concat_pos _ _ _ (by simpa using h)]
  simp only [List.mem_append, List.mem_singleton, or_and_right, exists_or, exists_eq_left, h,
    or_false]
  constructor
  · rintro ⟨hr, hs | hop⟩
    · exact ⟨hr, .inl ⟨hr, hs⟩⟩
    · exact ⟨hr, .inr hop⟩
  · rintro ⟨hr, ⟨-, hs⟩ | hop⟩
    · exact ⟨hr, .inl hs⟩
    · exact ⟨hr, .inr hop⟩

variable {sample : PathSample} {nowMs : ℤ} {instant : ℕ} {p : PooledProfile Live} {pool : LivePool}

theorem state_observe : (p.observe config sample nowMs instant).tracking.health.state =
    deriveState config.toPoolConfig nowMs ⟨p.profile,
      { state := p.tracking.health.state
        tracker := (p.tracking.tracker.observe sample instant).2.state
        lastFailureMs := if sample.reachable then p.tracking.lastFailureMs else nowMs }⟩ := rfl

theorem tracker_observe : (p.observe config sample nowMs instant).tracking.tracker =
    (p.tracking.tracker.observe sample instant).2 := rfl

theorem observe_good (hc : p.tracking.tracker.config = pathConfig config)
    (ht : p.tracking.tracker.state = .healthy ∨ p.tracking.tracker.state = .unknown)
    (hr : sample.reachable) (hg : (pathConfig config).degraded sample = false)
    (hco : p.tracking.lastFailureMs + config.failureCooldown ≤ nowMs) :
    (p.observe config sample nowMs instant).tracking.tracker.state = .healthy ∧
    (p.tracking.health.state = .recovering →
      (p.observe config sample nowMs instant).tracking.health.state = .recovering) ∧
    (p.tracking.health.state = .unknown ∨ p.tracking.health.state = .healthy →
      (p.observe config sample nowMs instant).tracking.health.state = .healthy) := by
  have he : 1 ≤ (pathConfig config).enterDegraded := by
    show (1 : UInt32) ≤ 2
    decide
  have hh : (p.tracking.tracker.observe sample instant).2.state = .healthy :=
    PathHealth.observe_of_good instant (hc ▸ he) (hc ▸ hg) ht
  have hle := asI64_le config.failureCooldown
  rw [state_observe, hh, hr, if_pos rfl, deriveState]
  dsimp only
  rw [if_neg (by omega)]
  refine ⟨hh, fun hs => ?_, fun hs => ?_⟩
  · rw [hs]
  · rcases hs with hs | hs
    · rw [hs]
    · rw [hs]

def Tracks (config : LiveConfig) (p : PooledProfile Live) : Prop :=
  p.tracking.tracker.config = pathConfig config ∧
    (p.tracking.health.state = .recovering → p.tracking.tracker.state = .healthy)

theorem tracker_of_deriveState {q : PooledProfile Tracking}
    (h : deriveState config.toPoolConfig nowMs q = .recovering) :
    q.tracking.tracker = .healthy := by
  unfold deriveState at h
  dsimp only at h
  split at h
  · cases h
  · split_ifs at h
  · split_ifs at h
  · assumption

theorem Tracks.observe (h : Tracks config p) :
    Tracks config (p.observe config sample nowMs instant) := by
  refine ⟨?_, fun hr => ?_⟩
  · rw [tracker_observe, PathHealth.config_observe, h.1]
  · exact tracker_of_deriveState hr

theorem profile?_put {after : Pool} (hv : after.view = pool.toPool.view)
    (hp : LivePool.profile? (pool.put after) id = some p) :
    ∃ p₀, LivePool.profile? pool id = some p₀ ∧ p₀.kept = p.kept := by
  have hl : ∀ l : List (PooledProfile Live),
      (lookup (·.profile.profileId) id l).map (·.kept) =
        lookup (·.profile.profileId) id (l.map (·.kept)) := by
    intro l
    rw [lookup, lookup, List.find?_map]
    rfl
  have hk : (LivePool.profile? pool id).map (·.kept) = some p.kept := by
    rw [LivePool.profile?, hl, ← map_kept_put hv, ← hl]
    exact congrArg (Option.map (·.kept)) hp
  exact Option.map_eq_some_iff.1 hk

theorem tracks_step (op : PoolOp) (pool : LivePool) (h : ∀ p ∈ pool.profiles, Tracks config p) :
    ∀ p ∈ (op.step config pool).profiles, Tracks config p := by
  intro p hp
  rcases op.step_cases config pool with
    ⟨profiles, rfl, hne⟩ | ⟨id, sample, nowMs, instant, rfl⟩ | ⟨after, hv, hs, -⟩
  · rw [PoolOp.step, exec_atomicReplace hne] at hp
    obtain ⟨profile, -, rfl⟩ := List.mem_map.1 hp
    refine ⟨rfl, fun h => ?_⟩
    cases h
  · rw [step_observeHealth] at hp
    rcases mem_modifyFirst hp with hp | ⟨q, hq, rfl⟩
    · exact h p hp
    · exact (h q hq).observe
  · rw [hs] at hp
    have hk := List.mem_map_of_mem (f := fun p => p.kept) hp
    rw [map_kept_put hv] at hk
    obtain ⟨q, hq, hqp⟩ := List.mem_map.1 hk
    have ht : Tracks config q.kept := h q hq
    rw [hqp] at ht
    exact ht

def Stage (id : Text) (ops : List PoolOp) (p : PooledProfile Live) : Prop :=
  (¬∃ op ∈ ops, op.Replaces) ∧
      p.tracking.health.state = .recovering ∧ p.tracking.tracker.state = .healthy ∨
    (∃ op ∈ ops, op.Replaces) ∧ ¬Renewed id ops ∧
      p.tracking.health.state = .unknown ∧ p.tracking.tracker.state = .unknown ∨
    Renewed id ops ∧ p.tracking.health.state = .healthy ∧ p.tracking.tracker.state = .healthy

theorem Stage.healthy_iff (h : Stage id ops p) :
    p.tracking.health.state = .healthy ↔ Renewed id ops := by
  rcases h with ⟨hno, hs, -⟩ | ⟨-, hno, hs, -⟩ | ⟨hr, hs, -⟩
  · rw [hs]
    exact ⟨nofun, fun hr => absurd hr.1 hno⟩
  · rw [hs]
    exact ⟨nofun, fun hr => absurd hr hno⟩
  · exact iff_of_true hs hr

theorem exists_replaces_concat (h : ¬op.Replaces) :
    (∃ op' ∈ ops ++ [op], op'.Replaces) ↔ ∃ op' ∈ ops, op'.Replaces := by
  simp [h]

theorem Stage.concat (h : Stage id ops p) (hr : ¬op.Replaces) (ho : ¬op.Observes id) :
    Stage id (ops ++ [op]) p := by
  have hre : Renewed id (ops ++ [op]) ↔ Renewed id ops := by
    rw [renewed_concat hr]
    exact ⟨fun h => h.2.resolve_right ho, fun h => ⟨h.1, .inl h⟩⟩
  unfold Stage
  rwa [exists_replaces_concat hr, hre]

theorem Stage.observe (h : Stage id ops p) (hco : p.tracking.tracker.config = pathConfig config)
    (hr : sample.reachable) (hg : (pathConfig config).degraded sample = false)
    (hc : p.tracking.lastFailureMs + config.failureCooldown ≤ nowMs) :
    Stage id (ops ++ [.observeHealth id sample nowMs instant])
      (p.observe config sample nowMs instant) := by
  have hrep : ¬(PoolOp.observeHealth id sample nowMs instant).Replaces := nofun
  have hren : (∃ op ∈ ops, op.Replaces) →
      Renewed id (ops ++ [.observeHealth id sample nowMs instant]) :=
    fun hre => (renewed_concat hrep).2 ⟨hre, .inr rfl⟩
  unfold Stage
  rw [exists_replaces_concat hrep]
  rcases h with ⟨hno, hs, ht⟩ | ⟨hre, -, hs, ht⟩ |
    ⟨hrene, hs, ht⟩
  · obtain ⟨hh, hrec, -⟩ :=
      observe_good hco (.inl ht) hr hg hc
    exact .inl ⟨hno, hrec hs, hh⟩
  · obtain ⟨hh, -, hf⟩ :=
      observe_good hco (.inr ht) hr hg hc
    exact .inr (.inr ⟨hren hre, hf (.inl hs), hh⟩)
  · obtain ⟨hh, -, hf⟩ :=
      observe_good hco (.inl ht) hr hg hc
    exact .inr (.inr ⟨hren hrene.1, hf (.inr hs), hh⟩)

theorem stage_step (ht : ∀ p ∈ pool.profiles, Tracks config p)
    (hs : ∀ p, LivePool.profile? pool id = some p → Stage id ops p) (hg : op.Good config id pool) :
    ∀ p, LivePool.profile? (op.step config pool) id = some p → Stage id (ops ++ [op]) p := by
  intro p hp
  rcases op.step_cases config pool with
    ⟨profiles, rfl, hne⟩ | ⟨id', sample, nowMs, instant, rfl⟩ |
      ⟨after, hv, hst, -, hre, ho⟩
  · rw [PoolOp.step, exec_atomicReplace hne] at hp
    obtain ⟨profile, -, rfl⟩ := List.mem_map.1 (mem_of_lookup hp)
    exact .inr (.inl ⟨⟨_, List.mem_append_right _ List.mem_cons_self, hne⟩,
      not_renewed_concat hne, rfl, rfl⟩)
  · rw [profile?_observeHealth] at hp
    by_cases hid : id = id'
    · obtain ⟨p₀, hp₀, hr, hsa, hc⟩ := hg hid.symm
      rw [if_pos hid] at hp
      subst hid
      obtain ⟨p₁, hp₁, rfl⟩ := Option.map_eq_some_iff.1 hp
      obtain rfl : p₀ = p₁ := Option.some.inj (Option.mem_def.1 hp₀ ▸ hp₁)
      exact (hs p₀ hp₀).observe (ht p₀ (mem_of_lookup hp₀)).1 hr hsa hc
    · rw [if_neg hid] at hp
      exact (hs p hp).concat (fun h => h) fun h => hid h.symm
  · rw [hst] at hp
    obtain ⟨p₀, hp₀, hk⟩ := profile?_put hv hp
    have hs₀ : Stage id ops p₀.kept := hs p₀ hp₀
    rw [hk] at hs₀
    exact hs₀.concat hre (ho id)

variable {before : List PoolOp}

theorem tracks_after (config : LiveConfig) (ops : List PoolOp) :
    ∀ p ∈ (LivePool.after config ops).profiles, Tracks config p := by
  have hn : ∀ p ∈ ({} : LivePool).profiles, Tracks config p := fun p hp => by cases hp
  exact run_invariant
    tracks_step ops hn

theorem stage_run (hr : ∃ p ∈ LivePool.profile? (LivePool.after config before) id,
      p.tracking.health.state = .recovering)
    (hg : Along (PoolOp.step config) (PoolOp.Good config id) ops
      (LivePool.after config before)) :
    ∀ p, LivePool.profile? (LivePool.after config (before ++ ops)) id = some p →
      Stage id ops p := by
  induction ops using List.reverseRecOn with
  | nil =>
    intro p hp
    rw [List.append_nil] at hp
    obtain ⟨p₀, hp₀, hs⟩ := hr
    obtain rfl : p₀ = p := Option.some.inj (Option.mem_def.1 hp₀ ▸ hp)
    exact .inl ⟨nofun, hs, (tracks_after config before p₀ (mem_of_lookup hp)).2 hs⟩
  | append_singleton ops op ih =>
    obtain ⟨hg, hop, -⟩ := along_append.1 hg
    have hru : run (PoolOp.step config) ops (LivePool.after config before) =
        LivePool.after config (before ++ ops) := (run_append before ops _).symm
    have hl : LivePool.after config (before ++ (ops ++ [op])) =
        op.step config (LivePool.after config (before ++ ops)) := by
      rw [← List.append_assoc]
      exact run_append (before ++ ops) [op] _
    rw [hl]
    exact stage_step (tracks_after config _) (ih hg) (hru ▸ hop)

/-- **When a recovering profile becomes healthy.** After the good samples of the ramp it is
`Healthy` exactly when the pool was replaced in between and it has a sample since. -/
theorem healthy_after_recovery_iff (h : Recovers config id (LivePool.after config before) ops)
    (hp : LivePool.profile? (LivePool.after config (before ++ ops)) id = some p) :
    p.tracking.health.state = .healthy ↔ Renewed id ops :=
  (stage_run h.recovering h.good p hp).healthy_iff

def oneProfile : List VpnProfile := (twoFresh.pool.profiles.map (·.profile)).take 1

def failedAndBack : List PoolOp :=
  [.atomicReplace oneProfile,
    .observeHealth ['a'] .failure 1000 1000000000,
    .observeHealth ['a'] .failure 2000 2000000000,
    .observeHealth ['a'] .healthy 120000 120000000000,
    .observeHealth ['a'] .healthy 121000 121000000000,
    .observeHealth ['a'] .healthy 122000 122000000000]

def fourMore : List PoolOp :=
  [.observeHealth ['a'] .healthy 123000 123000000000,
    .observeHealth ['a'] .healthy 124000 124000000000,
    .observeHealth ['a'] .healthy 125000 125000000000,
    .observeHealth ['a'] .healthy 126000 126000000000]

/-- With a reload and one more sample after it, the profile is healthy. -/
theorem healthy_after_reload :
    ∃ p, LivePool.profile? (LivePool.after {} (failedAndBack ++ (fourMore ++
        [.atomicReplace oneProfile, .observeHealth ['a'] .healthy 127000 127000000000])))
          ['a'] = some p ∧ p.tracking.health.state = .healthy := by
  refine (Option.isSome_iff_exists.1 ?_).imp fun p hp =>
    ⟨hp, (healthy_after_recovery_iff ⟨?_, ?_, ?_, ?_⟩ hp).2 ?_⟩
  all_goals decide +kernel

/-- Without, it is still recovering. -/
theorem recovering_after_ramp : Recovers {} ['a'] (LivePool.after {} failedAndBack) fourMore ∧
      (LivePool.profile? (LivePool.after {} (failedAndBack ++ fourMore)) ['a']).map
        (·.tracking.health.state) = some .recovering := by
  refine ⟨⟨?_, ?_, ?_, ?_⟩, ?_⟩
  all_goals decide +kernel

end BalanSir.Vpn
