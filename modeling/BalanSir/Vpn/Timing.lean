/-
# Dwell and cooldown

The times between planned rotations, and after a failure.
-/

import BalanSir.Lib.Clock
import BalanSir.Vpn.Choice
import BalanSir.Vpn.Recovery

namespace BalanSir.Vpn

open Lib
open Health (PathSample)

variable (config : LiveConfig)

def PoolOp.time? : PoolOp → Option ℤ
  | .atomicReplace _ => none
  | .observeHealth _ _ nowMs _ | .selectFor nowMs | .maybePlannedRotate nowMs
  | .forceRotateTo _ _ nowMs => some nowMs

def PoolOp.Dwells (op : PoolOp) (pool : LivePool) : Prop :=
  match op with
  | .maybePlannedRotate _ => config.rotationInterval = 0 ∨ pool.lastRotationReason = none ∨
      config.minDwell < 2 ^ 63 ∧ ∀ id ∈ pool.active, ∀ p ∈ LivePool.profile? pool id,
        pool.lastRotationMs ≤ p.tracking.lastSelectedMs
  | _ => True

instance (op : PoolOp) (pool : LivePool) : Decidable (op.Dwells config pool) :=
  match op with
  | .maybePlannedRotate _ => inferInstanceAs (Decidable (_ ∨ _))
  | .atomicReplace _ | .observeHealth .. | .selectFor _ | .forceRotateTo .. => isTrue trivial

variable {config} {pool : LivePool} {nowMs : ℤ} {ops before between after : List PoolOp}

theorem profile?_toPool (pool : LivePool) (id : Text) :
    profile? pool.toPool id = (LivePool.profile? pool id).map (·.tracked) := by
  rw [profile?, LivePool.toPool, lookup, List.find?_map]
  rfl

theorem dwell_of_rotated {next : Text}
    (h : ((PoolOp.maybePlannedRotate nowMs).exec config pool).1 = .rotated (some next)) :
    config.rotationInterval ≠ 0 ∧ ∃ activeId, pool.active = some activeId ∧
      asI64 config.minDwell ≤ ((LivePool.profile? pool activeId).map fun p =>
        nowMs - p.tracking.lastSelectedMs).getD 0 := by
  rcases maybePlannedRotate_cases config.toPoolConfig nowMs pool.toPool with
    hn | ⟨activeId, hi, ha, hd, -⟩
  · change PoolResult.rotated (maybePlannedRotate _ _ _).1 = _ at h
    rw [hn] at h
    cases h
  · rw [profile?_toPool, Option.map_map] at hd
    exact ⟨hi, activeId, ha, hd⟩

theorem lastRotation_step (config : LiveConfig) (op : PoolOp) (pool : LivePool) :
    ((op.step config pool).lastRotationMs = pool.lastRotationMs ∧
      (op.step config pool).lastRotationReason = pool.lastRotationReason) ∨
    (op.time? = some (op.step config pool).lastRotationMs ∧
      (op.step config pool).lastRotationReason ≠ none) := by
  cases op with
  | atomicReplace profiles =>
    by_cases hni : profiles = []
    · subst hni
      exact .inl ⟨rfl, rfl⟩
    · rw [PoolOp.step, exec_atomicReplace hni]
      exact .inl ⟨rfl, rfl⟩
  | observeHealth id sample nowMs instant =>
    rw [step_observeHealth]
    exact .inl ⟨rfl, rfl⟩
  | selectFor nowMs =>
    left
    show (selectFor _ nowMs pool.toPool).2.lastRotationMs = _ ∧
      (selectFor _ nowMs pool.toPool).2.lastRotationReason = _
    unfold selectFor
    dsimp only
    split
    · exact ⟨rfl, rfl⟩
    · exact ⟨rfl, rfl⟩
  | maybePlannedRotate nowMs =>
    show ((maybePlannedRotate _ nowMs pool.toPool).2.lastRotationMs = _ ∧
      (maybePlannedRotate _ nowMs pool.toPool).2.lastRotationReason = _) ∨
      some nowMs = some (maybePlannedRotate _ nowMs pool.toPool).2.lastRotationMs ∧
      (maybePlannedRotate _ nowMs pool.toPool).2.lastRotationReason ≠ none
    rcases maybePlannedRotate_cases config.toPoolConfig nowMs pool.toPool with
      hn | ⟨activeId, -, -, -, next, reason, -, hs⟩
    · rw [hn]
      exact .inl ⟨rfl, rfl⟩
    · rw [hs]
      exact .inr ⟨rfl, Option.some_ne_none _⟩
  | forceRotateTo profileId reason nowMs =>
    show ((forceRotateTo nowMs profileId reason pool.toPool).2.lastRotationMs = _ ∧
      (forceRotateTo nowMs profileId reason pool.toPool).2.lastRotationReason = _) ∨
      some nowMs = some (forceRotateTo nowMs profileId reason pool.toPool).2.lastRotationMs ∧
      (forceRotateTo nowMs profileId reason pool.toPool).2.lastRotationReason ≠ none
    unfold forceRotateTo
    split_ifs
    · exact .inr ⟨rfl, Option.some_ne_none _⟩
    · exact .inl ⟨rfl, rfl⟩

def RotatedSince (t : ℤ) (pool : LivePool) : Prop :=
  t ≤ pool.lastRotationMs ∧ pool.lastRotationReason ≠ none

theorem RotatedSince.step {t : ℤ} (op : PoolOp) (pool : LivePool)
    (hf : ∀ t' ∈ op.time?, t ≤ t') (h : RotatedSince t pool) :
    RotatedSince t (op.step config pool) := by
  unfold RotatedSince
  rcases lastRotation_step config op pool with ⟨ht, hr⟩ | ⟨ht, hr⟩
  · rw [ht, hr]
    exact h
  · exact ⟨hf _ ht, hr⟩

theorem rotatedSince_of_rotated {next : Text}
    (h : ((PoolOp.maybePlannedRotate nowMs).exec config pool).1 = .rotated (some next)) :
    RotatedSince nowMs ((PoolOp.maybePlannedRotate nowMs).step config pool) := by
  change PoolResult.rotated (maybePlannedRotate _ nowMs pool.toPool).1 = _ at h
  show nowMs ≤ (maybePlannedRotate _ nowMs pool.toPool).2.lastRotationMs ∧
    (maybePlannedRotate _ nowMs pool.toPool).2.lastRotationReason ≠ none
  rcases maybePlannedRotate_cases config.toPoolConfig nowMs pool.toPool with
    hn | ⟨activeId, -, -, -, next', reason, -, hs⟩
  · rw [hn] at h
    cases h
  · rw [hs]
    exact ⟨le_refl _, Option.some_ne_none _⟩

/-- **Planned rotations are `min_dwell` apart** if the dwell of each is counted from the one before
it or later. -/
theorem rotations_apart {t t' : ℤ} {next next' : Text} (hclock : Clocked PoolOp.time? ops)
    (hdwells : Along (PoolOp.step config) (PoolOp.Dwells config) ops {})
    (hops : ops = before ++ .maybePlannedRotate t :: between ++ .maybePlannedRotate t' :: after)
    (h : ((PoolOp.maybePlannedRotate t).exec config (LivePool.after config before)).1 =
      .rotated (some next)) (h' : ((PoolOp.maybePlannedRotate t').exec config
      (LivePool.after config (before ++ .maybePlannedRotate t :: between))).1 =
        .rotated (some next')) : t + config.minDwell ≤ t' := by
  subst hops
  have hle : t ≤ t' := hclock.le (o := .maybePlannedRotate t) (by simp) List.mem_cons_self rfl rfl
  have hs : RotatedSince t
      (LivePool.after config (before ++ .maybePlannedRotate t :: between)) := by
    rw [LivePool.after, run_append]
    have hb : Clocked PoolOp.time? ((before ++ [.maybePlannedRotate t]) ++ between) := by
      simpa using hclock.left
    exact run_floor hb (o := .maybePlannedRotate t) (by simp) rfl RotatedSince.step
      (rotatedSince_of_rotated h)
  obtain ⟨hi, activeId, ha, hd⟩ := dwell_of_rotated h'
  have hc := along_iff_split.1 hdwells _ _ after rfl
  rcases hc with hz | hr | ⟨hd', hse⟩
  · exact absurd hz hi
  · exact absurd hr hs.2
  · rw [asI64_of_lt hd'] at hd
    cases hp : LivePool.profile?
        (LivePool.after config (before ++ .maybePlannedRotate t :: between)) activeId with
    | none =>
      rw [hp] at hd
      have hz : (config.minDwell : ℤ) ≤ 0 := hd
      omega
    | some p =>
      rw [hp] at hd
      have hl := hse activeId ha p hp
      have hs' := hs.1
      have hd'' : (config.minDwell : ℤ) ≤ t' - p.tracking.lastSelectedMs := hd
      have hl' : (LivePool.after config
        (before ++ .maybePlannedRotate t :: between)).lastRotationMs ≤
          p.tracking.lastSelectedMs := hl
      omega

def selectedAndRotated : List PoolOp :=
  [.atomicReplace twoProfiles, .selectFor 1000000, .maybePlannedRotate 1120000]

theorem rotated_of_eq {ops : List PoolOp} {next : Option Text}
    (h : (maybePlannedRotate config.toPoolConfig nowMs (LivePool.after config ops).toPool).1 =
      next) : ((PoolOp.maybePlannedRotate nowMs).exec config (LivePool.after config ops)).1 =
      .rotated next := congrArg PoolResult.rotated h

/-- With a selection after the first rotation, the next one waits for the dwell. -/
theorem rotations_apart_everyMinute :
    ((PoolOp.maybePlannedRotate 1250000).exec everyMinute (LivePool.after everyMinute
      (selectedAndRotated ++ [.selectFor 1130000]))).1 = .rotated (some ['b']) ∧
      (1120000 : ℤ) + everyMinute.minDwell ≤ 1250000 := by
  have hr : ((PoolOp.maybePlannedRotate 1250000).exec everyMinute (LivePool.after everyMinute
      (selectedAndRotated ++ [.selectFor 1130000]))).1 = .rotated (some ['b']) :=
    rotated_of_eq (by decide +kernel)
  have hf : ((PoolOp.maybePlannedRotate 1120000).exec everyMinute (LivePool.after everyMinute
      [.atomicReplace twoProfiles, .selectFor 1000000])).1 = .rotated (some ['b']) :=
    rotated_of_eq (by decide +kernel)
  have hops : selectedAndRotated ++ [.selectFor 1130000, .maybePlannedRotate 1250000] =
      [.atomicReplace twoProfiles, .selectFor 1000000] ++ .maybePlannedRotate 1120000 ::
        [.selectFor 1130000] ++ [.maybePlannedRotate 1250000] := rfl
  exact ⟨hr, rotations_apart (by decide) (by decide +kernel) hops
    hf hr⟩

/-- A rotation sets no time of selection: one millisecond later the profile is rotated away. -/
theorem rotations_one_millisecond_apart :
    Clocked PoolOp.time? (selectedAndRotated ++ [.maybePlannedRotate 1120001]) ∧
    ((PoolOp.maybePlannedRotate 1120000).exec everyMinute (LivePool.after everyMinute
      [.atomicReplace twoProfiles, .selectFor 1000000])).1 = .rotated (some ['b']) ∧
    ((PoolOp.maybePlannedRotate 1120001).exec everyMinute (LivePool.after everyMinute
      selectedAndRotated)).1 = .rotated (some ['a']) ∧
    ¬(1120000 : ℤ) + everyMinute.minDwell ≤ 1120001 :=
  ⟨by decide, rotated_of_eq (by decide +kernel), rotated_of_eq (by decide +kernel), by decide⟩

def PoolOp.replacement? : PoolOp → Option (List VpnProfile)
  | .atomicReplace profiles => if profiles = [] then none else some profiles
  | .observeHealth .. | .selectFor _ | .maybePlannedRotate _ | .forceRotateTo .. => none

def Remembers (id : Text) (pool : LivePool) (since : List PoolOp) : Prop :=
  match (since.filterMap PoolOp.replacement?).getLast? with
  | none => (tagged (·.profile.profileId) id pool.profiles).length ≤ 1
  | some profiles => id ∉ profiles.map (·.profileId)

def FailedSince (id : Text) (t : ℤ) (pool : LivePool) : Prop :=
  ∀ p ∈ pool.profiles, p.profile.profileId = id → t ≤ p.tracking.lastFailureMs

variable {id : Text} {t : ℤ} {sample : PathSample} {instant : ℕ} {d : SelectionDecision}

theorem failedSince_of_failure (hs : sample.reachable = false)
    (ho : (tagged (·.profile.profileId) id pool.profiles).length ≤ 1) :
    FailedSince id t ((PoolOp.observeHealth id sample t instant).step config pool) := by
  intro p hp hid
  rw [step_observeHealth] at hp
  obtain ⟨q, -, rfl⟩ := exists_of_mem_modifyFirst ho hp hid
  have hf : (q.observe config sample t instant).tracking.lastFailureMs =
      if sample.reachable then q.tracking.lastFailureMs else t := rfl
  rw [hf, hs, if_neg Bool.false_ne_true]

theorem FailedSince.step (op : PoolOp) (pool : LivePool) (hfl : ∀ t' ∈ op.time?, t ≤ t')
    (hr : ¬op.Replaces) (h : FailedSince id t pool) : FailedSince id t (op.step config pool) := by
  intro p hp hid
  rcases op.step_cases config pool with
    ⟨profiles, rfl, hne⟩ | ⟨id', sample, nowMs, instant, rfl⟩ | ⟨after, hv, hs, -⟩
  · exact absurd hne hr
  · rw [step_observeHealth] at hp
    rcases mem_modifyFirst hp with hp | ⟨q, hq, rfl⟩
    · exact h p hp hid
    · have hf : (q.observe config sample nowMs instant).tracking.lastFailureMs =
          if sample.reachable then q.tracking.lastFailureMs else nowMs := rfl
      rw [hf]
      split_ifs
      · exact h q hq hid
      · exact hfl nowMs rfl
  · rw [hs] at hp
    have hk := List.mem_map_of_mem (f := fun p => p.kept) hp
    rw [map_kept_put hv] at hk
    obtain ⟨q, hq, hqp⟩ := List.mem_map.1 hk
    have hid' : q.profile.profileId = id := by
      rw [← hid]
      exact congrArg (fun p => p.profile.profileId) hqp
    have hf : q.tracking.lastFailureMs = p.tracking.lastFailureMs :=
      congrArg (fun p => p.tracking.lastFailureMs) hqp
    exact hf ▸ h q hq hid'

theorem failedSince_of_replace {profiles : List VpnProfile} (hne : profiles ≠ [])
    (hid : id ∉ profiles.map (·.profileId)) :
    FailedSince id t ((PoolOp.atomicReplace profiles).step config pool) := by
  intro p hp hpi
  rw [PoolOp.step, exec_atomicReplace hne] at hp
  obtain ⟨profile, hpr, rfl⟩ := List.mem_map.1 hp
  exact absurd (List.mem_map.2 ⟨profile, hpr, hpi⟩) hid

theorem replacement?_of_not_replaces {op : PoolOp} (h : ¬op.Replaces) : op.replacement? = none := by
  cases op with
  | atomicReplace profiles => exact if_pos (not_not.1 h)
  | observeHealth id sample nowMs instant => rfl
  | selectFor nowMs => rfl
  | maybePlannedRotate nowMs => rfl
  | forceRotateTo profileId reason nowMs => rfl

theorem failedSince_run {since : List PoolOp}
    (hs : sample.reachable = false) (hf : ∀ op ∈ since, ∀ t' ∈ op.time?, t ≤ t')
    (h : Remembers id pool since) : FailedSince id t (run (PoolOp.step config) since
      ((PoolOp.observeHealth id sample t instant).step config pool)) := by
  induction since using List.reverseRecOn with
  | nil => exact failedSince_of_failure hs h
  | append_singleton since op ih =>
    rw [run_append]
    by_cases hr : op.Replaces
    · cases op with
      | atomicReplace profiles =>
        have hne : profiles ≠ [] := hr
        refine failedSince_of_replace hne ?_
        have hl : (PoolOp.atomicReplace profiles).replacement? = some profiles :=
          if_neg hne
        rw [Remembers, List.filterMap_append, List.filterMap_cons, hl,
          List.getLast?_append_cons] at h
        exact h
      | observeHealth id sample nowMs instant => exact hr.elim
      | selectFor nowMs => exact hr.elim
      | maybePlannedRotate nowMs => exact hr.elim
      | forceRotateTo profileId reason nowMs => exact hr.elim
    · rw [Remembers, List.filterMap_append, List.filterMap_cons,
        replacement?_of_not_replaces hr, List.filterMap_nil, List.append_nil] at h
      exact FailedSince.step op _ (hf op (by simp)) hr
        (ih (fun op' hop' => hf op' (by simp [hop'])) h)

theorem weight_of_failedSince {p : PooledProfile Live} (hp : 0 < t)
    (hc : config.failureCooldown < 2 ^ 63) (hf : t ≤ p.tracking.lastFailureMs)
    (hn : nowMs < t + config.failureCooldown) : weight config.toPoolConfig nowMs p.tracked = 0 := by
  have hin : 0 < p.tracked.tracking.lastFailureMs ∧
      nowMs - p.tracked.tracking.lastFailureMs < asI64 config.failureCooldown := by
    show 0 < p.tracking.lastFailureMs ∧ nowMs - p.tracking.lastFailureMs < _
    rw [asI64_of_lt hc]
    omega
  unfold weight deriveState
  simp only [if_pos hin]
  cases p.tracked.tracking.tracker with
  | failing => rfl
  | degraded => rfl
  | unknown => rfl
  | healthy => rfl

theorem exists_of_chosen
    (h : ((PoolOp.selectFor nowMs).exec config pool).1 = .selected d) (hc : d.chosen? = some id) :
    ∃ p ∈ pool.profiles, p.profile.profileId = id ∧
      weight config.toPoolConfig nowMs p.tracked ≠ 0 := by
  have hd : (selectFor config.toPoolConfig nowMs pool.toPool).1 = d := PoolResult.selected.inj h
  rw [← hd, chosen?_selectFor, Option.map_eq_some_iff] at hc
  obtain ⟨best, hb, rfl⟩ := hc
  obtain ⟨⟨q, hq, hca⟩, -⟩ := head?_ranked hb
  obtain ⟨p, hp, rfl⟩ := List.mem_map.1 hq
  obtain ⟨hw, hid, -⟩ := candidate?_eq_some hca
  exact ⟨p, hp, hid.symm, hw⟩

/-- **A profile that has failed is not chosen before its cooldown is over**, while the failure is
remembered. -/
theorem failed_not_chosen {t' : ℤ} (hclock : Clocked PoolOp.time? ops)
    (hpos : ∀ op ∈ ops, ∀ t ∈ op.time?, 0 < t) (hcooldown : config.failureCooldown < 2 ^ 63)
    (hops : ops = before ++ .observeHealth id sample t instant :: between ++ .selectFor t' :: after)
    (hsample : sample.reachable = false)
    (hremembers : Remembers id (LivePool.after config before) between)
    (h : ((PoolOp.selectFor t').exec config (LivePool.after config
      (before ++ .observeHealth id sample t instant :: between))).1 = .selected d)
    (hchosen : d.chosen? = some id) : t + config.failureCooldown ≤ t' := by
  subst hops
  have ht : 0 < t := hpos (.observeHealth id sample t instant) (by simp) t rfl
  have hfl : ∀ op ∈ between, ∀ t' ∈ op.time?, t ≤ t' := by
    intro op hop t' ht'
    have hb : Clocked PoolOp.time?
        ((before ++ [.observeHealth id sample t instant]) ++ between) := by
      simpa using hclock.left
    exact hb.le (o := .observeHealth id sample t instant) (by simp) hop rfl ht'
  have hf : FailedSince id t (LivePool.after config
      (before ++ .observeHealth id sample t instant :: between)) := by
    rw [LivePool.after, run_append]
    exact failedSince_run hsample hfl hremembers
  obtain ⟨p, hp, hid, hw⟩ := exists_of_chosen h hchosen
  by_contra hlt
  exact hw (weight_of_failedSince ht hcooldown (hf p hp hid) (not_le.1 hlt))

def failedOnce : List PoolOp :=
  [.atomicReplace oneProfile, .observeHealth ['a'] .failure 1000000 0]

theorem selected_eq (ops : List PoolOp) :
    ((PoolOp.selectFor nowMs).exec config (LivePool.after config ops)).1 =
      .selected (selectFor config.toPoolConfig nowMs (LivePool.after config ops).toPool).1 := rfl

/-- It is chosen again when its cooldown is over. -/
theorem failed_not_chosen_failedOnce :
    (selectFor {} 1060000 (LivePool.after {} failedOnce).toPool).1.chosen? = some ['a'] ∧
      (1000000 : ℤ) + ({} : LiveConfig).failureCooldown ≤ 1060000 := by
  have hc : (selectFor {} 1060000 (LivePool.after {} failedOnce).toPool).1.chosen? =
      some ['a'] := by
    decide +kernel
  have hops : failedOnce ++ [.selectFor 1060000] = [.atomicReplace oneProfile] ++
      .observeHealth ['a'] .failure 1000000 0 :: [] ++ [.selectFor 1060000] := rfl
  have hr : Remembers ['a'] (LivePool.after {} [.atomicReplace oneProfile]) [] :=
    show (tagged _ _ _).length ≤ 1 by decide +kernel
  exact ⟨hc, failed_not_chosen (by decide) (by decide) (by decide) hops rfl hr
    (selected_eq failedOnce) hc⟩

/-- After a reload with the same profile it is chosen one millisecond after its failure. -/
theorem failed_chosen_after_reload :
    Clocked PoolOp.time? (failedOnce ++ [.atomicReplace oneProfile, .selectFor 1000001]) ∧
    ((PoolOp.selectFor 1000001).exec {}
      (LivePool.after {} (failedOnce ++ [.atomicReplace oneProfile]))).1 = .selected
        (selectFor {} 1000001
          (LivePool.after {} (failedOnce ++ [.atomicReplace oneProfile])).toPool).1 ∧
    (selectFor {} 1000001
      (LivePool.after {} (failedOnce ++ [.atomicReplace oneProfile])).toPool).1.chosen? =
        some ['a'] ∧ ¬(1000000 : ℤ) + ({} : LiveConfig).failureCooldown ≤ 1000001 :=
  ⟨by decide, selected_eq _, by decide +kernel, by decide⟩

end BalanSir.Vpn
