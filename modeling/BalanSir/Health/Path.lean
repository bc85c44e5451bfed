/-
# The health tracker of a path

`PathHealth` of `balansir-health`, which the VPN pool and the Xray manager share: it counts good
and bad samples in a row and changes its state with hysteresis, and to a better one only after a
cooldown.
-/

import BalanSir.Lib.F64
import BalanSir.Lib.Run
import BalanSir.Lib.Streak
import BalanSir.Lib.Text

namespace BalanSir.Health

open Lib

inductive PathState where
  | unknown
  | healthy
  | degraded
  | failing
  deriving DecidableEq

def PathState.label : PathState → Text
  | .unknown => "Unknown".toList
  | .healthy => "Healthy".toList
  | .degraded => "Degraded".toList
  | .failing => "Failing".toList

def pathRank : PathState → ℕ
  | .unknown => 0
  | .healthy => 1
  | .degraded => 2
  | .failing => 3

inductive PathTransition where
  | enteredDegraded
  | enteredFailing
  | recovered
  deriving DecidableEq

structure PathHealthConfig where
  latencyThresholdMs : F64 := 150
  lossThresholdPct : F64 := 5
  enterDegraded : UInt32 := 2
  exitDegraded : UInt32 := 3
  cooldown : ℕ := 10000000000
  alpha : F64 := .ofRat (3 / 10)
  deriving DecidableEq

structure PathSample where
  latencyMs : Option F64
  lossPct : Option F64
  reachable : Bool
  degradedEvidence : Bool
  deriving DecidableEq

def PathSample.healthy : PathSample := ⟨none, none, true, false⟩

def PathSample.failure : PathSample := ⟨none, none, false, false⟩

structure PathHealth where
  config : PathHealthConfig
  state : PathState := .unknown
  latencyMs : F64 := 0
  varianceMs : F64 := 0
  lossPct : F64 := 0
  samples : ℕ := 0
  consecutiveBad : ℕ := 0
  consecutiveGood : ℕ := 0
  failures : ℕ := 0
  lastTransition : Option ℕ := none
  deriving DecidableEq

def PathHealth.new (config : PathHealthConfig) : PathHealth := { config }

def PathHealth.reset (h : PathHealth) : PathHealth := .new h.config

/-- `reasons`, for a path that is failing. -/
def PathHealth.failingReasons (h : PathHealth) : List Text :=
  [Nat.toDigits 10 h.consecutiveBad ++ " consecutive probe failures (threshold ".toList ++
    Nat.toDigits 10 h.config.enterDegraded.toNat ++ ")".toList] ++
  (if 0 < h.failures then
    [Nat.toDigits 10 h.failures ++ " total connectivity failures".toList] else [])

def succU32 (n : ℕ) : ℕ := min (n + 1) 4294967295

def succU64 (n : ℕ) : ℕ := min (n + 1) 18446744073709551615

def PathHealthConfig.degraded (config : PathHealthConfig) (sample : PathSample) : Bool :=
  !sample.reachable || sample.degradedEvidence ||
    (config.latencyThresholdMs.isFinite && sample.latencyMs.any config.latencyThresholdMs.lt) ||
    (config.lossThresholdPct.isFinite && sample.lossPct.any config.lossThresholdPct.lt)

theorem PathHealthConfig.degraded_healthy (config : PathHealthConfig) :
    config.degraded .healthy = false := by
  simp [degraded, PathSample.healthy]

namespace PathHealth

def measured (value : Option F64) : Option F64 := value.filter fun v => v.isFinite && v.ge 0

def updateEma (sample : PathSample) (h : PathHealth) : PathHealth :=
  let a := h.config.alpha.clamp (.ofRat (1 / 1000)) 1
  let smooth (value prev : F64) : F64 := a * value + (1 - a) * prev
  let h := match measured sample.latencyMs with
    | none => h
    | some lat =>
      if h.samples ≤ 1 then { h with latencyMs := lat, varianceMs := 0 }
      else
        let latencyMs := smooth lat h.latencyMs
        { h with latencyMs, varianceMs := smooth (lat - latencyMs).abs h.varianceMs }
  match measured sample.lossPct with
  | none => h
  | some loss => { h with lossPct := if h.samples ≤ 1 then loss else smooth loss h.lossPct }

def count (sample : PathSample) (h : PathHealth) : PathHealth :=
  let h := updateEma sample { h with samples := succU64 h.samples }
  let h := if h.config.degraded sample then
      { h with consecutiveBad := succU32 h.consecutiveBad, consecutiveGood := 0 }
    else
      { h with consecutiveGood := succU32 h.consecutiveGood, consecutiveBad := 0 }
  if sample.reachable then h else { h with failures := succU64 h.failures }

def target (sample : PathSample) (h : PathHealth) : PathState :=
  if h.config.enterDegraded.toNat ≤ h.consecutiveBad then
    (if sample.reachable then .degraded else .failing)
  else .healthy

def Waits (now : ℕ) (h : PathHealth) : Prop :=
  h.consecutiveGood < h.config.exitDegraded.toNat ∨
    ∃ last ∈ h.lastTransition, now - last < h.config.cooldown
  deriving Decidable

def transition : PathState → PathState → Option PathTransition
  | .healthy, .degraded => some .enteredDegraded
  | .healthy, .failing | .degraded, .failing => some .enteredFailing
  | .failing, .healthy | .degraded, .healthy => some .recovered
  | _, _ => none

def observe (sample : PathSample) (now : ℕ) (h : PathHealth) :
    Option PathTransition × PathHealth :=
  let h := h.count sample
  let target := h.target sample
  if target = h.state then (none, h)
  else if pathRank target < pathRank h.state ∧ h.Waits now then (none, h)
  else (transition h.state target, { h with state := target, lastTransition := some now })

variable {sample : PathSample} {now : ℕ} {h : PathHealth}

theorem updateEma_eq (sample : PathSample) (h : PathHealth) :
    ∃ latencyMs varianceMs lossPct,
      h.updateEma sample = { h with latencyMs, varianceMs, lossPct } := by
  unfold updateEma
  cases measured sample.latencyMs with
  | none =>
    cases measured sample.lossPct with
    | none => exact ⟨_, _, _, rfl⟩
    | some loss => exact ⟨_, _, _, rfl⟩
  | some lat =>
    split_ifs
    · cases measured sample.lossPct with
      | none => exact ⟨_, _, _, rfl⟩
      | some loss => exact ⟨_, _, _, rfl⟩
    · cases measured sample.lossPct with
      | none => exact ⟨_, _, _, rfl⟩
      | some loss => exact ⟨_, _, _, rfl⟩

theorem count_eq (sample : PathSample) (h : PathHealth) :
    ∃ latencyMs varianceMs lossPct failures, h.count sample = { h with
        latencyMs, varianceMs, lossPct, failures
        samples := succU64 h.samples
        consecutiveBad := if h.config.degraded sample then succU32 h.consecutiveBad else 0
        consecutiveGood := if h.config.degraded sample then 0 else succU32 h.consecutiveGood } := by
  obtain ⟨latencyMs, varianceMs, lossPct, he⟩ :=
    updateEma_eq sample { h with samples := succU64 h.samples }
  unfold count
  rw [he]
  dsimp only
  cases hd : h.config.degraded sample with
  | true =>
    cases sample.reachable with
    | true => exact ⟨latencyMs, varianceMs, lossPct, _, rfl⟩
    | false => exact ⟨latencyMs, varianceMs, lossPct, _, rfl⟩
  | false =>
    cases sample.reachable with
    | true => exact ⟨latencyMs, varianceMs, lossPct, _, rfl⟩
    | false => exact ⟨latencyMs, varianceMs, lossPct, _, rfl⟩

@[simp] theorem config_count : (h.count sample).config = h.config := by
  obtain ⟨_, _, _, _, hc⟩ := count_eq sample h
  rw [hc]

@[simp] theorem state_count : (h.count sample).state = h.state := by
  obtain ⟨_, _, _, _, hc⟩ := count_eq sample h
  rw [hc]

@[simp] theorem lastTransition_count : (h.count sample).lastTransition = h.lastTransition := by
  obtain ⟨_, _, _, _, hc⟩ := count_eq sample h
  rw [hc]

theorem consecutiveBad_count : (h.count sample).consecutiveBad =
    if h.config.degraded sample then succU32 h.consecutiveBad else 0 := by
  obtain ⟨_, _, _, _, hc⟩ := count_eq sample h
  rw [hc]

theorem consecutiveGood_count : (h.count sample).consecutiveGood =
    if h.config.degraded sample then 0 else succU32 h.consecutiveGood := by
  obtain ⟨_, _, _, _, hc⟩ := count_eq sample h
  rw [hc]

/-- **All that a sample can do to the state**: it stays, or becomes what is asked for. -/
theorem observe_cases (sample : PathSample) (now : ℕ) (h : PathHealth) :
    ((h.observe sample now).2 = h.count sample ∧
      ((h.count sample).target sample = h.state ∨
        pathRank ((h.count sample).target sample) < pathRank h.state ∧
          (h.count sample).Waits now)) ∨ ((h.observe sample now).2 = { h.count sample with
        state := (h.count sample).target sample, lastTransition := some now } ∧
      (h.count sample).target sample ≠ h.state ∧
      (pathRank ((h.count sample).target sample) < pathRank h.state →
        ¬(h.count sample).Waits now)) := by
  unfold observe
  dsimp only
  rw [state_count]
  split_ifs with hs hw
  · exact .inl ⟨rfl, .inl hs⟩
  · exact .inl ⟨rfl, .inr hw⟩
  · exact .inr ⟨rfl, hs, fun hb hwa => hw ⟨hb, hwa⟩⟩

theorem config_observe (sample : PathSample) (now : ℕ) (h : PathHealth) :
    (h.observe sample now).2.config = h.config := by
  rcases observe_cases sample now h with ⟨ho, -⟩ | ⟨ho, -, -⟩
  · rw [ho, config_count]
  · rw [ho]
    exact config_count

theorem target_count_of_good (he : 1 ≤ h.config.enterDegraded)
    (hg : h.config.degraded sample = false) : (h.count sample).target sample = .healthy := by
  have hp : 1 ≤ h.config.enterDegraded.toNat := UInt32.le_iff_toNat_le.1 he
  unfold target
  rw [config_count, consecutiveBad_count, hg, if_neg Bool.false_ne_true, if_neg (by omega)]

theorem observe_of_good (now : ℕ) (he : 1 ≤ h.config.enterDegraded)
    (hg : h.config.degraded sample = false) (hs : h.state = .healthy ∨ h.state = .unknown) :
    (h.observe sample now).2.state = .healthy := by
  have ht := target_count_of_good he hg
  rcases observe_cases sample now h with ⟨ho, hw⟩ | ⟨ho, -, -⟩
  · rw [ho, state_count]
    rcases hw with hsa | ⟨hb, -⟩
    · rw [← hsa, ht]
    · -- from neither state is `Healthy` an improvement
      rw [ht] at hb
      rcases hs with hs | hs
      · exact hs
      · rw [hs] at hb
        exact absurd hb (by decide)
  · rw [ho]
    exact ht

theorem state_observe_of_good (now : ℕ) (he : 1 ≤ h.config.enterDegraded)
    (hg : h.config.degraded sample = false) (hs : h.state ≠ .failing) :
    (h.observe sample now).2.state ≠ .failing := by
  rcases observe_cases sample now h with ⟨ho, -⟩ | ⟨ho, -, -⟩
  · rwa [ho, state_count]
  · rw [ho]
    show (h.count sample).target sample ≠ _
    rw [target_count_of_good he hg]
    decide

theorem observe_failure (hs : h.state ≠ .failing) (now : ℕ) :
    (h.observe .failure now).2.consecutiveBad = succU32 h.consecutiveBad ∧
      ((h.observe .failure now).2.state = .failing ↔
        h.config.enterDegraded.toNat ≤ succU32 h.consecutiveBad) := by
  have hb : (h.count .failure).consecutiveBad = succU32 h.consecutiveBad := consecutiveBad_count
  have ht : (h.count .failure).target .failure = .failing ↔
      h.config.enterDegraded.toNat ≤ succU32 h.consecutiveBad := by
    rw [target, config_count, hb]
    by_cases hle : h.config.enterDegraded.toNat ≤ succU32 h.consecutiveBad
    · rw [if_pos hle]
      exact iff_of_true rfl hle
    · rw [if_neg hle]
      exact iff_of_false nofun hle
  rcases observe_cases .failure now h with ⟨ho, hw⟩ | ⟨ho, -, -⟩
  · rw [ho, ← ht]
    refine ⟨hb, iff_of_false hs fun hf => ?_⟩
    rw [hf] at hw
    rcases hw with hs' | ⟨hr, -⟩
    · exact hs hs'.symm
    · -- nothing is worse than failing
      revert hr
      cases h.state <;> decide
  · rw [ho]
    exact ⟨hb, ht⟩

end PathHealth

structure Observation where
  sample : PathSample
  now : ℕ
  deriving DecidableEq

def tracker (config : PathHealthConfig) (xs : List Observation) : PathHealth :=
  run (fun x h => (PathHealth.observe x.sample x.now h).2) xs (.new config)

theorem tracker_concat (config : PathHealthConfig) (xs : List Observation) (x : Observation) :
    tracker config (xs ++ [x]) = ((tracker config xs).observe x.sample x.now).2 := by
  rw [tracker, run_append]
  rfl

def LastChange (config : PathHealthConfig) (xs : List Observation) (x : Observation) : Prop :=
  ∃ before after, xs = before ++ x :: after ∧
    (tracker config (before ++ [x])).state ≠ (tracker config before).state ∧
    ∀ later, later <+: after →
      (tracker config (before ++ x :: later)).state = (tracker config (before ++ [x])).state

variable {config : PathHealthConfig} {xs : List Observation} {x y : Observation}

theorem LastChange.concat (h : LastChange config xs y)
    (hsa : (tracker config (xs ++ [x])).state = (tracker config xs).state) :
    LastChange config (xs ++ [x]) y := by
  obtain ⟨before, after, rfl, hc, hl⟩ := h
  refine ⟨before, after ++ [x], by simp, hc, fun later hl' => ?_⟩
  rcases List.prefix_concat_iff.1 hl' with rfl | hs
  · rw [← hl after (List.prefix_refl _), ← hsa]
    simp
  · exact hl later hs

theorem lastChange_self (hc : (tracker config (xs ++ [x])).state ≠ (tracker config xs).state) :
    LastChange config (xs ++ [x]) x := by
  refine ⟨xs, [], rfl, hc, fun later hl => ?_⟩
  rw [List.prefix_nil.1 hl]

/-- What the tracker says of the samples behind it. -/
structure Follows (config : PathHealthConfig) (xs : List Observation) (h : PathHealth) : Prop where
  config_eq : h.config = config
  bad_eq : h.consecutiveBad = min (streak (fun x => config.degraded x.sample) xs) 4294967295
  good_eq : h.consecutiveGood = min (streak (fun x => !config.degraded x.sample) xs) 4294967295
  last : ∀ t, h.lastTransition = some t → ∃ x, LastChange config xs x ∧ x.now = t
  unknown : h.lastTransition = none → h.state = .unknown

theorem succU32_min (n : ℕ) : succU32 (min n 4294967295) = min (n + 1) 4294967295 := by
  unfold succU32
  omega

variable {h : PathHealth}

theorem Follows.bad_count (hf : Follows config xs h) :
    (h.count x.sample).consecutiveBad =
      min (streak (fun x => config.degraded x.sample) (xs ++ [x])) 4294967295 := by
  rw [PathHealth.consecutiveBad_count, hf.config_eq, hf.bad_eq, streak_concat, succU32_min]
  split_ifs
  · rfl
  · rfl

theorem Follows.good_count (hf : Follows config xs h) :
    (h.count x.sample).consecutiveGood =
      min (streak (fun x => !config.degraded x.sample) (xs ++ [x])) 4294967295 := by
  rw [PathHealth.consecutiveGood_count, hf.config_eq, hf.good_eq, streak_concat, succU32_min]
  cases config.degraded x.sample with
  | true => rfl
  | false => rfl

theorem le_counter_iff {threshold : UInt32} {p : Observation → Bool} :
    threshold.toNat ≤ min (streak p xs) 4294967295 ↔ EndsWith threshold.toNat p xs := by
  have hb := threshold.toNat_lt
  rw [endsWith_iff]
  omega

/-- **The tracker follows its history**, by what one sample does. -/
theorem follows_tracker (config : PathHealthConfig) (xs : List Observation) :
    Follows config xs (tracker config xs) := by
  induction xs using List.reverseRecOn with
  | nil => exact ⟨rfl, rfl, rfl, nofun, fun _ => rfl⟩
  | append_singleton xs x ih =>
    have hc := tracker_concat config xs x
    rcases PathHealth.observe_cases x.sample x.now (tracker config xs) with
      ⟨ho, -⟩ | ⟨ho, hcha, -⟩
    · rw [ho] at hc
      have hs : (tracker config (xs ++ [x])).state = (tracker config xs).state := by
        rw [hc, PathHealth.state_count]
      rw [hc]
      refine ⟨?_, ih.bad_count, ih.good_count, fun t ht => ?_, fun hn => ?_⟩
      · rw [PathHealth.config_count, ih.config_eq]
      · rw [PathHealth.lastTransition_count] at ht
        obtain ⟨y, hy, rfl⟩ := ih.last t ht
        exact ⟨y, hy.concat hs, rfl⟩
      · rw [PathHealth.lastTransition_count] at hn
        rw [PathHealth.state_count, ih.unknown hn]
    · rw [ho] at hc
      have hch : (tracker config (xs ++ [x])).state ≠ (tracker config xs).state := by
        rw [hc]
        exact hcha
      rw [hc]
      refine ⟨?_, ih.bad_count, ih.good_count, fun t ht => ?_, nofun⟩
      · exact PathHealth.config_count.trans ih.config_eq
      · cases ht
        exact ⟨x, lastChange_self hch, rfl⟩

def Bad (state : PathState) : Prop := state = .degraded ∨ state = .failing
  deriving Decidable

theorem target_count (config : PathHealthConfig) (xs : List Observation) (x : Observation) :
    (EndsWith config.enterDegraded.toNat (fun x => config.degraded x.sample) (xs ++ [x]) ∧
      ((tracker config xs).count x.sample).target x.sample =
        if x.sample.reachable then .degraded else .failing) ∨
    (¬EndsWith config.enterDegraded.toNat (fun x => config.degraded x.sample) (xs ++ [x]) ∧
      ((tracker config xs).count x.sample).target x.sample = .healthy) := by
  have hf := follows_tracker config xs
  rw [← le_counter_iff, ← hf.bad_count, PathHealth.target, PathHealth.config_count, hf.config_eq]
  by_cases he : config.enterDegraded.toNat ≤
      ((tracker config xs).count x.sample).consecutiveBad
  · exact .inl ⟨he, if_pos he⟩
  · exact .inr ⟨he, if_neg he⟩

theorem endsWith_of_enters (hb : Bad (tracker config (xs ++ [x])).state)
    (hc : (tracker config (xs ++ [x])).state ≠ (tracker config xs).state) :
    EndsWith config.enterDegraded.toNat (fun x => config.degraded x.sample) (xs ++ [x]) := by
  rw [tracker_concat] at hb hc
  rcases target_count config xs x with ⟨he, -⟩ | ⟨-, ht⟩
  · exact he
  rcases PathHealth.observe_cases x.sample x.now (tracker config xs) with
    ⟨ho, -⟩ | ⟨ho, -, -⟩
  · rw [ho, PathHealth.state_count] at hc
    exact absurd rfl hc
  · rw [ho] at hb
    dsimp only at hb
    rw [ht] at hb
    exact absurd hb (by decide)

theorem endsWith_of_leaves (hba : Bad (tracker config xs).state)
    (hh : (tracker config (xs ++ [x])).state = .healthy) :
    EndsWith config.exitDegraded.toNat (fun x => !config.degraded x.sample) (xs ++ [x]) ∧
      ∃ y, LastChange config xs y ∧ config.cooldown ≤ x.now - y.now := by
  have hf := follows_tracker config xs
  rw [tracker_concat] at hh
  rcases PathHealth.observe_cases x.sample x.now (tracker config xs) with
    ⟨ho, -⟩ | ⟨ho, -, hw⟩
  · rw [ho, PathHealth.state_count] at hh
    rw [hh] at hba
    exact absurd hba (by decide)
  · rw [ho] at hh
    dsimp only at hh
    have hb : pathRank (((tracker config xs).count x.sample).target x.sample) <
        pathRank (tracker config xs).state := by
      rw [hh]
      rcases hba with hs | hs <;> rw [hs] <;> decide
    obtain ⟨hg, hc⟩ := not_or.1 (hw hb)
    rw [PathHealth.config_count, hf.config_eq, not_lt, hf.good_count, le_counter_iff] at hg
    refine ⟨hg, ?_⟩
    rw [PathHealth.config_count, PathHealth.lastTransition_count, hf.config_eq] at hc
    cases hl : (tracker config xs).lastTransition with
    | none =>
      rw [hf.unknown hl] at hba
      exact absurd hba (by decide)
    | some t =>
      obtain ⟨y, hy, rfl⟩ := hf.last t hl
      exact ⟨y, hy, not_lt.1 fun hlt => hc ⟨y.now, hl, hlt⟩⟩

theorem bad_of_endsWith
    (he : EndsWith config.enterDegraded.toNat (fun x => config.degraded x.sample)
      (xs ++ [x])) :
    Bad (tracker config (xs ++ [x])).state ∧
      (x.sample.reachable = false → (tracker config (xs ++ [x])).state = .failing) := by
  rw [tracker_concat]
  rcases target_count config xs x with ⟨-, ht⟩ | ⟨hn, -⟩
  swap
  · exact absurd he hn
  rcases PathHealth.observe_cases x.sample x.now (tracker config xs) with
    ⟨ho, hs | ⟨hb, -⟩⟩ | ⟨ho, -, -⟩
  · rw [ho, PathHealth.state_count, ← hs, ht]
    cases x.sample.reachable with
    | true => exact ⟨.inl rfl, nofun⟩
    | false => exact ⟨.inr rfl, fun _ => rfl⟩
  · -- what is bound to wait is worse than what is asked for
    rw [ht] at hb
    rw [ho, PathHealth.state_count]
    revert hb
    cases x.sample.reachable <;> cases (tracker config xs).state <;> decide
  · rw [ho]
    rw [ht]
    cases x.sample.reachable with
    | true => exact ⟨.inl rfl, nofun⟩
    | false => exact ⟨.inr rfl, fun _ => rfl⟩

/-- **Hysteresis.** The tracker gets into `Degraded` or `Failing` exactly at the end of
`enter_degraded` degraded samples, by the last of them; it gets out only at the end of
`exit_degraded` other samples and after the cooldown. -/
theorem hysteresis (config : PathHealthConfig) (xs : List Observation) (x : Observation) :
    (Bad (tracker config (xs ++ [x])).state →
      (tracker config (xs ++ [x])).state ≠ (tracker config xs).state →
      EndsWith config.enterDegraded.toNat (fun x => config.degraded x.sample) (xs ++ [x])) ∧
    (Bad (tracker config xs).state → (tracker config (xs ++ [x])).state = .healthy →
      EndsWith config.exitDegraded.toNat (fun x => !config.degraded x.sample) (xs ++ [x]) ∧
        ∃ y, LastChange config xs y ∧ config.cooldown ≤ x.now - y.now) ∧
    (EndsWith config.enterDegraded.toNat (fun x => config.degraded x.sample) (xs ++ [x]) →
      Bad (tracker config (xs ++ [x])).state ∧
        (x.sample.reachable = false → (tracker config (xs ++ [x])).state = .failing)) :=
  ⟨endsWith_of_enters, endsWith_of_leaves, bad_of_endsWith⟩

def failedTwice : List Observation :=
  [⟨.failure, 0⟩, ⟨.failure, 1000000000⟩, ⟨.healthy, 12000000000⟩, ⟨.healthy, 13000000000⟩]

/-- A path that is not reached twice is `Failing`, and after a third good sample `Healthy`. -/
theorem hysteresis_default :
    (tracker {} (failedTwice.take 2)).state = .failing ∧
    (tracker {} (failedTwice ++ [⟨.healthy, 14000000000⟩])).state = .healthy ∧
    EndsWith 3 (fun x : Observation => !PathHealthConfig.degraded {} x.sample)
      (failedTwice ++ [⟨.healthy, 14000000000⟩]) := by
  have hf : (tracker {} (failedTwice.take 2)).state = .failing :=
    ((hysteresis {} [⟨.failure, 0⟩] ⟨.failure, 1000000000⟩).2.2
      (endsWith_iff.2 (by decide +kernel))).2 rfl
  have hh : (tracker {} (failedTwice ++ [⟨.healthy, 14000000000⟩])).state = .healthy := by
    decide +kernel
  exact ⟨hf, hh, ((hysteresis {} failedTwice _).2.1 (by decide +kernel) hh).1⟩

theorem PathHealth.observe_ne_unknown (sample : PathSample) (now : ℕ) (h : PathHealth) :
    (h.observe sample now).2.state ≠ .unknown := by
  have ht : (h.count sample).target sample ≠ .unknown := by
    unfold PathHealth.target
    split_ifs <;> decide
  rcases PathHealth.observe_cases sample now h with ⟨ho, hw⟩ | ⟨ho, -, -⟩
  · rw [ho, PathHealth.state_count]
    rcases hw with hs | ⟨hb, -⟩
    · rwa [← hs]
    · -- nothing is better than `Unknown`
      intro hu
      rw [hu] at hb
      exact Nat.not_lt_zero _ hb
  · rw [ho]
    exact ht

theorem state_tracker_eq_unknown : (tracker config xs).state = .unknown ↔ xs = [] := by
  constructor
  · intro hu
    rcases List.eq_nil_or_concat' xs with hn | ⟨before, x, rfl⟩
    · exact hn
    · rw [tracker_concat] at hu
      exact absurd hu (PathHealth.observe_ne_unknown _ _ _)
  · rintro rfl
    rfl

theorem state_tracker_singleton (hx : config.degraded x.sample) :
    (tracker config [x]).state = .healthy ↔ 1 < config.enterDegraded.toNat := by
  have hba : ((tracker config []).count x.sample).consecutiveBad = 1 := by
    rw [PathHealth.consecutiveBad_count]
    exact if_pos hx
  have ht : ((tracker config []).count x.sample).target x.sample = .healthy ↔
      1 < config.enterDegraded.toNat := by
    unfold PathHealth.target
    rw [hba, PathHealth.config_count]
    show (if config.enterDegraded.toNat ≤ 1 then _ else _) = _ ↔ _
    split_ifs with hle hr
    · exact iff_of_false nofun (by omega)
    · exact iff_of_false nofun (by omega)
    · exact iff_of_true rfl (by omega)
  have hc : tracker config [x] = ((tracker config []).observe x.sample x.now).2 :=
    tracker_concat config [] x
  rw [hc, ← ht]
  rcases PathHealth.observe_cases x.sample x.now (tracker config []) with
    ⟨ho, hs | ⟨hb, -⟩⟩ | ⟨ho, -, -⟩
  · rw [ho, PathHealth.state_count, hs]
  · exact absurd hb (Nat.not_lt_zero _)
  · rw [ho]

theorem healthy_on_degraded_iff (hex : 1 ≤ config.exitDegraded)
    (hx : config.degraded x.sample) :
    (tracker config xs).state ≠ .healthy ∧ (tracker config (xs ++ [x])).state = .healthy ↔
      xs = [] ∧ 1 < config.enterDegraded.toNat := by
  constructor
  · rintro ⟨hb, ha⟩
    have hu : (tracker config xs).state = .unknown := by
      by_contra hk
      have hba : Bad (tracker config xs).state := by
        revert hb hk
        cases (tracker config xs).state <;> decide
      -- leaving a bad state takes a good sample at the end
      have hg := (endsWith_of_leaves hba ha).1
      rw [endsWith_iff, streak_concat, hx, Bool.not_true, if_neg Bool.false_ne_true] at hg
      have hp : 1 ≤ config.exitDegraded.toNat := UInt32.le_iff_toNat_le.1 hex
      omega
    obtain rfl := state_tracker_eq_unknown.1 hu
    exact ⟨rfl, (state_tracker_singleton hx).1 ha⟩
  · rintro ⟨rfl, he⟩
    exact ⟨nofun, (state_tracker_singleton hx).2 he⟩

/-- **When a path only gets healthy by good samples:** when one degraded sample is enough for a bad
state, or the first is not degraded. -/
theorem healthy_on_good_iff (henter : 1 ≤ config.enterDegraded) (hexit : 1 ≤ config.exitDegraded)
    (xs : List Observation) :
    (∀ before x after, xs = before ++ x :: after → config.degraded x.sample = true →
      (tracker config (before ++ [x])).state = .healthy →
        (tracker config before).state = .healthy) ↔
      config.enterDegraded = 1 ∨ ∀ x ∈ xs.head?, config.degraded x.sample = false := by
  have ho : config.enterDegraded = 1 ↔ ¬1 < config.enterDegraded.toNat := by
    have hle := UInt32.le_iff_toNat_le.1 henter
    have ho : (1 : UInt32).toNat = 1 := rfl
    rw [← UInt32.toNat_inj]
    omega
  rw [ho]
  constructor
  · intro h
    by_contra! hf
    obtain ⟨henter, x, hx, hd⟩ := hf
    obtain ⟨rest, rfl⟩ := List.head?_eq_some_iff.1 hx
    have hd : config.degraded x.sample := by simpa using hd
    obtain ⟨hb, ha⟩ := (healthy_on_degraded_iff hexit hd).2 ⟨rfl, henter⟩
    exact hb (h [] x rest rfl hd ha)
  · rintro hc before x after rfl hd ha
    by_contra hb
    obtain ⟨rfl, henter⟩ := (healthy_on_degraded_iff hexit hd).1 ⟨hb, ha⟩
    rcases hc with ho | hg
    · exact ho henter
    · exact Bool.false_ne_true ((hg x rfl).symm.trans hd)

/-- With a good sample in front, the default tracker is never made `Healthy` by a failure. -/
theorem healthy_on_good_default :
    (tracker {} [⟨.healthy, 0⟩]).state = .healthy ∧
      ∀ before x after, [⟨.healthy, 0⟩, ⟨.failure, 1⟩, ⟨.failure, 2⟩] = before ++ x :: after →
        PathHealthConfig.degraded {} x.sample = true →
        (tracker {} (before ++ [x])).state = .healthy → (tracker {} before).state = .healthy :=
  ⟨by decide +kernel,
    (healthy_on_good_iff (by decide) (by decide) _).2 (.inr (by decide +kernel))⟩

/-- One failure, and the path is `Healthy`. -/
theorem healthy_on_failure_default :
    (tracker {} []).state = .unknown ∧ PathHealthConfig.degraded {} .failure = true ∧
      (tracker {} [⟨.failure, 0⟩]).state = .healthy := by
  decide +kernel

end BalanSir.Health
