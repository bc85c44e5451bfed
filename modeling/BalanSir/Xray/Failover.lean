/-
# Failover among the endpoints

The cycles of `XrayManager` with its configured endpoints.
-/

import BalanSir.Xray.Slot

namespace BalanSir.Xray

open Lib Vpn List
open Health (PathHealth PathHealthConfig)

def XrayEvent.isSwitch : XrayEvent → Bool
  | .switched .. => true
  | .started _ | .healthChanged .. | .stopped | .error _ => false

namespace Manager

def failovers (m : Manager) : ℕ := m.events.countP XrayEvent.isSwitch

def tracker (s : Settings) (m : Manager) (idx : ℕ) : PathHealth :=
  m.paths.getD idx (.new s.pathConfig)

/-- A driver of the endpoint runs, and nobody but failover will change that. -/
structure Serves (s : Settings) (idx : ℕ) (m : Manager) : Prop where
  paused : m.paused = false
  pinned : m.pinned = none
  poolProfile : m.poolProfile = none
  poolDriven : m.poolDriven = false
  active : m.active = some idx
  driver : m.driver.isSome = true
  index_lt : idx < s.endpoints.length
  length_paths : m.paths.length = s.endpoints.length
  config_eq : ∀ p ∈ m.paths, p.config = s.pathConfig

variable {s : Settings} {env : Surroundings} {m : Manager} {idx next : ℕ}

theorem tracker_of_lt {paths : List PathHealth} (h : m.paths = paths) (hlt : idx < paths.length) :
    m.tracker s idx = paths.get ⟨idx, hlt⟩ := by
  rw [tracker, h, getD_eq_getElem?_getD, getElem?_eq_getElem hlt]
  rfl

theorem Serves.config_tracker (h : Serves s idx m) :
    (m.tracker s idx).config = s.pathConfig := by
  have hlt : idx < m.paths.length := by
    rw [h.length_paths]
    exact h.index_lt
  rw [tracker_of_lt rfl hlt]
  exact h.config_eq _ (get_mem _ _)

theorem Serves.ensureRunning (h : Serves s idx m) : m.ensureRunning s env = (.ok (), m) := by
  unfold Manager.ensureRunning ensureStatic
  have hr : m.active.isSome = true ∧ m.driver.isSome :=
    ⟨by rw [h.active]; rfl, h.driver⟩
  simp only [h.poolProfile, h.poolDriven, Bool.false_eq_true, if_false, h.pinned, if_pos hr]

theorem Serves.found (h : Serves s idx m) {c : Cycle} (hb : c.between = []) :
    c.found s m = m := by
  rw [Cycle.found, hb, h.ensureRunning]
  rfl

theorem Serves.switchToIndex (h : Serves s idx m) (hst : env.start = .ok ())
    (hn : next < s.endpoints.length) (reason : Text) :
    Serves s next (m.switchToIndex s env next reason).2 ∧
      ((m.switchToIndex s env next reason).2.tracker s next).state = .unknown ∧
      (m.switchToIndex s env next reason).2.failovers = m.failovers + 1 := by
  obtain ⟨d, hd⟩ := Option.isSome_iff_exists.1 h.driver
  have hlt : next < m.paths.length := by rw [h.length_paths]; exact hn
  have hok : (m.switchToIndex s env next reason).2 =
      { m.stopDriver env with
        built := m.built + 1
        driver := some ⟨m.built, none, s.endpointConfig next⟩
        calls := (m.stopDriver env).calls ++
          [.start ⟨m.built, none, s.endpointConfig next⟩ true]
        active := some next
        lastSwitchMs := env.nowMs
        startedCount := m.startedCount + 1
        l2 := m.l2.onStart env.nowMs
        paths := m.paths.modify next PathHealth.reset
        switchReason := some reason
        events := m.events ++ [.started (s.endpoint next).name] ++
          [.switched (m.activeName s) (s.endpoint next).name reason] } := by
    unfold Manager.switchToIndex startEndpoint launch stopDriver
    simp only [hd, hst]
    rfl
  have hs : (m.stopDriver env).paused = m.paused ∧ (m.stopDriver env).pinned = m.pinned ∧
      (m.stopDriver env).poolProfile = m.poolProfile ∧
      (m.stopDriver env).poolDriven = m.poolDriven := by
    unfold stopDriver
    simp only [hd, and_self]
  rw [hok]
  refine ⟨⟨hs.1.trans h.paused, hs.2.1.trans h.pinned, hs.2.2.1.trans h.poolProfile,
    hs.2.2.2.trans h.poolDriven, rfl, rfl, hn, ?_, ?_⟩, ?_, ?_⟩
  · rw [length_modify, h.length_paths]
  · intro p hp
    obtain ⟨i, hi, rfl⟩ := List.mem_iff_getElem.1 hp
    rw [length_modify] at hi
    have hm := h.config_eq _ (getElem_mem hi)
    rw [getElem_modify]
    split_ifs
    · exact hm
    · exact hm
  · have hlt' : next < (m.paths.modify next PathHealth.reset).length := by
      rwa [length_modify]
    rw [tracker_of_lt rfl hlt', get_eq_getElem, getElem_modify, if_pos rfl]
    rfl
  · show List.countP _ (m.events ++ [_] ++ [_]) = _
    rw [countP_append, countP_append]
    rfl

def nextTracker (s : Settings) (env : Surroundings) (m : Manager) (idx : ℕ) : PathHealth :=
  ((m.tracker s idx).observe env.health.sample env.instant).2

def checked (s : Settings) (env : Surroundings) (m : Manager) (idx : ℕ) : Manager :=
  { m with
    paths := m.paths.set idx (m.nextTracker s env idx)
    events := m.events ++
      if (m.nextTracker s env idx).state.label ≠ (m.tracker s idx).state.label then
        [.healthChanged (s.endpoint idx).name
          (toAsciiLowercase (m.nextTracker s env idx).state.label)]
      else [] }

theorem Serves.supervise_eq (h : Serves s idx m) :
    m.supervise s env =
      if (m.nextTracker s env idx).state = .failing then
        (m.checked s env idx).failover s env idx (m.nextTracker s env idx).failingReasons
      else m.checked s env idx := by
  have hp : ¬m.poolDriven := by simp [h.poolDriven]
  rw [Manager.supervise, if_pos h.driver, if_neg hp]
  unfold healthAndFailover
  split
  · next idx' _ ha _ =>
      obtain rfl : idx = idx' := Option.some.inj (h.active.symm.trans ha)
      rfl
  · next hn =>
      obtain ⟨d, hd⟩ := Option.isSome_iff_exists.1 h.driver
      exact absurd hd (hn idx d h.active)

theorem failovers_checked : (m.checked s env idx).failovers = m.failovers := by
  unfold failovers checked
  rw [countP_append]
  split_ifs
  · rfl
  · rfl

theorem Serves.checked (h : Serves s idx m) (env : Surroundings) :
    Serves s idx (m.checked s env idx) ∧
    (m.checked s env idx).tracker s idx = m.nextTracker s env idx := by
  have hlt : idx < (m.paths.set idx (m.nextTracker s env idx)).length := by
    rw [length_set, h.length_paths]
    exact h.index_lt
  refine ⟨⟨h.paused, h.pinned, h.poolProfile, h.poolDriven, h.active, h.driver, h.index_lt, ?_,
    ?_⟩, ?_⟩
  · exact (length_set).trans h.length_paths
  · intro p hp
    rcases mem_or_eq_of_mem_set hp with hp | rfl
    · exact h.config_eq p hp
    · rw [nextTracker, PathHealth.config_observe, h.config_tracker]
  · have hpa : (m.checked s env idx).paths = m.paths.set idx (m.nextTracker s env idx) := rfl
    rw [tracker_of_lt hpa hlt, get_eq_getElem, getElem_set_self]

theorem failover_eq (env : Surroundings) (hp : m.pinned = none)
    (hn : s.enabledIndices.find? (· ≠ idx) = some next) (reasons : List Text) :
    ∃ reason, m.failover s env idx reasons = (m.switchToIndex s env next reason).2 := by
  have hne : next ≠ idx := by simpa using find?_some hn
  unfold failover
  simp only [hn, Option.some_or, if_pos hne, hp]
  exact ⟨_, rfl⟩

/-- **A cycle of a served endpoint**: it is served on, or failover goes to the first other one. -/
theorem Serves.supervise (h : Serves s idx m) (hsta : env.start = .ok ())
    (hn : s.enabledIndices.find? (· ≠ idx) = some next) (hlt : next < s.endpoints.length) :
    ((m.nextTracker s env idx).state ≠ .failing ∧
      Serves s idx (m.supervise s env) ∧
      (m.supervise s env).tracker s idx = m.nextTracker s env idx ∧
      (m.supervise s env).failovers = m.failovers) ∨ ((m.nextTracker s env idx).state = .failing ∧
      Serves s next (m.supervise s env) ∧
      ((m.supervise s env).tracker s next).state = .unknown ∧
      (m.supervise s env).failovers = m.failovers + 1) := by
  obtain ⟨hs, ht⟩ := h.checked env
  rw [h.supervise_eq]
  by_cases hst : (m.nextTracker s env idx).state = .failing
  · obtain ⟨reason, hf⟩ := failover_eq env hs.pinned hn
      (m.nextTracker s env idx).failingReasons
    obtain ⟨hs', ht', hc⟩ := hs.switchToIndex hsta hlt reason
    rw [failovers_checked] at hc
    rw [if_pos hst, hf]
    exact .inr ⟨hst, hs', ht', hc⟩
  · rw [if_neg hst]
    exact .inl ⟨hst, hs, ht, failovers_checked⟩

end Manager

variable {s : Settings}

def Steady (s : Settings) (good : ℕ → Bool) (c : Cycle) (m : Manager) : Prop :=
  c.between = [] ∧ c.ensure.start = .ok () ∧ c.supervise.start = .ok () ∧
    ∀ idx ∈ (c.found s m).active, (c.supervise.health = .healthy ↔ good idx = true)

instance (s : Settings) (good : ℕ → Bool) (c : Cycle) (m : Manager) :
    Decidable (Steady s good c m) := inferInstanceAs (Decidable (_ ∧ _))

theorem mem_enabledIndices {i : ℕ} (h : i ∈ s.enabledIndices) : i < s.endpoints.length := by
  rw [Settings.enabledIndices, mem_insertionSort, mem_filter, mem_range] at h
  exact h.1

theorem nodup_enabledIndices (s : Settings) : s.enabledIndices.Nodup :=
  (perm_insertionSort _ _).nodup_iff.2 (List.nodup_range.filter _)

theorem one_le_threshold (s : Settings) : 1 ≤ max s.failoverThreshold 1 := by
  show 1 ≤ if s.failoverThreshold ≤ 1 then 1 else s.failoverThreshold
  split_ifs with h
  · exact UInt32.le_refl 1
  · exact UInt32.le_of_lt (UInt32.not_le.1 h)

theorem threshold_pos (s : Settings) : 0 < (max s.failoverThreshold 1).toNat :=
  UInt32.le_iff_toNat_le.1 (one_le_threshold s)

theorem serves_found_init {first : ℕ} {rest : List ℕ} {c : Cycle}
    (he : s.enabledIndices = first :: rest) (hb : c.between = []) (hs : c.ensure.start = .ok ()) :
    Manager.Serves s first (c.found s (.init s)) ∧
      (c.found s (.init s)).tracker s first = .new s.pathConfig ∧
      (c.found s (.init s)).failovers = 0 := by
  have hlt : first < s.endpoints.length := mem_enabledIndices (by rw [he]; simp)
  have hpr : s.preferred = some first := by rw [Settings.preferred, he]; rfl
  have hf : c.found s (.init s) =
      { Manager.init s with
        built := 1
        driver := some ⟨0, none, s.endpointConfig first⟩
        calls := [.start ⟨0, none, s.endpointConfig first⟩ true]
        active := some first
        lastSwitchMs := c.ensure.nowMs
        startedCount := 1
        l2 := (Manager.init s).l2.onStart c.ensure.nowMs
        events := [.started (s.endpoint first).name] } := by
    rw [Cycle.found, hb]
    unfold Manager.ensureRunning Manager.ensureStatic Manager.startEndpoint Manager.launch
    simp only [hs, hpr]
    rfl
  have hl : (Manager.init s).paths.length = s.endpoints.length := length_map _
  rw [hf]
  refine ⟨⟨rfl, rfl, rfl, rfl, rfl, rfl, hlt, hl, ?_⟩, ?_, rfl⟩
  · intro p hp
    obtain ⟨e, -, rfl⟩ := List.mem_map.1 hp
    rfl
  · have hpa : (Manager.init s).paths = s.endpoints.map fun _ => .new s.pathConfig := rfl
    show (Manager.init s).tracker s first = _
    rw [Manager.tracker_of_lt hpa (by rwa [length_map]), get_eq_getElem, getElem_map]

def Settles (s : Settings) (good : ℕ → Bool) (first second n : ℕ) (m : Manager) : Prop :=
  ∃ idx, (idx = first ∨ idx = second) ∧ m.Serves s idx ∧ (m.tracker s idx).state ≠ .failing ∧
    (good first = true ∨ good second = true →
      (idx = first ∧ good first = false ∧ (m.tracker s first).consecutiveBad = n ∧
        n < (max s.failoverThreshold 1).toNat ∧ m.failovers = 0) ∨
      (good idx = true ∧ m.failovers ≤ 1))

variable {good : ℕ → Bool} {first second n : ℕ} {rest : List ℕ} {m : Manager} {c : Cycle}

theorem settles_init (he : s.enabledIndices = first :: second :: rest)
    (hs : Steady s good c (.init s)) :
    Settles s good first second 0 (c.found s (.init s)) := by
  obtain ⟨hse, ht, hc⟩ := serves_found_init he hs.1 hs.2.1
  refine ⟨first, .inl rfl, hse, ?_, fun _ => ?_⟩
  · rw [ht]
    exact fun hf => by cases hf
  · cases hg : good first with
    | false => exact .inl ⟨rfl, rfl, by rw [ht]; rfl, threshold_pos s, hc⟩
    | true => exact .inr ⟨rfl, by omega⟩

theorem Settles.found (h : Settles s good first second n m) (hst : Steady s good c m) :
    Settles s good first second n (c.found s m) := by
  obtain ⟨idx, hi, hs, hr⟩ := h
  rw [hs.found hst.1]
  exact ⟨idx, hi, hs, hr⟩

/-- **One more cycle.** -/
theorem Settles.supervise (he : s.enabledIndices = first :: second :: rest)
    {env : Surroundings} (hst : env.start = .ok ())
    (han : ∀ idx ∈ m.active, (env.health = .healthy ↔ good idx))
    (h : Settles s good first second n m) :
    Settles s good first second (n + 1) (m.supervise s env) := by
  obtain ⟨idx, hi, hs, hsta, hse⟩ := h
  have hne : first ≠ second := by
    have hno := he ▸ nodup_enabledIndices s
    exact fun heq => (List.nodup_cons.1 hno).1 (by simp [heq])
  -- failover looks from the beginning of the list, and finds the other one of the two
  obtain ⟨next, hnex, ho⟩ : ∃ next, s.enabledIndices.find? (· ≠ idx) = some next ∧
      (idx = first ∧ next = second ∨ idx = second ∧ next = first) := by
    rcases hi with rfl | rfl
    · exact ⟨second, by simp [he, hne.symm], .inl ⟨rfl, rfl⟩⟩
    · exact ⟨first, by simp [he, hne], .inr ⟨rfl, rfl⟩⟩
  have hlt := mem_enabledIndices (mem_of_find?_eq_some hnex)
  have ha := han idx hs.active
  have hth : (m.tracker s idx).config.enterDegraded = max s.failoverThreshold 1 := by
    rw [hs.config_tracker]
    rfl
  cases hg : good idx with
  | true =>
    have hnot : (m.nextTracker s env idx).state ≠ .failing := by
      rw [Manager.nextTracker, ha.2 hg]
      exact PathHealth.state_observe_of_good _ (hth ▸ one_le_threshold s)
        (PathHealthConfig.degraded_healthy _) hsta
    rcases hs.supervise hst hnex hlt with
      ⟨-, hs', ht, hc⟩ | ⟨hf, -⟩
    · refine ⟨idx, hi, hs', by rw [ht]; exact hnot, fun hso => .inr ⟨hg, ?_⟩⟩
      rcases hse hso with ⟨rfl, hb, -⟩ | ⟨-, hle⟩
      · rw [hg] at hb
        cases hb
      · omega
    · exact absurd hf hnot
  | false =>
    have hu : env.health.sample = .failure := by
      unfold HealthStatus.sample
      split
      · next hh => simp [ha.1 hh] at hg
      · rfl
    obtain ⟨hb, hfa⟩ := PathHealth.observe_failure hsta env.instant
    rw [← hu, ← Manager.nextTracker] at hb hfa
    rw [hth] at hfa
    -- the first endpoint is the one that is served, if one of the two is healthy
    have hfi : good first = true ∨ good second = true →
        idx = first ∧ Health.succU32 (m.tracker s idx).consecutiveBad = n + 1 ∧
          m.failovers = 0 := by
      intro hso
      rcases hse hso with ⟨rfl, -, hn, hlt, hc⟩ | ⟨hg', -⟩
      · have hu := UInt32.toNat_lt (max s.failoverThreshold 1)
        exact ⟨rfl, by rw [hn, Health.succU32]; omega, hc⟩
      · rw [hg] at hg'
        cases hg'
    rcases hs.supervise hst hnex hlt with
      ⟨hnot, hs', ht, hc⟩ | ⟨hf, hs', ht, hc⟩
    · refine ⟨idx, hi, hs', by rw [ht]; exact hnot, fun hso => .inl ?_⟩
      obtain ⟨rfl, hn, hz⟩ := hfi hso
      have hr := mt hfa.2 hnot
      refine ⟨rfl, hg, by rw [ht, hb, hn], by omega, by omega⟩
    · refine ⟨next, ?_, hs', ?_, fun hso => .inr ?_⟩
      · rcases ho with ⟨-, rfl⟩ | ⟨-, rfl⟩
        · exact .inr rfl
        · exact .inl rfl
      · rw [ht]
        exact fun hf => by cases hf
      · obtain ⟨rfl, -, hz⟩ := hfi hso
        rcases ho with ⟨-, rfl⟩ | ⟨heq, -⟩
        · refine ⟨hso.resolve_left ?_, by omega⟩
          rw [hg]
          exact Bool.false_ne_true
        · exact absurd heq hne

def afterCycles (s : Settings) (cs : List Cycle) : Manager := run (Cycle.apply s) cs (.init s)

theorem settles_run (he : s.enabledIndices = first :: second :: rest) {cs : List Cycle}
    (hst : Along (Cycle.apply s) (Steady s good) cs (.init s)) (hne : cs ≠ []) :
    Settles s good first second cs.length (afterCycles s cs) := by
  induction cs using List.reverseRecOn with
  | nil => exact absurd rfl hne
  | append_singleton cs c ih =>
    obtain ⟨hb, hc, -⟩ := along_append.1 hst
    have hl : afterCycles s (cs ++ [c]) = c.apply s (afterCycles s cs) := run_append cs [c] _
    have hf : Settles s good first second cs.length (c.found s (afterCycles s cs)) ∧
        (afterCycles s cs).paused = false := by
      cases cs with
      | nil => exact ⟨settles_init he hc, rfl⟩
      | cons c' cs' =>
        have hs := ih hb (cons_ne_nil _ _)
        obtain ⟨idx, -, hse, -⟩ := id hs
        exact ⟨hs.found hc, hse.paused⟩
    have hp : ¬(afterCycles s cs).paused := by simp [hf.2]
    rw [hl, Cycle.apply, if_neg hp, length_append]
    exact hf.1.supervise he hc.2.2.1 hc.2.2.2

/-- **When failover reaches a healthy endpoint.** After as many cycles as `N` failovers can take,
exactly when one of the first two enabled endpoints is healthy. -/
theorem failover_reaches_iff (s : Settings) (good : ℕ → Bool) (cs : List Cycle)
    (htwo : 2 ≤ s.enabledIndices.length)
    (hsteady : Along (Cycle.apply s) (Steady s good) cs (.init s))
    (hlong : s.enabledIndices.length * (max s.failoverThreshold 1).toNat ≤ cs.length) :
    ((afterCycles s cs).failovers ≤ s.enabledIndices.length ∧
      ∃ idx, (afterCycles s cs).active = some idx ∧ good idx = true) ↔
    ∃ idx ∈ s.enabledIndices.take 2, good idx = true := by
  obtain ⟨first, second, rest, he⟩ : ∃ first second rest,
      s.enabledIndices = first :: second :: rest := by
    match s.enabledIndices, htwo with
    | first :: second :: rest, _ => exact ⟨first, second, rest, rfl⟩
  have ht : (max s.failoverThreshold 1).toNat ≤ cs.length :=
    le_trans (Nat.le_mul_of_pos_left _ (by omega)) hlong
  have hne : cs ≠ [] := by
    rintro rfl
    exact absurd ht (Nat.not_le.2 (threshold_pos s))
  obtain ⟨idx, hi, hs, -, hse⟩ := settles_run he hsteady hne
  have hta : s.enabledIndices.take 2 = [first, second] := by rw [he]; rfl
  rw [hta]
  simp only [mem_cons, not_mem_nil, or_false, exists_eq_or_imp, exists_eq_left]
  constructor
  · rintro ⟨-, idx', ha, hg⟩
    obtain rfl : idx = idx' := Option.some.inj (hs.active.symm.trans ha)
    rcases hi with rfl | rfl
    · exact .inl hg
    · exact .inr hg
  · intro hso
    rcases hse hso with ⟨-, -, -, hlt, -⟩ | ⟨hg, hle⟩
    · omega
    · exact ⟨by omega, idx, hs.active, hg⟩

def threeEndpoints : Settings where
  endpoints := ["a", "b", "c"].map fun name =>
    { name := name.toList, server := name.toList, port := 443, uuid := "11111111".toList }
  failoverThreshold := 1

def answering (health : HealthStatus) : Cycle where
  supervise := { health := health }

/-- With the second endpoint healthy, it is reached. -/
theorem failover_reaches_second :
    ∃ idx, (afterCycles threeEndpoints
      [answering .unknown, answering .healthy, answering .healthy]).active = some idx ∧
        idx = 1 := by
  obtain ⟨-, idx, ha, hg⟩ := (failover_reaches_iff threeEndpoints (· == 1)
    [answering .unknown, answering .healthy, answering .healthy] (by decide +kernel)
    (by decide +kernel) (by decide +kernel)).2 ⟨1, by decide +kernel, rfl⟩
  exact ⟨idx, ha, eq_of_beq hg⟩

/-- With the third one alone healthy, three failovers go to and fro between the other two. -/
theorem failover_misses_third :
    (∃ idx ∈ threeEndpoints.enabledIndices, (idx == 2) = true) ∧
    Along (Cycle.apply threeEndpoints) (Steady threeEndpoints (· == 2))
      [answering .unknown, answering .unknown, answering .unknown] (.init threeEndpoints) ∧
    (afterCycles threeEndpoints
      [answering .unknown, answering .unknown, answering .unknown]).failovers = 3 ∧
    ∀ k ≤ 3, ∀ idx ∈ (afterCycles threeEndpoints
      ([answering .unknown, answering .unknown, answering .unknown].take k)).active,
        (idx == 2) = false := by
  all_goals decide +kernel

end BalanSir.Xray
