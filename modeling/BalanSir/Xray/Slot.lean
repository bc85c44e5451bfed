/-
# The driver slot

The slot of the driver, which the manager's cycle and the pool's selection both fill.
-/

import BalanSir.Xray.Manager

namespace BalanSir.Xray

open Lib Vpn List Option

def liveStep (call : DriverCall) (live : List ℕ) : List ℕ :=
  match call with
  | .start d true => d.id :: live
  | .stop d true | .drop d => live.filter (· ≠ d.id)
  | .start _ false | .stop _ false => live

def live (calls : List DriverCall) : List ℕ := run liveStep calls []

def StartsAlone (call : DriverCall) (live : List ℕ) : Prop :=
  match call with
  | .start d _ => ∀ id ∈ live, id = d.id
  | _ => True

instance (call : DriverCall) (live : List ℕ) : Decidable (StartsAlone call live) := by
  unfold StartsAlone
  cases call <;> infer_instance

def Exclusive (calls : List DriverCall) : Prop := Along liveStep StartsAlone calls []
  deriving Decidable

theorem live_append (calls new : List DriverCall) :
    live (calls ++ new) = run liveStep new (live calls) := run_append _ _ _

theorem exclusive_append {calls new : List DriverCall} :
    Exclusive (calls ++ new) ↔ Exclusive calls ∧ Along liveStep StartsAlone new (live calls) :=
  along_append

namespace Manager

/-- What holds of the manager in every run. -/
structure Consistent (s : Settings) (m : Manager) : Prop where
  /-- Only the driver in the slot is live. -/
  slot : ∀ id ∈ live m.calls, ∃ d, m.driver = some d ∧ d.id = id
  fresh : ∀ d, m.driver = some d → d.id < m.built
  /-- The label of the pool is that of the profile the driver was started for. -/
  label : m.poolLabel = (m.driver.bind (·.origin)).map profileLabel
  config : ∀ d q, m.driver = some d → d.origin = some q → s.poolConfig q = .ok d.config
  static : m.poolDriven = false → m.driver.isSome = true → m.active.isSome = true
  /-- Where a label is barred, nothing runs. -/
  exhausted : m.l2ExhaustedLabel ≠ none → m.driver = none ∧ m.poolDriven = true

/-- The step keeps the invariant and the log exclusive. -/
structure Keeps (s : Settings) (m m' : Manager) : Prop where
  consistent : m'.Consistent s
  exclusive : Exclusive m'.calls ↔ Exclusive m.calls
  poolDriven : m'.poolDriven = m.poolDriven
  poolProfile : m'.poolProfile = m.poolProfile

variable {s : Settings} {env : Surroundings} {m m' m'' : Manager} {id : ℕ} {e : Text}

theorem Consistent.keeps (h : m.Consistent s) : Keeps s m m := ⟨h, Iff.rfl, rfl, rfl⟩

theorem Keeps.trans (h : Keeps s m m') (h' : Keeps s m' m'') : Keeps s m m'' :=
  ⟨h'.consistent, h'.exclusive.trans h.exclusive, h'.poolDriven.trans h.poolDriven,
    h'.poolProfile.trans h.poolProfile⟩

theorem Consistent.live_eq_nil (h : m.Consistent s) (hd : m.driver = none) : live m.calls = [] := by
  rw [eq_nil_iff_forall_not_mem]
  intro id hid
  obtain ⟨d, hd', -⟩ := h.slot id hid
  rw [hd] at hd'
  cases hd'

theorem Consistent.lt_built (h : m.Consistent s) (hid : id ∈ live m.calls) : id < m.built := by
  obtain ⟨d, hd, rfl⟩ := h.slot id hid
  exact h.fresh d hd

theorem init_consistent : (init s).Consistent s where
  slot _ hid := absurd hid not_mem_nil
  fresh d hd := absurd hd (some_ne_none d).symm
  label := rfl
  config d _ hd := absurd hd (some_ne_none d).symm
  static _ hd := absurd hd Bool.false_ne_true
  exhausted h := absurd rfl h

theorem stopDriver_of_none (hd : m.driver = none) : m.stopDriver env = m := by
  unfold stopDriver
  rw [hd]

theorem poolDriven_stopDriver : (m.stopDriver env).poolDriven = m.poolDriven := by
  unfold stopDriver
  cases m.driver with
  | none => rfl
  | some d => rfl

theorem driver_stopDriver : (m.stopDriver env).driver = none := by
  unfold stopDriver
  cases hd : m.driver with
  | none => exact hd
  | some d => rfl

theorem keeps_stopDriver (env : Surroundings) (h : m.Consistent s) :
    Keeps s m (m.stopDriver env) := by
  unfold stopDriver
  cases hd : m.driver with
  | none => exact h.keeps
  | some d =>
    have hl : live (m.calls ++ [.stop d env.stop.isOk, .drop d]) = [] := by
      rw [live_append, eq_nil_iff_forall_not_mem]
      intro id hid
      have hm : id ∈ live m.calls ∧ id ≠ d.id := by
        cases hok : env.stop.isOk <;> simpa [run, liveStep, hok] using hid
      obtain ⟨d', hd', rfl⟩ := h.slot id hm.1
      rw [hd] at hd'
      cases hd'
      exact hm.2 rfl
    constructor
    · constructor
      · intro id hid
        rw [hl] at hid
        cases hid
      · exact fun d' hd' => absurd hd' (some_ne_none d').symm
      · rfl
      · exact fun d' _ hd' => absurd hd' (some_ne_none d').symm
      · exact fun _ hd' => absurd hd' Bool.false_ne_true
      · exact fun he => ⟨rfl, (h.exhausted he).2⟩
    · rw [exclusive_append]
      exact and_iff_left ⟨trivial, trivial, trivial⟩
    · rfl
    · rfl

theorem Consistent.alone_iff (h : m.Consistent s) :
    (∀ id ∈ live m.calls, id = m.built) ↔ live m.calls = [] := by
  constructor
  · intro ha
    rw [eq_nil_iff_forall_not_mem]
    intro id hid
    have hlt := h.lt_built hid
    have heq := ha id hid
    omega
  · intro hn id hid
    rw [hn] at hid
    cases hid

theorem launch_error (hs : env.start = .error e) (origin : Option VpnProfile)
    (config : XrayConfig) : m.launch env origin config = (.error e, { m with
      built := m.built + 1
      calls := m.calls ++ [.start ⟨m.built, origin, config⟩ false,
        .drop ⟨m.built, origin, config⟩] }) := by
  simp [launch, hs]

theorem launch_ok (hs : env.start = .ok ()) (origin : Option VpnProfile) (config : XrayConfig) :
    m.launch env origin config = (.ok (), { m with
      built := m.built + 1
      driver := some ⟨m.built, origin, config⟩
      calls := m.calls ++ .start ⟨m.built, origin, config⟩ true ::
        (m.driver.map .drop).toList }) := by
  simp [launch, hs]

variable {d : Driver}

theorem mem_live_launch_error (hid : id ∈ live (m.calls ++ [.start d false, .drop d])) :
    id ∈ live m.calls := by
  rw [live_append] at hid
  exact mem_of_mem_filter hid

theorem mem_live_launch_ok (h : m.Consistent s)
    (hid : id ∈ live (m.calls ++ .start d true :: (m.driver.map .drop).toList)) : id = d.id := by
  rw [live_append] at hid
  cases hd : m.driver with
  | none =>
    have hm : id = d.id ∨ id ∈ live m.calls := by simpa [hd, run, liveStep] using hid
    rcases hm with rfl | hm
    · rfl
    · rw [h.live_eq_nil hd] at hm
      cases hm
  | some old =>
    have hm : (id = d.id ∨ id ∈ live m.calls) ∧ id ≠ old.id := by
      simpa [hd, run, liveStep] using hid
    rcases hm.1 with rfl | hl
    · rfl
    · obtain ⟨d', hd', rfl⟩ := h.slot id hl
      rw [hd] at hd'
      cases hd'
      exact absurd rfl hm.2

theorem exclusive_launch (env : Surroundings) (h : m.Consistent s) (origin : Option VpnProfile)
    (config : XrayConfig) :
    Exclusive (m.launch env origin config).2.calls ↔ Exclusive m.calls ∧ live m.calls = [] := by
  cases hs : env.start with
  | error e =>
    rw [launch_error hs, exclusive_append, ← h.alone_iff]
    exact and_congr_right fun _ => ⟨fun ha => ha.1, fun ha => ⟨ha, trivial, trivial⟩⟩
  | ok _ =>
    rw [launch_ok hs, exclusive_append, ← h.alone_iff]
    refine and_congr_right fun _ => ⟨fun ha => ha.1, fun ha => ⟨ha, ?_⟩⟩
    cases m.driver with
    | none => trivial
    | some old => exact ⟨trivial, trivial⟩

theorem consistent_launch_error (h : m.Consistent s) (hs : env.start = .error e)
    (origin : Option VpnProfile) (config : XrayConfig) :
    (m.launch env origin config).2.Consistent s := by
  rw [launch_error hs]
  refine ⟨fun id hid => h.slot id (mem_live_launch_error hid), ?_, h.label, h.config, h.static,
    h.exhausted⟩
  exact fun d hd => (h.fresh d hd).trans (Nat.lt_succ_self _)

theorem keeps_startEndpoint (env : Surroundings) (h : m.Consistent s) (hd : m.driver = none)
    (hp : m.poolDriven = false) (idx : ℕ) : Keeps s m (m.startEndpoint s env idx).2 := by
  have hb : m.l2ExhaustedLabel = none := by
    by_contra hne
    rw [(h.exhausted hne).2] at hp
    cases hp
  have he : Exclusive (m.launch env none (s.endpointConfig idx)).2.calls ↔
      Exclusive m.calls := by
    rw [exclusive_launch env h, and_iff_left (h.live_eq_nil hd)]
  unfold startEndpoint
  cases hs : env.start with
  | error e =>
    have hc := consistent_launch_error h hs none (s.endpointConfig idx)
    rw [launch_error hs] at he hc ⊢
    exact ⟨hc, he, rfl, rfl⟩
  | ok _ =>
    rw [launch_ok hs] at he ⊢
    refine ⟨⟨fun id hid => ⟨_, rfl, (mem_live_launch_ok h hid).symm⟩, ?_, ?_, ?_, ?_, ?_⟩, he,
      rfl, rfl⟩
    · rintro d ⟨⟩
      exact Nat.lt_succ_self _
    · rw [h.label, hd]
      rfl
    · rintro d q ⟨⟩ ⟨⟩
    · exact fun _ _ => rfl
    · exact fun hne => absurd hb hne

theorem Keeps.of_fields (h : Keeps s m m') (hd : m''.driver = m'.driver) (hc : m''.calls = m'.calls)
    (hb : m''.built = m'.built) (hl : m''.poolLabel = m'.poolLabel)
    (hp : m''.poolDriven = m'.poolDriven) (hq : m''.poolProfile = m'.poolProfile)
    (ha : m''.active = m'.active) (hx : m''.l2ExhaustedLabel = m'.l2ExhaustedLabel) :
    Keeps s m m'' := by
  obtain ⟨⟨h₁, h₂, h₃, h₄, h₅, h₆⟩, he, hpd, hpp⟩ := h
  refine ⟨⟨?_, ?_, ?_, ?_, ?_, ?_⟩, ?_, ?_, ?_⟩
  · rw [hc, hd]; exact h₁
  · rw [hd, hb]; exact h₂
  · rw [hl, hd]; exact h₃
  · rw [hd]; exact h₄
  · rw [hp, hd, ha]; exact h₅
  · rw [hx, hd, hp]; exact h₆
  · rw [hc]; exact he
  · rw [hp]; exact hpd
  · rw [hq]; exact hpp

theorem keeps_switchToIndex (h : m.Consistent s) (hp : m.poolDriven = false) (idx : ℕ)
    (reason : Text) : Keeps s m (m.switchToIndex s env idx reason).2 := by
  have hs := keeps_stopDriver env h
  have hst := keeps_startEndpoint env hs.consistent driver_stopDriver
    (hs.poolDriven.trans hp) idx
  have hk := hs.trans hst
  unfold switchToIndex
  revert hk
  generalize (m.stopDriver env).startEndpoint s env idx = r
  obtain ⟨_ | _, m₁⟩ := r
  · exact fun hk => hk
  · exact fun hk => hk.of_fields rfl rfl rfl rfl rfl rfl rfl rfl

theorem keeps_switchTo (h : m.Consistent s) (hp : m.poolDriven = false) (name reason : Text) :
    Keeps s m (m.switchTo s env name reason).2 := by
  unfold switchTo
  split
  · exact h.keeps
  · exact keeps_switchToIndex h hp _ _

theorem keeps_ensureStatic (h : m.Consistent s) (hp : m.poolDriven = false) :
    Keeps s m (m.ensureStatic s env).2 := by
  unfold ensureStatic
  split_ifs with hr
  · split
    · split_ifs
      · exact keeps_switchTo h hp _ _
      · exact h.keeps
    · exact h.keeps
  · -- a driver of the static endpoints has its index in `active`
    have hd : m.driver = none := by
      by_contra hne
      have hs : m.driver.isSome := Option.isSome_iff_ne_none.2 hne
      exact hr ⟨h.static hp hs, hs⟩
    split
    · exact keeps_startEndpoint env h hd hp _
    · split
      · exact keeps_startEndpoint env h hd hp _
      · exact h.keeps

theorem keeps_failover (h : m.Consistent s) (hp : m.poolDriven = false) (idx : ℕ)
    (reasons : List Text) : Keeps s m (m.failover s env idx reasons) := by
  have hpi : Keeps s m (if m.pinned = some (s.endpoint idx).name then { m with pinned := none }
      else m) := by
    split_ifs
    · exact h.keeps.of_fields rfl rfl rfl rfl rfl rfl rfl rfl
    · exact h.keeps
  unfold failover
  dsimp only
  split
  · exact h.keeps
  · next next _ =>
      by_cases hne : next ≠ idx
      · rw [if_pos hne]
        exact hpi.trans (keeps_switchToIndex hpi.consistent (hpi.poolDriven.trans hp) _ _)
      · rw [if_neg hne]
        exact h.keeps

theorem keeps_healthAndFailover (h : m.Consistent s) (hp : m.poolDriven = false) :
    Keeps s m (m.healthAndFailover s env) := by
  have hk : ∀ paths events, Keeps s m { m with paths := paths, events := events } :=
    fun _ _ => h.keeps.of_fields rfl rfl rfl rfl rfl rfl rfl rfl
  unfold healthAndFailover
  split
  · next idx _ _ _ =>
      by_cases hf : ((m.paths.getD idx (.new s.pathConfig)).observe env.health.sample
          env.instant).2.state = .failing
      · rw [if_pos hf]
        exact (hk _ _).trans
          (keeps_failover (hk _ _).consistent ((hk _ _).poolDriven.trans hp) _ _)
      · rw [if_neg hf]
        exact hk _ _
  · exact h.keeps

theorem Consistent.keeps_calls (h : m.Consistent s) (hd : m.driver = some d) (new : List DriverCall)
    (hl : ∀ id ∈ run liveStep new (live m.calls), id = d.id)
    (hn : Along liveStep StartsAlone new (live m.calls)) :
    Keeps s m { m with calls := m.calls ++ new } := by
  refine ⟨⟨fun id hid => ⟨d, hd, ?_⟩, h.fresh, h.label, h.config, h.static, h.exhausted⟩, ?_, rfl,
    rfl⟩
  · rw [live_append] at hid
    exact (hl id hid).symm
  · rw [exclusive_append]
    exact and_iff_left hn

theorem keeps_restartActiveDriver (h : m.Consistent s) : Keeps s m (m.restartActiveDriver env) := by
  unfold restartActiveDriver
  cases hd : m.driver with
  | none => exact h.keeps
  | some d =>
    have hsl : ∀ id ∈ live m.calls, id = d.id := by
      intro id hid
      obtain ⟨d', hd', rfl⟩ := h.slot id hid
      rw [hd] at hd'
      cases hd'
      rfl
    have hs : ∀ id ∈ (live m.calls).filter (· ≠ d.id), id = d.id :=
      fun id hid => hsl id (mem_of_mem_filter hid)
    cases hsto : env.stop with
    | error e =>
      exact (h.keeps_calls hd [.stop d false] hsl ⟨trivial, trivial⟩).of_fields
        hd.symm rfl rfl rfl rfl rfl rfl rfl
    | ok _ =>
      cases hsta : env.start with
      | error e =>
        exact (h.keeps_calls hd [.stop d true, .start d false] hs
          ⟨trivial, hs, trivial⟩).of_fields hd.symm rfl rfl rfl rfl rfl rfl rfl
      | ok _ =>
        have hst : ∀ id ∈ d.id :: (live m.calls).filter (· ≠ d.id), id = d.id :=
          List.forall_mem_cons.2 ⟨rfl, hs⟩
        exact (h.keeps_calls hd [.stop d true, .start d true] hst
          ⟨trivial, hs, trivial⟩).of_fields hd.symm rfl rfl rfl rfl rfl rfl rfl

theorem keeps_exhaustRecovery (h : m.Consistent s) (hp : m.poolDriven) :
    Keeps s m (m.exhaustRecovery env) := by
  obtain ⟨hc, he, hpd, hpp⟩ := keeps_stopDriver env h
  refine ⟨⟨hc.slot, hc.fresh, hc.label, hc.config, hc.static, ?_⟩, he, hpd, hpp⟩
  exact fun _ => ⟨driver_stopDriver, hpd.trans hp⟩

theorem keeps_l2Watchdog (h : m.Consistent s) : Keeps s m (m.l2Watchdog env) := by
  unfold l2Watchdog
  split_ifs with hr
  · have hl2 : ∀ l2, Keeps s m { m with l2 := l2 } :=
      fun _ => h.keeps.of_fields rfl rfl rfl rfl rfl rfl rfl rfl
    dsimp only
    split
    · exact hl2 _
    · exact hl2 _
    · exact (hl2 _).trans (keeps_restartActiveDriver (hl2 _).consistent)
    · exact (hl2 _).trans (keeps_exhaustRecovery (hl2 _).consistent hr.2)
  · exact h.keeps

theorem supervise_of_none (hd : m.driver = none) : m.supervise s env = m := by
  unfold supervise
  rw [hd]
  rfl

theorem supervise_of_poolDriven (hd : m.driver = some d) (hp : m.poolDriven) :
    m.supervise s env = match m.l2.observe env.health env.nowMs with
      | (.none, l2) | (.grace, l2) => { m with l2 := l2 }
      | (.restart, l2) => { m with l2 := l2 }.restartActiveDriver env
      | (.exhaust, l2) => { m with l2 := l2 }.exhaustRecovery env := by
  have hr : m.driver.isSome := by rw [hd, isSome_some]
  unfold supervise l2Watchdog
  rw [if_pos hr, if_pos hp, if_pos ⟨hr, hp⟩]
  obtain ⟨action, l2⟩ := m.l2.observe env.health env.nowMs
  cases action <;> rfl

theorem keeps_supervise (env : Surroundings) (h : m.Consistent s) :
    Keeps s m (m.supervise s env) := by
  unfold supervise
  split_ifs with hd hp
  · exact keeps_l2Watchdog h
  · exact keeps_healthAndFailover h (Bool.eq_false_iff.2 hp)
  · exact h.keeps

def Starts (s : Settings) (m : Manager) (profile : VpnProfile) : Prop :=
  (∃ config, s.poolConfig profile = .ok config) ∧
    ¬(m.driver.isSome = true ∧ m.poolLabel = some (profileLabel profile)) ∧
    m.l2ExhaustedLabel ≠ some (profileLabel profile)

variable {profile : VpnProfile}

theorem ensurePool_of_error (hc : s.poolConfig profile = .error e) : m.ensurePool s env profile =
      (.error ("vpn pool profile invalid: ".toList ++ e), m.takenOver) := by
  unfold ensurePool
  rw [hc]

theorem ensurePool_of_ok {config : XrayConfig} (hc : s.poolConfig profile = .ok config)
    (h : ¬Starts s m profile) : m.ensurePool s env profile = (.ok (), m.takenOver) := by
  unfold ensurePool
  rw [hc]
  dsimp only
  split_ifs with hr hb
  · rfl
  · rfl
  · exact absurd ⟨⟨config, hc⟩, hr, hb⟩ h

theorem ensurePool_of_not_starts (h : ¬Starts s m profile) :
    (m.ensurePool s env profile).2 = m.takenOver := by
  cases hc : s.poolConfig profile with
  | error e => rw [ensurePool_of_error hc]
  | ok config => rw [ensurePool_of_ok hc h]

theorem ensurePool_of_starts (env : Surroundings) (h : Starts s m profile) :
    ∃ config, s.poolConfig profile = .ok config ∧
      m.ensurePool s env profile = m.takenOver.startConfig env profile config
        (profileLabel profile) "vpn pool selected".toList := by
  obtain ⟨⟨config, hc⟩, hr, hb⟩ := h
  refine ⟨config, hc, ?_⟩
  unfold ensurePool
  rw [hc]
  exact (if_neg hr).trans (if_neg hb)

theorem poolDriven_ensurePool : (m.ensurePool s env profile).2.poolDriven := by
  by_cases h : Starts s m profile
  · obtain ⟨config, -, heq⟩ := ensurePool_of_starts env h
    rw [heq]
    unfold startConfig
    cases hs : env.start with
    | error e =>
      rw [launch_error hs]
      rfl
    | ok _ =>
      rw [launch_ok hs]
      rfl
  · rw [ensurePool_of_not_starts h]
    rfl

theorem Consistent.takenOver (h : m.Consistent s) : m.takenOver.Consistent s :=
  ⟨h.slot, h.fresh, h.label, h.config, fun hp => absurd hp Bool.true_eq_false_eq_False,
    fun he => ⟨(h.exhausted he).1, rfl⟩⟩

/-- **What a selection does:** it starts a driver next to that in the slot, or nothing. -/
theorem ensurePool_spec (env : Surroundings) (h : m.Consistent s) (profile : VpnProfile) :
    (m.ensurePool s env profile).2.Consistent s ∧ (Exclusive (m.ensurePool s env profile).2.calls ↔
        Exclusive m.calls ∧ (Starts s m profile → live m.calls = [])) := by
  by_cases hst : Starts s m profile
  · obtain ⟨config, hc, heq⟩ := ensurePool_of_starts env hst
    have hex := exclusive_launch env h.takenOver (some profile) config
    rw [heq, imp_iff_right hst]
    unfold startConfig
    cases hs : env.start with
    | error e =>
      have hco := consistent_launch_error h.takenOver hs (some profile) config
      rw [launch_error hs] at hex hco ⊢
      exact ⟨hco, hex⟩
    | ok _ =>
      rw [launch_ok hs] at hex ⊢
      refine ⟨⟨fun id hid => ⟨_, rfl, (mem_live_launch_ok h.takenOver hid).symm⟩, ?_, rfl, ?_, ?_,
        fun he => absurd rfl he⟩, hex⟩
      · rintro d ⟨⟩
        exact Nat.lt_succ_self _
      · rintro d q ⟨⟩ ⟨⟩
        exact hc
      · exact fun hp => absurd hp Bool.true_eq_false_eq_False
  · rw [ensurePool_of_not_starts hst]
    exact ⟨h.takenOver, (and_iff_left fun hy => absurd hy hst).symm⟩

def Spares (s : Settings) (m : Manager) : Prop :=
  ∀ profile config, m.poolProfile = some profile → s.poolConfig profile = .ok config →
    live m.calls ≠ [] → m.poolLabel = some (profileLabel profile)

theorem Consistent.spares_iff (h : m.Consistent s) (hp : m.poolProfile = some profile) :
    Spares s m ↔ (Starts s m profile → live m.calls = []) := by
  constructor
  · rintro hs ⟨⟨config, hc⟩, hr, -⟩
    by_contra hl
    obtain ⟨id, hid⟩ := exists_mem_of_ne_nil _ hl
    obtain ⟨d, hd, -⟩ := h.slot id hid
    exact hr ⟨Option.isSome_iff_exists.2 ⟨d, hd⟩, hs profile config hp hc hl⟩
  · rintro hst q config hq hc hl
    obtain rfl : profile = q := Option.some.inj (hp.symm.trans hq)
    by_contra hla
    -- a label is barred only when nothing runs
    have hb : m.l2ExhaustedLabel ≠ some (profileLabel profile) := fun hb =>
      hl (h.live_eq_nil (h.exhausted (hb ▸ some_ne_none _)).1)
    exact hl (hst ⟨⟨config, hc⟩, fun hr => hla hr.2, hb⟩)

theorem ensureRunning_spec (env : Surroundings) (h : m.Consistent s) :
    (m.ensureRunning s env).2.Consistent s ∧
      (Exclusive (m.ensureRunning s env).2.calls ↔ Exclusive m.calls ∧ Spares s m) := by
  unfold ensureRunning
  cases hp : m.poolProfile with
  | some profile =>
    rw [h.spares_iff hp]
    exact ensurePool_spec env h profile
  | none =>
    have hs : Spares s m := fun _ _ hq =>
      absurd (hp.symm.trans hq) (some_ne_none _).symm
    have hke : ∀ m', Keeps s m m' →
        m'.Consistent s ∧ (Exclusive m'.calls ↔ Exclusive m.calls ∧ Spares s m) :=
      fun m' hk => ⟨hk.consistent, hk.exclusive.trans (and_iff_left hs).symm⟩
    split_ifs with hdr hd
    · exact hke _ (keeps_stopDriver env h)
    · exact hke _ h.keeps
    · exact hke _ (keeps_ensureStatic h (Bool.eq_false_iff.2 hdr))

theorem settle_spec (r : Except Text Unit × Manager) :
    ∃ lastError events, settle r = { r.2 with lastError := lastError, events := events } := by
  obtain ⟨_ | _, m⟩ := r
  · exact ⟨_, _, rfl⟩
  · exact ⟨_, _, rfl⟩

end Manager

open Manager

variable {s : Settings} {m : Manager}

theorem HandleOp.apply_eq (op : HandleOp) (m : Manager) : ∃ paused pinned poolProfile, op.apply m =
      { m with paused := paused, pinned := pinned, poolProfile := poolProfile } := by
  cases op with
  | setPaused paused => exact ⟨_, _, _, rfl⟩
  | select profile => exact ⟨_, _, _, rfl⟩
  | rotateNext enabledNames =>
    unfold HandleOp.apply
    dsimp only
    split
    · exact ⟨_, _, _, rfl⟩
    · exact ⟨_, _, _, rfl⟩
  | applyPoolProfile profile => exact ⟨_, _, _, rfl⟩

theorem foldl_handle_eq (ops : List HandleOp) (m : Manager) :
    ∃ paused pinned poolProfile, ops.foldl (fun m op => op.apply m) m =
      { m with paused := paused, pinned := pinned, poolProfile := poolProfile } := by
  induction ops generalizing m with
  | nil => exact ⟨_, _, _, rfl⟩
  | cons op ops ih =>
    obtain ⟨_, _, _, hop⟩ := op.apply_eq m
    obtain ⟨_, _, _, hops⟩ := ih (op.apply m)
    rw [foldl_cons, hops, hop]
    exact ⟨_, _, _, rfl⟩

theorem Manager.Consistent.handled (h : m.Consistent s) (paused : Bool) (pinned : Option Text)
    (poolProfile : Option VpnProfile) :
    { m with paused := paused, pinned := pinned, poolProfile := poolProfile }.Consistent s :=
  ⟨h.slot, h.fresh, h.label, h.config, h.static, h.exhausted⟩

theorem found_eq (s : Settings) (c : Cycle) (m : Manager) :
    ∃ lastError events paused pinned poolProfile, c.found s m =
      { (m.ensureRunning s c.ensure).2 with
        lastError := lastError, events := events, paused := paused, pinned := pinned,
        poolProfile := poolProfile } := by
  obtain ⟨_, _, _, hb⟩ := foldl_handle_eq c.between (settle (m.ensureRunning s c.ensure))
  obtain ⟨_, _, hs⟩ := settle_spec (m.ensureRunning s c.ensure)
  unfold Cycle.found
  rw [hb, hs]
  exact ⟨_, _, _, _, _, rfl⟩

theorem found_consistent (c : Cycle) (h : m.Consistent s) : (c.found s m).Consistent s := by
  obtain ⟨_, _, _, _, _, hf⟩ := found_eq s c m
  have hc := (ensureRunning_spec c.ensure h).1
  rw [hf]
  exact ⟨hc.slot, hc.fresh, hc.label, hc.config, hc.static, hc.exhausted⟩

theorem calls_found (s : Settings) (c : Cycle) (m : Manager) :
    (c.found s m).calls = (m.ensureRunning s c.ensure).2.calls := by
  obtain ⟨_, _, _, _, _, hf⟩ := found_eq s c m
  rw [hf]

/-- **One cycle:** the log stays exclusive exactly when no other driver is live. -/
theorem cycle_spec (c : Cycle) (h : m.Consistent s) : (c.apply s m).Consistent s ∧
      (Exclusive (c.apply s m).calls ↔ Exclusive m.calls ∧ (m.paused = false → Spares s m)) := by
  unfold Cycle.apply
  by_cases hp : m.paused
  · have hsk : m.paused = false → Spares s m := by
      rw [hp]
      exact nofun
    rw [and_iff_left hsk]
    split_ifs
    · have hs : ∀ events, Keeps s m { m.stopDriver c.ensure with events := events } :=
        fun _ => (keeps_stopDriver c.ensure h).of_fields rfl rfl rfl rfl rfl rfl rfl rfl
      exact ⟨(hs _).consistent, (hs _).exclusive⟩
    · exact ⟨h, Iff.rfl⟩
  · rw [if_neg hp, imp_iff_right (Bool.eq_false_iff.2 hp)]
    have hsu := keeps_supervise c.supervise (found_consistent c h)
    refine ⟨hsu.consistent, hsu.exclusive.trans ?_⟩
    rw [calls_found]
    exact (ensureRunning_spec c.ensure h).2

theorem consistent_apply (op : Op) (m : Manager) (h : m.Consistent s) :
    (op.apply s m).Consistent s := by
  cases op with
  | handle op =>
    obtain ⟨_, _, _, hop⟩ := op.apply_eq m
    rw [Op.apply, hop]
    exact h.handled _ _ _
  | cycle c => exact (cycle_spec c h).1

/-- **The invariant of every run.** -/
theorem consistent_run (s : Settings) (ops : List Op) :
    (run (Op.apply s) ops (Manager.init s)).Consistent s :=
  run_invariant consistent_apply ops init_consistent

def SparesAt (s : Settings) (op : Op) (m : Manager) : Prop :=
  match op with
  | .cycle _ => m.paused = false → Spares s m
  | .handle _ => True

theorem exclusive_apply_iff (op : Op) (m : Manager) (h : m.Consistent s) :
    Exclusive (op.apply s m).calls ↔ Exclusive m.calls ∧ SparesAt s op m := by
  cases op with
  | handle op =>
    obtain ⟨_, _, _, hop⟩ := op.apply_eq m
    rw [Op.apply, hop]
    exact (and_iff_left trivial).symm
  | cycle c => exact (cycle_spec c h).2

/-- **When drivers never overlap:** when no cycle selects a pool profile while a driver under
another label is live. -/
theorem exclusive_run_iff (s : Settings) (ops : List Op) :
    Exclusive (run (Op.apply s) ops (Manager.init s)).calls ↔
      Along (Op.apply s) (SparesAt s) ops (Manager.init s) := by
  have he : Exclusive (Manager.init s).calls := trivial
  have hr := run_iff_along (E := fun m : Manager => Exclusive m.calls) consistent_apply
    exclusive_apply_iff ops (init_consistent (s := s))
  rwa [and_iff_right he] at hr

def vlessProfile (label uuid : String) : VpnProfile :=
  { profileId := [], protocol := .vless, server := "h.example".toList, port := 443,
    transport := .tcp, security := .none, sni := none, realityPbk := none, realitySid := none,
    flow := none, uuid := uuid.toList, fingerprint := none, pinnedPeerCertSha256 := none,
    label := label.toList, source := [], sourceTsMs := 0 }

/-- The pool selects one profile and then another. -/
theorem overlap_on_reselection : ¬Exclusive (run (Op.apply {})
      [.handle (.applyPoolProfile (some (vlessProfile "a" "1"))), .cycle {},
        .handle (.applyPoolProfile (some (vlessProfile "b" "1"))), .cycle {}]
      (Manager.init {})).calls := by decide +kernel

end BalanSir.Xray
