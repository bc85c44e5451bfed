/-
# Exhausted recovery

The bar on a label whose recovery was exhausted, along the cycles of the pool.
-/

import BalanSir.Xray.Slot

namespace BalanSir.Xray

open Lib Vpn Manager Option List
open Relation (ReflTransGen)

structure Slot where
  driver : Option Driver
  barred : Option Text
  calls : List DriverCall

def Manager.toSlot (m : Manager) : Slot := ⟨m.driver, m.l2ExhaustedLabel, m.calls⟩

/-- What can happen to the slot while the pool drives. -/
inductive PoolStep : Slot → Slot → Prop
  | stop (d : Driver) (b : Option Text) (calls : List DriverCall) (ok : Bool) :
      PoolStep ⟨some d, b, calls⟩ ⟨none, b, calls ++ [.stop d ok, .drop d]⟩
  | fail {d : Driver} {p : VpnProfile} (o : Option Driver) (b : Option Text)
      (calls : List DriverCall) (hp : d.origin = some p) (hb : b ≠ some (profileLabel p)) :
      PoolStep ⟨o, b, calls⟩ ⟨o, b, calls ++ [.start d false, .drop d]⟩
  | start {d : Driver} {p : VpnProfile} (o : Option Driver) (b : Option Text)
      (calls : List DriverCall) (hp : d.origin = some p) (hb : b ≠ some (profileLabel p)) :
      PoolStep ⟨o, b, calls⟩
        ⟨some d, none, calls ++ .start d true :: (o.map .drop).toList⟩
  | stopFails (d : Driver) (b : Option Text) (calls : List DriverCall) :
      PoolStep ⟨some d, b, calls⟩ ⟨some d, b, calls ++ [.stop d false]⟩
  | restart (d : Driver) (b : Option Text) (calls : List DriverCall) (ok : Bool) :
      PoolStep ⟨some d, b, calls⟩ ⟨some d, b, calls ++ [.stop d true, .start d ok]⟩
  | exhaust (d : Driver) (b : Option Text) (calls : List DriverCall) (ok : Bool) :
      PoolStep ⟨some d, b, calls⟩
        ⟨none, some ((d.origin.map profileLabel).getD "active".toList),
          calls ++ [.stop d ok, .drop d]⟩

variable {s : Settings} {env : Surroundings} {m : Manager}

theorem poolSteps_stopDriver (env : Surroundings) (m : Manager) :
    ReflTransGen PoolStep m.toSlot (m.stopDriver env).toSlot := by
  cases hd : m.driver with
  | none => rw [stopDriver_of_none hd]
  | some d =>
    unfold stopDriver toSlot
    rw [hd]
    exact .single (.stop d _ _ _)

theorem poolSteps_ensurePool (env : Surroundings) (m : Manager) (p : VpnProfile) :
    ReflTransGen PoolStep m.toSlot (m.ensurePool s env p).2.toSlot := by
  by_cases hst : Starts s m p
  · obtain ⟨config, -, heq⟩ := ensurePool_of_starts env hst
    rw [heq]
    unfold startConfig
    cases hs : env.start with
    | error e =>
      rw [launch_error hs]
      exact .single (.fail _ _ _ rfl hst.2.2)
    | ok _ =>
      rw [launch_ok hs]
      exact .single (.start _ _ _ rfl hst.2.2)
  · rw [ensurePool_of_not_starts hst]
    exact .refl

theorem poolSteps_restartActiveDriver (env : Surroundings) (m : Manager) :
    ReflTransGen PoolStep m.toSlot (m.restartActiveDriver env).toSlot := by
  unfold restartActiveDriver toSlot
  cases hd : m.driver with
  | none =>
    rw [hd]
  | some d =>
    cases env.stop with
    | error e => exact .single (.stopFails d _ _)
    | ok _ =>
      cases env.start with
      | error e => exact .single (.restart d _ _ false)
      | ok _ => exact .single (.restart d _ _ true)

theorem poolSteps_exhaustRecovery (env : Surroundings) (h : m.Consistent s) {d : Driver}
    (hd : m.driver = some d) : PoolStep m.toSlot (m.exhaustRecovery env).toSlot := by
  have hl : m.activeLabel = d.origin.map profileLabel := by
    rw [activeLabel, h.label, hd, bind_some]
  unfold exhaustRecovery stopDriver toSlot
  rw [hl, hd]
  exact .exhaust d _ _ _

theorem poolSteps_supervise (env : Surroundings) (h : m.Consistent s) (hp : m.poolDriven) :
    ReflTransGen PoolStep m.toSlot (m.supervise s env).toSlot := by
  cases hd : m.driver with
  | none => rw [supervise_of_none hd]
  | some d =>
    rw [supervise_of_poolDriven hd hp]
    have hl2 : ∀ l2, { m with l2 := l2 }.Consistent s :=
      fun _ => ⟨h.slot, h.fresh, h.label, h.config, h.static, h.exhausted⟩
    obtain ⟨action, l2⟩ := m.l2.observe env.health env.nowMs
    cases action with
    | none => exact .refl
    | grace => exact .refl
    | restart => exact poolSteps_restartActiveDriver env { m with l2 := l2 }
    | exhaust => exact .single (poolSteps_exhaustRecovery env (hl2 l2) hd)

theorem poolSteps_ensureRunning (env : Surroundings) (hp : m.poolDriven) :
    ReflTransGen PoolStep m.toSlot (m.ensureRunning s env).2.toSlot ∧
      (m.ensureRunning s env).2.poolDriven := by
  unfold ensureRunning
  cases m.poolProfile with
  | some profile => exact ⟨poolSteps_ensurePool env m profile, poolDriven_ensurePool⟩
  | none =>
    split_ifs with hd
    · exact ⟨poolSteps_stopDriver env m, poolDriven_stopDriver.trans hp⟩
    · exact ⟨.refl, hp⟩

/-- **A cycle acts on the slot by the transitions of `PoolStep`.** -/
theorem cycle_poolSteps (c : Cycle) (h : m.Consistent s) (hp : m.poolDriven) :
    ReflTransGen PoolStep m.toSlot (c.apply s m).toSlot ∧ (c.apply s m).poolDriven := by
  unfold Cycle.apply
  split_ifs with hpa hd
  · exact ⟨poolSteps_stopDriver c.ensure m, poolDriven_stopDriver.trans hp⟩
  · exact ⟨.refl, hp⟩
  · obtain ⟨hs, hdr⟩ := poolSteps_ensureRunning c.ensure hp
    obtain ⟨_, _, _, _, _, hf⟩ := found_eq s c m
    have hsl : (c.found s m).toSlot = (m.ensureRunning s c.ensure).2.toSlot := by
      rw [hf]
      rfl
    have hp' : (c.found s m).poolDriven := by
      rw [hf]
      exact hdr
    have hc := found_consistent c h
    rw [← hsl] at hs
    exact ⟨hs.trans (poolSteps_supervise c.supervise hc hp'),
      (keeps_supervise c.supervise hc).poolDriven.trans hp'⟩

theorem apply_poolSteps (op : Op) (h : m.Consistent s) (hp : m.poolDriven) :
    ReflTransGen PoolStep m.toSlot (op.apply s m).toSlot ∧ (op.apply s m).poolDriven := by
  cases op with
  | handle op =>
    obtain ⟨_, _, _, hop⟩ := op.apply_eq m
    rw [Op.apply, hop]
    exact ⟨.refl, hp⟩
  | cycle c => exact cycle_poolSteps c h hp

/-- **So does a run from where the pool has taken over.** -/
theorem run_poolSteps (ops : List Op) (h : m.Consistent s) (hp : m.poolDriven) :
    ReflTransGen PoolStep m.toSlot (run (Op.apply s) ops m).toSlot := by
  induction ops generalizing m with
  | nil => exact .refl
  | cons op ops ih =>
    obtain ⟨hs, hd⟩ := apply_poolSteps op h hp
    exact hs.trans (ih (consistent_apply op m h) hd)

def StartsFor (q : VpnProfile) (calls : List DriverCall) : Prop :=
  ∃ d ok, .start d ok ∈ calls ∧ d.origin.map profileLabel = some (profileLabel q)

def StartsOther (q : VpnProfile) (calls : List DriverCall) : Prop :=
  ∃ d, .start d true ∈ calls ∧ d.origin.map profileLabel ≠ some (profileLabel q)

/-- Nothing runs and the profile's label is barred. -/
structure Guarded (q : VpnProfile) (a : Slot) : Prop where
  driver : a.driver = none
  barred : a.barred = some (profileLabel q)

/-- The profile's label is not barred, and no driver runs under it. -/
structure Freed (q : VpnProfile) (a : Slot) : Prop where
  barred : a.barred ≠ some (profileLabel q)
  driver : ∀ d, a.driver = some d → ∃ r, d.origin = some r ∧ profileLabel r ≠ profileLabel q

variable {q : VpnProfile} {a b : Slot} {c : Cycle} {ops : List Op} {calls new : List DriverCall}

theorem startsFor_append : StartsFor q (calls ++ new) ↔ StartsFor q calls ∨ StartsFor q new := by
  simp only [StartsFor, mem_append, or_and_right, exists_or]

theorem startsOther_append :
    StartsOther q (calls ++ new) ↔ StartsOther q calls ∨ StartsOther q new := by
  simp only [StartsOther, mem_append, or_and_right, exists_or]

theorem not_guarded {d : Driver} {o : Option Text} {calls : List DriverCall} :
    ¬Guarded q ⟨some d, o, calls⟩ := fun h => some_ne_none d h.driver

/-- **What one transition does about the bar.** Only a driver with another label lifts it. -/
theorem PoolStep.spec (q : VpnProfile) (h : PoolStep a b) : ∃ new, b.calls = a.calls ++ new ∧
    (Guarded q a → ¬StartsFor q new ∧
      ((¬StartsOther q new ∧ Guarded q b) ∨ (StartsOther q new ∧ Freed q b))) ∧
    (Freed q a → StartsFor q new ∨ Freed q b) := by
  cases h with
  | stop d b calls ok =>
    refine ⟨_, rfl, fun h => absurd h not_guarded, fun h => Or.inr ⟨h.barred, ?_⟩⟩
    exact fun d' hd' => absurd hd' (some_ne_none d').symm
  | @fail d p o b calls hp hb =>
    refine ⟨_, rfl, fun h => ⟨?_, Or.inl ⟨?_, h.driver, h.barred⟩⟩,
      fun h => Or.inr ⟨h.barred, h.driver⟩⟩
    · rintro ⟨d', ok, hm, hl⟩
      obtain ⟨rfl, rfl⟩ : d' = d ∧ ok = false := by simpa using hm
      rw [hp] at hl
      exact hb (h.barred.trans hl.symm)
    · rintro ⟨d', hm, -⟩
      simp at hm
  | @start d p o b calls hp hb =>
    -- the label that is started is not the barred one
    have ho : profileLabel p ≠ profileLabel q →
        Freed q ⟨some d, none, calls ++ .start d true :: (o.map .drop).toList⟩ := by
      intro hne
      refine ⟨(some_ne_none _).symm, ?_⟩
      rintro d' ⟨⟩
      exact ⟨p, hp, hne⟩
    refine ⟨_, rfl, fun h => ?_, fun h => ?_⟩
    · have hne : profileLabel p ≠ profileLabel q := fun he => hb (he ▸ h.barred)
      refine ⟨?_, Or.inr ⟨⟨d, mem_cons_self, ?_⟩, ho hne⟩⟩
      · rintro ⟨d', ok, hm, hl⟩
        obtain ⟨rfl, rfl⟩ : d' = d ∧ ok = true := by
          cases o <;> simpa using hm
        rw [hp] at hl
        exact hne (Option.some.inj hl)
      · rw [hp]
        exact fun he => hne (Option.some.inj he)
    · by_cases he : profileLabel p = profileLabel q
      · refine Or.inl ⟨d, true, mem_cons_self, ?_⟩
        rw [hp, map_some, he]
      · exact Or.inr (ho he)
  | stopFails d b calls =>
    exact ⟨_, rfl, fun h => absurd h not_guarded, fun h => Or.inr ⟨h.barred, h.driver⟩⟩
  | restart d b calls ok =>
    exact ⟨_, rfl, fun h => absurd h not_guarded, fun h => Or.inr ⟨h.barred, h.driver⟩⟩
  | exhaust d b calls ok =>
    refine ⟨_, rfl, fun h => absurd h not_guarded, fun h => Or.inr ⟨?_, ?_⟩⟩
    · obtain ⟨r, hr, hne⟩ := h.driver d rfl
      rw [hr]
      exact fun he => hne (Option.some.inj he)
    · exact fun d' hd' => absurd hd' (some_ne_none d').symm

theorem poolSteps_spec (q : VpnProfile) (hg : Guarded q a) (h : ReflTransGen PoolStep a b) :
    ∃ new, b.calls = a.calls ++ new ∧ (StartsFor q new ∨
      (StartsOther q new ∧ Freed q b) ∨ (¬StartsOther q new ∧ Guarded q b)) := by
  induction h with
  | refl =>
    refine ⟨[], (append_nil _).symm, Or.inr (Or.inr ⟨?_, hg⟩)⟩
    rintro ⟨d, hm, -⟩
    cases hm
  | tail _ hs ih =>
    obtain ⟨new, hc, hca⟩ := ih
    obtain ⟨new', hc', hgu, hfr⟩ := hs.spec q
    refine ⟨new ++ new', by rw [hc', hc, append_assoc], ?_⟩
    rw [startsFor_append, startsOther_append]
    rcases hca with hfo | ⟨ho, hf⟩ | ⟨hno, hg'⟩
    · exact Or.inl (Or.inl hfo)
    · exact (hfr hf).imp Or.inr fun hf' => Or.inl ⟨Or.inl ho, hf'⟩
    · rcases (hgu hg').2 with ⟨hno', hg''⟩ | ⟨ho, hf⟩
      · exact Or.inr (Or.inr ⟨not_or.2 ⟨hno, hno'⟩, hg''⟩)
      · exact Or.inr (Or.inl ⟨Or.inr ho, hf⟩)

def after (s : Settings) (ops : List Op) : Manager := run (Op.apply s) ops (Manager.init s)

def newCalls (s : Settings) (ops later : List Op) : List DriverCall :=
  (after s (ops ++ later)).calls.drop (after s ops).calls.length

def Exhausts (s : Settings) (c : Cycle) (m : Manager) (q : VpnProfile) : Prop :=
  m.paused = false ∧ (c.found s m).poolDriven = true ∧
    (∃ d ∈ (c.found s m).driver, d.origin = some q) ∧
    ((c.found s m).l2.observe c.supervise.health c.supervise.nowMs).1 = .exhaust
  deriving Decidable

def Op.selections : Op → List (Option VpnProfile)
  | .handle op => handled op
  | .cycle c => c.between.flatMap handled
where
  handled : HandleOp → List (Option VpnProfile)
    | .applyPoolProfile profile => [profile]
    | _ => []

theorem guarded_of_exhausts (h : m.Consistent s) (hex : Exhausts s c m q) :
    Guarded q (c.apply s m).toSlot ∧ (c.apply s m).poolDriven ∧
      ∃ config, s.poolConfig q = .ok config := by
  obtain ⟨hpa, hp, ⟨d, hd, hq⟩, ho⟩ := hex
  have hc := found_consistent c h
  have heq : c.apply s m = { c.found s m with
      l2 := ((c.found s m).l2.observe c.supervise.health c.supervise.nowMs).2
      }.exhaustRecovery c.supervise := by
    unfold Cycle.apply
    rw [if_neg (Bool.eq_false_iff.1 hpa), supervise_of_poolDriven hd hp]
    revert ho
    generalize (c.found s m).l2.observe c.supervise.health c.supervise.nowMs = r
    obtain ⟨action, l2⟩ := r
    rintro rfl
    rfl
  have hl : (c.found s m).activeLabel = some (profileLabel q) := by
    rw [activeLabel, hc.label, Option.mem_def.1 hd, bind_some, hq, map_some]
  refine ⟨⟨?_, ?_⟩, ?_, d.config, hc.config d q hd hq⟩
  · rw [heq]
    exact driver_stopDriver
  · rw [heq]
    exact congrArg some (congrArg (Option.getD · _) hl)
  · rw [heq]
    exact poolDriven_stopDriver.trans hp

/-- Nothing runs, the selected profile is barred. -/
structure Waits (q : VpnProfile) (m : Manager) : Prop where
  guarded : Guarded q m.toSlot
  poolDriven : m.poolDriven = true
  selected : m.poolProfile = some q

theorem Waits.handle (h : Waits q m) {op : HandleOp}
    (hs : ∀ x ∈ Op.selections.handled op, x = some q) :
    Waits q (op.apply m) ∧ (op.apply m).calls = m.calls := by
  cases op with
  | setPaused paused => exact ⟨⟨h.guarded, h.poolDriven, h.selected⟩, rfl⟩
  | select profile => exact ⟨⟨h.guarded, h.poolDriven, h.selected⟩, rfl⟩
  | rotateNext enabledNames =>
    unfold HandleOp.apply
    dsimp only
    split
    · exact ⟨⟨h.guarded, h.poolDriven, h.selected⟩, rfl⟩
    · exact ⟨h, rfl⟩
  | applyPoolProfile profile =>
    exact ⟨⟨h.guarded, h.poolDriven, hs profile mem_cons_self⟩, rfl⟩

theorem Waits.foldl_handle (h : Waits q m) {ops : List HandleOp}
    (hs : ∀ x ∈ ops.flatMap Op.selections.handled, x = some q) :
    Waits q (ops.foldl (fun m op => op.apply m) m) ∧
      (ops.foldl (fun m op => op.apply m) m).calls = m.calls := by
  induction ops generalizing m with
  | nil => exact ⟨h, rfl⟩
  | cons op ops ih =>
    rw [flatMap_cons, forall_mem_append] at hs
    obtain ⟨hop, hc⟩ := h.handle hs.1
    obtain ⟨hops, hc'⟩ := ih hop hs.2
    exact ⟨hops, hc'.trans hc⟩

theorem Waits.cycle (h : Waits q m)
    (hsel : ∀ x ∈ c.between.flatMap Op.selections.handled, x = some q) :
    Waits q (c.apply s m) ∧ (c.apply s m).calls = m.calls := by
  have hd : m.driver = none := h.guarded.driver
  unfold Cycle.apply
  split_ifs with hp hso
  · rw [hd] at hso
    cases hso
  · exact ⟨h, rfl⟩
  · have hq : (m.ensureRunning s c.ensure).2 = m.takenOver := by
      unfold ensureRunning
      rw [h.selected]
      exact ensurePool_of_not_starts fun hst => hst.2.2 h.guarded.barred
    obtain ⟨e, events, hse⟩ := settle_spec (m.ensureRunning s c.ensure)
    have hs : Waits q (settle (m.ensureRunning s c.ensure)) ∧
        (settle (m.ensureRunning s c.ensure)).calls = m.calls := by
      rw [hse, hq]
      exact ⟨⟨h.guarded, rfl, h.selected⟩, rfl⟩
    obtain ⟨hf, hc⟩ := hs.1.foldl_handle hsel
    have hn : (c.found s m).driver = none := hf.guarded.driver
    rw [supervise_of_none hn]
    exact ⟨hf, hc.trans hs.2⟩

/-- **While the barred profile stays selected, nothing is called.** -/
theorem Waits.run (h : Waits q m) (hse : ∀ x ∈ ops.flatMap Op.selections, x = some q) :
    (run (Op.apply s) ops m).calls = m.calls := by
  induction ops generalizing m with
  | nil => rfl
  | cons op ops ih =>
    rw [flatMap_cons, forall_mem_append] at hse
    have hs : Waits q (op.apply s m) ∧ (op.apply s m).calls = m.calls := by
      cases op with
      | handle op => exact h.handle hse.1
      | cycle c => exact h.cycle hse.1
    exact (ih hs.1 hse.2).trans hs.2

def InvokesStart (s : Settings) (env : Surroundings) (m : Manager) (q : VpnProfile) : Prop :=
  ∃ d ok rest, (m.ensureRunning s env).2.calls = m.calls ++ .start d ok :: rest ∧
    d.origin = some q

theorem invokesStart_iff (env : Surroundings) (hse : m.poolProfile = some q) :
    InvokesStart s env m q ↔ Starts s m q := by
  have heq : m.ensureRunning s env = m.ensurePool s env q := by
    unfold ensureRunning
    rw [hse]
  unfold InvokesStart
  rw [heq]
  constructor
  · rintro ⟨d, ok, rest, hc, -⟩
    by_contra hst
    rw [ensurePool_of_not_starts hst] at hc
    exact cons_ne_nil _ _ (List.self_eq_append_right.1 hc)
  · intro hst
    obtain ⟨config, -, hsta⟩ := ensurePool_of_starts env hst
    rw [hsta]
    unfold startConfig
    cases hs : env.start with
    | error e =>
      rw [launch_error hs]
      exact ⟨_, _, _, rfl, rfl⟩
    | ok _ =>
      rw [launch_ok hs]
      exact ⟨_, _, _, rfl, rfl⟩

/-- `q` is not started while selected; selected anew, it is started by the next `ensure_running`. -/
structure Honours (s : Settings) (q : VpnProfile) (ops later : List Op) (env : Surroundings) :
    Prop where
  stays : (after s ops).poolProfile = some q → (∀ x ∈ later.flatMap Op.selections, x = some q) →
    ¬StartsFor q (newCalls s ops later)
  returns : none ∈ later.flatMap Op.selections → ¬StartsFor q (newCalls s ops later) →
    InvokesStart s env
      ((HandleOp.applyPoolProfile (some q)).apply (after s (ops ++ later))) q

theorem after_append (s : Settings) (ops later : List Op) :
    after s (ops ++ later) = run (Op.apply s) later (after s ops) := run_append ..

theorem consistent_after (s : Settings) (ops : List Op) : (after s ops).Consistent s :=
  consistent_run s ops

theorem guarded_after (hex : Exhausts s c (after s ops) q) :
    Guarded q (after s (ops ++ [.cycle c])).toSlot ∧
      (after s (ops ++ [.cycle c])).poolDriven ∧ ∃ config, s.poolConfig q = .ok config := by
  rw [after_append]
  exact guarded_of_exhausts (consistent_after s ops) hex

theorem newCalls_spec (later : List Op) (hg : Guarded q (after s ops).toSlot)
    (hp : (after s ops).poolDriven) : StartsFor q (newCalls s ops later) ∨
      (StartsOther q (newCalls s ops later) ∧ Freed q (after s (ops ++ later)).toSlot) ∨
      (¬StartsOther q (newCalls s ops later) ∧ Guarded q (after s (ops ++ later)).toSlot) := by
  obtain ⟨new, hc, hca⟩ :=
    poolSteps_spec q hg (run_poolSteps later (consistent_after s ops) hp)
  rw [← after_append] at hc hca
  have hn : newCalls s ops later = new := by
    exact (congrArg _ hc).trans drop_left
  rw [hn]
  exact hca

theorem newCalls_of_waits {ops later : List Op} (h : Waits q (after s ops))
    (hs : ∀ x ∈ later.flatMap Op.selections, x = some q) : newCalls s ops later = [] := by
  unfold newCalls
  rw [after_append, h.run hs, drop_length]

theorem starts_of_freed (h : m.Consistent s) {config : XrayConfig}
    (hc : s.poolConfig q = .ok config) (hf : Freed q m.toSlot) : Starts s m q := by
  refine ⟨⟨config, hc⟩, ?_, hf.barred⟩
  rintro ⟨hs, hl⟩
  obtain ⟨d, hd⟩ := Option.isSome_iff_exists.1 hs
  obtain ⟨r, hr, hne⟩ := hf.driver d hd
  rw [h.label, hd, bind_some, hr] at hl
  exact hne (Option.some.inj hl)

/-- **When a profile whose recovery was exhausted comes back.** It is started when it is selected
again exactly if a driver with another label has been started in between. -/
theorem honours_exhaustion_iff (s : Settings) (ops : List Op) (c : Cycle) (q : VpnProfile)
    (later : List Op) (env : Surroundings) (hex : Exhausts s c (after s ops) q) :
    Honours s q (ops ++ [.cycle c]) later env ↔
      (none ∈ later.flatMap Op.selections → ¬StartsFor q (newCalls s (ops ++ [.cycle c]) later) →
        StartsOther q (newCalls s (ops ++ [.cycle c]) later)) := by
  obtain ⟨hg, hp, config, hc⟩ := guarded_after hex
  generalize ops ++ [.cycle c] = ops' at hg hp ⊢
  have hca := newCalls_spec later hg hp
  -- selecting the profile does not change the slot
  have hse : InvokesStart s env ((HandleOp.applyPoolProfile (some q)).apply
      (after s (ops' ++ later))) q ↔ Starts s (after s (ops' ++ later)) q :=
    invokesStart_iff env rfl
  constructor
  · rintro ⟨-, hr⟩ hcl hn
    have hst := hse.1 (hr hcl hn)
    rcases hca with hfo | ⟨ho, -⟩ | ⟨-, hgu⟩
    · exact absurd hfo hn
    · exact ho
    · exact absurd hgu.barred hst.2.2
  · intro hco
    constructor
    · rintro hs hsta ⟨d, ok, hm, -⟩
      rw [newCalls_of_waits ⟨hg, hp, hs⟩ hsta] at hm
      cases hm
    · intro hcl hn
      have ho := hco hcl hn
      rcases hca with hfo | ⟨-, hf⟩ | ⟨hno, -⟩
      · exact absurd hfo hn
      · exact hse.2 (starts_of_freed (consistent_after s _) hc hf)
      · exact absurd ho hno

def cycleAt (nowMs : ℤ) (health : HealthStatus) : Cycle :=
  { ensure := { nowMs := nowMs }, supervise := { nowMs := nowMs, health := health } }

def restartedRun : List Op :=
  [.handle (.applyPoolProfile (some (vlessProfile "a" "1"))), .cycle (cycleAt 100000 .healthy),
    .cycle (cycleAt 111000 (.unhealthy 1)), .cycle (cycleAt 122000 (.unhealthy 1)),
    .cycle (cycleAt 133000 (.unhealthy 1))]

def lastCycle : Cycle := cycleAt 144000 (.unhealthy 1)

/-- Another profile, started between the exhaustion and the clearing, lifts the bar. -/
theorem honours_exhaustion_otherStarted :
    Honours {} (vlessProfile "a" "1") (restartedRun ++ [.cycle lastCycle])
      [.handle (.applyPoolProfile (some (vlessProfile "b" "1"))), .cycle {},
        .handle (.applyPoolProfile none), .cycle {}] {} := by
  refine (honours_exhaustion_iff {} restartedRun lastCycle _ _ {} (by decide +kernel)).2 ?_
  refine fun _ _ => ⟨⟨1, some (vlessProfile "b" "1"), ?_⟩, ?_, ?_⟩
  · exact { server := "h.example".toList, port := 443, uuid := "1".toList, flow := none,
            transport := .tcp, security := .none, name := some "b @ h.example:443".toList,
            socksPort := 10808, httpPort := 10809, geoDomains := [] }
  · decide +kernel
  · decide +kernel

/-- The selection is cleared, which a cycle sees, and then made again. -/
theorem barred_after_clearing :
    Exhausts {} lastCycle (after {} restartedRun) (vlessProfile "a" "1") ∧
      ¬Honours {} (vlessProfile "a" "1") (restartedRun ++ [.cycle lastCycle])
        [.handle (.applyPoolProfile none), .cycle {}] {} := by
  refine ⟨by decide +kernel, fun h => ?_⟩
  have hs := (invokesStart_iff {} rfl).1 (h.returns (by decide +kernel) (by
    rintro ⟨d, ok, hm, -⟩
    cases hm))
  exact hs.2.2 (by decide +kernel)

end BalanSir.Xray
