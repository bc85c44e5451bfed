/-
# Who owns the MTU of a path

`B4Controller`, `PathMtuReconciler` and the executor's `PathMtuStore`, each with its own map.
-/

import BalanSir.B4.Adaptation

namespace BalanSir.B4
namespace Adaptation

open List

open Lib (Table Text Walk run Along)

structure PathMtu where
  path : Text
  mtu : UInt16
  deriving DecidableEq

def mtuMap (l : List PathMtu) : Table Text UInt16 := Table.ofList (l.map fun p => (p.path, p.mtu))

def entriesOf (t : Table Text UInt16) : List PathMtu := t.toList.map fun e => ⟨e.1, e.2⟩

theorem lookup_mtuMap_entriesOf (t : Table Text UInt16) (path : Text) :
    (mtuMap (entriesOf t)).lookup path = t.lookup path := by
  have h : (entriesOf t).map (fun p => (p.path, p.mtu)) = t.toList := by
    rw [entriesOf, map_map]
    exact map_id _
  rw [mtuMap, h, Table.lookup_ofList_toList]

theorem mtuMap_toList_eq_nil {l : List PathMtu} : (mtuMap l).toList = [] ↔ l = [] := by
  rw [mtuMap, Table.toList_ofList_eq_nil, map_eq_nil_iff]

/-- `PathMtuApplier`: what the host answers to a call. -/
structure PathMtuApplier where
  apply : Text → UInt16 → Except Text Unit
  restore : Text → Except Text Unit

def PathMtuApplier.Obliges (applier : PathMtuApplier) : Prop :=
  (∀ path mtu, applier.apply path mtu = .ok ()) ∧ ∀ path, applier.restore path = .ok ()

def obliging : PathMtuApplier := ⟨fun _ _ => .ok (), fun _ => .ok ()⟩

structure PathMtuStore where
  applied : Table Text UInt16

namespace PathMtuStore

def new : PathMtuStore := ⟨∅⟩

def set (applier : PathMtuApplier) (path : Text) (mtu : UInt16) (store : PathMtuStore) :
    Except Text Unit × PathMtuStore :=
  match applier.apply path mtu with
  | .error e => (.error e, store)
  | .ok () => (.ok (), ⟨store.applied.insert path mtu⟩)

def restore (applier : PathMtuApplier) (path : Text) (store : PathMtuStore) :
    Except Text Unit × PathMtuStore :=
  match applier.restore path with
  | .error e => (.error e, store)
  | .ok () => (.ok (), ⟨store.applied.erase path⟩)

def state (store : PathMtuStore) : List PathMtu := entriesOf store.applied

theorem set_cases (applier : PathMtuApplier) (path : Text) (mtu : UInt16) (store : PathMtuStore) :
    (∃ e, applier.apply path mtu = .error e ∧ store.set applier path mtu = (.error e, store)) ∨
      (applier.apply path mtu = .ok () ∧
        store.set applier path mtu = (.ok (), ⟨store.applied.insert path mtu⟩)) := by
  unfold set
  cases applier.apply path mtu with
  | error e => exact .inl ⟨e, rfl, rfl⟩
  | ok => exact .inr ⟨rfl, rfl⟩

theorem restore_cases (applier : PathMtuApplier) (path : Text) (store : PathMtuStore) :
    (∃ e, applier.restore path = .error e ∧ store.restore applier path = (.error e, store)) ∨
      (applier.restore path = .ok () ∧
        store.restore applier path = (.ok (), ⟨store.applied.erase path⟩)) := by
  unfold restore
  cases applier.restore path with
  | error e => exact .inl ⟨e, rfl, rfl⟩
  | ok => exact .inr ⟨rfl, rfl⟩

def Agrees (intended : Table Text UInt16) (store : PathMtuStore) : Prop :=
  ∀ path, intended.lookup path = store.applied.lookup path

namespace Agrees

variable {intended : Table Text UInt16} {store : PathMtuStore}

theorem insert (h : Agrees intended store) (path : Text) (mtu : UInt16) :
    Agrees (intended.insert path mtu) ⟨store.applied.insert path mtu⟩ := by
  intro other
  by_cases hp : other = path
  · rw [hp, AList.lookup_insert, AList.lookup_insert]
  · rw [AList.lookup_insert_ne hp, AList.lookup_insert_ne hp, h other]

theorem erase (h : Agrees intended store) (path : Text) :
    Agrees (intended.erase path) ⟨store.applied.erase path⟩ := by
  intro other
  by_cases hp : other = path
  · rw [hp, AList.lookup_erase, AList.lookup_erase]
  · rw [AList.lookup_erase_ne hp, AList.lookup_erase_ne hp, h other]

end Agrees
end PathMtuStore

/-- `B4Controller`, without the observer and the executor it calls. -/
structure B4Controller where
  engine : B4Engine
  intendedMtu : Table Text UInt16
  mtuEnabled : Bool

namespace B4Controller

def new (policy : B4Policy) (config : B4EngineConfig) : B4Controller :=
  ⟨B4Engine.withConfig policy config, ∅, true⟩

def execute (applier : PathMtuApplier) (flow : Text) (decision : B4Decision) :
    B4Controller × PathMtuStore → B4Controller × PathMtuStore
  | (c, store) =>
    match decision with
    | .adaptMtu mtu =>
      if c.mtuEnabled then
        match store.set applier flow mtu with
        | (.error _, store) => (c, store)
        | (.ok _, store) => ({ c with intendedMtu := c.intendedMtu.insert flow mtu }, store)
      else (c, store)
    | .useFallback | .failStrict => (c, store)
    | .switchDnsPath => ({ c with engine := c.engine.markAdapting flow }, store)
    | .recovered =>
      if (c.intendedMtu.lookup flow).isSome then
        match store.restore applier flow with
        | (.error _, store) => (c, store)
        | (.ok _, store) => ({ c with intendedMtu := c.intendedMtu.erase flow }, store)
      else (c, store)
    | .noop => (c, store)

/-- What the outside answers while a flow is run. -/
structure Answers where
  observation : B4Observation
  applier : PathMtuApplier

def runFor (flow : Text) (answers : Answers) :
    B4Controller × PathMtuStore → List B4Event × B4Controller × PathMtuStore
  | (c, store) =>
    let ((decision, events), engine) := c.engine.evaluate flow answers.observation
    (events, execute answers.applier flow decision ({ c with engine }, store))

def intendedPathMtu (c : B4Controller) : List PathMtu := entriesOf c.intendedMtu

def InSync : B4Controller × PathMtuStore → Prop
  | (c, store) => store.Agrees c.intendedMtu

variable {s : B4Controller × PathMtuStore}

theorem inSync_execute (applier : PathMtuApplier) (flow : Text) (decision : B4Decision)
    (h : InSync s) : InSync (execute applier flow decision s) := by
  obtain ⟨c, store⟩ := s
  cases decision with
  | adaptMtu mtu =>
    by_cases hm : c.mtuEnabled
    · rw [execute, if_pos hm]
      rcases PathMtuStore.set_cases applier flow mtu store with ⟨e, -, hs⟩ | ⟨-, hs⟩
      · rw [hs]
        exact h
      · rw [hs]
        exact PathMtuStore.Agrees.insert h flow mtu
    · rw [execute, if_neg hm]
      exact h
  | recovered =>
    by_cases hi : (c.intendedMtu.lookup flow).isSome
    · rw [execute, if_pos hi]
      rcases PathMtuStore.restore_cases applier flow store with ⟨e, -, hr⟩ | ⟨-, hr⟩
      · rw [hr]
        exact h
      · rw [hr]
        exact PathMtuStore.Agrees.erase h flow
    · rw [execute, if_neg hi]
      exact h
  | useFallback => exact h
  | failStrict => exact h
  | switchDnsPath => exact h
  | noop => exact h

theorem inSync_runFor (flow : Text) (answers : Answers) (h : InSync s) :
    InSync (runFor flow answers s).2 := by
  obtain ⟨c, store⟩ := s
  let evaluated := c.engine.evaluate flow answers.observation
  show InSync (execute answers.applier flow evaluated.1.1
    (⟨evaluated.2, c.intendedMtu, c.mtuEnabled⟩, store))
  exact inSync_execute answers.applier flow _ h

def step (call : Text × Answers) (s : B4Controller × PathMtuStore) : B4Controller × PathMtuStore :=
  (runFor call.1 call.2 s).2

theorem inSync_run (calls : List (Text × Answers)) (h : InSync s) : InSync (run step calls s) :=
  Lib.run_invariant (I := InSync) (fun call _ hs => inSync_runFor call.1 call.2 hs) calls h

def Mirrors (c : B4Controller) : Prop :=
  ∀ flow, (c.engine.context flow).mtu = c.intendedMtu.lookup flow

def intentAfter (mtu : Option UInt16) : B4Decision → Option UInt16
  | .adaptMtu new => some new
  | .recovered => none
  | _ => mtu

theorem mtu_markAdapting (engine : B4Engine) (flow other : Text) :
    ((engine.markAdapting flow).context other).mtu = (engine.context other).mtu := by
  unfold B4Engine.markAdapting
  cases hc : engine.flows.lookup flow with
  | none => rfl
  | some ctx =>
    unfold B4Engine.context
    by_cases ho : other = flow
    · subst ho
      rw [AList.lookup_insert, hc]
      rfl
    · rw [AList.lookup_insert_ne ho]

theorem execute_spec {applier : PathMtuApplier} (hok : applier.Obliges) {c : B4Controller}
    (hm : c.mtuEnabled) (flow : Text) (decision : B4Decision) (store : PathMtuStore) :
    let c' := (execute applier flow decision (c, store)).1
    c'.mtuEnabled = true ∧
      (∀ other, (c'.engine.context other).mtu = (c.engine.context other).mtu) ∧
      c'.intendedMtu.lookup flow = intentAfter (c.intendedMtu.lookup flow) decision ∧
      ∀ other ≠ flow, c'.intendedMtu.lookup other = c.intendedMtu.lookup other := by
  cases decision with
  | adaptMtu mtu =>
    have hs : store.set applier flow mtu = (.ok (), ⟨store.applied.insert flow mtu⟩) := by
      rw [PathMtuStore.set, hok.1]
    rw [execute, if_pos hm, hs]
    exact ⟨hm, fun _ => rfl, AList.lookup_insert _, fun _ => AList.lookup_insert_ne⟩
  | recovered =>
    have hr : store.restore applier flow = (.ok (), ⟨store.applied.erase flow⟩) := by
      rw [PathMtuStore.restore, hok.2]
    rw [execute]
    by_cases hi : (c.intendedMtu.lookup flow).isSome
    · rw [if_pos hi, hr]
      exact ⟨hm, fun _ => rfl, AList.lookup_erase _ _, fun _ => AList.lookup_erase_ne⟩
    · rw [if_neg hi]
      exact ⟨hm, fun _ => rfl, Option.not_isSome_iff_eq_none.1 hi, fun _ _ => rfl⟩
  | switchDnsPath => exact ⟨hm, mtu_markAdapting c.engine flow, rfl, fun _ _ => rfl⟩
  | useFallback => exact ⟨hm, fun _ => rfl, rfl, fun _ _ => rfl⟩
  | failStrict => exact ⟨hm, fun _ => rfl, rfl, fun _ _ => rfl⟩
  | noop => exact ⟨hm, fun _ => rfl, rfl, fun _ _ => rfl⟩

def ForgetsIntent (call : Text × Answers) (s : B4Controller × PathMtuStore) : Prop :=
  s.1.engine.config.enabled = true ∧ classify call.2.observation = .direct ∧
    (s.1.engine.context call.1).mtu ≠ none

theorem mirrors_step_iff {call : Text × Answers} (hok : call.2.applier.Obliges)
    {s : B4Controller × PathMtuStore} (hmt : s.1.mtuEnabled) (h : s.1.Mirrors) :
    (step call s).1.Mirrors ↔ ¬ForgetsIntent call s := by
  obtain ⟨c, store⟩ := s
  obtain ⟨flow, answers⟩ := call
  obtain ⟨-, he, hf, ho⟩ := execute_spec hok
    (c := { c with engine := B4Engine.step (flow, answers.observation) c.engine }) hmt flow
    (B4Engine.decision (flow, answers.observation) c.engine) store
  have hk := B4Engine.mtu_step (flow, answers.observation) c.engine
  have hr := B4Engine.decision_eq_recovered (flow, answers.observation) c.engine
  constructor
  · rintro hm ⟨hon, hd, hs⟩
    have hsa := (he flow).symm.trans ((hm flow).trans hf)
    rw [hk, hr.2 ⟨hon, hd⟩] at hsa
    exact hs hsa
  · intro hno other
    refine (he other).trans ?_
    by_cases hne : other = flow
    · subst hne
      refine Eq.trans hk (Eq.trans ?_ hf.symm)
      cases hde : B4Engine.decision (other, answers.observation) c.engine with
      | adaptMtu mtu => rfl
      | recovered =>
        have hd := hr.1 hde
        by_contra hs
        exact hno ⟨hd.1, hd.2, hs⟩
      | _ => exact h other
    · rw [B4Engine.context_step_ne _ _ hne]
      exact (h other).trans (ho other hne).symm

/-- **When the engine and the controller agree on the MTUs.** While the executor obeys, they do
exactly when no call finds a flow direct for which the engine remembers an MTU: only the controller
drops it then. -/
theorem mirrors_along_iff (policy : B4Policy) (config : B4EngineConfig)
    (calls : List (Text × Answers)) (hok : ∀ call ∈ calls, call.2.applier.Obliges) :
    Along step (fun call s => (step call s).1.Mirrors) calls (new policy config, PathMtuStore.new) ↔
      Along step (fun call s => ¬ForgetsIntent call s) calls
        (new policy config, PathMtuStore.new) := by
  refine Lib.along_congr (I := fun s => s.1.mtuEnabled = true ∧ s.1.Mirrors)
    (fun call hc s hs => mirrors_step_iff (hok call hc) hs.1 hs.2)
    (fun call hc s hs hm => ⟨?_, hm⟩) ⟨rfl, fun _ => rfl⟩
  exact (execute_spec (hok call hc)
    (c := { s.1 with engine := B4Engine.step (call.1, call.2.observation) s.1.engine }) hs.1 call.1
    (B4Engine.decision (call.1, call.2.observation) s.1.engine) s.2).1

def sampleRun (observation : B4Observation) : Text × Answers :=
  (B4Engine.mtuCall.1, ⟨observation, obliging⟩)

/-- Two adaptations of a flow, with a direct one in between that has no MTU. -/
theorem mirrors_adaptations :
    Along step (fun call s => (step call s).1.Mirrors)
      [sampleRun B4Engine.mtuCall.2,
        ("b".toList, ⟨{ B4Observation.default with dnsOk := some true }, obliging⟩),
        sampleRun B4Engine.mtuCall.2]
      (new B4Engine.mtuPolicy .default, PathMtuStore.new) := by
  have ho : obliging.Obliges := ⟨fun _ _ => rfl, fun _ => rfl⟩
  refine (mirrors_along_iff _ _ _ ?_).2 ⟨fun h => ?_, fun h => ?_, fun h => ?_, trivial⟩
  · simpa [sampleRun] using ho
  · exact absurd h.2.1 (by decide)
  · exact h.2.2 rfl
  · exact absurd h.2.1 (by decide)

/-- The flow recovers, and the next adaptation goes on from where the last one was. -/
theorem adaptation_after_recovery :
    let s := run step [sampleRun B4Engine.mtuCall.2,
      sampleRun { B4Observation.default with dnsOk := some true }]
      (new B4Engine.mtuPolicy .default, PathMtuStore.new)
    (s.1.engine.context B4Engine.mtuCall.1).mtu = some 1480 ∧
      s.1.intendedMtu.lookup B4Engine.mtuCall.1 = none ∧
      B4Engine.decision B4Engine.mtuCall s.1.engine = .adaptMtu 1460 := by decide +kernel

end B4Controller

namespace PathMtuReconciler

/-- What the outside answers to a reconcile, and how the maps are walked. -/
structure World where
  applier : PathMtuApplier
  answered : Bool
  entries : Walk (Text × UInt16)
  paths : Walk Text

def World.pathMtuState (w : World) (store : PathMtuStore) : List PathMtu :=
  if w.answered then store.state else []

def applyMissing (applier : PathMtuApplier) (reported : Table Text UInt16) :
    List (Text × UInt16) → List PathMtu → PathMtuStore → List PathMtu × PathMtuStore
  | [], after, store => (after, store)
  | (path, mtu) :: rest, after, store =>
    let store :=
      if reported.lookup path ≠ some mtu then (store.set applier path mtu).2 else store
    applyMissing applier reported rest (after ++ [⟨path, mtu⟩]) store

def restoreExtra (applier : PathMtuApplier) (intended : Table Text UInt16) :
    List Text → PathMtuStore → PathMtuStore
  | [], store => store
  | path :: rest, store =>
    let store :=
      if (intended.lookup path).isNone then (store.restore applier path).2 else store
    restoreExtra applier intended rest store

def reconcile (w : World) (intended : List PathMtu) (store : PathMtuStore) :
    List PathMtu × PathMtuStore :=
  let reported := w.pathMtuState store
  let intendedMap := mtuMap intended
  let reportedMap := mtuMap reported
  let (after, store) :=
    applyMissing w.applier reportedMap (w.entries.arrange intendedMap.toList) [] store
  (after, restoreExtra w.applier intendedMap (w.paths.arrange reportedMap.keys) store)

variable {applier : PathMtuApplier} {reported intended : Table Text UInt16}

theorem applyMissing_fst (entries : List (Text × UInt16)) (after : List PathMtu)
    (store : PathMtuStore) :
    (applyMissing applier reported entries after store).1 =
      after ++ entries.map fun e => ⟨e.1, e.2⟩ := by
  induction entries generalizing after store with
  | nil => exact (append_nil after).symm
  | cons e entries ih =>
    rw [applyMissing, ih, append_assoc]
    rfl

theorem lookup_applyMissing (hok : ∀ path mtu, applier.apply path mtu = .ok ())
    {entries : List (Text × UInt16)} (he : ∀ e ∈ entries, intended.lookup e.1 = some e.2)
    (after : List PathMtu) (store : PathMtuStore) (path : Text) :
    (applyMissing applier reported entries after store).2.applied.lookup path =
      if path ∈ entries.map Prod.fst ∧ reported.lookup path ≠ intended.lookup path
      then intended.lookup path else store.applied.lookup path := by
  induction entries generalizing after store with
  | nil => rfl
  | cons e entries ih =>
    rw [forall_mem_cons] at he
    rw [applyMissing, ih he.2]
    have hs : (store.set applier e.1 e.2).2 = ⟨store.applied.insert e.1 e.2⟩ := by
      rw [PathMtuStore.set, hok]
    by_cases hp : path = e.1
    · subst hp
      by_cases hr : reported.lookup e.1 ≠ some e.2
      · rw [hs, he.1]
        simp [hr]
      · rw [he.1]
        simp [hr]
    · have hm : path ∈ (e :: entries).map Prod.fst ↔ path ∈ entries.map Prod.fst := by
        simp [hp]
      simp only [hm]
      by_cases hr : reported.lookup e.1 ≠ some e.2
      · rw [if_pos hr, hs, AList.lookup_insert_ne hp]
      · rw [if_neg hr]

theorem lookup_restoreExtra (hok : ∀ path, applier.restore path = .ok ()) (paths : List Text)
    (store : PathMtuStore) (path : Text) :
    (restoreExtra applier intended paths store).applied.lookup path =
      if path ∈ paths ∧ intended.lookup path = none then none
      else store.applied.lookup path := by
  induction paths generalizing store with
  | nil => rfl
  | cons walked paths ih =>
    rw [restoreExtra, ih]
    have hr : (store.restore applier walked).2 = ⟨store.applied.erase walked⟩ := by
      rw [PathMtuStore.restore, hok]
    by_cases hp : path = walked
    · subst hp
      by_cases hi : intended.lookup path = none
      · rw [if_pos (Option.isNone_iff_eq_none.2 hi), hr, AList.lookup_erase, ite_self,
          if_pos ⟨mem_cons_self, hi⟩]
      · simp [hi]
    · have hm : path ∈ walked :: paths ↔ path ∈ paths := by simp [hp]
      simp only [hm]
      by_cases hi : (intended.lookup walked).isNone
      · rw [if_pos hi, hr, AList.lookup_erase_ne hp]
      · rw [if_neg hi]

theorem lookup_of_mem_arrange {w : World} {intended : Table Text UInt16} {e : Text × UInt16}
    (h : e ∈ w.entries.arrange intended.toList) : intended.lookup e.1 = some e.2 :=
  Table.mem_toList.1 (w.entries.mem_arrange.1 h)

theorem mem_map_fst_arrange {w : World} {intended : Table Text UInt16} {path : Text} :
    path ∈ (w.entries.arrange intended.toList).map Prod.fst ↔ intended.lookup path ≠ none := by
  rw [((w.entries.perm _).map Prod.fst).mem_iff, Table.map_fst_toList, ← AList.mem_keys,
    ← AList.lookup_isSome, Option.isSome_iff_ne_none]

/-- **A reconcile without a failing call converges** to the intended MTU on every path. -/
theorem reconcile_converges (w : World) (hq : w.answered)
    (hse : ∀ path mtu, w.applier.apply path mtu = .ok ())
    (hre : ∀ path, w.applier.restore path = .ok ()) (intended : List PathMtu)
    (store : PathMtuStore) : (reconcile w intended store).2.Agrees (mtuMap intended) := by
  intro path
  have hr : (mtuMap (w.pathMtuState store)).lookup path = store.applied.lookup path := by
    rw [World.pathMtuState, if_pos hq]
    exact lookup_mtuMap_entriesOf store.applied path
  have hm : path ∈ w.paths.arrange (mtuMap (w.pathMtuState store)).keys ↔
      store.applied.lookup path ≠ none := by
    rw [w.paths.mem_arrange, ← AList.mem_keys, ← AList.lookup_isSome, hr, Option.isSome_iff_ne_none]
  show _ = (restoreExtra _ _ _ _).applied.lookup path
  rw [lookup_restoreExtra hre, lookup_applyMissing hse fun _ he => lookup_of_mem_arrange he]
  simp only [hm, mem_map_fst_arrange, hr]
  cases hi : (mtuMap intended).lookup path with
  | none => by_cases hs : store.applied.lookup path = none <;> simp [hs]
  | some mtu => by_cases hs : store.applied.lookup path = some mtu <;> simp [hs]

theorem reconcile_fst (w : World) (intended : List PathMtu) (store : PathMtuStore) :
    (reconcile w intended store).1 =
      (w.entries.arrange (mtuMap intended).toList).map fun e => ⟨e.1, e.2⟩ :=
  applyMissing_fst _ [] store

theorem reconcile_fst_eq_nil (w : World) (intended : List PathMtu) (store : PathMtuStore) :
    (reconcile w intended store).1 = [] ↔ intended = [] := by
  rw [reconcile_fst, map_eq_nil_iff, ← mtuMap_toList_eq_nil]
  constructor
  · intro h
    have hp := w.entries.perm (mtuMap intended).toList
    rw [h] at hp
    exact hp.nil_eq.symm
  · intro h
    rw [h]
    exact (w.entries.perm []).eq_nil

end PathMtuReconciler

open PathMtuReconciler (reconcile)

/-- **The intent is what the executor reports** after every run of `run_for`; and a reconcile
without failing calls brings an executor in any state to it. -/
theorem intent_is_reported :
    (∀ (policy : B4Policy) (config : B4EngineConfig) (mtuEnabled : Bool)
        (calls : List (Text × B4Controller.Answers)) (path : Text),
      let s := run B4Controller.step calls
        ({ B4Controller.new policy config with mtuEnabled }, PathMtuStore.new)
      (mtuMap s.1.intendedPathMtu).lookup path = (mtuMap s.2.state).lookup path) ∧
    ∀ (w : PathMtuReconciler.World) (intended : List PathMtu) (store : PathMtuStore),
      w.answered = true → (∀ path mtu, w.applier.apply path mtu = .ok ()) →
      (∀ path, w.applier.restore path = .ok ()) →
      ∀ path, (mtuMap (reconcile w intended store).2.state).lookup path =
        (mtuMap intended).lookup path := by
  constructor
  · intro policy config mtuEnabled calls path s
    have hs : B4Controller.InSync
        ({ B4Controller.new policy config with mtuEnabled }, PathMtuStore.new) := fun _ => rfl
    have hsy := B4Controller.inSync_run calls hs
    have hp := hsy path
    rw [B4Controller.intendedPathMtu, PathMtuStore.state, lookup_mtuMap_entriesOf,
      lookup_mtuMap_entriesOf, hp]
  · intro w intended store hq hse hr path
    rw [PathMtuStore.state, lookup_mtuMap_entriesOf]
    exact (PathMtuReconciler.reconcile_converges w hq hse hr intended store path).symm

def PathMtuReconciler.World.calm : PathMtuReconciler.World := ⟨obliging, true, .inOrder, .inOrder⟩

/-- A stale path is dropped and an MTU that has drifted is set again. -/
theorem reconcile_drifted_and_stale :
    let store : PathMtuStore := ⟨Table.ofList [("a".toList, 1400), ("b".toList, 1300)]⟩
    store.applied.lookup "b".toList = some 1300 ∧
      ∀ path, (mtuMap (reconcile .calm [⟨"a".toList, 1480⟩] store).2.state).lookup path =
        (mtuMap [⟨"a".toList, 1480⟩]).lookup path :=
  ⟨by decide, intent_is_reported.2 .calm [⟨"a".toList, 1480⟩] _ rfl (fun _ _ => rfl) fun _ => rfl⟩

/-- `SubsystemEvent`, those a cycle sends. -/
inductive SubsystemEvent where
  | b4Adapted (flow capability : Text)
  | b4Recovered (flow : Text)
  | b4StateChanged (flow state : Text)
  | b4Drift (detail : Text)
  deriving DecidableEq

def B4Capability.debug : B4Capability → Text
  | .mtu => "Mtu".toList
  | .dnsPath => "DnsPath".toList

def B4Event.published (flow : Text) : B4Event → Option SubsystemEvent
  | .classified _ _ => none
  | .adapted _ capability => some (.b4Adapted flow capability.debug)
  | .recovered _ => some (.b4Recovered flow)
  | .strictFailed _ => some (.b4StateChanged flow "StrictFail".toList)

def driftBetween (intended reported : List PathMtu) : Bool :=
  !(mtuMap intended).same (mtuMap reported)

theorem driftBetween_iff {intended reported : List PathMtu} :
    driftBetween intended reported ↔
      ∃ path, (mtuMap intended).lookup path ≠ (mtuMap reported).lookup path := by
  rw [driftBetween, Bool.not_eq_true', ← Bool.not_eq_true, Table.same_iff, not_forall]

/-- `B4Manager`, as far as a decision reads it. -/
structure B4Manager where
  controller : B4Controller
  paused : Bool
  lastError : Option Text

namespace B4Manager

/-- What the outside answers to each flow and to the reconcile, and how the flows are walked. -/
structure World where
  flowOrder : Walk Text
  answers : ℕ → B4Controller.Answers
  ownership : PathMtuReconciler.World

def keys (m : B4Manager) (order : Walk Text) : List Text :=
  (order.arrange m.controller.engine.flowKeys).foldl
    (fun keys f => if keys.contains f then keys else keys ++ [f])
    m.controller.engine.policyDomains

def runFlows : List Text → (ℕ → B4Controller.Answers) → B4Controller × PathMtuStore →
    List SubsystemEvent × B4Controller × PathMtuStore
  | [], _, s => ([], s)
  | flow :: flows, answers, s =>
    let (events, s) := B4Controller.runFor flow (answers 0) s
    let (rest, s) := runFlows flows (fun i => answers (i + 1)) s
    (events.filterMap (·.published flow) ++ rest, s)

def driftDetail (drift : List PathMtu) : Text :=
  "B4 MTU ownership drift: ".toList ++ Nat.toDigits 10 drift.length ++
    " path(s) differ from intent".toList

def cycle (w : World) (m : B4Manager) (store : PathMtuStore) :
    List SubsystemEvent × B4Manager × PathMtuStore :=
  if m.paused then ([], m, store)
  else
    let (events, controller, store) := runFlows (m.keys w.flowOrder) w.answers (m.controller, store)
    let (drift, store) := reconcile w.ownership controller.intendedPathMtu store
    if !drift.isEmpty then
      (events ++ [.b4Drift (driftDetail drift)],
        { m with controller, lastError := some (driftDetail drift) }, store)
    else (events, { m with controller }, store)

def beforeReconcile (w : World) (m : B4Manager) (store : PathMtuStore) :
    B4Controller × PathMtuStore :=
  (runFlows (m.keys w.flowOrder) w.answers (m.controller, store)).2

theorem cycle_of_running {m : B4Manager} (h : m.paused = false) (w : World) (store : PathMtuStore) :
    let s := m.beforeReconcile w store
    let reconciled := reconcile w.ownership s.1.intendedPathMtu s.2
    let events := (runFlows (m.keys w.flowOrder) w.answers (m.controller, store)).1
    m.cycle w store =
      if reconciled.1 = [] then (events, { m with controller := s.1 }, reconciled.2)
      else (events ++ [.b4Drift (driftDetail reconciled.1)],
        { m with controller := s.1, lastError := some (driftDetail reconciled.1) },
        reconciled.2) := by
  intro s reconciled events
  have hr : m.cycle w store =
      if (!reconciled.1.isEmpty) = true then (events ++ [.b4Drift (driftDetail reconciled.1)],
        { m with controller := s.1, lastError := some (driftDetail reconciled.1) }, reconciled.2)
      else (events, { m with controller := s.1 }, reconciled.2) := by
    rw [cycle, if_neg (by rw [h]; exact Bool.false_ne_true)]
    rfl
  rw [hr]
  by_cases hn : reconciled.1 = []
  · rw [hn]
    rfl
  · rw [if_neg hn, if_pos (by simpa using hn)]

theorem b4Drift_notMem_runFlows (detail : Text) (flows : List Text)
    (answers : ℕ → B4Controller.Answers) (s : B4Controller × PathMtuStore) :
    .b4Drift detail ∉ (runFlows flows answers s).1 := by
  induction flows generalizing answers s with
  | nil => exact not_mem_nil
  | cons flow flows ih =>
    intro h
    rcases List.mem_append.1 h with h | h
    · obtain ⟨event, -, he⟩ := List.mem_filterMap.1 h
      cases event <;> cases he
    · exact ih _ _ h

theorem drifts_iff {m : B4Manager} (h : m.paused = false) (w : World) (store : PathMtuStore) :
    (∃ detail, .b4Drift detail ∈ (m.cycle w store).1) ↔
      (m.beforeReconcile w store).1.intendedPathMtu ≠ [] := by
  have hf := fun detail => b4Drift_notMem_runFlows detail (m.keys w.flowOrder) w.answers
    (m.controller, store)
  have hre := PathMtuReconciler.reconcile_fst_eq_nil w.ownership
    (m.beforeReconcile w store).1.intendedPathMtu (m.beforeReconcile w store).2
  rw [cycle_of_running h]
  by_cases hn : (m.beforeReconcile w store).1.intendedPathMtu = []
  · rw [if_pos (hre.2 hn)]
    exact iff_of_false (fun ⟨detail, hd⟩ => hf detail hd) fun hne => hne hn
  · rw [if_neg fun hr => hn (hre.1 hr)]
    exact iff_of_true ⟨_, mem_append_right _ mem_cons_self⟩ hn

theorem driftBetween_nil {reported : List PathMtu} :
    driftBetween [] reported ↔ reported ≠ [] := by
  rw [driftBetween_iff, ne_eq, ← mtuMap_toList_eq_nil, Table.toList_eq_nil, not_forall]
  exact exists_congr fun path => ne_comm

/-- **When the drift event tells the truth.** It is sent exactly when the report differs from the
intent, if and only if both are empty before, or something is intended and the report differs. -/
theorem drift_event_iff (w : World) (m : B4Manager) (store : PathMtuStore)
    (hrunning : m.paused = false) :
    let intended := (m.beforeReconcile w store).1.intendedPathMtu
    let reported := w.ownership.pathMtuState (m.beforeReconcile w store).2
    ((∃ detail, .b4Drift detail ∈ (m.cycle w store).1) ↔ driftBetween intended reported = true) ↔
      (intended = [] ∧ reported = []) ∨
        (intended ≠ [] ∧ driftBetween intended reported = true) := by
  intro intended reported
  rw [drifts_iff hrunning]
  by_cases hn : intended = []
  · rw [hn, driftBetween_nil]
    show (intended ≠ [] ↔ _) ↔ _
    simp [hn]
  · show (intended ≠ [] ↔ _) ↔ _
    simp [hn]

def oneIntended : B4Manager :=
  ⟨{ B4Controller.new ⟨[]⟩ .default with
      intendedMtu := Table.ofList [("example.com".toList, 1480)] }, false, none⟩

def World.quiet : World := ⟨.inOrder, fun _ => ⟨.default, obliging⟩, .calm⟩

/-- An executor that has lost what was set is reported. -/
theorem drift_event_after_restart :
    oneIntended.paused = false ∧
      ∃ detail, .b4Drift detail ∈ (oneIntended.cycle .quiet .new).1 := by
  refine ⟨rfl, ((drift_event_iff .quiet oneIntended .new rfl).2 (.inr ?_)).2 ?_⟩
  · exact ⟨by decide +kernel, by decide +kernel⟩
  · decide +kernel

def adaptable : B4Policy := ⟨[⟨"example.com".toList, ⟨[.mtu], .safe, true, false⟩⟩]⟩

def World.symptom : World :=
  ⟨.inOrder, fun _ => ⟨{ B4Observation.default with mtuSymptom := some true }, obliging⟩, .calm⟩

/-- The first cycle sets an MTU; the executor has it, and drift is announced all the same. -/
theorem drift_event_without_drift :
    let m : B4Manager := ⟨.new adaptable .default, false, none⟩
    let before := m.beforeReconcile .symptom .new
    m.paused = false ∧
      ¬((∃ detail, .b4Drift detail ∈ (m.cycle .symptom .new).1) ↔
        driftBetween before.1.intendedPathMtu
          (World.symptom.ownership.pathMtuState before.2) = true) := by
  intro m before
  have he : (m.cycle .symptom .new).1 =
      [.b4Adapted "example.com".toList "Mtu".toList,
        .b4Drift ("B4 MTU ownership drift: ".toList ++ "1".toList ++
          " path(s) differ from intent".toList)] := by decide +kernel
  have hs : driftBetween before.1.intendedPathMtu
      (World.symptom.ownership.pathMtuState before.2) = false := by decide +kernel
  refine ⟨rfl, fun h => ?_⟩
  have hd := h.1 ⟨_, by rw [he]; exact mem_cons_of_mem _ mem_cons_self⟩
  exact Bool.false_ne_true (hs.symm.trans hd)

end B4Manager

end Adaptation
end BalanSir.B4
