/-
# The reconciler

`Reconciler` with its cells, `reload`, and the reload of the API.
-/

import BalanSir.Daemon.Adapters
import BalanSir.Daemon.DnsFlow

namespace BalanSir.Daemon

open Common Control
open Lib (run Along)

structure Reconciler (ε : Type) where
  handles : Handles ε
  coordinator : Coordinator := {}
  desiredRaw : Option DesiredState := none
  configFingerprint : Option UInt64 := none
  flowCompiler : Option FlowCompiler := none

variable {ε : Type}

namespace Reconciler

def new (desired : DesiredState) (executor : ε) : Reconciler ε :=
  { handles := { desired := desired, executor := executor } }

def setCell (r : Reconciler ε) (desired : DesiredState) : Reconciler ε :=
  { r with handles := { r.handles with desired := desired } }

def compile (now : ℕ) (state : DesiredState) (r : Reconciler ε) : DesiredState × Reconciler ε :=
  match r.flowCompiler with
  | some compiler =>
    let (compiled, compiler) := compiler.compile now state
    (compiled, { r with flowCompiler := some compiler })
  | none => (state, r)

def setDesired [Postcard] (now : ℕ) (state : DesiredState) (r : Reconciler ε) : Reconciler ε :=
  let (compiled, r) := r.compile now state
  { r with desiredRaw := some state
           configFingerprint := some (Common.configFingerprint compiled) }.setCell compiled

def runCycle (x : ExecutorAdapter ε) (r : Reconciler ε) :
    Except ControlError Unit × Reconciler ε :=
  let (result, coordinator, handles) := Coordinator.reconcile (ports x) r.coordinator r.handles
  (result, { r with coordinator := coordinator, handles := handles })

def reconcile (x : ExecutorAdapter ε) (r : Reconciler ε) :
    Except ReconciliationError Unit × Reconciler ε :=
  match r.runCycle x with
  | (.ok (), r) => (.ok (), r)
  | (.error e, r) => (.error (.reconcile e.toText), r)

def reload [Postcard] (x : ExecutorAdapter ε) (now : ℕ) (candidate : DesiredState)
    (r : Reconciler ε) : Except ReconciliationError Unit × Reconciler ε :=
  let (compiled, r) := r.compile now candidate
  let fp := Common.configFingerprint compiled
  let prev := r.handles.desired
  match (r.setCell compiled).runCycle x with
  | (.ok (), r) => (.ok (), { r with desiredRaw := some candidate, configFingerprint := some fp })
  | (.error e, r) => (.error (.reconcile e.toText), r.setCell prev)

def placeholder (id : UInt32) : ActualRule := { id := id, action := .allow, ruleId := none }

def syncActualFromExecutor (x : ExecutorAdapter ε) (r : Reconciler ε) : Reconciler ε :=
  let (ids, executor) := x.actualRuleIds r.handles.executor
  { r with handles := { r.handles with executor := executor
                                       actual := { activeRules := ids.map placeholder } } }

def dnsResync [Postcard] (x : ExecutorAdapter ε) (now : ℕ) (r : Reconciler ε) :
    Bool × Reconciler ε :=
  match r.flowCompiler, r.desiredRaw with
  | some _, some raw =>
    let (recompiled, r) := r.compile now raw
    if r.handles.desired = recompiled then (false, r)
    else
      let r := { r.setCell recompiled with
        configFingerprint := some (Common.configFingerprint recompiled) }
      (true, (r.reconcile x).2)
  | _, _ => (false, r)

def withFlowCompiler (compiler : FlowCompiler) (r : Reconciler ε) : Reconciler ε :=
  { r with flowCompiler := some compiler }

def step (x : ExecutorAdapter ε) (resyncEveryNCycles cycle : ℕ) (r : Reconciler ε) :
    Reconciler ε :=
  let r := if resyncEveryNCycles > 0 ∧ cycle % resyncEveryNCycles = 0 then
    r.syncActualFromExecutor x else r
  (r.reconcile x).2

end Reconciler

def ControlPlane.reloadApi [Postcard] (x : ExecutorAdapter ε) (now later : ℕ)
    (candidate : DesiredState) (r : Reconciler ε) : Except ControlError Unit × Reconciler ε :=
  let prev := r.handles.desired
  match (r.setDesired now candidate).runCycle x with
  | (.ok (), r) => (.ok (), r)
  | (.error e, r) => (.error e, r.setDesired later prev)

def compiledBy (compiler : Option FlowCompiler) (now : ℕ) (state : DesiredState) : DesiredState :=
  match compiler with
  | some c => compileWith (c.registry.view now) state
  | none => state

def ReadAt (now : ℕ) (compiler compiler' : Option FlowCompiler) : Prop :=
  match compiler, compiler' with
  | some c, some c' => ∀ t, c.registry.view t = c.registry.view now →
      c'.registry.view t = c.registry.view t
  | none, none => True
  | _, _ => False

namespace Reconciler

theorem compile_spec (now : ℕ) (state : DesiredState) (r : Reconciler ε) :
    ∃ compiler, r.compile now state =
        (compiledBy r.flowCompiler now state, { r with flowCompiler := compiler }) ∧
      ReadAt now r.flowCompiler compiler := by
  unfold compile
  cases hc : r.flowCompiler with
  | none =>
    obtain ⟨handles, coordinator, raw, fp, fc⟩ := r
    cases hc
    exact ⟨none, rfl, trivial⟩
  | some c =>
    exact ⟨some (c.compile now state).2, by rw [compiledBy, ← FlowCompiler.compile_eq],
      fun t ht => FlowCompiler.view_compile state ht⟩

theorem setDesired_spec [Postcard] (now : ℕ) (state : DesiredState) (r : Reconciler ε) :
    ∃ compiler, ReadAt now r.flowCompiler compiler ∧
      r.setDesired now state =
        { handles := { r.handles with desired := compiledBy r.flowCompiler now state }
          coordinator := r.coordinator
          desiredRaw := some state
          configFingerprint :=
            some (Common.configFingerprint (compiledBy r.flowCompiler now state))
          flowCompiler := compiler } := by
  obtain ⟨compiler, h, hr⟩ := r.compile_spec now state
  exact ⟨compiler, hr, by rw [setDesired, h]; rfl⟩

/-- The configuration cells and the compiler are the same. -/
structure SameCells (r r' : Reconciler ε) : Prop where
  desired : r'.handles.desired = r.handles.desired
  desiredRaw : r'.desiredRaw = r.desiredRaw
  configFingerprint : r'.configFingerprint = r.configFingerprint
  flowCompiler : r'.flowCompiler = r.flowCompiler

variable (x : ExecutorAdapter ε)

theorem runCycle_sameCells (r : Reconciler ε) : r.SameCells (r.runCycle x).2 :=
  ⟨reconcile_desired x r.coordinator r.handles, rfl, rfl, rfl⟩

theorem sent_runCycle (r : Reconciler ε) : (r.runCycle x).2.handles.sent = r.handles.sent ++
      (StateDiff.operations r.handles.desired r.handles.actual).filterMap ruleOf :=
  reconcile_sent x r.coordinator r.handles

theorem reconcile_snd (r : Reconciler ε) : (r.reconcile x).2 = (r.runCycle x).2 := by
  unfold reconcile
  rcases r.runCycle x with ⟨_ | _, _⟩ <;> rfl

variable {r : Reconciler ε}

theorem reconcile_eq_ok_iff {x : ExecutorAdapter ε} :
    (r.reconcile x).1 = .ok () ↔ (r.runCycle x).1 = .ok () := by
  unfold reconcile
  rcases r.runCycle x with ⟨e | _, r'⟩ <;> simp

theorem reconcile_ok_iff_along {x : ExecutorAdapter ε} : (r.reconcile x).1 = .ok () ↔
      Along (DaemonExecutorAdapter.step x) (DaemonExecutorAdapter.Succeeds x)
        (StateDiff.operations r.handles.desired r.handles.actual) r.handles :=
  reconcile_eq_ok_iff.trans reconcile_ok_iff.1

theorem handles_reconcile_of_ok {x : ExecutorAdapter ε} (hok : (r.reconcile x).1 = .ok ()) :
    (r.reconcile x).2.handles = run (DaemonExecutorAdapter.step x)
      (StateDiff.operations r.handles.desired r.handles.actual) r.handles := by
  rw [reconcile_snd]
  exact reconcile_ok_iff.2 (reconcile_eq_ok_iff.1 hok)

def staged (r : Reconciler ε) (compiler : Option FlowCompiler) (desired : DesiredState) :
    Reconciler ε :=
  { r with flowCompiler := compiler }.setCell desired

theorem reload_spec [Postcard] (now : ℕ) (candidate : DesiredState) (r : Reconciler ε) :
    ∃ compiler, ReadAt now r.flowCompiler compiler ∧
      ((((r.staged compiler (compiledBy r.flowCompiler now candidate)).runCycle x).1 = .ok () ∧
          r.reload x now candidate = (.ok (),
            { ((r.staged compiler (compiledBy r.flowCompiler now candidate)).runCycle x).2 with
              desiredRaw := some candidate
              configFingerprint :=
                some (Common.configFingerprint (compiledBy r.flowCompiler now candidate)) })) ∨
        ∃ e, r.reload x now candidate = (.error e,
          ((r.staged compiler (compiledBy r.flowCompiler now candidate)).runCycle x).2.setCell
            r.handles.desired)) := by
  obtain ⟨compiler, h, hr⟩ := r.compile_spec now candidate
  refine ⟨compiler, hr, ?_⟩
  rcases hru : (r.staged compiler (compiledBy r.flowCompiler now candidate)).runCycle x with
    ⟨e | _, r'⟩
  · simp only [staged] at hru
    exact .inr ⟨.reconcile e.toText, by simp only [reload, h, hru]⟩
  · simp only [staged] at hru
    exact .inl ⟨rfl, by simp only [reload, h, hru]⟩

theorem reloadApi_spec [Postcard] (now later : ℕ) (candidate : DesiredState) (r : Reconciler ε) :
    (((r.setDesired now candidate).runCycle x).1 = .ok () ∧
        ControlPlane.reloadApi x now later candidate r =
          (.ok (), ((r.setDesired now candidate).runCycle x).2)) ∨
      ∃ e, ((r.setDesired now candidate).runCycle x).1 = .error e ∧
        ControlPlane.reloadApi x now later candidate r =
          (.error e, ((r.setDesired now candidate).runCycle x).2.setDesired later
            r.handles.desired) := by
  unfold ControlPlane.reloadApi
  rcases (r.setDesired now candidate).runCycle x with ⟨e | _, r'⟩
  · exact .inr ⟨e, rfl, rfl⟩
  · exact .inl ⟨rfl, rfl⟩

theorem dnsResync_spec [Postcard] (now : ℕ) (r : Reconciler ε) : r.dnsResync x now = (false, r) ∨
      ∃ raw compiler, r.desiredRaw = some raw ∧ r.flowCompiler.isSome ∧
        ReadAt now r.flowCompiler compiler ∧
        ((r.handles.desired = compiledBy r.flowCompiler now raw ∧
            r.dnsResync x now = (false, { r with flowCompiler := compiler })) ∨
          (r.handles.desired ≠ compiledBy r.flowCompiler now raw ∧
            r.dnsResync x now = (true, (runCycle x
              { r.staged compiler (compiledBy r.flowCompiler now raw) with
                configFingerprint :=
                  some (Common.configFingerprint (compiledBy r.flowCompiler now raw)) }).2))) := by
  unfold dnsResync
  cases hc : r.flowCompiler with
  | none => exact .inl rfl
  | some c =>
    cases hra : r.desiredRaw with
    | none => exact .inl rfl
    | some raw =>
      obtain ⟨compiler, h, hr⟩ := r.compile_spec now raw
      rw [hc] at h hr
      refine .inr ⟨raw, compiler, rfl, rfl, hr, ?_⟩
      simp only [h]
      by_cases hd : r.handles.desired = compiledBy (some c) now raw
      · exact .inl ⟨hd, by rw [if_pos hd, hra]⟩
      · refine .inr ⟨hd, ?_⟩
        rw [if_neg hd, reconcile_snd]
        rfl

theorem agrees_inventory_iff {ids : List UInt32} {rule : DesiredRule} :
    StateDiff.Agrees { activeRules := ids.map placeholder } rule ↔
      rule.id ∈ ids ∧ rule.action = .allow ∧ rule.flow = none := by
  constructor
  · rintro ⟨ar, hl, ha, hf⟩
    obtain ⟨id, hid, rfl⟩ := List.mem_map.1 (Lib.mem_of_lookup hl)
    have hk : id = rule.id := Lib.key_of_lookup hl
    exact ⟨hk ▸ hid, ha.symm, hf.symm⟩
  · rintro ⟨hid, ha, hf⟩
    have hs : (Lib.lookup ActualRule.id rule.id (ids.map placeholder)).isSome :=
      Lib.lookup_isSome_iff.2 ⟨placeholder rule.id, List.mem_map_of_mem hid, rfl⟩
    obtain ⟨ar, hl⟩ := Option.isSome_iff_exists.1 hs
    obtain ⟨id, -, rfl⟩ := List.mem_map.1 (Lib.mem_of_lookup hl)
    exact ⟨_, hl, ha.symm, hf.symm⟩

end Reconciler

end BalanSir.Daemon
