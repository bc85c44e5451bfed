/-
# Calls that run at the same time

Tasks that run step by step over shared cells, in any order.
-/

import BalanSir.Daemon.Reconciler

namespace BalanSir.Daemon

open Common Control
open DaemonExecutorAdapter (StepOutcome)

variable {ε : Type}

/-- The cells the tasks share, and the `busy` lock of the coordinator. -/
structure Shared (ε : Type) where
  reconciler : Reconciler ε
  busy : Bool := false

namespace Shared

variable (s : Shared ε)

def coordinator : Coordinator := s.reconciler.coordinator

def setCoordinator (c : Coordinator) : Shared ε :=
  { s with reconciler := { s.reconciler with coordinator := c } }

def handles : Handles ε := s.reconciler.handles

def setHandles (h : Handles ε) : Shared ε :=
  { s with reconciler := { s.reconciler with handles := h } }

def setActual (actual : ActualState) : Shared ε :=
  s.setHandles { s.handles with actual := actual }

end Shared

inductive CyclePc where
  | start
  | readDesired
  | readActual (desired : DesiredState)
  /-- Operations are left; `outcomes` are those of the ones before. -/
  | execute (plan : ReconciliationPlan) (snapshot : Snapshot)
      (todo : List ReconciliationOperation) (outcomes : List StepOutcome)
  /-- The executor applied the rule, and the actual state is to be locked. -/
  | record (plan : ReconciliationPlan) (snapshot : Snapshot) (rule : DesiredRule)
      (ruleId : Option UInt32) (todo : List ReconciliationOperation) (outcomes : List StepOutcome)
  /-- The executor removed the rule, and the actual state is to be locked. -/
  | erase (plan : ReconciliationPlan) (snapshot : Snapshot) (id : UInt32)
      (todo : List ReconciliationOperation) (outcomes : List StepOutcome)
  | rollback (snapshot : Snapshot) (err : ControlError)
  | revert (snapshot : Snapshot) (err : ControlError) (ids : List UInt32)
  | finished (result : Except ControlError Unit)
  deriving DecidableEq

def finish (result : Except ControlError Unit) (c : Coordinator) (s : Shared ε) :
    CyclePc × Shared ε :=
  (.finished result, { s.setCoordinator c with busy := false })

def executeStep (x : ExecutorAdapter ε) (plan : ReconciliationPlan) (snapshot : Snapshot)
    (op : ReconciliationOperation) (todo : List ReconciliationOperation)
    (outcomes : List StepOutcome) (s : Shared ε) : CyclePc × Shared ε :=
  match op with
  | .updatePolicy rule =>
    let (answer, executor) := x.execute (PolicyCompiler.compile rule) s.handles.executor
    let s := s.setHandles
      { s.handles with executor := executor, sent := s.handles.sent ++ [rule] }
    match answer with
    | .applied _ ruleId => (.record plan snapshot rule ruleId todo outcomes, s)
    | .alreadyApplied => (.execute plan snapshot todo (outcomes ++ [.succeeded]), s)
    | _ => (.execute plan snapshot todo (outcomes ++ [.failed]), s)
  | .removePolicy id =>
    let (answer, executor) := x.removeRule id s.handles.executor
    let s := s.setHandles { s.handles with executor := executor }
    match answer with
    | .applied _ _ | .alreadyApplied => (.erase plan snapshot id todo outcomes, s)
    | _ => (.execute plan snapshot todo (outcomes ++ [.failed]), s)
  | .createDriver _ | .removeDriver _ | .restartDriver _ | .noOp =>
    (.execute plan snapshot todo (outcomes ++ [.skipped]), s)

def cycleStep (x : ExecutorAdapter ε) (pc : CyclePc) (s : Shared ε) : CyclePc × Shared ε :=
  match pc with
  | .start =>
    if s.busy then (.finished (.error .reconcileInProgress), s)
    else (.readDesired, { s.setCoordinator s.coordinator.begin with busy := true })
  | .readDesired =>
    (.readActual s.handles.desired,
      s.setCoordinator (s.coordinator.gotDesired s.handles.desired))
  | .readActual desired =>
    let actual := s.handles.actual
    let c := s.coordinator.gotActual actual
    let plan := StateDiff.build desired actual c.generation
    let c := c.planned plan
    if plan.isEmpty then finish (.ok ()) (c.commit c.generation) s
    else
      (.execute plan { desired := desired, actual := actual, generation := plan.generationBefore }
        plan.operations [], s.setCoordinator (c.announce .executionStarted))
  | .execute plan snapshot [] outcomes =>
    let report := ExecutionReport.new plan.operations (outcomes.count .succeeded)
      (outcomes.count .failed)
    if report.success then finish (.ok ()) (s.coordinator.commit plan.generationAfter) s
    else
      let err := Coordinator.stepsFailed report
      (.rollback snapshot err, s.setCoordinator
        ((s.coordinator.advance (.stepFailed 0 err.toText)).emit .rollbackStarted))
  | .execute plan snapshot (op :: todo) outcomes => executeStep x plan snapshot op todo outcomes s
  | .record plan snapshot rule ruleId todo outcomes =>
    (.execute plan snapshot todo (outcomes ++ [.succeeded]),
      s.setActual (recordRule rule ruleId s.handles.actual))
  | .erase plan snapshot id todo outcomes =>
    (.execute plan snapshot todo (outcomes ++ [.succeeded]),
      s.setActual (eraseRule id s.handles.actual))
  | .rollback snapshot err =>
    (.revert snapshot err (DaemonRollback.toRevert snapshot.actual s.handles.actual), s)
  | .revert snapshot err (id :: ids) =>
    (.revert snapshot err ids, s.setHandles
      { s.handles with executor := (x.removeRule id s.handles.executor).2 })
  | .revert snapshot err [] =>
    finish (.error err) ((s.coordinator.announce .rollbackCompleted).fail err)
      (s.setActual snapshot.actual)
  | .finished result => (.finished result, s)

inductive ReloadPc where
  | compile (candidate : DesiredState)
  | swap (candidate compiled : DesiredState)
  | cycle (candidate compiled prev : DesiredState) (pc : CyclePc)
  | storeRaw (candidate compiled : DesiredState)
  | storeFingerprint (compiled : DesiredState)
  | restore (prev : DesiredState) (err : ControlError)
  | returned (result : Except ReconciliationError Unit)
  deriving DecidableEq

/-- Where a `dns_resync` stands between two awaits. -/
inductive DnsResyncPc where
  | getCompiler
  | readRaw
  | swap (recompiled : DesiredState)
  | storeFingerprint (recompiled : DesiredState)
  | cycle (pc : CyclePc)
  | returned (changed : Bool)
  deriving DecidableEq

section

variable [Postcard] (x : ExecutorAdapter ε) (now : ℕ)

def reloadStep (pc : ReloadPc) (s : Shared ε) : ReloadPc × Shared ε :=
  match pc with
  | .compile candidate =>
    let (compiled, r) := s.reconciler.compile now candidate
    (.swap candidate compiled, { s with reconciler := r })
  | .swap candidate compiled =>
    (.cycle candidate compiled s.handles.desired .start,
      { s with reconciler := s.reconciler.setCell compiled })
  | .cycle candidate compiled prev pc =>
    match cycleStep x pc s with
    | (.finished (.ok ()), s) => (.storeRaw candidate compiled, s)
    | (.finished (.error e), s) => (.restore prev e, s)
    | (pc, s) => (.cycle candidate compiled prev pc, s)
  | .storeRaw candidate compiled =>
    (.storeFingerprint compiled,
      { s with reconciler := { s.reconciler with desiredRaw := some candidate } })
  | .storeFingerprint compiled =>
    (.returned (.ok ()), { s with reconciler :=
      { s.reconciler with configFingerprint := some (configFingerprint compiled) } })
  | .restore prev e =>
    (.returned (.error (.reconcile e.toText)),
      { s with reconciler := s.reconciler.setCell prev })
  | .returned result => (.returned result, s)

def dnsResyncStep (pc : DnsResyncPc) (s : Shared ε) : DnsResyncPc × Shared ε :=
  match pc with
  | .getCompiler =>
    if s.reconciler.flowCompiler.isSome then (.readRaw, s) else (.returned false, s)
  | .readRaw =>
    match s.reconciler.desiredRaw with
    | some raw =>
      let (recompiled, r) := s.reconciler.compile now raw
      (.swap recompiled, { s with reconciler := r })
    | none => (.returned false, s)
  | .swap recompiled =>
    if s.handles.desired = recompiled then (.returned false, s)
    else (.storeFingerprint recompiled, { s with reconciler := s.reconciler.setCell recompiled })
  | .storeFingerprint recompiled =>
    (.cycle .start, { s with reconciler :=
      { s.reconciler with configFingerprint := some (configFingerprint recompiled) } })
  | .cycle pc =>
    match cycleStep x pc s with
    | (.finished _, s) => (.returned true, s)
    | (pc, s) => (.cycle pc, s)
  | .returned changed => (.returned changed, s)

inductive Task where
  | reconcile (pc : CyclePc)
  | reload (pc : ReloadPc)
  | dnsResync (pc : DnsResyncPc)
  deriving DecidableEq

def Task.step (task : Task) (s : Shared ε) : Task × Shared ε :=
  match task with
  | .reconcile pc => let (pc, s) := cycleStep x pc s; (.reconcile pc, s)
  | .reload pc => let (pc, s) := reloadStep x now pc s; (.reload pc, s)
  | .dnsResync pc => let (pc, s) := dnsResyncStep x now pc s; (.dnsResync pc, s)

end

structure World (ε : Type) where
  shared : Shared ε
  tasks : List Task

/-- A turn: the task that runs next, and the time it reads. -/
structure Turn where
  task : ℕ
  now : ℕ
  deriving DecidableEq

def World.step [Postcard] (x : ExecutorAdapter ε) (turn : Turn) (w : World ε) : World ε :=
  match w.tasks[turn.task]? with
  | none => w
  | some task =>
    let (task, shared) := task.step x turn.now w.shared
    { shared := shared, tasks := w.tasks.set turn.task task }

def enclose {P : Type} (wrap : CyclePc → P) (exit : Except ControlError Unit → P) :
    CyclePc × Shared ε → P × Shared ε
  | (.finished result, s) => (exit result, s)
  | (pc, s) => (wrap pc, s)

section

variable [Postcard] (x : ExecutorAdapter ε) (now : ℕ)

theorem reloadStep_cycle (candidate compiled prev : DesiredState) (pc : CyclePc) (s : Shared ε) :
    reloadStep x now (.cycle candidate compiled prev pc) s =
      enclose (.cycle candidate compiled prev) (fun
          | .ok () => .storeRaw candidate compiled
          | .error e => .restore prev e) (cycleStep x pc s) := by
  simp only [reloadStep]
  generalize cycleStep x pc s = out
  obtain ⟨pc', s'⟩ := out
  cases pc' with
  | finished result => rcases result with e | _ <;> rfl
  | _ => rfl

theorem dnsResyncStep_cycle (pc : CyclePc) (s : Shared ε) : dnsResyncStep x now (.cycle pc) s =
      enclose .cycle (fun _ => .returned true) (cycleStep x pc s) := by
  simp only [dnsResyncStep]
  generalize cycleStep x pc s = out
  obtain ⟨pc', s'⟩ := out
  cases pc' <;> rfl

end

end BalanSir.Daemon
