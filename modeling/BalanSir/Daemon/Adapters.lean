/-
# The daemon's side of the coordinator's ports

`adapters.rs`: the ports of the coordinator over the stores and the executor.
-/

import BalanSir.Control.Coordinator

namespace BalanSir.Daemon

open Common Control StateDiff
open Net (IpAddr)
open Lib (lookup dropAll run Along)
open StateDiff (operations build)

def PolicyCompiler.compile (rule : DesiredRule) : ActionRequest where
  action := rule.action
  srcIp := (rule.flow.bind (·.srcIp)).getD (.v4 0)
  dstIp := (rule.flow.bind (·.dstIp)).getD (.v4 0)
  srcPort := (rule.flow.bind (·.srcPort)).getD 0
  dstPort := (rule.flow.bind (·.dstPort)).getD 0
  protocol := (rule.flow.bind (·.protocol)).getD 0
  interface := 0
  trace :=
    { policyId := rule.id, steps := [], action := rule.action, executionTimeUs := 0,
      correlationId := 0 }

/-- `ExecutorAdapter`, the calls the reconciler makes. -/
structure ExecutorAdapter (ε : Type) where
  execute : ActionRequest → ε → ActionResult × ε
  removeRule : UInt32 → ε → ActionResult × ε
  actualRuleIds : ε → List UInt32 × ε

structure Handles (ε : Type) where
  desired : DesiredState := {}
  actual : ActualState := {}
  executor : ε
  sent : List DesiredRule := []

variable {ε : Type}

def recordRule (rule : DesiredRule) (ruleId : Option UInt32) (actual : ActualState) :
    ActualState where
  activeRules := dropAll ActualRule.id rule.id actual.activeRules ++
    [{ id := rule.id, action := rule.action, ruleId := ruleId, flow := rule.flow }]

def eraseRule (id : UInt32) (actual : ActualState) : ActualState where
  activeRules := dropAll ActualRule.id id actual.activeRules

theorem lookup_recordRule_self (rule : DesiredRule) (ruleId : Option UInt32)
    (actual : ActualState) :
    lookup ActualRule.id rule.id (recordRule rule ruleId actual).activeRules =
      some { id := rule.id, action := rule.action, ruleId := ruleId, flow := rule.flow } :=
  Lib.lookup_replace_self (k := rule.id) (a := ActualRule.mk ..) rfl _

variable {id : UInt32} {rule : DesiredRule}

theorem lookup_recordRule_of_ne (h : rule.id ≠ id) (ruleId : Option UInt32) (actual : ActualState) :
    lookup ActualRule.id id (recordRule rule ruleId actual).activeRules =
      lookup ActualRule.id id actual.activeRules :=
  Lib.lookup_replace_of_ne (k := rule.id) (a := ActualRule.mk ..) rfl h _

/-- `ReconciliationError`, the variants that are returned. -/
inductive ReconciliationError where
  | applyRule (answer : ActionResult)
  | reconcile (message : String)
  deriving DecidableEq

namespace DaemonExecutorAdapter

def applyRule (x : ExecutorAdapter ε) (rule : DesiredRule) (h : Handles ε) :
    Except ReconciliationError Unit × Handles ε :=
  let (answer, executor) := x.execute (PolicyCompiler.compile rule) h.executor
  let h := { h with executor := executor, sent := h.sent ++ [rule] }
  match answer with
  | .applied _ ruleId => (.ok (), { h with actual := recordRule rule ruleId h.actual })
  | .alreadyApplied => (.ok (), h)
  | other => (.error (.applyRule other), h)

inductive StepOutcome where
  | succeeded
  | failed
  | skipped
  deriving DecidableEq

def executeOp (x : ExecutorAdapter ε) (op : ReconciliationOperation) (h : Handles ε) :
    StepOutcome × Handles ε :=
  match op with
  | .updatePolicy rule =>
    match applyRule x rule h with
    | (.ok (), h) => (.succeeded, h)
    | (.error _, h) => (.failed, h)
  | .removePolicy id =>
    let (answer, executor) := x.removeRule id h.executor
    let h := { h with executor := executor }
    match answer with
    | .applied _ _ | .alreadyApplied =>
      (.succeeded, { h with actual := eraseRule id h.actual })
    | _ => (.failed, h)
  | .createDriver _ | .removeDriver _ | .restartDriver _ | .noOp => (.skipped, h)

def executeOps (x : ExecutorAdapter ε) :
    List ReconciliationOperation → Handles ε → List StepOutcome × Handles ε
  | [], h => ([], h)
  | op :: ops, h =>
    let (outcome, h) := executeOp x op h
    let (outcomes, h) := executeOps x ops h
    (outcome :: outcomes, h)

def execute (x : ExecutorAdapter ε) (plan : ReconciliationPlan) (h : Handles ε) :
    Except ControlError ExecutionReport × Handles ε :=
  let (outcomes, h) := executeOps x plan.operations h
  (.ok (.new plan.operations (outcomes.count .succeeded) (outcomes.count .failed)), h)

end DaemonExecutorAdapter

namespace DaemonRollback

def toRevert (snapshot live : ActualState) : List UInt32 :=
  (live.activeRules.map (·.id)).filter (· ∉ snapshot.activeRules.map (·.id))

def rollback (x : ExecutorAdapter ε) (snapshot : Snapshot) (h : Handles ε) :
    Except ControlError Unit × Handles ε :=
  let executor :=
    run (fun id e => (x.removeRule id e).2) (toRevert snapshot.actual h.actual) h.executor
  (.ok (), { h with executor := executor, actual := snapshot.actual })

end DaemonRollback

def ports (x : ExecutorAdapter ε) : Config (Handles ε) where
  desired h := .ok h.desired
  actual h := .ok h.actual
  buildPlan := StateDiff.build
  save _ h := (.ok (), h)
  execute := DaemonExecutorAdapter.execute x
  rollback := DaemonRollback.rollback x

namespace DaemonExecutorAdapter

def answer (x : ExecutorAdapter ε) (op : ReconciliationOperation) (h : Handles ε) :
    Option ActionResult :=
  match op with
  | .updatePolicy rule => some (x.execute (PolicyCompiler.compile rule) h.executor).1
  | .removePolicy id => some (x.removeRule id h.executor).1
  | _ => none

def Succeeds (x : ExecutorAdapter ε) (op : ReconciliationOperation) (h : Handles ε) : Prop :=
  ∀ a, answer x op h = some a → a.isSuccess = true

def step (x : ExecutorAdapter ε) (op : ReconciliationOperation) (h : Handles ε) : Handles ε :=
  (executeOp x op h).2

def accountUpdate (rule : DesiredRule) (actual : ActualState) : ActionResult → ActualState
  | .applied _ ruleId => recordRule rule ruleId actual
  | _ => actual

variable (x : ExecutorAdapter ε)

theorem executeOp_updatePolicy (rule : DesiredRule) (h : Handles ε) :
    executeOp x (.updatePolicy rule) h =
      (if (x.execute (PolicyCompiler.compile rule) h.executor).1.isSuccess then .succeeded
        else .failed,
       { desired := h.desired
         actual := accountUpdate rule h.actual
           (x.execute (PolicyCompiler.compile rule) h.executor).1
         executor := (x.execute (PolicyCompiler.compile rule) h.executor).2
         sent := h.sent ++ [rule] }) := by
  rcases hx : x.execute (PolicyCompiler.compile rule) h.executor with ⟨answer, executor⟩
  cases answer <;> simp only [executeOp, applyRule, hx] <;> rfl

theorem executeOp_removePolicy (id : UInt32) (h : Handles ε) : executeOp x (.removePolicy id) h =
      (if (x.removeRule id h.executor).1.isSuccess then .succeeded else .failed,
       { desired := h.desired
         actual := if (x.removeRule id h.executor).1.isSuccess then eraseRule id h.actual
           else h.actual
         executor := (x.removeRule id h.executor).2
         sent := h.sent }) := by
  rcases hx : x.removeRule id h.executor with ⟨answer, executor⟩
  cases answer <;> simp only [executeOp, hx] <;> rfl

variable {h : Handles ε} {op : ReconciliationOperation} {ops : List ReconciliationOperation}

theorem executeOp_ne_failed {x : ExecutorAdapter ε} :
    (executeOp x op h).1 ≠ .failed ↔ Succeeds x op h := by
  cases op with
  | updatePolicy rule =>
    rw [executeOp_updatePolicy]
    cases hs : (x.execute (PolicyCompiler.compile rule) h.executor).1.isSuccess <;>
      simp [Succeeds, answer, hs]
  | removePolicy id =>
    rw [executeOp_removePolicy]
    cases hs : (x.removeRule id h.executor).1.isSuccess <;> simp [Succeeds, answer, hs]
  | _ => simp [executeOp, Succeeds, answer]

theorem executeOps_run (ops : List ReconciliationOperation) (h : Handles ε) :
    (executeOps x ops h).2 = run (step x) ops h := by
  induction ops generalizing h with
  | nil => rfl
  | cons op ops ih => exact ih (step x op h)

theorem executeOps_succeeds {x : ExecutorAdapter ε} :
    StepOutcome.failed ∉ (executeOps x ops h).1 ↔ Along (step x) (Succeeds x) ops h := by
  induction ops generalizing h with
  | nil => simp [executeOps, Along]
  | cons op ops ih =>
    have hc : (executeOps x (op :: ops) h).1 =
        (executeOp x op h).1 :: (executeOps x ops (step x op h)).1 := rfl
    rw [hc, List.mem_cons, not_or, ih, Along, ← executeOp_ne_failed]
    exact and_congr_left fun _ => ne_comm

theorem execute_eq (plan : ReconciliationPlan) (h : Handles ε) :
    ∃ report, execute x plan h = (.ok report, run (step x) plan.operations h) ∧
      (report.success ↔ Along (step x) (Succeeds x) plan.operations h) := by
  refine ⟨_, by rw [execute, ← executeOps_run], ?_⟩
  rw [← executeOps_succeeds]
  simp [ExecutionReport.new, List.count_eq_zero]

theorem actual_step_applied {x : ExecutorAdapter ε} {time : UInt64} {ruleId : Option UInt32}
    (ha : answer x (.updatePolicy rule) h = some (.applied time ruleId)) :
    (step x (.updatePolicy rule) h).actual = recordRule rule ruleId h.actual := by
  rw [step, executeOp_updatePolicy, Option.some.inj ha]
  rfl

theorem executor_step_update (rule : DesiredRule) (h : Handles ε) :
    (step x (.updatePolicy rule) h).executor =
      (x.execute (PolicyCompiler.compile rule) h.executor).2 := by
  rw [step, executeOp_updatePolicy]

theorem executor_step_remove (id : UInt32) (h : Handles ε) :
    (step x (.removePolicy id) h).executor = (x.removeRule id h.executor).2 := by
  rw [step, executeOp_removePolicy]

theorem actual_step_not_applied {x : ExecutorAdapter ε}
    (ha : ∀ time ruleId, answer x (.updatePolicy rule) h ≠ some (.applied time ruleId)) :
    (step x (.updatePolicy rule) h).actual = h.actual := by
  rw [step, executeOp_updatePolicy]
  cases hr : (x.execute (PolicyCompiler.compile rule) h.executor).1 with
  | applied time ruleId => exact absurd (congrArg some hr) (ha time ruleId)
  | _ => rfl

theorem actual_step_remove (id : UInt32) (h : Handles ε) : (step x (.removePolicy id) h).actual =
      if (x.removeRule id h.executor).1.isSuccess then eraseRule id h.actual else h.actual := by
  rw [step, executeOp_removePolicy]

theorem lookup_step_of_ne (hid : op.target ≠ some id)
    (h : Handles ε) : lookup ActualRule.id id (step x op h).actual.activeRules =
      lookup ActualRule.id id h.actual.activeRules := by
  cases op with
  | updatePolicy rule =>
    have hne : rule.id ≠ id := fun e => hid (congrArg some e)
    by_cases ha : ∃ time ruleId, answer x (.updatePolicy rule) h = some (.applied time ruleId)
    · obtain ⟨time, ruleId, ha⟩ := ha
      rw [actual_step_applied ha]
      exact lookup_recordRule_of_ne hne ruleId h.actual
    · rw [actual_step_not_applied (by simpa using ha)]
  | removePolicy i =>
    have hne : i ≠ id := fun e => hid (congrArg some e)
    rw [actual_step_remove]
    split
    · exact Lib.lookup_dropAll_of_ne hne _
    · rfl
  | _ => rfl

theorem lookup_run_of_ne (hid : ∀ op ∈ ops, op.target ≠ some id) (h : Handles ε) :
    lookup ActualRule.id id (run (step x) ops h).actual.activeRules =
      lookup ActualRule.id id h.actual.activeRules :=
  Lib.run_frame (f := fun h : Handles ε => lookup ActualRule.id id h.actual.activeRules)
    (fun op hop => lookup_step_of_ne x (hid op hop)) h

end DaemonExecutorAdapter

def ruleOf : ReconciliationOperation → Option DesiredRule
  | .updatePolicy rule => some rule
  | _ => none

theorem desired_step (x : ExecutorAdapter ε) (op : ReconciliationOperation) (h : Handles ε) :
    (DaemonExecutorAdapter.step x op h).desired = h.desired := by
  cases op with
  | updatePolicy rule =>
    rw [DaemonExecutorAdapter.step, DaemonExecutorAdapter.executeOp_updatePolicy]
  | removePolicy id =>
    rw [DaemonExecutorAdapter.step, DaemonExecutorAdapter.executeOp_removePolicy]
  | _ => rfl

theorem sent_step (x : ExecutorAdapter ε) (op : ReconciliationOperation) (h : Handles ε) :
    (DaemonExecutorAdapter.step x op h).sent = h.sent ++ (ruleOf op).toList := by
  cases op with
  | updatePolicy rule =>
    rw [DaemonExecutorAdapter.step, DaemonExecutorAdapter.executeOp_updatePolicy]
    rfl
  | removePolicy id =>
    rw [DaemonExecutorAdapter.step, DaemonExecutorAdapter.executeOp_removePolicy]
    simp [ruleOf]
  | _ => simp [DaemonExecutorAdapter.step, DaemonExecutorAdapter.executeOp, ruleOf]

theorem desired_run (x : ExecutorAdapter ε) (ops : List ReconciliationOperation) (h : Handles ε) :
    (run (DaemonExecutorAdapter.step x) ops h).desired = h.desired :=
  Lib.run_frame (fun op _ => desired_step x op) h

theorem sent_run (x : ExecutorAdapter ε) (ops : List ReconciliationOperation) (h : Handles ε) :
    (run (DaemonExecutorAdapter.step x) ops h).sent = h.sent ++ ops.filterMap ruleOf := by
  induction ops generalizing h with
  | nil => simp [run]
  | cons op ops ih =>
    rw [run, ih, sent_step]
    cases hr : ruleOf op <;> simp [hr]

theorem mem_ruleOf_operations {desired : DesiredState} {actual : ActualState} :
    rule ∈ (operations desired actual).filterMap ruleOf ↔
      rule ∈ desired.rules ∧ ¬StateDiff.Agrees actual rule := by
  rw [← updatePolicy_mem_operations, List.mem_filterMap]
  constructor
  · rintro ⟨op, hop, hr⟩
    cases op <;> cases hr
    exact hop
  · exact fun h => ⟨_, h, rfl⟩

open DaemonExecutorAdapter (step Succeeds)

/-- The ways a cycle of the daemon can end. -/
inductive Cycle (x : ExecutorAdapter ε) (c : Coordinator) (h : Handles ε) :
    Except ControlError Unit × Coordinator × Handles ε → Prop where
  /-- There is nothing to do. -/
  | nothing {c' : Coordinator} (empty : StateDiff.operations h.desired h.actual = [])
      (gen : c'.generation = c.generation) : Cycle x c h (.ok (), c', h)
  /-- Every step succeeds. -/
  | committed {c' : Coordinator} (nonempty : StateDiff.operations h.desired h.actual ≠ [])
      (succeeds : Along (step x) (Succeeds x) (StateDiff.operations h.desired h.actual) h)
      (gen : c'.generation = c.generation + 1) :
      Cycle x c h (.ok (), c', run (step x) (StateDiff.operations h.desired h.actual) h)
  /-- A step fails; the plan is executed to its end all the same and then rolled back. -/
  | rolledBack {c' : Coordinator} {e : ControlError} {generation : UInt64}
      (nonempty : StateDiff.operations h.desired h.actual ≠ [])
      (fails : ¬Along (step x) (Succeeds x) (StateDiff.operations h.desired h.actual) h)
      (gen : c'.generation = c.generation) :
      Cycle x c h (.error e, c', (DaemonRollback.rollback x
        { desired := h.desired, actual := h.actual, generation := generation }
        (run (step x) (StateDiff.operations h.desired h.actual) h)).2)

theorem reconcile_cycle (x : ExecutorAdapter ε) (c : Coordinator) (h : Handles ε) :
    Cycle x c h (Coordinator.reconcile (ports x) c h) := by
  have hr : Coordinator.Reconciled (ports x) c h _ _ h _ :=
    Coordinator.reconcile_reconciled rfl rfl (fun _ => rfl)
  generalize Coordinator.reconcile (ports x) c h = out at hr ⊢
  have hb : (ports x).buildPlan = build := rfl
  rw [hb] at hr
  obtain ⟨report, he, hs⟩ := DaemonExecutorAdapter.execute_eq x
    (build h.desired h.actual c.generation) h
  have hne : (build h.desired h.actual c.generation).isEmpty = false →
      operations h.desired h.actual ≠ [] := fun hf hn =>
    nomatch hf.symm.trans (StateDiff.isEmpty_build_iff_nil.2 hn)
  cases hr with
  | nothing empty gen => exact .nothing (StateDiff.isEmpty_build_iff_nil.1 empty) gen
  | committed nonempty executed success gen =>
    obtain ⟨hre, rfl⟩ := Prod.mk.inj (he.symm.trans executed)
    cases hre
    rw [operations_build (hne nonempty)] at hs ⊢
    rw [generationAfter_build (hne nonempty)] at gen
    exact .committed (hne nonempty) (hs.1 success) gen
  | rolledBack nonempty executed failed gen =>
    obtain ⟨hre, rfl⟩ := Prod.mk.inj (he.symm.trans executed)
    have hfa := failed report hre.symm
    rw [operations_build (hne nonempty)] at hs ⊢
    exact .rolledBack (hne nonempty) (fun h => by simp [hs.2 h] at hfa) gen

theorem reconcile_ok_iff {x : ExecutorAdapter ε} {c : Coordinator} {h : Handles ε} :
    ((Coordinator.reconcile (ports x) c h).1 = .ok () ↔
        Along (step x) (Succeeds x) (operations h.desired h.actual) h) ∧
      ((Coordinator.reconcile (ports x) c h).1 = .ok () →
        (Coordinator.reconcile (ports x) c h).2.2 =
          run (step x) (operations h.desired h.actual) h) := by
  have hc := reconcile_cycle x c h
  generalize Coordinator.reconcile (ports x) c h = out at hc ⊢
  cases hc with
  | nothing empty _ =>
    rw [empty]
    exact ⟨iff_of_true rfl trivial, fun _ => rfl⟩
  | committed _ succeeds _ => exact ⟨iff_of_true rfl succeeds, fun _ => rfl⟩
  | rolledBack _ fails _ => exact ⟨iff_of_false (by simp) fails, fun h => nomatch h⟩

theorem reconcile_desired (x : ExecutorAdapter ε) (c : Coordinator) (h : Handles ε) :
    (Coordinator.reconcile (ports x) c h).2.2.desired = h.desired := by
  have hc := reconcile_cycle x c h
  generalize Coordinator.reconcile (ports x) c h = out at hc ⊢
  cases hc with
  | nothing _ _ => rfl
  | committed _ _ _ => exact desired_run x _ h
  | rolledBack _ _ _ => exact desired_run x _ h

theorem reconcile_sent (x : ExecutorAdapter ε) (c : Coordinator) (h : Handles ε) :
    (Coordinator.reconcile (ports x) c h).2.2.sent =
      h.sent ++ (operations h.desired h.actual).filterMap ruleOf := by
  have hc := reconcile_cycle x c h
  generalize Coordinator.reconcile (ports x) c h = out at hc ⊢
  cases hc with
  | nothing empty _ => simp [empty]
  | committed _ _ _ => exact sent_run x _ h
  | rolledBack _ _ _ => exact sent_run x _ h

end BalanSir.Daemon
