/-
# The reconcile coordinator

`Coordinator::reconcile` over its ports: the provider, the planner, the executor, the rollback.
-/

import BalanSir.Common.Diff

namespace BalanSir.Control

open Common

/-- `ControlError`, the variants the modelled functions return. -/
inductive ControlError where
  | desiredProvider (message : String)
  | stateProvider (message : String)
  | executor (message : String)
  | snapshotStore (message : String)
  | reconcileInProgress
  | rollback (message : String)
  deriving DecidableEq

def ControlError.toText : ControlError → String
  | .desiredProvider m => "desired state provider failed: " ++ m
  | .stateProvider m => "state provider failed: " ++ m
  | .executor m => "executor failed: " ++ m
  | .snapshotStore m => "snapshot store failed: " ++ m
  | .reconcileInProgress => "reconciliation already in progress"
  | .rollback m => "rollback failed: " ++ m

/-- `ControlEvent`, the variants the coordinator uses. -/
inductive ControlEvent where
  | reconciliationRequested
  | desiredReadStarted
  | desiredReadFinished (revision : ℕ)
  | actualReadStarted
  | actualReadFinished (ruleCount : ℕ)
  | planningStarted
  | planningFinished (generation : UInt64) (operationCount : ℕ) (empty : Bool)
  | executionStarted
  | stepCompleted (index : ℕ)
  | stepFailed (index : ℕ) (error : String)
  | commitCompleted
  | reconciled
  | rollbackStarted
  | rollbackCompleted
  | failed (error : String)
  deriving DecidableEq

inductive CoordinatorState where
  | idle
  | readDesired
  | readActual
  | buildPlan
  | executePlan
  | commitSnapshot
  | done
  | rollback
  | failed
  deriving DecidableEq

def CoordinatorState.transition : CoordinatorState → ControlEvent → Option CoordinatorState
  | .idle, .reconciliationRequested => some .readDesired
  | .readDesired, .desiredReadFinished _ => some .readActual
  | .readActual, .actualReadFinished _ => some .buildPlan
  | .buildPlan, .planningFinished _ _ _ => some .executePlan
  | .executePlan, .executionStarted => some .executePlan
  | .executePlan, .stepCompleted _ => some .executePlan
  | .executePlan, .stepFailed _ _ => some .rollback
  | .executePlan, .commitCompleted => some .commitSnapshot
  | .commitSnapshot, .reconciled => some .done
  | .rollback, .rollbackCompleted => some .failed
  | _, _ => none

structure ExecutionReport where
  succeeded : ℕ
  failed : ℕ
  total : ℕ
  operations : List ReconciliationOperation
  success : Bool
  deriving DecidableEq

def ExecutionReport.new (operations : List ReconciliationOperation) (succeeded failed : ℕ) :
    ExecutionReport where
  succeeded := succeeded
  failed := failed
  total := operations.length
  operations := operations
  success := failed == 0

/-- The ports of the coordinator, on the state they share. -/
structure Config (σ : Type) where
  desired : σ → Except ControlError DesiredState
  actual : σ → Except ControlError ActualState
  buildPlan : DesiredState → ActualState → UInt64 → ReconciliationPlan
  save : Snapshot → σ → Except ControlError Unit × σ
  execute : ReconciliationPlan → σ → Except ControlError ExecutionReport × σ
  rollback : Snapshot → σ → Except ControlError Unit × σ

/-- `Coordinator`, with what it emitted and what it handed to `advance`. -/
structure Coordinator where
  state : CoordinatorState := .idle
  generation : UInt64 := 1
  emitted : List ControlEvent := []
  ticks : List (CoordinatorState × ControlEvent) := []
  deriving DecidableEq

namespace Coordinator

def enter (c : Coordinator) (state : CoordinatorState) : Coordinator := { c with state := state }

def advance (c : Coordinator) (event : ControlEvent) : Coordinator :=
  { c with state := (c.state.transition event).getD c.state
           ticks := c.ticks ++ [(c.state, event)] }

def emit (c : Coordinator) (event : ControlEvent) : Coordinator :=
  { c with emitted := c.emitted ++ [event] }

def announce (c : Coordinator) (event : ControlEvent) : Coordinator :=
  (c.emit event).advance event

def fail (c : Coordinator) (err : ControlError) : Coordinator :=
  (c.emit (.failed err.toText)).enter .failed

def begin (c : Coordinator) : Coordinator :=
  (c.announce .reconciliationRequested).emit .desiredReadStarted

def gotDesired (c : Coordinator) (desired : DesiredState) : Coordinator :=
  (c.announce (.desiredReadFinished desired.rules.length)).emit .actualReadStarted

def gotActual (c : Coordinator) (actual : ActualState) : Coordinator :=
  (c.announce (.actualReadFinished actual.activeRules.length)).emit .planningStarted

def planned (c : Coordinator) (plan : ReconciliationPlan) : Coordinator :=
  c.announce (.planningFinished plan.generationAfter plan.operations.length plan.isEmpty)

def commit (c : Coordinator) (generation : UInt64) : Coordinator :=
  ({ c.announce .commitCompleted with generation := generation }.announce .reconciled).enter .done

def rollbackAndFail {σ : Type} (config : Config σ) (snapshot : Snapshot) (err : ControlError)
    (c : Coordinator) (s : σ) : Except ControlError Unit × Coordinator × σ :=
  let c := (c.advance (.stepFailed 0 err.toText)).emit .rollbackStarted
  match config.rollback snapshot s with
  | (.error rbErr, s) => (.error rbErr, (c.emit (.stepFailed 0 rbErr.toText)).fail rbErr, s)
  | (.ok (), s) => (.error err, (c.announce .rollbackCompleted).fail err, s)

def stepsFailed (report : ExecutionReport) : ControlError :=
  .executor ("execution failed: " ++ toString report.failed ++ "/" ++ toString report.total
    ++ " steps failed")

def carryOut {σ : Type} (config : Config σ) (plan : ReconciliationPlan) (snapshot : Snapshot)
    (c : Coordinator) (s : σ) : Except ControlError Unit × Coordinator × σ :=
  match config.save snapshot s with
  | (.error e, s) => (.error e, c.fail e, s)
  | (.ok (), s) =>
    let c := c.announce .executionStarted
    match config.execute plan s with
    | (.error e, s) => rollbackAndFail config snapshot e c s
    | (.ok report, s) =>
      if report.success then (.ok (), c.commit plan.generationAfter, s)
      else rollbackAndFail config snapshot (stepsFailed report) c s

def reconcile {σ : Type} (config : Config σ) (c : Coordinator) (s : σ) :
    Except ControlError Unit × Coordinator × σ :=
  let c := c.begin
  match config.desired s with
  | .error e => (.error e, c.fail e, s)
  | .ok desired =>
    let c := c.gotDesired desired
    match config.actual s with
    | .error e => (.error e, c.fail e, s)
    | .ok actual =>
      let c := c.gotActual actual
      let plan := config.buildPlan desired actual c.generation
      let c := c.planned plan
      if plan.isEmpty then (.ok (), c.commit c.generation, s)
      else
        carryOut config plan
          { desired := desired, actual := actual, generation := plan.generationBefore } c s

variable (c : Coordinator)

@[simp] theorem generation_enter (state : CoordinatorState) :
    (c.enter state).generation = c.generation := rfl

variable (event : ControlEvent)

@[simp] theorem generation_emit : (c.emit event).generation = c.generation := rfl

@[simp] theorem generation_advance : (c.advance event).generation = c.generation := rfl

@[simp] theorem generation_announce : (c.announce event).generation = c.generation := rfl

@[simp] theorem generation_fail (err : ControlError) : (c.fail err).generation = c.generation := rfl

@[simp] theorem generation_commit (generation : UInt64) :
    (c.commit generation).generation = generation := rfl

/-- The ways a cycle can end. -/
inductive Reconciled {σ : Type} (config : Config σ) (c : Coordinator) (s : σ)
    (plan : ReconciliationPlan) (snapshot : Snapshot) (saved : σ) :
    Except ControlError Unit × Coordinator × σ → Prop where
  /-- There is nothing to do. -/
  | nothing {c' : Coordinator} (empty : plan.isEmpty = true)
      (gen : c'.generation = c.generation) :
      Reconciled config c s plan snapshot saved (.ok (), c', s)
  /-- Every step of the plan succeeded. -/
  | committed {c' : Coordinator} {report : ExecutionReport} {s₁ : σ}
      (nonempty : plan.isEmpty = false) (executed : config.execute plan saved = (.ok report, s₁))
      (success : report.success = true) (gen : c'.generation = plan.generationAfter) :
      Reconciled config c s plan snapshot saved (.ok (), c', s₁)
  /-- A step failed, and the rollback ran. -/
  | rolledBack {c' : Coordinator} {result : Except ControlError ExecutionReport} {s₁ : σ}
      {e : ControlError} (nonempty : plan.isEmpty = false)
      (executed : config.execute plan saved = (result, s₁))
      (failed : ∀ report, result = .ok report → report.success = false)
      (gen : c'.generation = c.generation) :
      Reconciled config c s plan snapshot saved
        (.error e, c', (config.rollback snapshot s₁).2)

theorem rollbackAndFail_eq {σ : Type} (config : Config σ) (snapshot : Snapshot)
    (err : ControlError) (c : Coordinator) (s : σ) :
    ∃ e c', rollbackAndFail config snapshot err c s =
        (.error e, c', (config.rollback snapshot s).2) ∧ c'.generation = c.generation := by
  unfold rollbackAndFail
  rcases config.rollback snapshot s with ⟨_ | _, s'⟩
  · exact ⟨_, _, rfl, by simp⟩
  · exact ⟨_, _, rfl, by simp⟩

theorem reconcile_reconciled {σ : Type} {config : Config σ} {c : Coordinator} {s saved : σ}
    {desired : DesiredState} {actual : ActualState} (hd : config.desired s = .ok desired)
    (ha : config.actual s = .ok actual)
    (hs : ∀ snapshot, config.save snapshot s = (.ok (), saved)) :
    Reconciled config c s (config.buildPlan desired actual c.generation)
      { desired := desired, actual := actual,
        generation := (config.buildPlan desired actual c.generation).generationBefore }
      saved (reconcile config c s) := by
  have hge : ((c.begin.gotDesired desired).gotActual actual).generation = c.generation := by
    simp [begin, gotDesired, gotActual]
  simp only [reconcile, hd, ha, hge]
  generalize config.buildPlan desired actual c.generation = plan
  cases hp : plan.isEmpty with
  | true => exact .nothing hp (by simp [planned, hge])
  | false =>
    simp only [carryOut, hs]
    rcases he : config.execute plan saved with ⟨e | report, s₁⟩
    · simp only
      obtain ⟨e', c', hr, hg⟩ := rollbackAndFail_eq config _ e _ s₁
      rw [hr]
      exact .rolledBack hp he (fun _ h => nomatch h) (by simp [hg, planned, hge])
    · simp only
      cases hre : report.success with
      | true => exact .committed hp he hre (by simp)
      | false =>
        obtain ⟨e', c', hr, hg⟩ := rollbackAndFail_eq config _ (stepsFailed report) _ s₁
        rw [hr]
        refine .rolledBack hp he (fun _ h => ?_) (by simp [hg, planned, hge])
        cases h
        exact hre

end Coordinator

end BalanSir.Control
