/-
# The coordinator's state machine, cycle after cycle

The states a cycle enters, against the state machine that `transition` allows.
-/

import BalanSir.Control.Coordinator
import BalanSir.Lib.Fsm

namespace BalanSir.Control
namespace Coordinator

open Common Lib
open CoordinatorState (transition)

variable {σ : Type}

def upToPlan (desired : DesiredState) (actual : ActualState) (plan : ReconciliationPlan) :
    List ControlEvent :=
  [.reconciliationRequested, .desiredReadFinished desired.rules.length,
    .actualReadFinished actual.activeRules.length,
    .planningFinished plan.generationAfter plan.operations.length plan.isEmpty]

/-- What a cycle hands to `advance`, what it returns and the state it ends in. -/
inductive Flow : List ControlEvent → Except ControlError Unit → CoordinatorState → Prop where
  | desiredFailed (e : ControlError) : Flow [.reconciliationRequested] (.error e) .failed
  | actualFailed (desired : DesiredState) (e : ControlError) :
      Flow [.reconciliationRequested, .desiredReadFinished desired.rules.length] (.error e) .failed
  | nothing (desired : DesiredState) (actual : ActualState) (plan : ReconciliationPlan) :
      Flow (upToPlan desired actual plan ++ [.commitCompleted, .reconciled]) (.ok ()) .done
  | saveFailed (desired : DesiredState) (actual : ActualState) (plan : ReconciliationPlan)
      (e : ControlError) : Flow (upToPlan desired actual plan) (.error e) .failed
  | rollbackFailed (desired : DesiredState) (actual : ActualState) (plan : ReconciliationPlan)
      (cause e : ControlError) :
      Flow (upToPlan desired actual plan ++ [.executionStarted, .stepFailed 0 cause.toText])
        (.error e) .failed
  | rolledBack (desired : DesiredState) (actual : ActualState) (plan : ReconciliationPlan)
      (e : ControlError) :
      Flow (upToPlan desired actual plan ++
        [.executionStarted, .stepFailed 0 e.toText, .rollbackCompleted]) (.error e) .failed
  | committed (desired : DesiredState) (actual : ActualState) (plan : ReconciliationPlan) :
      Flow (upToPlan desired actual plan ++ [.executionStarted, .commitCompleted, .reconciled])
        (.ok ()) .done

/-- `c'` is `c` after the events, each handed to `advance`. -/
structure Follows (c : Coordinator) (events : List ControlEvent) (c' : Coordinator) : Prop where
  ticks : c'.ticks = c.ticks ++ trace CoordinatorState.transition c.state events
  state : c'.state = run (tick CoordinatorState.transition) events c.state

theorem Follows.refl (c : Coordinator) : Follows c [] c := ⟨by simp [trace], rfl⟩

variable {c' c : Coordinator} {events : List ControlEvent}
  {config : Config σ} {desired : DesiredState} {actual : ActualState} {plan : ReconciliationPlan}

theorem Follows.emit (h : Follows c events c') (event : ControlEvent) :
    Follows c events (c'.emit event) :=
  ⟨h.ticks, h.state⟩

theorem Follows.advance (h : Follows c events c')
    (event : ControlEvent) : Follows c (events ++ [event]) (c'.advance event) := by
  constructor
  · rw [trace_append, ← h.state, ← List.append_assoc, ← h.ticks]
    rfl
  · rw [run_append, ← h.state]
    rfl

theorem Follows.announce (h : Follows c events c')
    (event : ControlEvent) : Follows c (events ++ [event]) (c'.announce event) :=
  (h.emit event).advance event

theorem Follows.ticks_commit (h : Follows c events c') (generation : UInt64) :
    (c'.commit generation).ticks = c.ticks ++
      trace transition c.state (events ++ [.commitCompleted, .reconciled]) := by
  have hc := h.announce .commitCompleted
  -- the store of the generation is no event
  have stored : Follows c (events ++ [.commitCompleted])
      { c'.announce .commitCompleted with generation := generation } := ⟨hc.ticks, hc.state⟩
  rw [List.append_cons]
  exact (stored.announce .reconciled).ticks

def Went (c : Coordinator) (outcome : Except ControlError Unit × Coordinator × σ) : Prop :=
  ∃ events, Flow events outcome.1 outcome.2.1.state ∧
    outcome.2.1.ticks = c.ticks ++ trace CoordinatorState.transition c.state events

theorem went_rollbackAndFail
    (h : Follows c (upToPlan desired actual plan ++ [.executionStarted]) c') (snapshot : Snapshot)
    (err : ControlError) (s : σ) : Went c (rollbackAndFail config snapshot err c' s) := by
  have failed := (h.advance (.stepFailed 0 err.toText)).emit .rollbackStarted
  unfold rollbackAndFail
  rcases config.rollback snapshot s with ⟨rbErr | _, s'⟩
  · exact ⟨_, .rollbackFailed desired actual plan err rbErr, failed.ticks⟩
  · exact ⟨_, .rolledBack desired actual plan err, (failed.announce .rollbackCompleted).ticks⟩

theorem went_carryOut (h : Follows c (upToPlan desired actual plan) c')
    (snapshot : Snapshot) (s : σ) : Went c (carryOut config plan snapshot c' s) := by
  unfold carryOut
  rcases config.save snapshot s with ⟨e | _, saved⟩
  · exact ⟨_, .saveFailed desired actual plan e, h.ticks⟩
  · have started := h.announce .executionStarted
    dsimp only
    rcases config.execute plan saved with ⟨e | report, s'⟩
    · exact went_rollbackAndFail started snapshot e s'
    · dsimp only
      split
      · exact ⟨_, .committed desired actual plan, started.ticks_commit _⟩
      · exact went_rollbackAndFail started snapshot _ s'

theorem went_reconcile (config : Config σ) (c : Coordinator) (s : σ) :
    Went c (reconcile config c s) := by
  have begun : Follows c [.reconciliationRequested] c.begin :=
    ((Follows.refl c).announce .reconciliationRequested).emit .desiredReadStarted
  unfold reconcile
  rcases config.desired s with e | desired
  · exact ⟨_, .desiredFailed e, begun.ticks⟩
  · have read :=
      (begun.announce (.desiredReadFinished desired.rules.length)).emit .actualReadStarted
    rcases config.actual s with e | actual
    · exact ⟨_, .actualFailed desired e, read.ticks⟩
    · have both := (read.announce (.actualReadFinished actual.activeRules.length)).emit
        .planningStarted
      dsimp only
      generalize config.buildPlan desired actual _ = plan
      have planned := both.announce
        (.planningFinished plan.generationAfter plan.operations.length plan.isEmpty)
      split
      · exact ⟨_, .nothing desired actual plan, planned.ticks_commit _⟩
      · exact went_carryOut planned _ s

namespace Flow

variable {events : List ControlEvent} {result : Except ControlError Unit}
  {final : CoordinatorState}

theorem final_ne_idle (h : Flow events result final) : final ≠ .idle := by
  cases h <;> decide

theorem final_of_ok (h : Flow events (.ok ()) final) : final = .done := by
  cases h <;> rfl

theorem accepted (h : Flow events result final) :
    Accepted transition (trace transition .idle events) := by
  cases h <;> simp [Accepted, trace, tick, upToPlan, transition]

theorem not_accepted (h : Flow events result final) {state : CoordinatorState}
    (hne : state ≠ .idle) : ¬ Accepted transition (trace transition state events) := by
  have refused : state.transition .reconciliationRequested = none := by
    cases state <;> first | rfl | exact absurd rfl hne
  cases h <;> exact not_accepted_of_first refused

theorem entered_of_ok (h : Flow events (.ok ()) final) :
    ∃ k, entered transition (trace transition .idle events) =
      [.readDesired, .readActual, .buildPlan] ++ List.replicate (k + 1) .executePlan ++
        [.commitSnapshot, .done] := by
  cases h with
  | nothing desired actual plan => exact ⟨0, rfl⟩
  | committed desired actual plan => exact ⟨1, rfl⟩

end Flow

def newTicks (config : Config σ) (c : Coordinator) (s : σ) :
    List (CoordinatorState × ControlEvent) :=
  (reconcile config c s).2.1.ticks.drop c.ticks.length

/-- The machine accepts every event and, on success, gets through every phase to `Done`. -/
structure WellFormed (config : Config σ) (c : Coordinator) (s : σ) : Prop where
  legal : Accepted CoordinatorState.transition (newTicks config c s)
  phases : (reconcile config c s).1 = .ok () →
    (∃ k, entered CoordinatorState.transition (newTicks config c s) =
      [.readDesired, .readActual, .buildPlan] ++ List.replicate (k + 1) .executePlan ++
        [.commitSnapshot, .done]) ∧
      (reconcile config c s).2.1.state = .done

theorem wellFormed_iff (config : Config σ) (c : Coordinator) (s : σ) :
    WellFormed config c s ↔ c.state = .idle := by
  obtain ⟨events, hf, ht⟩ := went_reconcile config c s
  have hn : newTicks config c s = trace transition c.state events := by
    rw [newTicks, ht, List.drop_left]
  constructor
  · intro h
    by_contra hne
    exact hf.not_accepted hne (hn ▸ h.legal)
  · intro hi
    rw [hi] at hn
    refine ⟨hn ▸ hf.accepted, fun hok => ?_⟩
    rw [hok] at hf
    exact ⟨hn ▸ hf.entered_of_ok, hf.final_of_ok⟩

def call (config : Config σ) (environment : σ → σ) (w : Coordinator × σ) : Coordinator × σ :=
  (reconcile config w.1 (environment w.2)).2

/-- **Only the first cycle follows the state machine:** every cycle is well formed exactly when the
run is at most one call, which finds the coordinator as `new` left it. -/
theorem calls_wellFormed_iff (config : Config σ) (environments : List (σ → σ))
    (c : Coordinator) (s : σ) :
    Along (call config) (fun environment w => WellFormed config w.1 (environment w.2))
        environments (c, s) ↔
      environments = [] ∨ environments.length = 1 ∧ c.state = .idle := by
  match environments with
  | [] => simp [Along]
  | [environment] => simp [Along, wellFormed_iff]
  | first :: second :: rest =>
    -- the second call finds the machine where the first one ended
    obtain ⟨events, hf, -⟩ := went_reconcile config c (first s)
    have := hf.final_ne_idle
    simp [Along, wellFormed_iff, call, this]

def settled : Config Unit where
  desired _ := .ok {}
  actual _ := .ok {}
  buildPlan _ _ generation := ReconciliationPlan.new generation []
  save _ s := (.ok (), s)
  execute plan s := (.ok (.new plan.operations plan.operations.length 0), s)
  rollback _ s := (.ok (), s)

/-- The second call of a coordinator succeeds and enters none of the phases. -/
theorem second_call_ignored : (reconcile settled (call settled id ({}, ())).1 ()).1 = .ok () ∧
      entered CoordinatorState.transition (newTicks settled (call settled id ({}, ())).1 ()) = [] ∧
      ¬ WellFormed settled (call settled id ({}, ())).1 () := by
  refine ⟨rfl, by decide, fun h => ?_⟩
  exact absurd h.legal (by decide)

end Coordinator
end BalanSir.Control
