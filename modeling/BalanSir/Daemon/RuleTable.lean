/-
# The executor as a table of rules

What the proofs about plans need of an executor: a table, which its calls change or not.
-/

import BalanSir.Daemon.ExecutorClient

namespace BalanSir.Daemon

open Common Executor NftablesExecutor Link

/-- How the state of an executor is read as a table from rule ids to rules. -/
structure RuleTable {ε : Type} (x : ExecutorAdapter ε) (τ : Type) where
  inv : ε → Prop
  table : ε → UInt32 → Option τ
  entry : ActionRequest → Option τ
  inv_execute : ∀ {q e}, inv e → inv (x.execute q e).2
  inv_removeRule : ∀ {id e}, inv e → inv (x.removeRule id e).2
  execute_other : ∀ {q e id}, inv e → q.trace.policyId ≠ id →
    table (x.execute q e).2 id = table e id
  execute_applied : ∀ {q e time ruleId}, inv e → (x.execute q e).1 = .applied time ruleId →
    table (x.execute q e).2 q.trace.policyId = entry q
  execute_already : ∀ {q e}, inv e → (x.execute q e).1 = .alreadyApplied →
    table (x.execute q e).2 q.trace.policyId = table e q.trace.policyId
  removeRule_other : ∀ {id e j}, inv e → id ≠ j → table (x.removeRule id e).2 j = table e j
  removeRule_success : ∀ {id e}, inv e → (x.removeRule id e).1.isSuccess = true →
    table (x.removeRule id e).2 id = none

namespace Link

def ruleAt (link : Link) (id : UInt32) : Option NftRuleSpec := (link.executor.rulesOf id).head?

variable {q : ActionRequest} {link : Link}

theorem executed_of_isSuccess [Postcard] (hs : (link.execute q).1.isSuccess) :
    NftablesExecutor.Executed q link.executor
      ((link.execute q).1, (link.execute q).2.executor) := by
  obtain ⟨h₁, h₂⟩ := execute_of_isSuccess hs
  rw [h₁, h₂]
  exact execute_executed q link.executor

theorem ruleAt_execute_applied [Postcard] (hx : link.executor.Tidy) {time : UInt64}
    {ruleId : Option UInt32} (h : (link.execute q).1 = .applied time ruleId) :
    (link.execute q).2.ruleAt q.trace.policyId = specFor q := by
  have hs := (executed_of_isSuccess (by rw [h]; rfl)).rulesOf_self hx
  rw [h] at hs
  rw [ruleAt]
  rcases hs with ⟨spec, -, hsp, hr, -⟩ | ⟨hne, -⟩ | ⟨hne, -⟩
  · rw [hr, hsp]
    rfl
  · exact absurd rfl (hne time ruleId)
  · cases hne

theorem ruleAt_execute_already [Postcard] (hx : link.executor.Tidy)
    (h : (link.execute q).1 = .alreadyApplied) :
    (link.execute q).2.ruleAt q.trace.policyId = link.ruleAt q.trace.policyId := by
  have hs := (executed_of_isSuccess (by rw [h]; rfl)).rulesOf_self hx
  rw [h] at hs
  rw [ruleAt, ruleAt]
  rcases hs with ⟨spec, ha, -⟩ | ⟨-, hr, -⟩ | ⟨hne, -⟩
  · cases ha
  · rw [hr]
  · cases hne

end Link

def linkTable [Postcard] : RuleTable executorClient NftRuleSpec where
  inv link := link.executor.Tidy
  table := Link.ruleAt
  entry := specFor
  inv_execute {q link} hx := by
    rcases execute_executor q link with h | h
    · exact h ▸ hx
    · exact h ▸ tidy_execute q hx
  inv_removeRule {id link} hx := by
    rcases removeRule_executor id link with h | h
    · exact h ▸ hx
    · exact h ▸ tidy_removeRule id hx
  execute_other {q link id} _ hid := by
    rcases execute_executor q link with h | h
    · exact congrArg (fun x => (NftablesExecutor.rulesOf x id).head?) h
    · refine (congrArg (fun x => (NftablesExecutor.rulesOf x id).head?) h).trans ?_
      exact congrArg List.head?
        ((execute_executed q link.executor).rulesOf_of_ne hid)
  execute_applied hx h := ruleAt_execute_applied hx h
  execute_already hx h := ruleAt_execute_already hx h
  removeRule_other {id link j} hx hj := by
    rcases removeRule_executor id link with h | h
    · exact congrArg (fun x => (NftablesExecutor.rulesOf x j).head?) h
    · refine (congrArg (fun x => (NftablesExecutor.rulesOf x j).head?) h).trans ?_
      exact congrArg List.head? ((removeRule_rulesOf id hx).1 j hj).1
  removeRule_success {id link} hx hs := by
    obtain ⟨hok, h⟩ := removeRule_of_isSuccess hs
    refine (congrArg (fun x => (NftablesExecutor.rulesOf x id).head?) h).trans ?_
    rcases (removeRule_rulesOf id hx).2 with hr | ⟨hne, -⟩
    · rw [hr]
      rfl
    · exact absurd hok hne

end BalanSir.Daemon
