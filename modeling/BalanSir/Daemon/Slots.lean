/-
# One id at a time

What a plan and its rollback do to the rule of a single id.
-/

import BalanSir.Daemon.ExecutorClient

namespace BalanSir.Daemon

open Common Control Executor NftablesExecutor DaemonExecutorAdapter Link List
open Lib (run Along dropFirst)
open DaemonExecutorAdapter (step Succeeds answer)
open NftablesExecutor (remember rulesOf forget)
open PolicyCompiler (compile)

/-- The rules under an id, and its entry in the cache. -/
structure Slot where
  rules : List NftRuleSpec
  fingerprint : Option UInt64
  deriving DecidableEq

namespace Slot

/-- An update deletes the first rule only if the id is cached. -/
def replace (s : Slot) (spec : NftRuleSpec) (fingerprint : UInt64) : Slot where
  rules := (if s.fingerprint.isSome then s.rules.tail else s.rules) ++ [spec]
  fingerprint := some fingerprint

/-- A removal deletes the first rule. -/
def remove (s : Slot) : Slot where
  rules := s.rules.tail
  fingerprint := none

end Slot

def Link.slot (link : Link) (id : UInt32) : Slot where
  rules := link.executor.rulesOf id
  fingerprint := link.executor.installed id

namespace Link

variable {link : Link} {id : UInt32} {link' : Link}

theorem slot_eq (hr : link'.executor.rulesOf id = link.executor.rulesOf id)
    (hi : link'.executor.installed id = link.executor.installed id) :
    link'.slot id = link.slot id := by
  rw [slot, hr, hi, slot]

theorem slot_of_executor (h : link'.executor = link.executor) (id : UInt32) :
    link'.slot id = link.slot id := by
  rw [slot, h, slot]

variable {q : ActionRequest}

theorem holds_congr [Postcard] (h : link'.slot q.trace.policyId = link.slot q.trace.policyId) :
    link'.executor.Holds q ↔ link.executor.Holds q := by
  obtain ⟨hr, hf⟩ := Slot.mk.inj h
  rw [NftablesExecutor.Holds, hr, hf, NftablesExecutor.Holds]

theorem slot_execute_of_ne [Postcard] (h : q.trace.policyId ≠ id) (link : Link) :
    (link.execute q).2.slot id = link.slot id := by
  have hex := execute_executed q link.executor
  rcases execute_cases q link with ⟨ipc, heq, -⟩ | ⟨_, _, link', heq, -, hx | hx⟩
  · rw [heq]
    exact slot_eq (hex.rulesOf_of_ne h) (hex.installed_of_ne h)
  · rw [heq]
    exact slot_of_executor hx id
  · rw [heq]
    exact slot_eq (by rw [hx]; exact hex.rulesOf_of_ne h) (by rw [hx]; exact hex.installed_of_ne h)

theorem slot_execute_self [Postcard] (h : (link.execute q).1.isSuccess) :
    ((link.execute q).1 = .alreadyApplied ∧ link.executor.Holds q ∧
        (link.execute q).2.slot q.trace.policyId = link.slot q.trace.policyId) ∨
      ∃ spec time ruleId, specFor q = some spec ∧ (link.execute q).1 = .applied time ruleId ∧
        (link.Reliable → ¬link.executor.Holds q) ∧ (link.execute q).2.slot q.trace.policyId =
          (link.slot q.trace.policyId).replace spec (ruleFingerprint q) := by
  rcases execute_cases q link with ⟨ipc, heq, -⟩ | ⟨_, _, link', heq, -⟩
  · have hex := execute_executed q link.executor
    rw [heq] at h ⊢
    generalize NftablesExecutor.execute q link.executor = out at hex h ⊢
    cases hex with
    | already holds hc =>
      exact .inl ⟨rfl, holds, slot_eq (rulesOf_of_kernel hc.kernel _) rfl⟩
    | unsupported _ _ _ => cases h
    | refused _ => cases h
    | lost _ _ _ => cases h
    | @applied nft spec fresh hs hc =>
      refine .inr ⟨spec, _, _, hs, rfl, fun hr => fresh hr.2, ?_⟩
      rw [slot, rulesOf_applied_self hs hc, Slot.replace, slot]
      simp [remember]
  · rw [heq] at h
    cases h

theorem reliable_execute [Postcard] (q : ActionRequest) (h : link.Reliable) :
    (link.execute q).2.Reliable := by
  have hq := (NftablesExecutor.Op.execute q).quiet_apply h.2
  rcases execute_cases q link with ⟨ipc, heq, hi⟩ | ⟨_, _, link', heq, hn, -⟩
  · rw [heq]
    exact ⟨hi h, hq⟩
  · rw [execute, hn h]
    exact h

theorem slot_removeRule_self (h : (link.removeRule id).1.isSuccess) :
    (link.removeRule id).2.slot id = (link.slot id).remove := by
  rcases removeRule_cases id link with ⟨ipc, heq, hok, -⟩ | ⟨_, _, link', heq, -⟩
  · rcases NftablesExecutor.removeRule_cases id link.executor with ⟨nft, hn, hc⟩ | ⟨e, nft, hn, -⟩
    · rw [heq, hn, slot, Slot.remove, slot, rulesOf, NftablesExecutor.rules,
        forget, hc.kernel, Kernel.rules_onForward, rulesOf_dropFirst_self]
      simp [rulesOf, NftablesExecutor.rules]
    · rw [hn] at hok
      cases hok
  · rw [heq] at h
    cases h

theorem slot_removeRule_of_ne {j : UInt32} (hj : id ≠ j) (link : Link) :
    (link.removeRule id).2.slot j = link.slot j := by
  have hx : ∀ link' : Link,
      link'.executor = (NftablesExecutor.removeRule id link.executor).2 →
        link'.slot j = link.slot j := by
    intro link' hx
    rcases NftablesExecutor.removeRule_cases id link.executor with
      ⟨nft, hn, hc⟩ | ⟨e, nft, hn, hr⟩
    · rw [hn] at hx
      refine slot_eq ?_ ?_
      · rw [hx, rulesOf, NftablesExecutor.rules, forget,
          hc.kernel]
        exact rulesOf_dropFirst_of_ne hj _
      · rw [hx]
        exact Function.update_of_ne hj.symm _ _
    · rw [hn] at hx
      exact slot_eq (by rw [hx]; exact rulesOf_of_kernel hr.kernel j) (by rw [hx])
  rcases removeRule_cases id link with ⟨ipc, heq, -⟩ | ⟨_, _, link', heq, -, hx' | hx'⟩
  · rw [heq]
    exact hx _ rfl
  · rw [heq]
    exact slot_of_executor hx' j
  · rw [heq]
    exact hx link' hx'

theorem reliable_removeRule (id : UInt32) (h : link.Reliable) :
    (link.removeRule id).2.Reliable := by
  rcases removeRule_cases id link with ⟨ipc, heq, -, hi⟩ | ⟨_, _, link', heq, hn, -⟩
  · rcases NftablesExecutor.removeRule_cases id link.executor with ⟨nft, hx, hc⟩ | ⟨e, nft, hx, hr⟩
    · rw [heq, hx]
      exact ⟨hi h, hc.quiet h.2⟩
    · exact absurd h.2 hr.noisy
  · exact absurd h hn

end Link

section

variable [Postcard] {id : UInt32}

theorem slot_step_of_ne {op : ReconciliationOperation} (hid : op.target ≠ some id)
    (h : Handles Link) : (step executorClient op h).executor.slot id = h.executor.slot id := by
  cases op with
  | updatePolicy rule =>
    rw [executor_step_update]
    exact slot_execute_of_ne (fun e => hid (congrArg some e)) h.executor
  | removePolicy i =>
    rw [executor_step_remove]
    exact slot_removeRule_of_ne (fun e => hid (congrArg some e)) h.executor
  | _ => rfl

variable {ops : List ReconciliationOperation}

theorem slot_run_of_ne (hid : ∀ op ∈ ops, op.target ≠ some id) (h : Handles Link) :
    (run (step executorClient) ops h).executor.slot id = h.executor.slot id :=
  Lib.run_frame (f := fun h : Handles Link => h.executor.slot id)
    (fun op hop => slot_step_of_ne (hid op hop)) h

variable {h : Handles Link} {rule : DesiredRule}

theorem reliable_step (op : ReconciliationOperation) (hr : h.executor.Reliable) :
    (step executorClient op h).executor.Reliable := by
  cases op with
  | updatePolicy rule =>
    rw [executor_step_update]
    exact reliable_execute _ hr
  | removePolicy i =>
    rw [executor_step_remove]
    exact reliable_removeRule i hr
  | _ => exact hr

theorem slot_step_update (hs : Succeeds executorClient (.updatePolicy rule) h) :
    (h.executor.executor.Holds (compile rule) ∧
        answer executorClient (.updatePolicy rule) h = some .alreadyApplied ∧
        (step executorClient (.updatePolicy rule) h).executor.slot rule.id =
          h.executor.slot rule.id) ∨
      ∃ spec time ruleId, specFor (compile rule) = some spec ∧
        answer executorClient (.updatePolicy rule) h = some (.applied time ruleId) ∧
        (h.executor.Reliable → ¬h.executor.executor.Holds (compile rule)) ∧
        (step executorClient (.updatePolicy rule) h).executor.slot rule.id =
          (h.executor.slot rule.id).replace spec
            (ruleFingerprint (compile rule)) := by
  rw [executor_step_update]
  rcases slot_execute_self (hs _ rfl) with
    ⟨ha, hh, hsl⟩ | ⟨spec, time, ruleId, hsp, ha, hh, hsl⟩
  · exact .inl ⟨hh, congrArg some ha, hsl⟩
  · exact .inr ⟨spec, time, ruleId, hsp, congrArg some ha, hh, hsl⟩

theorem slot_step_remove (hs : Succeeds executorClient (.removePolicy id) h) :
    (step executorClient (.removePolicy id) h).executor.slot id = (h.executor.slot id).remove := by
  rw [executor_step_remove]
  exact slot_removeRule_self (hs _ rfl)

theorem succeeds_update (hre : h.executor.Reliable) (he : (Postcard.request (compile rule)).isSome)
    (hs : (specFor (compile rule)).isSome) : Succeeds executorClient (.updatePolicy rule) h := by
  intro a ha
  obtain rfl := Option.some.inj ha
  show (Link.execute (compile rule) h.executor).1.isSuccess = true
  rcases execute_cases (compile rule) h.executor with
    ⟨ipc, heq, -⟩ | ⟨_, _, link', -, hno, -⟩
  · rw [heq]
    have hex := execute_executed (compile rule) h.executor.executor
    generalize NftablesExecutor.execute (compile rule) h.executor.executor = out
      at hex ⊢
    cases hex with
    | already _ _ => rfl
    | unsupported _ hn _ =>
      rw [hn] at hs
      cases hs
    | applied _ _ _ => rfl
    | refused hr => exact absurd hre.2 hr.noisy
    | lost hn _ _ => exact absurd hre.2 hn
  · rw [hno hre] at he
    cases he

theorem succeeds_remove (id : UInt32) (hr : h.executor.Reliable) :
    Succeeds executorClient (.removePolicy id) h := by
  intro a ha
  obtain rfl := Option.some.inj ha
  show (Link.removeRule id h.executor).1.isSuccess = true
  rcases Link.removeRule_cases id h.executor with ⟨ipc, heq, -, -⟩ | ⟨_, _, _, -, hn, -⟩
  · rw [heq]
    rfl
  · exact absurd hr hn

theorem along_succeeds (hr : h.executor.Reliable)
    (hops : ∀ rule, .updatePolicy rule ∈ ops → (Postcard.request (compile rule)).isSome ∧
      (specFor (compile rule)).isSome) :
    Along (step executorClient) (Succeeds executorClient) ops h := by
  induction ops generalizing h with
  | nil => exact trivial
  | cons op ops ih =>
    refine ⟨?_, ih (reliable_step op hr) fun rule hm =>
      hops rule (mem_cons_of_mem _ hm)⟩
    cases op with
    | updatePolicy rule =>
      obtain ⟨he, hs⟩ := hops rule mem_cons_self
      exact succeeds_update hr he hs
    | removePolicy id => exact succeeds_remove id hr
    | _ => exact fun _ ha => nomatch ha

theorem rules_step (op : ReconciliationOperation) (h : Handles Link) :
    ∃ keep, (keep = h.executor.executor.rules ∨ ∃ id, op.target = some id ∧
        keep = dropFirst NftRuleSpec.comment (some (ruleComment id)) h.executor.executor.rules) ∧
      ((step executorClient op h).executor.executor.rules = keep ∨
        ∃ rule spec, op = .updatePolicy rule ∧ specFor (compile rule) = some spec ∧
          (step executorClient op h).executor.executor.rules = keep ++ [spec]) := by
  cases op with
  | updatePolicy rule =>
    obtain ⟨keep, hke, hru⟩ := (execute_executed
      (compile rule) h.executor.executor).rules_eq
    rw [executor_step_update]
    rcases execute_executor (compile rule) h.executor with hx | hx
    · exact ⟨_, .inl rfl, .inl (congrArg NftablesExecutor.rules hx)⟩
    · refine ⟨keep, hke.imp_right fun hk => ⟨rule.id, rfl, hk⟩, ?_⟩
      rw [executorClient, hx]
      exact hru.imp_right fun ⟨spec, hs, hr⟩ => ⟨rule, spec, rfl, hs, hr⟩
  | removePolicy id =>
    rw [executor_step_remove]
    rcases removeRule_executor id h.executor with hx | hx
    · exact ⟨_, .inl rfl, .inl (congrArg NftablesExecutor.rules hx)⟩
    · refine ⟨_, (removeRule_rules_eq id h.executor.executor).imp_right
        fun hr => ⟨id, rfl, hr⟩, .inl (congrArg NftablesExecutor.rules hx)⟩
  | _ => exact ⟨_, .inl rfl, .inl rfl⟩

theorem rules_slot_run_remove (hops : ∀ op ∈ ops, op.target = some id → op = .removePolicy id)
    (hs : Along (step executorClient) (Succeeds executorClient) ops h) :
    ((run (step executorClient) ops h).executor.slot id).rules =
      (h.executor.slot id).rules.drop (ops.count (.removePolicy id)) := by
  induction ops generalizing h with
  | nil => rfl
  | cons op ops ih =>
    rw [forall_mem_cons] at hops
    rw [run, ih hops.2 hs.2]
    by_cases ht : op.target = some id
    · obtain rfl := hops.1 ht
      rw [slot_step_remove hs.1, count_cons_self, Slot.remove, drop_tail]
    · rw [slot_step_of_ne ht, count_cons_of_ne fun e => ht (by rw [e]; rfl)]

end

end BalanSir.Daemon
