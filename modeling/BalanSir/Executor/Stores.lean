/-
# The chain and the cache

The policy chain and the executor's cache along a run of requests.
-/

import BalanSir.Common.Postcard
import BalanSir.Executor.Service
import BalanSir.Lib.Run

namespace BalanSir.Executor

open Common List Executor.System
open Lib (tagged dropFirst run Along)
open NftablesBackend (handleOf removeRuleByComment findHandleByComment addRule)

namespace NftablesExecutor

/-- What can happen to an executor: one of its calls, or a restart of its process. -/
inductive Op where
  | execute (request : ActionRequest)
  | removeRule (id : UInt32)
  | flush
  | restart
  deriving DecidableEq

def Op.apply [Postcard] : Op → NftablesExecutor → NftablesExecutor
  | .execute request, x => (NftablesExecutor.execute request x).2
  | .removeRule id, x => (NftablesExecutor.removeRule id x).2
  | .flush, x => (NftablesExecutor.flush x).2
  | .restart, x => x.restart

def AtMostOne (x : NftablesExecutor) : Prop := ∀ id, (x.rulesOf id).length ≤ 1

def Op.Guarantee [Postcard] (op : Op) (x : NftablesExecutor) : Prop :=
  (op.apply x).AtMostOne ∧
    ∀ id, op = .removeRule id → (NftablesExecutor.removeRule id x).1 = .ok () →
      (op.apply x).rulesOf id = []

/-- No rule under the id that the cache does not know. -/
def Op.NoStranger (op : Op) (x : NftablesExecutor) : Prop :=
  ∀ request, op = .execute request → (specFor request).isSome →
    x.rulesOf request.trace.policyId ≠ [] → (x.installed request.trace.policyId).isSome

variable {x : NftablesExecutor}

theorem AtMostOne.of_kernel {x' : NftablesExecutor} (h : x.AtMostOne)
    (hk : x'.nft.kernel = x.nft.kernel) : x'.AtMostOne := fun id => by
  rw [rulesOf_of_kernel hk]
  exact h id

theorem Op.quiet_apply [Postcard] (op : Op) (hq : x.Quiet) : (op.apply x).Quiet := by
  cases op with
  | execute request =>
    have h := execute_executed request x
    show (NftablesExecutor.execute request x).2.Quiet
    generalize NftablesExecutor.execute request x = out at h ⊢
    cases h with
    | already _ hc => exact hc.quiet hq
    | unsupported _ _ hc => exact hc.quiet hq
    | applied _ _ hc => exact hc.quiet hq
    | refused hr => exact absurd hq hr.noisy
    | lost hn _ _ => exact absurd hq hn
  | removeRule id =>
    rcases removeRule_cases id x with ⟨nft, h, hc⟩ | ⟨e, nft, h, hr⟩
    · rw [Op.apply, h]
      exact hc.quiet hq
    · exact absurd hq hr.noisy
  | flush =>
    rcases flush_cases x with ⟨nft, h, hc⟩ | ⟨e, nft, h, hr⟩
    · rw [Op.apply, h]
      exact hc.quiet hq
    · exact absurd hq hr.noisy
  | restart => exact hq

theorem execute_atMostOne_iff [Postcard] (request : ActionRequest) (hq : x.Quiet)
    (hx : x.AtMostOne) : (execute request x).2.AtMostOne ↔
      ((specFor request).isSome → x.rulesOf request.trace.policyId ≠ [] →
        (x.installed request.trace.policyId).isSome) := by
  have h := execute_executed request x
  generalize execute request x = out at h ⊢
  cases h with
  | already holds hc =>
    exact iff_of_true (hx.of_kernel hc.kernel) fun _ _ => by rw [holds.1]; rfl
  | unsupported _ hs hc =>
    exact iff_of_true (hx.of_kernel hc.kernel) fun h => by rw [hs] at h; cases h
  | refused hr => exact absurd hq hr.noisy
  | lost hn _ _ => exact absurd hq hn
  | @applied nft spec fresh hs hc =>
    have hse := rulesOf_applied_self hs hc
    have ho := fun j => (Executed.applied fresh hs hc).rulesOf_of_ne (j := j)
    have hl := hx request.trace.policyId
    constructor
    · intro h _ hne
      by_contra hk
      have := h request.trace.policyId
      rw [hse, if_neg hk, length_append, length_singleton] at this
      exact hne (List.length_eq_zero_iff.1 (by omega))
    · intro h j
      by_cases hj : request.trace.policyId = j
      · subst hj
        rw [hse, length_append, length_singleton]
        split
        · rw [length_tail]
          omega
        · next hk =>
            have : x.rulesOf request.trace.policyId = [] := by
              by_contra hne
              exact hk (h (by rw [hs]; rfl) hne)
            rw [this, length_nil]
      · exact (congrArg List.length (ho j hj)).trans_le (hx j)

variable (id : UInt32) {request : ActionRequest} {out : ActionResult × NftablesExecutor}

theorem removeRule_atMostOne (hx : x.AtMostOne) : (removeRule id x).2.AtMostOne ∧
      ((removeRule id x).1 = .ok () → (removeRule id x).2.rulesOf id = []) := by
  rcases removeRule_cases id x with ⟨nft, h, hc⟩ | ⟨e, nft, h, hr⟩
  · have hs : ({ x with nft := nft }.forget id).rulesOf id = (x.rulesOf id).tail := by
      rw [rulesOf, rules, forget, hc.kernel]
      exact rulesOf_dropFirst_self id x.rules
    have hl := hx id
    rw [h]
    refine ⟨fun j => ?_, fun _ => ?_⟩
    · by_cases hj : id = j
      · subst hj
        rw [hs, length_tail]
        omega
      · rw [rulesOf, rules, forget, hc.kernel]
        exact (congrArg List.length (rulesOf_dropFirst_of_ne hj x.rules)).trans_le (hx j)
    · rw [hs]
      exact List.length_eq_zero_iff.1 (by rw [length_tail]; omega)
  · rw [h]
    exact ⟨hx.of_kernel hr.kernel, fun h => by cases h⟩

theorem flush_atMostOne (hx : x.AtMostOne) : (flush x).2.AtMostOne := by
  rcases flush_cases x with ⟨nft, h, hc⟩ | ⟨e, nft, h, hr⟩
  · intro id
    rw [h, rulesOf, rules, hc.kernel]
    exact Nat.zero_le 1
  · rw [h]
    exact hx.of_kernel hr.kernel

theorem Op.guarantee_iff [Postcard] (op : Op) (hq : x.Quiet) (hx : x.AtMostOne) :
    op.Guarantee x ↔ op.NoStranger x := by
  cases op with
  | execute request =>
    simp only [Guarantee, NoStranger, Op.apply, execute_atMostOne_iff request hq hx,
      reduceCtorEq, false_implies, implies_true, and_true, Op.execute.injEq, forall_eq']
  | removeRule id =>
    obtain ⟨h₁, h₂⟩ := removeRule_atMostOne id hx
    refine iff_of_true ⟨h₁, ?_⟩ fun _ h => nomatch h
    rintro j h hok
    cases h
    exact h₂ hok
  | flush => exact iff_of_true ⟨flush_atMostOne hx, fun _ h => nomatch h⟩ fun _ h => nomatch h
  | restart => exact iff_of_true ⟨hx, fun _ h => nomatch h⟩ fun _ h => nomatch h

/-- **One rule per id, exactly.** Every state of a run has at most one and every removal leaves none
precisely when no request meets a rule that the cache does not know. -/
theorem atMostOne_along_iff [Postcard] (ops : List Op) (x : NftablesExecutor) (hq : x.Quiet)
    (hx : x.AtMostOne) : Along Op.apply Op.Guarantee ops x ↔ Along Op.apply Op.NoStranger ops x :=
  Lib.along_congr (I := fun x => x.Quiet ∧ x.AtMostOne)
    (fun op _ _ h => op.guarantee_iff h.1 h.2)
    (fun op _ _ h hg => ⟨op.quiet_apply h.1, hg.1⟩) ⟨hq, hx⟩

def dropAllRequest : ActionRequest where
  action := .block
  srcIp := .v4 0
  dstIp := .v4 0
  srcPort := 0
  dstPort := 0
  protocol := 0
  interface := 0
  trace :=
    { policyId := 1, steps := [], action := .block, executionTimeUs := 0, correlationId := 0 }

theorem atMostOne_along_execute_remove :
    ∃ _ : Postcard, Along Op.apply Op.Guarantee [.execute dropAllRequest, .removeRule 1] {} :=
  ⟨.wire,
    (@atMostOne_along_iff .wire _ {} (fun _ h => nomatch h) (fun _ => Nat.zero_le 1)).2
      ⟨fun request h _ hne => absurd (by cases h; rfl) hne, (fun _ h => nomatch h), trivial⟩⟩

/-- The same request before and after a restart: two rules under one id. -/
theorem not_atMostOne_after_restart : ¬∃ _ : Postcard, Along Op.apply Op.Guarantee
      [.execute dropAllRequest, .restart, .execute dropAllRequest] {} := by
  rintro ⟨_, -, -, h, -⟩
  have ht : ((Op.execute dropAllRequest).apply (Op.restart.apply
      ((Op.execute dropAllRequest).apply {}))).rulesOf 1 =
        [ruleSpec dropAllRequest .drop none, ruleSpec dropAllRequest .drop none] := rfl
  have hl := h.1 1
  rw [ht] at hl
  exact absurd hl (by decide)

def Tidy (x : NftablesExecutor) : Prop :=
  ∀ id, (x.rulesOf id).length ≤ 1 ∧ (x.rulesOf id ≠ [] → (x.installed id).isSome)

theorem Tidy.withoutPrior_eq_nil (h : x.Tidy) (id : UInt32) :
    (if (x.installed id).isSome then (x.rulesOf id).tail else x.rulesOf id) = [] := by
  split
  · have := (h id).1
    exact List.length_eq_zero_iff.1 (by rw [length_tail]; omega)
  · next hid =>
      by_contra hne
      exact hid ((h id).2 hne)

theorem Executed.installed_of_ne [Postcard] (h : Executed request x out) {j : UInt32}
    (hj : request.trace.policyId ≠ j) : out.2.installed j = x.installed j := by
  cases h with
  | applied _ _ _ => exact Function.update_of_ne hj.symm _ _
  | _ => rfl

theorem Executed.rulesOf_self [Postcard] (h : Executed request x out) (hx : x.Tidy) :
    (∃ spec, out.1 = .applied 0 (some request.trace.policyId) ∧ specFor request = some spec ∧
        out.2.rulesOf request.trace.policyId = [spec] ∧
        out.2.installed request.trace.policyId = some (ruleFingerprint request)) ∨
      ((∀ time ruleId, out.1 ≠ .applied time ruleId) ∧
        out.2.rulesOf request.trace.policyId = x.rulesOf request.trace.policyId ∧
        out.2.installed = x.installed) ∨
      (out.1.isSuccess = false ∧ out.2.rulesOf request.trace.policyId = [] ∧
        out.2.installed = x.installed) := by
  cases h with
  | already _ hc => exact .inr (.inl ⟨by simp, rulesOf_of_kernel hc.kernel _, rfl⟩)
  | unsupported _ _ hc =>
    exact .inr (.inl ⟨by simp, rulesOf_of_kernel hc.kernel _, rfl⟩)
  | refused hr => exact .inr (.inl ⟨by simp, rulesOf_of_kernel hr.kernel _, rfl⟩)
  | lost _ _ hk =>
    refine .inr (.inr ⟨rfl, ?_, rfl⟩)
    rw [rulesOf, rules, hk]
    exact (rulesOf_withoutPrior_self x _).trans (hx.withoutPrior_eq_nil _)
  | @applied nft spec _ hs hc =>
    refine .inl ⟨spec, rfl, hs, ?_, Function.update_self ..⟩
    rw [rulesOf_applied_self hs hc, hx.withoutPrior_eq_nil, nil_append]

theorem tidy_execute [Postcard] (request : ActionRequest) (hx : x.Tidy) :
    (execute request x).2.Tidy := by
  have h := execute_executed request x
  intro j
  by_cases hj : request.trace.policyId = j
  · subst hj
    rcases h.rulesOf_self hx with ⟨spec, -, -, hr, hi⟩ | ⟨-, hr, hi⟩ | ⟨-, hr, hi⟩
    · rw [hr, hi]
      exact ⟨le_rfl, fun _ => rfl⟩
    · rw [hr, hi]
      exact hx _
    · rw [hr]
      exact ⟨Nat.zero_le 1, fun hne => absurd rfl hne⟩
  · rw [h.rulesOf_of_ne hj, h.installed_of_ne hj]
    exact hx j

theorem removeRule_rulesOf (hx : x.Tidy) :
    (∀ j, id ≠ j → (removeRule id x).2.rulesOf j = x.rulesOf j ∧
        (removeRule id x).2.installed j = x.installed j) ∧ ((removeRule id x).2.rulesOf id = [] ∨
        (removeRule id x).1 ≠ .ok () ∧ (removeRule id x).2.rulesOf id = x.rulesOf id ∧
          (removeRule id x).2.installed id = x.installed id) := by
  rcases removeRule_cases id x with ⟨nft, h, hc⟩ | ⟨e, nft, h, hr⟩
  · have hru : ∀ j, ({ x with nft := nft }.forget id).rulesOf j =
        tagged NftRuleSpec.comment (some (ruleComment j))
          (dropFirst NftRuleSpec.comment (some (ruleComment id)) x.rules) := fun j => by
      rw [rulesOf, rules, forget, hc.kernel, Kernel.rules_onForward, rules]
    rw [h]
    refine ⟨fun j hj => ⟨?_, Function.update_of_ne hj.symm _ _⟩, .inl ?_⟩
    · rw [hru]
      exact rulesOf_dropFirst_of_ne hj x.rules
    · rw [hru, rulesOf_dropFirst_self]
      have := (hx id).1
      exact List.length_eq_zero_iff.1 (by rw [length_tail]; exact Nat.sub_eq_zero_of_le this)
  · rw [h]
    exact ⟨fun j _ => ⟨rulesOf_of_kernel hr.kernel j, rfl⟩,
      .inr ⟨by simp, rulesOf_of_kernel hr.kernel id, rfl⟩⟩

theorem tidy_removeRule (hx : x.Tidy) : (removeRule id x).2.Tidy := by
  obtain ⟨ho, hs⟩ := removeRule_rulesOf id hx
  intro j
  by_cases hj : id = j
  · subst hj
    rcases hs with h | ⟨-, hr, hi⟩
    · rw [h]
      exact ⟨Nat.zero_le 1, fun hne => absurd rfl hne⟩
    · rw [hr, hi]
      exact hx id
  · rw [(ho j hj).1, (ho j hj).2]
    exact hx j

def DeleteWithoutAdd (s : System) (i : ℕ) : Prop :=
  s.outcome i = .done ∧ s.outcome (i + 1) = .done ∧ s.outcome (i + 2) ≠ .done

/-- The old rule is deleted, and the new one is not added. -/
def BreaksOff [Postcard] (request : ActionRequest) (x : NftablesExecutor) : Prop :=
  (specFor request).isSome ∧ x.rulesOf request.trace.policyId ≠ [] ∧
    ∃ fingerprint, x.installed request.trace.policyId = some fingerprint ∧
      if fingerprint = ruleFingerprint request then
        x.nft.outcome 0 ≠ .done ∧ DeleteWithoutAdd x.nft 1
      else DeleteWithoutAdd x.nft 0

def Unchanged (x x' : NftablesExecutor) : Prop :=
  x'.rules = x.rules ∧ x'.installed = x.installed

def FailureUnchanged (x : NftablesExecutor) (out : ActionResult × NftablesExecutor) : Prop :=
  ∀ error message, out.1 = .failed error message → x.Unchanged out.2

theorem exists_handle {id : UInt32} (hne : x.rulesOf id ≠ []) :
    ∃ handle, handleOf (ruleComment id) x.nft.kernel.forward.rules = some handle :=
  Option.ne_none_iff_exists'.1 fun h => hne (NftablesBackend.handleOf_eq_none.1 h)

theorem dropPrior_of_done {id : UInt32} (hid : (x.installed id).isSome) (hne : x.rulesOf id ≠ [])
    (h₀ : x.nft.outcome 0 = .done) (h₁ : x.nft.outcome 1 = .done) :
    ∃ nft, dropPrior id x = (.ok (), { x with nft := nft }) ∧
      nft.kernel = x.nft.kernel.onForward (dropFirst NftRuleSpec.comment (some (ruleComment id))) ∧
      nft.outcome 0 = x.nft.outcome 2 := by
  obtain ⟨handle, hh⟩ := exists_handle hne
  have hl := nft_of_done "nft list failed: " h₀ x.nft.kernel.list_forward
  have hd := nft_of_done "nft delete rule failed: "
    (by simpa using h₁) ((x.nft.after x.nft.kernel).kernel.delete_forward handle)
  refine ⟨(x.nft.after x.nft.kernel).after (x.nft.kernel.onForward (·.eraseIdx handle)), ?_, ?_, ?_⟩
  · simp only [dropPrior, hid, removeRuleByComment,
      findHandleByComment, hl, hh, hd]
    rfl
  · simp [Kernel.onForward, NftablesBackend.eraseIdx_handleOf hh]
  · simp

theorem dropPrior_of_not_done {id : UInt32} (hid : (x.installed id).isSome)
    (hne : x.rulesOf id ≠ []) (h : ¬(x.nft.outcome 0 = .done ∧ x.nft.outcome 1 = .done)) :
    ∃ e nft, dropPrior id x = (.error e, { x with nft := nft }) ∧ nft.kernel = x.nft.kernel := by
  obtain ⟨handle, hh⟩ := exists_handle hne
  by_cases h₀ : x.nft.outcome 0 = .done
  · have hl := nft_of_done "nft list failed: " h₀ x.nft.kernel.list_forward
    obtain ⟨e, hd⟩ := nft_of_not_done "nft delete rule failed: "
      (Kernel.delete .forward handle) (s := x.nft.after x.nft.kernel)
      (by simpa using fun h₁ => h ⟨h₀, h₁⟩)
    refine ⟨e, (x.nft.after x.nft.kernel).after x.nft.kernel, ?_, rfl⟩
    simp only [dropPrior, hid, removeRuleByComment,
      findHandleByComment, hl, hh, hd]
    rfl
  · obtain ⟨e, hl⟩ := nft_of_not_done "nft list failed: " (Kernel.list .forward) h₀
    refine ⟨e, x.nft.after x.nft.kernel, ?_, rfl⟩
    simp only [dropPrior, hid, if_true, removeRuleByComment,
      findHandleByComment, hl]

theorem install_failureUnchanged_iff [Postcard] (request : ActionRequest) (spec : NftRuleSpec)
    (hid : (x.installed request.trace.policyId).isSome)
    (hne : x.rulesOf request.trace.policyId ≠ []) :
    x.FailureUnchanged (install request spec x) ↔ ¬DeleteWithoutAdd x.nft 0 := by
  by_cases h : x.nft.outcome 0 = .done ∧ x.nft.outcome 1 = .done
  · obtain ⟨nft, hdr, hk, ho⟩ := dropPrior_of_done hid hne h.1 h.2
    by_cases h₂ : x.nft.outcome 2 = .done
    · have ha := nft_of_done "nft add rule failed: " (ho.trans h₂)
        (nft.kernel.add_forward spec)
      refine iff_of_true ?_ fun hd => hd.2.2 h₂
      simp only [install, hdr, addRule, ha]
      exact fun _ _ h => nomatch h
    · obtain ⟨e, ha⟩ := nft_of_not_done "nft add rule failed: " (Kernel.add .forward spec)
        (fun h => h₂ (ho.symm.trans h))
      refine iff_of_false ?_ fun hd => hd ⟨h.1, h.2, h₂⟩
      simp only [install, hdr, addRule, ha]
      intro hu
      -- the chain is one rule shorter than it was
      have hr := congrArg (tagged NftRuleSpec.comment
        (some (ruleComment request.trace.policyId))) (hu _ _ rfl).1
      simp only [rules, kernel_after, hk, Kernel.rules_onForward, rulesOf_dropFirst_self] at hr
      have hl := congrArg List.length hr
      have hp := List.length_pos_iff.2 hne
      rw [length_tail] at hl
      simp only [rulesOf, rules] at hp
      omega
  · obtain ⟨e, nft, hdr, hk⟩ := dropPrior_of_not_done hid hne h
    refine iff_of_true ?_ fun hd => h ⟨hd.1, hd.2.1⟩
    simp only [install, hdr]
    exact fun _ _ _ => ⟨by simp only [rules, hk], rfl⟩

theorem failureUnchanged_of_no_prior [Postcard]
    (h : (specFor request).isSome → x.withoutPrior request.trace.policyId x.rules = x.rules) :
    x.FailureUnchanged (execute request x) := by
  have hx := execute_executed request x
  generalize execute request x = out at hx ⊢
  intro error message hf
  cases hx with
  | already _ _ => cases hf
  | unsupported _ _ _ => cases hf
  | applied _ _ _ => cases hf
  | refused hr => exact ⟨by rw [rules, hr.kernel, rules], rfl⟩
  | lost _ hs hk =>
    refine ⟨?_, rfl⟩
    rw [rules, hk]
    exact h hs

theorem execute_of_listed [Postcard] (hx : x.Holds request)
    (h₀ : x.nft.outcome 0 = .done) : (execute request x).1 = .alreadyApplied := by
  obtain ⟨handle, hh⟩ := exists_handle hx.2
  have hl := nft_of_done "nft list failed: " h₀ x.nft.kernel.list_forward
  simp only [execute, alreadyInstalled, hx.1, if_true, findHandleByComment, hl, hh]

theorem execute_of_unlisted [Postcard] {spec : NftRuleSpec} (hs : specFor request = some spec)
    (hfp : x.installed request.trace.policyId = some (ruleFingerprint request))
    (h₀ : x.nft.outcome 0 ≠ .done) :
    execute request x = install request spec { x with nft := x.nft.after x.nft.kernel } := by
  obtain ⟨e, hl⟩ := nft_of_not_done "nft list failed: " (Kernel.list .forward) h₀
  simp only [execute, alreadyInstalled, hfp, if_true, findHandleByComment, hl, hs]

theorem execute_of_changed [Postcard] {s : NftRuleSpec} (hs : specFor request = some s)
    (hfp : x.installed request.trace.policyId ≠ some (ruleFingerprint request)) :
    execute request x = install request s x := by
  simp only [execute, alreadyInstalled, hfp, if_false, hs]

/-- **What a failed request leaves, exactly:** chain and cache as they were, unless it `BreaksOff`.
-/
theorem execute_failureUnchanged_iff [Postcard] (request : ActionRequest) (x : NftablesExecutor) :
    x.FailureUnchanged (execute request x) ↔ ¬x.BreaksOff request := by
  -- first what makes the condition fail at once: no rule to install, or none to replace
  by_cases hp : (specFor request).isSome ∧ (x.installed request.trace.policyId).isSome ∧
      x.rulesOf request.trace.policyId ≠ []
  · obtain ⟨hs, hid, hne⟩ := hp
    obtain ⟨spec, hsp⟩ := Option.isSome_iff_exists.1 hs
    obtain ⟨fingerprint, hfp⟩ := Option.isSome_iff_exists.1 hid
    have hb : x.BreaksOff request ↔ if fingerprint = ruleFingerprint request then
        x.nft.outcome 0 ≠ .done ∧ DeleteWithoutAdd x.nft 1 else DeleteWithoutAdd x.nft 0 := by
      simp [BreaksOff, hsp, hne, hfp]
    rw [hb]
    by_cases heq : fingerprint = ruleFingerprint request
    · subst heq
      rw [if_pos rfl]
      by_cases h₀ : x.nft.outcome 0 = .done
      · have hr := execute_of_listed ⟨hfp, hne⟩ h₀
        exact iff_of_true (fun _ _ h => nomatch hr.symm.trans h) fun h => h.1 h₀
      · have hi := install_failureUnchanged_iff request spec
          (x := { x with nft := x.nft.after x.nft.kernel }) hid hne
        rw [execute_of_unlisted hsp hfp h₀]
        simpa [h₀, DeleteWithoutAdd, FailureUnchanged, Unchanged, rules] using hi
    · rw [if_neg heq, execute_of_changed hsp (by simpa [hfp] using heq)]
      exact install_failureUnchanged_iff request spec hid hne
  · refine iff_of_true (failureUnchanged_of_no_prior fun hs => ?_) ?_
    · by_cases hid : (x.installed request.trace.policyId).isSome
      · have hn : x.rulesOf request.trace.policyId = [] := by
          by_contra hne
          exact hp ⟨hs, hid, hne⟩
        rw [withoutPrior, if_pos hid]
        exact Lib.dropFirst_of_not_mem hn
      · rw [withoutPrior, if_neg hid]
    · rintro ⟨hs, hne, fingerprint, hfp, -⟩
      exact hp ⟨hs, by rw [hfp]; rfl, hne⟩

def acceptAllRequest : ActionRequest := { dropAllRequest with action := .allow }

def addFailing [Postcard] : NftablesExecutor :=
  let x := (execute dropAllRequest {}).2
  { x with
    nft := { x.nft with outcomes := [.done, .done, .failed "Error: Could not process rule"] } }

/-- A replacement under the same id whose add fails: the rule is gone from the chain. -/
theorem addFailing_loses_rule :
    ¬∀ _ : Postcard, addFailing.FailureUnchanged (execute acceptAllRequest addFailing) := by
  intro h
  let _ : Postcard := .wire
  have hne : addFailing.rulesOf acceptAllRequest.trace.policyId ≠ [] := by decide +kernel
  have hfp : addFailing.installed acceptAllRequest.trace.policyId ≠
      some (ruleFingerprint acceptAllRequest) := by decide +kernel
  have hu := h .wire
  rw [execute_of_changed rfl hfp,
    install_failureUnchanged_iff _ _ rfl hne] at hu
  exact hu ⟨rfl, rfl, by decide⟩

end NftablesExecutor

end BalanSir.Executor
