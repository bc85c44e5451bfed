/-
# A fail-closed configuration

From the configuration of `EmptyConfigAction` to the rules that are enforced.
-/

import BalanSir.Control.Provider
import BalanSir.Daemon.DnsFlow

namespace BalanSir.Daemon

open Common Control
open Net (IpAddr)

variable (registry : DnsRegistry) (now : ℕ)

def enforcedRules (state : DesiredState) : List DesiredRule :=
  (FlowCompiler.compile now state { registry := registry }).1.rules

def HasAddress (domain : Option String) : Prop :=
  ∀ d, domain = some d → ∃ ips, registry.view now d = some ips ∧ ips ≠ []

theorem compileRuleWith_ne_nil_iff (rule : DesiredRule) :
    compileRuleWith (registry.view now) rule ≠ [] ↔ HasAddress registry now rule.domain := by
  unfold compileRuleWith HasAddress DesiredRule.domain
  cases rule.flow with
  | none => simp
  | some flow =>
    cases hd : flow.dstDomain with
    | none => simp [hd]
    | some d =>
      simp only [hd, Option.bind_some, Option.some.injEq, forall_eq']
      cases registry.view now d with
      | none => simp
      | some ips => simp

theorem enforcedRules_ne_nil_iff (state : DesiredState) : enforcedRules registry now state ≠ [] ↔
      ∃ rule ∈ state.rules, HasAddress registry now rule.domain := by
  rw [enforcedRules, FlowCompiler.compile_eq, compileWith, Ne, List.flatMap_eq_nil_iff]
  push Not
  simp only [compileRuleWith_ne_nil_iff]

/-- **When a fail-closed configuration enforces a rule:** if it has no rule, or one whose domain, if
any, has an address at that time. -/
theorem failClosed_enforces_iff {config : DesiredConfig} {state : DesiredState}
    (hdrop : config.policy.emptyConfigAction = .drop)
    (h : Control.DesiredState.ofConfig config = .ok state) (registry : DnsRegistry) (now : ℕ) :
    enforcedRules registry now state ≠ [] ↔
      config.rules = [] ∨ ∃ r ∈ config.rules, HasAddress registry now r.dstDomain := by
  rw [enforcedRules_ne_nil_iff]
  rcases compiled_rules h with ⟨he, -, hr⟩ | ⟨ha, hk⟩
  · refine iff_of_true ?_ (.inl he)
    rw [hr]
    exact ⟨failClosedRule, List.mem_singleton_self _, fun d hd => by cases hd⟩
  · have hne : config.rules ≠ [] := fun hn => hk hn hdrop
    rw [or_iff_right hne]
    -- only the domains matter, and the compiled rules have those of the written ones
    have hdo := domains_of_compile ha
    have hm : ∀ {α : Type} (f : α → Option String) (l : List α),
        (∃ a ∈ l, HasAddress registry now (f a)) ↔ ∃ d ∈ l.map f, HasAddress registry now d := by
      simp
    rw [hm, hdo, ← hm]

def domainOnly : DesiredConfig :=
  { rules := [{ id := 1, action := "block", dstDomain := some "ads.example" }]
    policy := { emptyConfigAction := .drop } }

def domainOnlyState : DesiredState :=
  { rules := [{ id := 1, action := .block, priority := 0
                flow := some { dstDomain := some "ads.example" } }] }

theorem domainOnly_compiles :
    Control.DesiredState.ofConfig domainOnly = .ok domainOnlyState := by decide +kernel

theorem domainOnly_enforced :
    enforcedRules (DnsRegistry.insert "ads.example" [.ofOctets 203 0 113 5] {}) 0
      domainOnlyState ≠ [] := by
  have hdr : domainOnly.policy.emptyConfigAction = .drop := rfl
  refine (failClosed_enforces_iff hdr domainOnly_compiles _ 0).2 (.inr ?_)
  refine ⟨_, List.mem_singleton_self _, fun d hd => ⟨[.ofOctets 203 0 113 5], ?_, by simp⟩⟩
  cases hd
  decide +kernel

/-- A fail-closed configuration with a rule for an unresolved domain enforces nothing. -/
theorem domainOnly_unresolved_enforces_nothing :
    ¬∀ (config : DesiredConfig) (state : DesiredState) (registry : DnsRegistry) (now : ℕ),
      config.policy.emptyConfigAction = .drop →
      Control.DesiredState.ofConfig config = .ok state →
      enforcedRules registry now state ≠ [] := by
  intro h
  exact h domainOnly domainOnlyState {} 0 rfl domainOnly_compiles (by decide +kernel)

end BalanSir.Daemon
