/-
# The nftables executor

`NftablesExecutor::execute`: requests, with a cache of what was applied.
-/

import BalanSir.Executor.Nftables
import Mathlib.Data.List.TakeWhile

namespace BalanSir.Executor

open Common NftablesBackend
open Net (IpAddr)
open Lib (tagged dropFirst)
open NftablesBackend (ruleIdOf handleOf handleOf_eq_none)

def ruleFingerprint [Postcard] (request : ActionRequest) : UInt64 :=
  fnv1a64 ((Postcard.request request).getD [])

def ruleComment (policyId : UInt32) : String := "balansir:" ++ toString policyId.toNat

def toNftVerdict : Action → Option NftVerdict
  | .allow => some .accept
  | .block => some .drop
  | .reject => some .reject
  | .queue num => some (.queue num)
  | _ => none

def cidrForAddr (addr : IpAddr) : Option String :=
  if addr.isUnspecified then none
  else
    match addr with
    | .v4 _ => some (addr.toText ++ "/32")
    | .v6 _ => some (addr.toText ++ "/128")

def protoOf : UInt8 → Option NftProto
  | 6 => some .tcp
  | 17 => some .udp
  | _ => none

def portMatcher (port : UInt16) : Option UInt16 := if port ≠ 0 then some port else none

def ruleSpec (request : ActionRequest) (verdict : NftVerdict) (mark : Option UInt32) :
    NftRuleSpec where
  proto := protoOf request.protocol
  srcCidr := cidrForAddr request.srcIp
  dstCidr := cidrForAddr request.dstIp
  sport := portMatcher request.srcPort
  dport := portMatcher request.dstPort
  verdict := verdict
  mark := mark
  comment := some (ruleComment request.trace.policyId)

def toNftSpec (request : ActionRequest) : Option NftRuleSpec :=
  (toNftVerdict request.action).map fun verdict => ruleSpec request verdict none

def toMarkSpec (request : ActionRequest) (fwmark : UInt32) : NftRuleSpec :=
  ruleSpec request .accept (some fwmark)

def specFor (request : ActionRequest) : Option NftRuleSpec :=
  match request.action with
  | .mark fwmark => some (toMarkSpec request fwmark)
  | _ => toNftSpec request

theorem comment_specFor {request : ActionRequest} {spec : NftRuleSpec}
    (h : specFor request = some spec) :
    spec.comment = some (ruleComment request.trace.policyId) := by
  unfold specFor toNftSpec at h
  split at h
  · rw [← Option.some.inj h]
    rfl
  · obtain ⟨verdict, -, rfl⟩ := Option.map_eq_some_iff.1 h
    rfl

theorem ruleIdOf_ruleComment (id : UInt32) : ruleIdOf (ruleComment id) = some id := by
  have hd : (Nat.toDigits 10 id.toNat).takeWhile Char.isDigit = Nat.toDigits 10 id.toNat :=
    List.takeWhile_eq_self_iff.2 fun c hc => Nat.isDigit_of_mem_toDigits (by decide) (by decide) hc
  have hl : (ruleComment id).toList = "balansir:".toList ++ Nat.toDigits 10 id.toNat := by
    simp [ruleComment]
  have hne : (Nat.toDigits 10 id.toNat).isEmpty = false := by
    simp [Nat.toDigits_ne_nil]
  unfold ruleIdOf
  rw [hl, afterFirst_append (by decide)]
  simp only [hd, Nat.ofDigitChars_ten_toDigits, hne, Bool.false_eq_true, if_false,
    if_pos id.toNat_lt, UInt32.ofNat_toNat]

theorem ruleComment_injective : Function.Injective ruleComment := fun a b h => by
  have := congrArg ruleIdOf h
  simpa only [ruleIdOf_ruleComment, Option.some.injEq] using this

/-- `NftablesExecutor`: its backend and the fingerprints of what it installed. -/
structure NftablesExecutor where
  nft : System := {}
  installed : UInt32 → Option UInt64 := fun _ => none

namespace NftablesExecutor

def rules (x : NftablesExecutor) : List NftRuleSpec := x.nft.kernel.forward.rules

def rulesOf (x : NftablesExecutor) (id : UInt32) : List NftRuleSpec :=
  tagged NftRuleSpec.comment (some (ruleComment id)) x.rules

def Quiet (x : NftablesExecutor) : Prop := x.nft.Quiet

def remember (x : NftablesExecutor) (id : UInt32) (fingerprint : UInt64) : NftablesExecutor :=
  { x with installed := Function.update x.installed id (some fingerprint) }

def forget (x : NftablesExecutor) (id : UInt32) : NftablesExecutor :=
  { x with installed := Function.update x.installed id none }

def alreadyInstalled [Postcard] (request : ActionRequest) (x : NftablesExecutor) :
    Bool × NftablesExecutor :=
  let policyId := request.trace.policyId
  if x.installed policyId = some (ruleFingerprint request) then
    match NftablesBackend.findHandleByComment (ruleComment policyId) x.nft with
    | (.ok (some _), nft) => (true, { x with nft := nft })
    | (_, nft) => (false, { x with nft := nft })
  else (false, x)

def dropPrior (policyId : UInt32) (x : NftablesExecutor) : Except Error Unit × NftablesExecutor :=
  if (x.installed policyId).isSome then
    let (result, nft) := NftablesBackend.removeRuleByComment (ruleComment policyId) x.nft
    (result, { x with nft := nft })
  else (.ok (), x)

def install [Postcard] (request : ActionRequest) (spec : NftRuleSpec) (x : NftablesExecutor) :
    ActionResult × NftablesExecutor :=
  let policyId := request.trace.policyId
  match dropPrior policyId x with
  | (.error e, x) => (.failed (.kernelError 0) (some ("replace: " ++ e.toText)), x)
  | (.ok (), x) =>
    match NftablesBackend.addRule spec x.nft with
    | (.ok (), nft) =>
      (.applied 0 (some policyId),
        { x with nft := nft }.remember policyId (ruleFingerprint request))
    | (.error e, nft) => (.failed (.kernelError 0) (some e.toText), { x with nft := nft })

def execute [Postcard] (request : ActionRequest) (x : NftablesExecutor) :
    ActionResult × NftablesExecutor :=
  match alreadyInstalled request x with
  | (true, x) => (.alreadyApplied, x)
  | (false, x) =>
    match specFor request with
    | none => (.unsupported request.action.actionType, x)
    | some spec => install request spec x

def flush (x : NftablesExecutor) : Except Error Unit × NftablesExecutor :=
  match NftablesBackend.flush x.nft with
  | (.ok (), nft) => (.ok (), { nft := nft, installed := fun _ => none })
  | (.error e, nft) => (.error e, { x with nft := nft })

def removeRule (ruleId : UInt32) (x : NftablesExecutor) : Except Error Unit × NftablesExecutor :=
  match NftablesBackend.removeRuleByComment (ruleComment ruleId) x.nft with
  | (.ok (), nft) => (.ok (), { x with nft := nft }.forget ruleId)
  | (.error e, nft) => (.error e, { x with nft := nft })

def actualRuleIds (x : NftablesExecutor) : List UInt32 × NftablesExecutor :=
  match NftablesBackend.listRuleIds x.nft with
  | (.ok ids, nft) => (ids, { x with nft := nft })
  | (.error _, nft) => ([], { x with nft := nft })

def restart (x : NftablesExecutor) : NftablesExecutor := { x with installed := fun _ => none }

def Holds [Postcard] (x : NftablesExecutor) (request : ActionRequest) : Prop :=
  x.installed request.trace.policyId = some (ruleFingerprint request) ∧
    x.rulesOf request.trace.policyId ≠ []

def withoutPrior (x : NftablesExecutor) (id : UInt32) (l : List NftRuleSpec) : List NftRuleSpec :=
  if (x.installed id).isSome then dropFirst NftRuleSpec.comment (some (ruleComment id)) l else l

theorem alreadyInstalled_cases [Postcard] (request : ActionRequest) (x : NftablesExecutor) :
    (∃ nft, alreadyInstalled request x = (true, { x with nft := nft }) ∧ x.Holds request ∧
        x.nft.Carried nft x.nft.kernel) ∨
      (∃ nft, alreadyInstalled request x = (false, { x with nft := nft }) ∧
        (x.Quiet → ¬x.Holds request) ∧ x.nft.Carried nft x.nft.kernel) := by
  unfold alreadyInstalled
  by_cases hfp : x.installed request.trace.policyId = some (ruleFingerprint request)
  · rw [if_pos hfp]
    rcases findHandleByComment_cases (ruleComment request.trace.policyId) x.nft
      with ⟨nft, h, hc⟩ | ⟨e, nft, h, hr⟩
    · rw [h]
      cases hh : handleOf (ruleComment request.trace.policyId)
          x.nft.kernel.forward.rules with
      | none => exact .inr ⟨nft, rfl, fun _ hx => hx.2 (handleOf_eq_none.1 hh), hc⟩
      | some handle =>
        have hne : x.rulesOf request.trace.policyId ≠ [] := fun hn =>
          nomatch (handleOf_eq_none.2 hn).symm.trans hh
        exact .inl ⟨nft, rfl, ⟨hfp, hne⟩, hc⟩
    · rw [h]
      exact .inr ⟨nft, rfl, fun hq => absurd hq hr.noisy, hr.carried⟩
  · rw [if_neg hfp]
    exact .inr ⟨x.nft, rfl, fun _ hx => hfp hx.1, rfl, id⟩

theorem dropPrior_cases (id : UInt32) (x : NftablesExecutor) :
    (∃ nft, dropPrior id x = (.ok (), { x with nft := nft }) ∧
        x.nft.Carried nft (x.nft.kernel.onForward (x.withoutPrior id))) ∨
      (∃ e nft, dropPrior id x = (.error e, { x with nft := nft }) ∧ x.nft.Refused nft) := by
  unfold dropPrior withoutPrior
  by_cases hid : (x.installed id).isSome
  · simp only [hid, if_true]
    rcases removeRuleByComment_cases (ruleComment id) x.nft with
      ⟨nft, h, hc⟩ | ⟨e, nft, h, hr⟩
    · exact .inl ⟨nft, by rw [h], hc⟩
    · exact .inr ⟨e, nft, by rw [h], hr⟩
  · simp only [hid]
    exact .inl ⟨x.nft, rfl, rfl, fun h => h⟩

theorem removeRule_cases (id : UInt32) (x : NftablesExecutor) :
    (∃ nft, removeRule id x = (.ok (), { x with nft := nft }.forget id) ∧
        x.nft.Carried nft (x.nft.kernel.onForward
          (dropFirst NftRuleSpec.comment (some (ruleComment id))))) ∨
      (∃ e nft, removeRule id x = (.error e, { x with nft := nft }) ∧ x.nft.Refused nft) := by
  unfold removeRule
  rcases removeRuleByComment_cases (ruleComment id) x.nft with
    ⟨nft, h, hc⟩ | ⟨e, nft, h, hr⟩
  · exact .inl ⟨nft, by rw [h], hc⟩
  · exact .inr ⟨e, nft, by rw [h], hr⟩

variable (x : NftablesExecutor) {request : ActionRequest}
  {id j : UInt32} {out : ActionResult × NftablesExecutor}

theorem flush_cases : (∃ nft, flush x = (.ok (), { nft := nft, installed := fun _ => none }) ∧
        x.nft.Carried nft (x.nft.kernel.onForward fun _ => [])) ∨
      (∃ e nft, flush x = (.error e, { x with nft := nft }) ∧ x.nft.Refused nft) := by
  unfold flush
  rcases NftablesBackend.flush_cases x.nft with ⟨nft, h, hc⟩ | ⟨e, nft, h, hr⟩
  · exact .inl ⟨nft, by rw [h], hc⟩
  · exact .inr ⟨e, nft, by rw [h], hr⟩

theorem actualRuleIds_cases : ∃ nft ids, actualRuleIds x = (ids, { x with nft := nft }) ∧
      x.nft.Carried nft x.nft.kernel ∧
      (x.Quiet → ids = x.rules.filterMap fun r => r.comment.bind ruleIdOf) := by
  unfold actualRuleIds
  rcases listRuleIds_cases x.nft with ⟨nft, h, hc⟩ | ⟨e, nft, h, hr⟩
  · exact ⟨nft, _, by rw [h]; rfl, hc, fun _ => rfl⟩
  · exact ⟨nft, _, by rw [h], hr.carried, fun hq => absurd hq hr.noisy⟩

/-- The ways `execute` can end. -/
inductive Executed [Postcard] (request : ActionRequest) (x : NftablesExecutor) :
    ActionResult × NftablesExecutor → Prop where
  /-- The exact rule is installed already. -/
  | already {nft : System} (holds : x.Holds request)
      (carried : x.nft.Carried nft x.nft.kernel) :
      Executed request x (.alreadyApplied, { x with nft := nft })
  /-- There is no nft rule for the action. -/
  | unsupported {nft : System} (fresh : x.Quiet → ¬x.Holds request) (hspec : specFor request = none)
      (carried : x.nft.Carried nft x.nft.kernel) :
      Executed request x (.unsupported request.action.actionType, { x with nft := nft })
  /-- The prior rule is dropped and the new one appended. -/
  | applied {nft : System} {spec : NftRuleSpec} (fresh : x.Quiet → ¬x.Holds request)
      (hspec : specFor request = some spec)
      (carried : x.nft.Carried nft (x.nft.kernel.onForward
        (x.withoutPrior request.trace.policyId · ++ [spec]))) :
      Executed request x (.applied 0 (some request.trace.policyId),
        { x with nft := nft }.remember request.trace.policyId (ruleFingerprint request))
  /-- A command fails before anything changed. -/
  | refused {nft : System} {message : Option String} (refused : x.nft.Refused nft) :
      Executed request x (.failed (.kernelError 0) message, { x with nft := nft })
  /-- The prior rule is dropped and the add fails. -/
  | lost {nft : System} {message : Option String} (noisy : ¬x.Quiet)
      (hspec : (specFor request).isSome)
      (kernel : nft.kernel = x.nft.kernel.onForward (x.withoutPrior request.trace.policyId)) :
      Executed request x (.failed (.kernelError 0) message, { x with nft := nft })

theorem execute_executed [Postcard] (request : ActionRequest) (x : NftablesExecutor) :
    Executed request x (execute request x) := by
  unfold execute
  rcases alreadyInstalled_cases request x with ⟨nft₁, h₁, hx, hc₁⟩ | ⟨nft₁, h₁, hx, hc₁⟩
  · rw [h₁]
    exact .already hx hc₁
  rw [h₁]
  cases hs : specFor request with
  | none => exact .unsupported hx hs hc₁
  | some spec =>
    unfold install
    rcases dropPrior_cases request.trace.policyId { x with nft := nft₁ } with
      ⟨nft₂, h₂, hc₂⟩ | ⟨e, nft₂, h₂, hr₂⟩
    · simp only [hc₁.kernel] at hc₂
      have hc₂ := hc₁.trans hc₂
      simp only [h₂]
      rcases addRule_cases spec nft₂ with ⟨nft₃, h₃, hc₃⟩ | ⟨e, nft₃, h₃, hr₃⟩
      · rw [h₃]
        rw [hc₂.kernel] at hc₃
        exact .applied hx hs (hc₂.trans hc₃)
      · rw [h₃]
        have hk := hr₃.kernel.trans hc₂.kernel
        exact .lost (fun hq => hr₃.noisy (hc₂.quiet hq)) (by rw [hs]; rfl) hk
    · simp only [h₂]
      exact .refused (hc₁.trans_refused hr₂)

theorem rulesOf_dropFirst_self (id : UInt32) (l : List NftRuleSpec) :
    tagged NftRuleSpec.comment (some (ruleComment id))
        (dropFirst NftRuleSpec.comment (some (ruleComment id)) l) =
      (tagged NftRuleSpec.comment (some (ruleComment id)) l).tail :=
  Lib.tagged_dropFirst_self _ l

theorem rulesOf_dropFirst_of_ne (h : id ≠ j) (l : List NftRuleSpec) :
    tagged NftRuleSpec.comment (some (ruleComment j))
        (dropFirst NftRuleSpec.comment (some (ruleComment id)) l) =
      tagged NftRuleSpec.comment (some (ruleComment j)) l :=
  Lib.tagged_dropFirst_of_ne (fun e => h (ruleComment_injective (Option.some.inj e))) l

theorem rulesOf_of_kernel {x x' : NftablesExecutor} (h : x'.nft.kernel = x.nft.kernel)
    (id : UInt32) : x'.rulesOf id = x.rulesOf id := by
  rw [rulesOf, rules, h, rulesOf, rules]

theorem rulesOf_withoutPrior_self (id : UInt32) :
    tagged NftRuleSpec.comment (some (ruleComment id)) (x.withoutPrior id x.rules) =
      if (x.installed id).isSome then (x.rulesOf id).tail else x.rulesOf id := by
  unfold withoutPrior
  split
  · exact rulesOf_dropFirst_self id x.rules
  · rfl

theorem rulesOf_withoutPrior_of_ne (hj : id ≠ j) :
    tagged NftRuleSpec.comment (some (ruleComment j)) (x.withoutPrior id x.rules) =
      x.rulesOf j := by
  unfold withoutPrior
  split
  · exact rulesOf_dropFirst_of_ne hj x.rules
  · rfl

theorem rulesOf_applied_self [Postcard] {x : NftablesExecutor}
    {nft : System} {spec : NftRuleSpec} (hs : specFor request = some spec)
    (hc : x.nft.Carried nft (x.nft.kernel.onForward
      (x.withoutPrior request.trace.policyId · ++ [spec]))) :
    ({ x with nft := nft }.remember request.trace.policyId
        (ruleFingerprint request)).rulesOf request.trace.policyId =
      (if (x.installed request.trace.policyId).isSome then
        (x.rulesOf request.trace.policyId).tail
       else x.rulesOf request.trace.policyId) ++ [spec] := by
  rw [← rulesOf_withoutPrior_self, ← Lib.tagged_append_self (comment_specFor hs), rulesOf,
    rules, remember, hc.kernel]
  rfl

theorem Executed.rulesOf_of_ne [Postcard] {x : NftablesExecutor}
    (h : Executed request x out) {j : UInt32}
    (hj : request.trace.policyId ≠ j) : out.2.rulesOf j = x.rulesOf j := by
  cases h with
  | already _ hc => exact rulesOf_of_kernel hc.kernel j
  | unsupported _ _ hc => exact rulesOf_of_kernel hc.kernel j
  | refused hr => exact rulesOf_of_kernel hr.kernel j
  | lost _ _ hk =>
    rw [rulesOf, rules, hk]
    exact rulesOf_withoutPrior_of_ne x hj
  | @applied nft spec _ hs hc =>
    have hne : spec.comment ≠ some (ruleComment j) := fun e =>
      hj (ruleComment_injective (Option.some.inj ((comment_specFor hs).symm.trans e)))
    rw [rulesOf, rules, remember, hc.kernel, Kernel.rules_onForward, Lib.tagged_append_of_ne hne]
    exact rulesOf_withoutPrior_of_ne x hj

theorem Executed.rules_eq [Postcard] {x : NftablesExecutor} (h : Executed request x out) :
    ∃ keep, (keep = x.rules ∨ keep = dropFirst NftRuleSpec.comment
        (some (ruleComment request.trace.policyId)) x.rules) ∧ (out.2.rules = keep ∨
        ∃ spec, specFor request = some spec ∧ out.2.rules = keep ++ [spec]) := by
  have hp : x.withoutPrior request.trace.policyId x.rules = x.rules ∨
      x.withoutPrior request.trace.policyId x.rules = dropFirst NftRuleSpec.comment
        (some (ruleComment request.trace.policyId)) x.rules := by
    unfold withoutPrior
    split
    · exact .inr rfl
    · exact .inl rfl
  cases h with
  | already _ hc => exact ⟨x.rules, .inl rfl, .inl (congrArg (·.forward.rules) hc.kernel)⟩
  | unsupported _ _ hc => exact ⟨x.rules, .inl rfl, .inl (congrArg (·.forward.rules) hc.kernel)⟩
  | refused hr => exact ⟨x.rules, .inl rfl, .inl (congrArg (·.forward.rules) hr.kernel)⟩
  | lost _ _ hk => exact ⟨_, hp, .inl (congrArg (·.forward.rules) hk)⟩
  | @applied nft spec _ hs hc =>
    exact ⟨_, hp, .inr ⟨spec, hs, congrArg (·.forward.rules) hc.kernel⟩⟩

theorem removeRule_rules_eq (id : UInt32) (x : NftablesExecutor) :
    (removeRule id x).2.rules = x.rules ∨ (removeRule id x).2.rules =
      dropFirst NftRuleSpec.comment (some (ruleComment id)) x.rules := by
  rcases removeRule_cases id x with ⟨nft, h, hc⟩ | ⟨e, nft, h, hr⟩
  · rw [h]
    exact .inr (congrArg (·.forward.rules) hc.kernel)
  · rw [h]
    exact .inl (congrArg (·.forward.rules) hr.kernel)

end NftablesExecutor

end BalanSir.Executor
