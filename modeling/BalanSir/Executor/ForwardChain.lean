/-
# Who comes first in the forward chain

Gateway and policy share the forward chain: the order of their rules along a run.
-/

import BalanSir.Common.Postcard
import BalanSir.Executor.Dpi
import BalanSir.Executor.Gateway
import BalanSir.Executor.Service

namespace BalanSir.Executor

open Common List
open Lib (Prog Triple EndedIn tagged dropFirst dropAll Along)
open NftablesBackend NftablesGatewayBackend
open NftablesExecutor (dpiOp dpiRule dpiRuleTag)

variable {name other : ChainName} {Q : List NftRuleSpec → Prop}

/-- The executor process; the gateway is applied when the backend has recorded a configuration,
which an `apply` that fails later on leaves there. -/
structure Host where
  executor : NftablesExecutor := {}
  applied : Option GatewayConfig := none

inductive HostOp where
  | execute (request : ActionRequest)
  | removeRule (id : UInt32)
  | dpi (op : DpiOp)
  | applyGateway (config : GatewayConfig)

namespace Host

def rules (h : Host) : List NftRuleSpec := h.executor.rules

def gateway (h : Host) : NftablesGatewayBackend :=
  { system := h.executor.nft, applied := h.applied }

def step [Postcard] (debug : String → String) (op : HostOp) (h : Host) : Host :=
  match op with
  | .execute request => { h with executor := (h.executor.execute request).2 }
  | .removeRule id => { h with executor := (h.executor.removeRule id).2 }
  | .dpi op =>
    { h with executor := { h.executor with nft := (NftablesExecutor.dpiOp op h.executor.nft).2 } }
  | .applyGateway config =>
    let g := (apply debug config h.gateway).2
    { executor := { h.executor with nft := g.system }, applied := g.applied }

def IsPolicy (r : NftRuleSpec) : Prop := ∃ id, r.comment = some (ruleComment id)

/-- Both conntrack rules are there, and no policy rule stands before one of them. -/
structure InOrder (rules : List NftRuleSpec) : Prop where
  present : conntrackRules ⊆ rules
  order : rules.Pairwise fun r r' => IsPolicy r → r' ∉ conntrackRules

/-- An `apply` that succeeds finds no policy rule, and one that fails on an applied gateway leaves
the forward chain as it was. -/
def Fits (debug : String → String) (op : HostOp) (h : Host) : Prop :=
  match op with
  | .applyGateway config =>
    ((apply debug config h.gateway).1.isOk = true → ∀ r ∈ h.rules, ¬IsPolicy r) ∧
      ((apply debug config h.gateway).1.isOk = false → h.applied.isSome = true →
        (apply debug config h.gateway).2.system.kernel.rules .forward = h.rules)
  | _ => True

theorem comment_of_mem_conntrackRules {r : NftRuleSpec} (h : r ∈ conntrackRules) :
    r.comment = some gatewayFwdTag := by
  have ha : ∀ r ∈ conntrackRules, r.comment = some gatewayFwdTag := by decide
  exact ha r h

variable {rules : List NftRuleSpec}

theorem InOrder.append (h : InOrder rules) {spec : NftRuleSpec}
    (hs : spec.comment ≠ some gatewayFwdTag) : InOrder (rules ++ [spec]) where
  present := fun _ hr => mem_append_left _ (h.present hr)
  order := by
    refine List.pairwise_append.2 ⟨h.order, pairwise_singleton _ _, ?_⟩
    intro r _ r' hr' _ hm
    rw [List.mem_singleton.1 hr'] at hm
    exact hs (comment_of_mem_conntrackRules hm)

theorem InOrder.dropFirst (h : InOrder rules) {comment : String} (hc : comment ≠ gatewayFwdTag) :
    InOrder (dropFirst NftRuleSpec.comment (some comment) rules) where
  present := by
    intro r hr
    refine (mem_eraseP_of_neg ?_).2 (h.present hr)
    rw [comment_of_mem_conntrackRules hr, decide_eq_true_iff]
    exact fun e => hc (Option.some.inj e).symm
  order := h.order.sublist eraseP_sublist

end Host

end BalanSir.Executor
