/-
# The DPI queue rules

`NftablesExecutor::dpi_op`: the rules that send packets to the queue.
-/

import BalanSir.Executor.Chains
import BalanSir.Lib.Run

namespace BalanSir.Executor

open List

open Common (Error DpiOp DpiOpResult)
open Lib (Prog Triple tagged dropFirst Along)
open NftablesBackend

namespace NftablesExecutor

def dpiRuleTag : String := "balansir:dpi"

def dpiRule (queueNum port : UInt16) : NftRuleSpec :=
  { proto := some .tcp, dport := some port, verdict := .queue queueNum, comment := some dpiRuleTag }

def outputHook : List String :=
  ["type", "filter", "hook", "output", "priority", "0", "policy", "accept;"]

def removeDpiRulesImpl : Prog System Error Unit :=
  Lib.mapError (fun e => .fatal ("remove DPI rules: " ++ e.toText))
    (removeRuleByComment dpiRuleTag)

def installPort (queueNum : UInt16) (installed : UInt32) (port : UInt16) :
    Prog System Error UInt32 := do
  ensureHookedChain .output outputHook
  addRuleToChain .output (dpiRule queueNum port)
  addRuleToChain .forward (dpiRule queueNum port)
  return installed + 1

def dpiOp : DpiOp → Prog System Error DpiOpResult
  | .installQueue queueNum ports =>
    if ports.isEmpty then
      throw (.misconfiguration "DPI InstallQueue requires at least one port")
    else do
      removeDpiRulesImpl
      let installed ← ports.foldlM (installPort queueNum) 0
      return { installed := installed
               detail := "intercepted TCP " ++ String.intercalate "," (ports.map toString) }
  | .removeQueue => do
    removeDpiRulesImpl
    return { installed := 0, detail := "DPI queue rules removed" }

variable {R : ChainName → List NftRuleSpec}

def withoutDpi (R : ChainName → List NftRuleSpec) : ChainName → List NftRuleSpec :=
  Function.update R .forward (dropFirst NftRuleSpec.comment (some dpiRuleTag) (R .forward))

def withBoth (R : ChainName → List NftRuleSpec) (added : List NftRuleSpec) :
    ChainName → List NftRuleSpec
  | .output => R .output ++ added
  | .forward => R .forward ++ added
  | name => R name

theorem withBoth_nil (R : ChainName → List NftRuleSpec) : withBoth R [] = R := by
  funext name
  cases name <;> simp [withBoth]

theorem withBoth_snoc (R : ChainName → List NftRuleSpec) (added : List NftRuleSpec)
    (r : NftRuleSpec) :
    Function.update (Function.update (withBoth R added) .output (withBoth R added .output ++ [r]))
        .forward (Function.update (withBoth R added) .output
          (withBoth R added .output ++ [r]) .forward ++ [r]) =
      withBoth R (added ++ [r]) := by
  funext name
  cases name <;> simp [withBoth]

theorem triple_removeDpiRulesImpl :
    Triple (Holding R) removeDpiRulesImpl (fun _ => Holding (withoutDpi R)) fun _ => True :=
  (triple_removeRuleByComment dpiRuleTag).mapError.ok

theorem triple_installPort (queueNum : UInt16) (added : List NftRuleSpec) (installed : UInt32)
    (port : UInt16) : Triple (Holding (withBoth R added)) (installPort queueNum installed port)
      (fun _ => Holding (withBoth R (added ++ [dpiRule queueNum port]))) fun _ => True := by
  refine (triple_ensureHookedChain .output outputHook).ok.bind fun _ => ?_
  refine (triple_addRuleToChain .output _).ok.bind fun _ => ?_
  refine (triple_addRuleToChain .forward _).ok.bind fun _ => ?_
  rw [withBoth_snoc]
  exact Lib.triple_pure fun _ hs => hs

theorem triple_installPorts (queueNum : UInt16) (ports : List UInt16) :
    Triple (Holding R) (ports.foldlM (installPort queueNum) 0)
      (fun _ => Holding (withBoth R (ports.map (dpiRule queueNum)))) fun _ => True := by
  have hl := Triple.foldlM (I := fun done => Holding (withBoth R (done.map (dpiRule queueNum))))
    (E := fun _ => True) (f := installPort queueNum) (fun done installed port => by
      rw [map_append]
      exact triple_installPort queueNum _ installed port) ports [] 0
  rwa [map_nil, withBoth_nil, nil_append] at hl

def dpiEffect (R : ChainName → List NftRuleSpec) : DpiOp → ChainName → List NftRuleSpec
  | .installQueue queueNum ports => withBoth (withoutDpi R) (ports.map (dpiRule queueNum))
  | .removeQueue => withoutDpi R

variable (op : DpiOp)

theorem triple_dpiOp :
    Triple (Holding R) (dpiOp op) (fun _ => Holding (dpiEffect R op)) fun _ => True := by
  cases op with
  | installQueue queueNum ports =>
    rw [dpiOp]
    split
    · exact Lib.triple_throw fun _ _ => trivial
    · refine triple_removeDpiRulesImpl.bind fun _ => ?_
      refine (triple_installPorts queueNum ports).bind fun _ => ?_
      exact Lib.triple_pure fun _ hs => hs
  | removeQueue =>
    exact triple_removeDpiRulesImpl.bind fun _ => Lib.triple_pure fun _ hs => hs

variable (s : System)

def dpiRules (name : ChainName) : List NftRuleSpec :=
  tagged NftRuleSpec.comment (some dpiRuleTag) (s.kernel.rules name)

def DpiExact : Prop :=
  match op with
  | .installQueue queueNum ports => ports.Nodup → ∀ name ∈ [ChainName.output, .forward],
      (dpiRules s name).Perm (ports.map (dpiRule queueNum))
  | .removeQueue => ∀ name ∈ [ChainName.output, .forward], dpiRules s name = []

def DpiClearable : Prop :=
  dpiRules s .output = [] ∧ (dpiRules s .forward).length ≤ 1

def DpiFits : Prop :=
  match op with
  | .installQueue _ ports => ports.Nodup → DpiClearable s
  | .removeQueue => DpiClearable s

def dpiStep : System := (dpiOp op s).2

def DpiSucceeds : Prop := (dpiOp op s).1.isOk = true
  deriving Decidable

theorem tagged_withoutDpi_forward (R : ChainName → List NftRuleSpec) :
    tagged NftRuleSpec.comment (some dpiRuleTag) (withoutDpi R .forward) =
      (tagged NftRuleSpec.comment (some dpiRuleTag) (R .forward)).tail := by
  rw [withoutDpi, Function.update_self, Lib.tagged_dropFirst_self]

theorem tagged_dpiRule (queueNum : UInt16) (ports : List UInt16) :
    tagged NftRuleSpec.comment (some dpiRuleTag) (ports.map (dpiRule queueNum)) =
      ports.map (dpiRule queueNum) :=
  Lib.tagged_of_forall fun r hr => by
    obtain ⟨port, -, rfl⟩ := List.mem_map.1 hr
    rfl

theorem append_perm_self_iff {l added : List NftRuleSpec} : (l ++ added).Perm added ↔ l = [] := by
  constructor
  · intro h
    have hl := h.length_eq
    rw [length_append] at hl
    exact List.length_eq_zero_iff.1 (by omega)
  · rintro rfl
    exact List.Perm.refl _

theorem tail_eq_nil_iff {l : List NftRuleSpec} : l.tail = [] ↔ l.length ≤ 1 := by
  rw [← length_eq_zero_iff, length_tail]
  omega

theorem dpiExact_iff {op : DpiOp} {s : System} (h : DpiSucceeds op s) :
    DpiExact op (dpiStep op s) ↔ DpiFits op s := by
  have hru : (dpiStep op s).kernel.rules = dpiEffect s.kernel.rules op := by
    have ht := triple_dpiOp op (R := s.kernel.rules) s rfl
    unfold DpiSucceeds at h
    unfold dpiStep
    rcases hr : dpiOp op s with ⟨_ | result, s'⟩
    · rw [hr] at h
      cases h
    · rw [hr] at ht
      exact ht
  have hc : ∀ name, dpiRules (dpiStep op s) name =
      tagged NftRuleSpec.comment (some dpiRuleTag) (dpiEffect s.kernel.rules op name) := by
    intro name
    rw [dpiRules, hru]
  simp only [DpiExact, DpiFits, forall_mem_cons, not_mem_nil, false_implies,
    implies_true, and_true, hc]
  cases op with
  | installQueue queueNum ports =>
    simp only [dpiEffect, withBoth, Lib.tagged_append, tagged_dpiRule, append_perm_self_iff,
      tagged_withoutDpi_forward, tail_eq_nil_iff]
    rfl
  | removeQueue =>
    simp only [dpiEffect, tagged_withoutDpi_forward, tail_eq_nil_iff]
    rfl

/-- **When the queue rules are exactly those of the last call:** if each call finds none in `output`
and at most one in `forward`. -/
theorem dpiOps_exact_iff {ops : List DpiOp} {s : System} (h : Along dpiStep DpiSucceeds ops s) :
    Along dpiStep (fun op s => DpiExact op (dpiStep op s)) ops s ↔ Along dpiStep DpiFits ops s :=
  h.congr fun _ _ => dpiExact_iff

theorem dpiOps_first_install : Along dpiStep (fun op s => DpiExact op (dpiStep op s))
      [.removeQueue, .installQueue 0 [443, 80]] {} := by
  refine (dpiOps_exact_iff (by decide +kernel)).2 ⟨⟨rfl, by decide⟩, fun _ => ?_, trivial⟩
  exact ⟨by decide +kernel, by decide +kernel⟩

/-- A removal of two ports leaves both rules of `output` and one of `forward`. -/
theorem dpiOps_remove_leaves_rules :
    ¬∀ (ops : List DpiOp) (s : System), Along dpiStep DpiSucceeds ops s →
      Along dpiStep (fun op s => DpiExact op (dpiStep op s)) ops s := by
  intro h
  have ha := h [.installQueue 0 [443, 80], .removeQueue] {} (by decide +kernel)
  have he := ha.2.1 .output (by decide)
  revert he
  decide +kernel

end NftablesExecutor

end BalanSir.Executor
