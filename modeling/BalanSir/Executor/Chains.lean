/-
# The backend on any chain

`NftablesBackend` on chains other than the policy chain: hooks, comments, handles.
-/

import BalanSir.Executor.Nftables
import BalanSir.Lib.Prog

namespace BalanSir.Executor

open Executor.System List

open Common (Error)
open Lib (Prog Ends Triple tagged dropFirst)

def ChainName.toText : ChainName → String
  | .forward => "forward"
  | .input => "input"
  | .output => "output"
  | .prerouting => "prerouting"
  | .postrouting => "postrouting"

def Policy.ofText : String → Option Policy
  | "accept" | "accept;" => some .accept
  | "drop" | "drop;" => some .drop
  | _ => none

namespace Kernel

@[simp] theorem setChain_setChain (k : Kernel) (name : ChainName) (c c' : Chain) :
    (k.setChain name c).setChain name c' = k.setChain name c' := by cases name <;> rfl

variable {k : Kernel} {name : ChainName} {stderr : String}

theorem setChain_eq_self {c : Chain} (h : k.chain name = some c) : k.setChain name c = k := by
  cases name <;> cases k <;> simp_all [chain, setChain]

def rules (k : Kernel) (name : ChainName) : List NftRuleSpec :=
  ((k.chain name).map Chain.rules).getD []

theorem rules_of_chain {c : Chain} (h : k.chain name = some c) :
    k.rules name = c.rules := by simp [rules, h]

@[simp] theorem rules_setChain (k : Kernel) (name : ChainName) (c : Chain) :
    (k.setChain name c).rules name = c.rules := rules_of_chain (chain_setChain_self k name c)

theorem list_eq_ok {k k' : Kernel} {rules : List NftRuleSpec} (h : list name k = .ok (rules, k')) :
    ∃ c, k.chain name = some c ∧ rules = c.rules ∧ k' = k := by
  unfold list at h
  cases hc : k.chain name with
  | none =>
    rw [hc] at h
    cases h
  | some c =>
    rw [hc] at h
    cases h
    exact ⟨c, rfl, rfl, rfl⟩

theorem chain_of_modifyRules_error {f : List NftRuleSpec → List NftRuleSpec}
    (h : k.modifyRules name f = .error stderr) : k.chain name = none := by
  unfold modifyRules at h
  split at h
  · cases h
  · assumption

theorem chain_of_list_error (h : list name k = .error stderr) : k.chain name = none := by
  unfold list at h
  split at h
  · cases h
  · assumption

def setPolicyText (name : ChainName) (policy : String) (k : Kernel) :
    Except String (Unit × Kernel) :=
  match Policy.ofText policy with
  | some p => k.setPolicy name p
  | none => .error ("Error: invalid chain policy " ++ policy)

end Kernel

namespace NftablesBackend

def containsText (pat text : String) : Bool := (afterFirst pat.toList text.toList).isSome

def ignorable (ignored : List String) : CmdError → Bool
  | .exit stderr => ignored.any (containsText · stderr)
  | _ => false

def nftTolerating {α : Type} (ignored : List String) (what : String)
    (cmd : Kernel → Except String (α × Kernel)) : Prog System Error (Option α) := fun s =>
  match s.command cmd with
  | (.ok a, s) => (.ok (some a), s)
  | (.error e, s) => if ignorable ignored e then (.ok none, s) else (.error (e.toError what), s)

def createIfAbsent (cmd : Kernel → Except String (Unit × Kernel)) (what : String) :
    Prog System Error Unit := do
  let _ ← nftTolerating ["File exists"] ("nft create " ++ what ++ " failed: ") cmd

def splitPolicy (policy : Option String) : List String → Option String × List String
  | [] => (policy, [])
  | [arg] => (policy, [arg])
  | arg :: value :: rest =>
    if arg = "policy" then splitPolicy (some value) rest
    else
      let (policy, parts) := splitPolicy policy (value :: rest)
      (policy, arg :: parts)

def hookText (parts : List String) : String :=
  parts.foldl (fun text part => text ++ " " ++ part) "\x7b" ++ " \x7d"

def ensureHookedChain (name : ChainName) (hookArgs : List String) : Prog System Error Unit := do
  let (policy, parts) := splitPolicy none hookArgs
  createIfAbsent (Kernel.addChain name (hookText parts)) "chain"
  match policy with
  | some policy =>
    let _ ← nftTolerating ["File exists", "already has policy", "same policy"]
      ("nft chain " ++ name.toText ++ " policy " ++ policy ++ " failed: ")
      (Kernel.setPolicyText name policy)
  | none => pure ()

def addRuleToChain (name : ChainName) (spec : NftRuleSpec) : Prog System Error Unit :=
  System.nft ("nft add rule to " ++ name.toText ++ " failed: ") (Kernel.add name spec)

def findHandleByCommentInChain (name : ChainName) (comment : String) :
    Prog System Error (Option ℕ) := do
  let listing ← nftTolerating ["No such file or directory"]
    ("nft list chain " ++ name.toText ++ " failed: ") (Kernel.list name)
  return listing.bind (handleOf comment)

def removeRuleByCommentInChain (name : ChainName) (comment : String) :
    Prog System Error Unit := do
  match ← findHandleByCommentInChain name comment with
  | none => pure ()
  | some handle =>
    System.nft ("nft delete rule in " ++ name.toText ++ " failed: ") (Kernel.delete name handle)

def hasCommentInChain (name : ChainName) (comment : String) : Prog System Error Bool := fun s =>
  match findHandleByCommentInChain name comment s with
  | (.ok handle, s) => (.ok handle.isSome, s)
  | (.error _, s) => (.ok false, s)

def At (k : Kernel) (s : System) : Prop := s.Quiet ∧ s.kernel = k

variable {α : Type} {k k' : Kernel} {name : ChainName} {c : Chain}
  {cmd : Kernel → Except String (α × Kernel)}

theorem ends_nft (what : String) {a : α} (h : cmd k = .ok (a, k')) :
    Ends (At k) (System.nft what cmd : Prog System Error α) a (At k') := by
  rintro s ⟨hq, rfl⟩
  exact ⟨_, nft_of_done what (hq.outcome_eq 0) h, hq.after k', rfl⟩

variable (ignored : List String) {hookArgs parts : List String}

theorem ends_nftTolerating (what : String) {a : α} (h : cmd k = .ok (a, k')) :
    Ends (At k) (nftTolerating ignored what cmd) (some a) (At k') := by
  rintro s ⟨hq, rfl⟩
  refine ⟨s.after k', ?_, hq.after k', rfl⟩
  simp only [nftTolerating, System.command, hq.outcome_eq 0, h]

theorem ends_addRuleToChain (spec : NftRuleSpec) :
    Ends (At (k.setChain name c)) (addRuleToChain name spec) ()
      (At (k.setChain name { c with rules := c.rules ++ [spec] })) := by
  refine ends_nft _ ?_
  simp [Kernel.add, Kernel.modifyRules]

theorem ends_findHandleByCommentInChain (comment : String) :
    Ends (At (k.setChain name c)) (findHandleByCommentInChain name comment)
      (handleOf comment c.rules) (At (k.setChain name c)) := by
  have hl : Kernel.list name (k.setChain name c) = .ok (c.rules, k.setChain name c) := by
    simp [Kernel.list]
  exact (ends_nftTolerating _ _ hl).bind (Lib.ends_pure _)

theorem ends_hasCommentInChain (comment : String) :
    Ends (At (k.setChain name c)) (hasCommentInChain name comment)
      (handleOf comment c.rules).isSome (At (k.setChain name c)) := by
  intro s hs
  obtain ⟨s', h, hs'⟩ := ends_findHandleByCommentInChain comment s hs
  exact ⟨s', by rw [hasCommentInChain, h], hs'⟩

theorem ends_removeRuleByCommentInChain (comment : String) :
    Ends (At (k.setChain name c)) (removeRuleByCommentInChain name comment) ()
      (At (k.setChain name { c with
        rules := dropFirst NftRuleSpec.comment (some comment) c.rules })) := by
  refine (ends_findHandleByCommentInChain comment).bind ?_
  cases hh : handleOf comment c.rules with
  | none =>
    rw [Lib.dropFirst_of_not_mem (handleOf_eq_none.1 hh)]
    exact Lib.ends_pure ()
  | some handle =>
    rw [← eraseIdx_handleOf hh]
    refine ends_nft _ ?_
    simp [Kernel.delete, Kernel.modifyRules]

theorem addChain_eq (hook : String) : Kernel.addChain name hook k =
      .ok ((), k.setChain name ((k.chain name).getD { hook := hook })) := by
  unfold Kernel.addChain
  cases hc : k.chain name with
  | none => rfl
  | some c =>
    simp only [Option.getD_some]
    rw [Kernel.setChain_eq_self hc]

theorem ends_ensureHookedChain (h : splitPolicy none hookArgs = (none, parts)) :
    Ends (At k) (ensureHookedChain name hookArgs) ()
      (At (k.setChain name ((k.chain name).getD { hook := hookText parts }))) := by
  unfold ensureHookedChain createIfAbsent
  rw [h]
  exact ((ends_nftTolerating _ _ (addChain_eq _)).bind (Lib.ends_pure ())).bind (Lib.ends_pure ())

theorem ends_ensureHookedChain_policy {text : String}
    {policy : Policy} (h : splitPolicy none hookArgs = (some text, parts))
    (hp : Policy.ofText text = some policy) : Ends (At k) (ensureHookedChain name hookArgs) ()
      (At (k.setChain name
        { (k.chain name).getD { hook := hookText parts } with policy := policy })) := by
  unfold ensureHookedChain createIfAbsent
  rw [h]
  refine ((ends_nftTolerating _ _ (addChain_eq _)).bind (Lib.ends_pure ())).bind ?_
  refine (ends_nftTolerating _ _ (a := ()) ?_).bind (Lib.ends_pure ())
  simp [Kernel.setPolicyText, hp, Kernel.setPolicy]

def Holding (R : ChainName → List NftRuleSpec) (s : System) : Prop := s.kernel.rules = R

variable {R : ChainName → List NftRuleSpec} {P : Kernel → Prop} {comment : String}

theorem rules_setChain_eq_update (k : Kernel) (name : ChainName) (c : Chain) :
    (k.setChain name c).rules = Function.update k.rules name c.rules := by
  funext other
  cases name <;> cases other <;> rfl

theorem rules_modifyRules {f : List NftRuleSpec → List NftRuleSpec} {k' : Kernel}
    (h : k.modifyRules name f = .ok ((), k')) :
    k'.rules = Function.update k.rules name (f (k.rules name)) := by
  unfold Kernel.modifyRules at h
  cases hc : k.chain name with
  | none =>
    rw [hc] at h
    cases h
  | some c =>
    rw [hc] at h
    cases h
    rw [rules_setChain_eq_update, Kernel.rules_of_chain hc]

theorem rules_addChain {hook : String} {k' : Kernel}
    (h : Kernel.addChain name hook k = .ok ((), k')) : k'.rules = k.rules := by
  rw [addChain_eq] at h
  cases h
  rw [rules_setChain_eq_update]
  cases hc : k.chain name with
  | none => simp [Kernel.rules, hc]
  | some c => simp [Kernel.rules, hc]

theorem rules_setPolicyText {policy : String} {k' : Kernel}
    (h : Kernel.setPolicyText name policy k = .ok ((), k')) : k'.rules = k.rules := by
  unfold Kernel.setPolicyText at h
  cases hp : Policy.ofText policy with
  | none =>
    rw [hp] at h
    cases h
  | some p =>
    rw [hp] at h
    simp only [Kernel.setPolicy] at h
    cases hc : k.chain name with
    | none =>
      rw [hc] at h
      cases h
    | some c =>
      rw [hc] at h
      cases h
      rw [rules_setChain_eq_update, Function.update_eq_self_iff, Kernel.rules_of_chain hc]

theorem nft_result (what : String) (cmd : Kernel → Except String (α × Kernel)) (s : System) :
    (s.outcome 0 = .done ∧ ∃ a k, cmd s.kernel = .ok (a, k) ∧
        s.nft what cmd = (.ok a, s.after k)) ∨
      (∃ e, s.nft what cmd = (.error e, s.after s.kernel)) ∧
        (s.outcome 0 = .done → ∃ stderr, cmd s.kernel = .error stderr) := by
  by_cases ho : s.outcome 0 = .done
  · cases hc : cmd s.kernel with
    | ok out => exact .inl ⟨ho, _, _, rfl, nft_of_done what ho hc⟩
    | error stderr =>
      refine .inr ⟨⟨CmdError.toError what (.exit stderr), ?_⟩, fun _ => ⟨stderr, rfl⟩⟩
      simp only [System.nft, System.command, ho, hc]
  · exact .inr ⟨nft_of_not_done what cmd ho, fun h => absurd h ho⟩

theorem nftTolerating_cases (what : String) (cmd : Kernel → Except String (α × Kernel))
    (s : System) : (∃ a k, cmd s.kernel = .ok (a, k) ∧
        nftTolerating ignored what cmd s = (.ok (some a), s.after k)) ∨
      (nftTolerating ignored what cmd s = (.ok none, s.after s.kernel) ∧
        ∃ stderr, ignorable ignored (.exit stderr) ∧
          (s.outcome 0 = .failed stderr ∨ cmd s.kernel = .error stderr)) ∨
      ∃ e, nftTolerating ignored what cmd s = (.error e, s.after s.kernel) := by
  have hf : ∀ e, s.command cmd = (.error e, s.after s.kernel) →
      (∀ stderr, e = .exit stderr →
        s.outcome 0 = .failed stderr ∨ cmd s.kernel = .error stderr) →
      (nftTolerating ignored what cmd s = (.ok none, s.after s.kernel) ∧
        ∃ stderr, ignorable ignored (.exit stderr) = true ∧
          (s.outcome 0 = .failed stderr ∨ cmd s.kernel = .error stderr)) ∨
        ∃ e, nftTolerating ignored what cmd s = (.error e, s.after s.kernel) := by
    intro e h he
    simp only [nftTolerating, h]
    cases hi : ignorable ignored e with
    | false => exact .inr ⟨_, rfl⟩
    | true =>
      cases e with
      | exit stderr => exact .inl ⟨rfl, stderr, hi, he stderr rfl⟩
      | io text => cases hi
      | noBinary => cases hi
  cases ho : s.outcome 0 with
  | done =>
    cases hc : cmd s.kernel with
    | ok out =>
      refine .inl ⟨_, _, rfl, ?_⟩
      simp only [nftTolerating, System.command, ho, hc]
    | error stderr =>
      rw [ho, hc] at hf
      exact .inr (hf (.exit stderr) (by simp only [System.command, ho, hc])
        fun _ e => .inr (by rw [CmdError.exit.inj e]))
  | failed stderr =>
    rw [ho] at hf
    exact .inr (hf (.exit stderr) (by simp only [System.command, ho])
      fun _ e => .inl (by rw [CmdError.exit.inj e]))
  | notStarted text =>
    rw [ho] at hf
    exact .inr (hf (.io text) (by simp only [System.command, ho]) fun _ e => by cases e)
  | noBinary =>
    rw [ho] at hf
    exact .inr (hf .noBinary (by simp only [System.command, ho]) fun _ e => by cases e)

theorem triple_nft {Q : α → Kernel → Prop} (what : String)
    (h : ∀ k a k', P k → cmd k = .ok (a, k') → Q a k') :
    Triple (fun s => P s.kernel) (System.nft what cmd : Prog System Error α)
      (fun a s => Q a s.kernel) fun s => P s.kernel := by
  intro s hs
  rcases nft_result what cmd s with ⟨-, a, k, hc, hn⟩ | ⟨⟨e, hn⟩, -⟩ <;> rw [hn]
  · exact h _ _ _ hs hc
  · exact hs

theorem triple_nftTolerating {Q : Option α → Kernel → Prop} (what : String)
    (h : ∀ k a k', P k → cmd k = .ok (a, k') → Q (some a) k') (hno : ∀ k, P k → Q none k) :
    Triple (fun s => P s.kernel) (nftTolerating ignored what cmd) (fun a s => Q a s.kernel)
      fun s => P s.kernel := by
  intro s hs
  rcases nftTolerating_cases ignored what cmd s with ⟨a, k, hc, hn⟩ | ⟨hn, -⟩ | ⟨e, hn⟩ <;>
    rw [hn]
  · exact h _ _ _ hs hc
  · exact hno _ hs
  · exact hs

theorem triple_addRuleToChain (name : ChainName) (spec : NftRuleSpec) :
    Triple (Holding R) (addRuleToChain name spec)
      (fun _ => Holding (Function.update R name (R name ++ [spec]))) (Holding R) :=
  triple_nft (P := fun k => k.rules = R)
    (Q := fun _ k => k.rules = Function.update R name (R name ++ [spec])) _
    fun _ _ _ hk h => by rw [rules_modifyRules h, hk]

theorem triple_tolerated {cmd : Kernel → Except String (Unit × Kernel)}
    (h : ∀ k k', cmd k = .ok ((), k') → k'.rules = k.rules) (ignored : List String)
    (what : String) :
    Triple (Holding R) (do let _ ← nftTolerating ignored what cmd) (fun _ => Holding R)
      (Holding R) := by
  have hcm : Triple (Holding R) (nftTolerating ignored what cmd) (fun _ => Holding R)
      (Holding R) :=
    triple_nftTolerating (Q := fun _ k => k.rules = R) ignored what
      (fun k _ k' hk hc => (h k k' hc).trans hk) fun _ hk => hk
  exact hcm.bind fun _ => Lib.triple_pure fun _ hs => hs

theorem triple_ensureHookedChain (name : ChainName) (hookArgs : List String) :
    Triple (Holding R) (ensureHookedChain name hookArgs) (fun _ => Holding R) (Holding R) := by
  unfold ensureHookedChain createIfAbsent
  rcases splitPolicy none hookArgs with ⟨policy, parts⟩
  refine (triple_tolerated (fun _ _ => rules_addChain) _ _).bind fun _ => ?_
  cases policy with
  | none => exact Lib.triple_pure fun _ hs => hs
  | some policy => exact triple_tolerated (fun _ _ => rules_setPolicyText) _ _

theorem triple_removeRuleByComment (comment : String) :
    Triple (Holding R) (removeRuleByComment comment)
      (fun _ => Holding (Function.update R .forward
        (dropFirst NftRuleSpec.comment (some comment) (R .forward)))) (Holding R) := by
  rintro s rfl
  have hf : ∀ (k : Kernel) f, (k.onForward f).rules =
      Function.update k.rules .forward (f (k.rules .forward)) := fun k f =>
    rules_setChain_eq_update k .forward _
  rcases removeRuleByComment_cases comment s with ⟨s', h, hc⟩ | ⟨e, s', h, hr⟩ <;> rw [h]
  · exact (congrArg Kernel.rules hc.kernel).trans (hf _ _)
  · exact congrArg Kernel.rules hr.kernel

def ReportedMissing (o : CmdOutcome) : Prop :=
  ∃ stderr, o = .failed stderr ∧ containsText "No such file or directory" stderr = true

theorem findHandleByCommentInChain_cases (name : ChainName) (comment : String) (s : System) :
    (∃ c, s.kernel.chain name = some c ∧ findHandleByCommentInChain name comment s =
        (.ok (handleOf comment c.rules), s.after s.kernel)) ∨
      (findHandleByCommentInChain name comment s = (.ok none, s.after s.kernel) ∧
        (s.kernel.chain name = none ∨ ReportedMissing (s.outcome 0))) ∨
      ∃ e, findHandleByCommentInChain name comment s = (.error e, s.after s.kernel) := by
  unfold findHandleByCommentInChain
  rw [Lib.prog_bind]
  rcases nftTolerating_cases ["No such file or directory"]
    ("nft list chain " ++ name.toText ++ " failed: ") (Kernel.list name) s with
    ⟨rules, k, hc, h⟩ | ⟨h, stderr, hi, hs⟩ | ⟨e, h⟩
  · obtain ⟨c, hch, rfl, rfl⟩ := Kernel.list_eq_ok hc
    rw [h]
    exact .inl ⟨c, hch, rfl⟩
  · rw [h]
    refine .inr (.inl ⟨rfl, ?_⟩)
    rcases hs with hs | hs
    · exact .inr ⟨stderr, hs, by simpa [ignorable] using hi⟩
    · exact .inl (Kernel.chain_of_list_error hs)
  · rw [h]
    exact .inr (.inr ⟨e, rfl⟩)

/-- **How a removal ends:** without a rule, failing to delete it, or with the first rule deleted. -/
theorem removeRuleByCommentInChain_cases (name : ChainName) (comment : String) (s : System) :
    (∃ result, removeRuleByCommentInChain name comment s = (result, s.after s.kernel) ∧
        (result = .ok () → tagged NftRuleSpec.comment (some comment) (s.kernel.rules name) = [] ∨
          ReportedMissing (s.outcome 0))) ∨
      (s.outcome 1 ≠ .done ∧ ∃ e, removeRuleByCommentInChain name comment s =
        (.error e, (s.after s.kernel).after s.kernel)) ∨
      (s.outcome 1 = .done ∧ ∃ c, s.kernel.chain name = some c ∧
        tagged NftRuleSpec.comment (some comment) c.rules ≠ [] ∧
        removeRuleByCommentInChain name comment s = (.ok (), (s.after s.kernel).after
          (s.kernel.setChain name
            { c with rules := dropFirst NftRuleSpec.comment (some comment) c.rules }))) := by
  unfold removeRuleByCommentInChain
  rw [Lib.prog_bind]
  rcases findHandleByCommentInChain_cases name comment s with ⟨c, hc, h⟩ | ⟨h, hm⟩ | ⟨e, h⟩ <;>
    rw [h]
  · cases hh : handleOf comment c.rules with
    | none =>
      refine .inl ⟨_, rfl, fun _ => .inl ?_⟩
      rw [Kernel.rules_of_chain hc, handleOf_eq_none.1 hh]
    | some handle =>
      have hne : tagged NftRuleSpec.comment (some comment) c.rules ≠ [] := fun hni => by
        rw [handleOf_eq_none.2 hni] at hh
        cases hh
      have hd : Kernel.delete name handle s.kernel = .ok ((), s.kernel.setChain name
          { c with rules := dropFirst NftRuleSpec.comment (some comment) c.rules }) := by
        simp only [Kernel.delete, Kernel.modifyRules, hc, eraseIdx_handleOf hh]
      rcases nft_result ("nft delete rule in " ++ name.toText ++ " failed: ")
        (Kernel.delete name handle) (s.after s.kernel) with ⟨ho, a, k, hk, hn⟩ | ⟨⟨e, hn⟩, ho⟩
      · rw [kernel_after, hd] at hk
        cases hk
        rw [outcome_after] at ho
        exact .inr (.inr ⟨ho, c, hc, hne, hn⟩)
      · refine .inr (.inl ⟨fun hdo => ?_, e, hn⟩)
        obtain ⟨stderr, he⟩ := ho (by rw [outcome_after]; exact hdo)
        rw [kernel_after, hd] at he
        cases he
  · refine .inl ⟨_, rfl, fun _ => hm.imp_left fun hno => ?_⟩
    simp [Kernel.rules, hno]
  · exact .inl ⟨_, rfl, fun hok => by cases hok⟩

def work (name : ChainName) (s : System) : ℕ := s.outcomes.length + (s.kernel.rules name).length

/-- There are no more outcomes to come and no more rules in the chain than before. -/
structure Shrunk (name : ChainName) (s s' : System) : Prop where
  outcomes : s'.outcomes.length ≤ s.outcomes.length
  rules : (s'.kernel.rules name).length ≤ (s.kernel.rules name).length

theorem Shrunk.trans {name : ChainName} {s s' s'' : System} (h : Shrunk name s s')
    (h' : Shrunk name s' s'') : Shrunk name s s'' :=
  ⟨Nat.le_trans h'.outcomes h.outcomes, Nat.le_trans h'.rules h.rules⟩

theorem shrunk_after (name : ChainName) (s : System) : Shrunk name s (s.after s.kernel) :=
  ⟨by simp [System.after], Nat.le_refl _⟩

theorem shrunk_nft_delete (name : ChainName) (what : String) (handle : ℕ) (s : System) :
    Shrunk name s (s.nft what (Kernel.delete name handle)).2 := by
  by_cases ho : s.outcome 0 = .done
  · cases hc : s.kernel.chain name with
    | none =>
      have hd : Kernel.delete name handle s.kernel = .error Kernel.noSuchFile := by
        simp only [Kernel.delete, Kernel.modifyRules, hc]
      simp only [System.nft, System.command, ho, hd]
      exact shrunk_after name s
    | some c =>
      have hd : Kernel.delete name handle s.kernel =
          .ok ((), s.kernel.setChain name { c with rules := c.rules.eraseIdx handle }) := by
        simp only [Kernel.delete, Kernel.modifyRules, hc]
      rw [nft_of_done what ho hd]
      refine ⟨by simp [System.after], ?_⟩
      rw [kernel_after, Kernel.rules_setChain, Kernel.rules_of_chain hc]
      exact length_eraseIdx_le c.rules handle
  · obtain ⟨e, h⟩ := nft_of_not_done what (Kernel.delete name handle) ho
    rw [h]
    exact shrunk_after name s

theorem shrunk_removeRuleByCommentInChain (name : ChainName) (comment : String) (s : System) :
    Shrunk name s (removeRuleByCommentInChain name comment s).2 := by
  have hr := shrunk_after name s
  unfold removeRuleByCommentInChain
  rw [Lib.prog_bind]
  rcases findHandleByCommentInChain_cases name comment s with ⟨c, -, h⟩ | ⟨h, -⟩ | ⟨e, h⟩ <;>
    rw [h]
  · cases handleOf comment c.rules with
    | none => exact hr
    | some handle => exact hr.trans (shrunk_nft_delete name _ handle _)
  · exact hr
  · exact hr

theorem hasCommentInChain_true {name : ChainName} {s s' : System}
    (h : hasCommentInChain name comment s = (.ok true, s')) :
    s' = s.after s.kernel ∧ ∃ c, s.kernel.chain name = some c ∧
      tagged NftRuleSpec.comment (some comment) c.rules ≠ [] := by
  unfold hasCommentInChain at h
  rcases findHandleByCommentInChain_cases name comment s with ⟨c, hc, hf⟩ | ⟨hf, -⟩ | ⟨e, hf⟩ <;>
    rw [hf] at h
  · obtain ⟨hfo, hs⟩ := Prod.mk.inj h
    refine ⟨hs.symm, c, hc, fun hn => ?_⟩
    rw [handleOf_eq_none.2 hn] at hfo
    cases hfo
  · cases h
  · cases h

/-- **Finding a comment and removing its rule uses something up**: an outcome or a rule. -/
theorem work_lt_of_removed {name : ChainName} {s s₁ s₂ : System}
    (hh : hasCommentInChain name comment s = (.ok true, s₁))
    (hre : removeRuleByCommentInChain name comment s₁ = (.ok (), s₂)) :
    work name s₂ < work name s := by
  obtain ⟨rfl, c, hc, ht⟩ := hasCommentInChain_true hh
  have hs := shrunk_removeRuleByCommentInChain name comment (s.after s.kernel)
  rw [hre] at hs
  obtain ⟨hou, hru⟩ := hs
  simp only [System.after, length_tail] at hou
  simp only [kernel_after] at hru
  unfold work
  cases ho : s.outcomes with
  | cons o rest =>
    rw [ho, length_cons] at hou
    rw [length_cons]
    omega
  | nil =>
    have hat : At (s.kernel.setChain name c) (s.after s.kernel) := by
      refine ⟨?_, (Kernel.setChain_eq_self hc).symm⟩
      simp [System.Quiet, System.after, ho]
    obtain ⟨s', hs', hq, hk⟩ := ends_removeRuleByCommentInChain comment _ hat
    rw [hre] at hs'
    cases hs'
    obtain ⟨r, hr⟩ := exists_mem_of_ne_nil _ ht
    obtain ⟨hm, hco⟩ := Lib.mem_tagged.1 hr
    have hl :
        (dropFirst NftRuleSpec.comment (some comment) c.rules).length < c.rules.length := by
      rw [dropFirst, length_eraseP_of_mem hm (by simpa using hco)]
      exact Nat.sub_lt (length_pos_of_mem hm) Nat.one_pos
    rw [ho] at hou
    rw [hk, Kernel.rules_setChain, Kernel.rules_of_chain hc]
    dsimp only
    omega

section Keeps

variable {other : ChainName} {Q : List NftRuleSpec → Prop} {comment : String}

def OnChain (name : ChainName) (Q : List NftRuleSpec → Prop) (s : System) : Prop :=
  Q (s.kernel.rules name)

/-- A program that keeps a property of a chain, however it ends. -/
abbrev KeepsChain {α : Type} (name : ChainName) (Q : List NftRuleSpec → Prop)
    (m : Prog System Error α) : Prop :=
  Triple (OnChain name Q) m (fun _ => OnChain name Q) (OnChain name Q)

theorem keepsChain_of_holding {α : Type} {m : Prog System Error α}
    {f : (ChainName → List NftRuleSpec) → ChainName → List NftRuleSpec}
    (h : ∀ R, Triple (Holding R) m (fun _ => Holding (f R)) (Holding R))
    (hf : ∀ R, Q (R name) → Q (f R name)) : KeepsChain name Q m := by
  intro s hs
  refine (h s.kernel.rules s rfl).imp (fun _ s' hs' => ?_) fun s' hs' => ?_
  · show Q (s'.kernel.rules name)
    rw [hs']
    exact hf _ hs
  · show Q (s'.kernel.rules name)
    rw [hs']
    exact hs

theorem keepsChain_ensureHookedChain (hookArgs : List String) :
    KeepsChain name Q (ensureHookedChain other hookArgs) :=
  keepsChain_of_holding (f := id) (fun _ => triple_ensureHookedChain other hookArgs) fun _ h => h

theorem keepsChain_addRuleToChain {spec : NftRuleSpec}
    (h : name = other → ∀ rules, Q rules → Q (rules ++ [spec])) :
    KeepsChain name Q (addRuleToChain other spec) := by
  refine keepsChain_of_holding (fun _ => triple_addRuleToChain other spec) fun R hQ => ?_
  by_cases hn : name = other
  · subst hn
    rw [Function.update_self]
    exact h rfl _ hQ
  · rwa [Function.update_of_ne hn]

theorem keepsChain_removeRuleByCommentInChain (h : name = other → ∀ rules, Q rules →
      Q (dropFirst NftRuleSpec.comment (some comment) rules)) :
    KeepsChain name Q (removeRuleByCommentInChain other comment) := by
  intro s hs
  rcases removeRuleByCommentInChain_cases other comment s with
    ⟨removed, hr, -⟩ | ⟨-, e, hr⟩ | ⟨-, c, hc, -, hr⟩ <;> rw [hr]
  · cases removed <;> exact hs
  · exact hs
  · show Q (Kernel.rules _ name)
    rw [System.kernel_after, rules_setChain_eq_update]
    by_cases hn : name = other
    · subst hn
      rw [Function.update_self, ← Kernel.rules_of_chain hc]
      exact h rfl _ hs
    · rwa [Function.update_of_ne hn]

end Keeps

end NftablesBackend

end BalanSir.Executor
