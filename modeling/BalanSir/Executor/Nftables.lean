/-
# The nftables backend

`NftablesBackend` on the policy chain: rules are added, listed and found by comment.
-/

import BalanSir.Common.Types
import BalanSir.Lib.Keyed

namespace BalanSir.Executor

open List

open Common (Error)
open Lib (tagged dropFirst)

inductive NftProto where
  | tcp
  | udp
  deriving DecidableEq

def NftProto.toText : NftProto → String
  | .tcp => "tcp"
  | .udp => "udp"

inductive NftVerdict where
  | accept
  | drop
  | reject
  | queue (num : UInt16)
  | masquerade
  | dnat (addr : BitVec 32) (port : UInt16)
  deriving DecidableEq

def NftVerdict.toText : NftVerdict → String
  | .accept => "accept"
  | .drop => "drop"
  | .reject => "reject"
  | .queue num => "queue num " ++ toString num ++ " bypass"
  | .masquerade => "masquerade"
  | .dnat addr port => "dnat to " ++ (Net.IpAddr.v4 addr).toText ++ ":" ++ toString port

/-- `NftRuleSpec`; the defaults are those of `NftRuleSpec::new`. -/
structure NftRuleSpec where
  proto : Option NftProto := none
  srcCidr : Option String := none
  dstCidr : Option String := none
  sport : Option UInt16 := none
  dport : Option UInt16 := none
  ctState : Option String := none
  iifname : Option String := none
  oifname : Option String := none
  verdict : NftVerdict
  mark : Option UInt32 := none
  comment : Option String := none
  deriving DecidableEq

namespace NftRuleSpec

def addrMatcher (keyword cidr : String) : List String :=
  [if ':' ∈ cidr.toList then "ip6" else "ip", keyword, cidr]

def quoted (text : String) : String := "\"" ++ text ++ "\""

def renderField {α : Type} (field : Option α) (args : α → List String) : List String :=
  match field with
  | some a => args a
  | none => []

def render (spec : NftRuleSpec) : List String :=
  renderField spec.proto (fun p => ["meta", "l4proto", p.toText])
    ++ renderField spec.srcCidr (addrMatcher "saddr")
    ++ renderField spec.dstCidr (addrMatcher "daddr")
    ++ renderField spec.iifname (fun i => ["iifname", quoted i])
    ++ renderField spec.oifname (fun o => ["oifname", quoted o])
    ++ renderField spec.sport (fun p => ["th", "sport", toString p])
    ++ renderField spec.dport (fun p => ["th", "dport", toString p])
    ++ renderField spec.ctState (fun s => ["ct", "state", s])
    ++ renderField spec.mark (fun m => ["meta", "mark", "set", toString m])
    ++ (match spec.verdict with
        | .dnat addr port => ["dnat", "to", (Net.IpAddr.v4 addr).toText ++ ":" ++ toString port]
        | v => [v.toText])
    ++ renderField spec.comment (fun c => ["comment", quoted c])

end NftRuleSpec

/-- The chains of table `balansir` the executor uses. -/
inductive ChainName where
  | forward
  | input
  | output
  | prerouting
  | postrouting
  deriving DecidableEq

inductive Policy where
  | accept
  | drop
  deriving DecidableEq

/-- A base chain: how it is hooked, its policy and its rules in order. -/
structure Chain where
  hook : String := ""
  policy : Policy := .accept
  rules : List NftRuleSpec := []
  deriving DecidableEq

structure Kernel where
  forward : Chain := {}
  input : Option Chain := none
  output : Option Chain := none
  prerouting : Option Chain := none
  postrouting : Option Chain := none
  ipForward : Bool := false
  deriving DecidableEq

namespace Kernel

def chain (k : Kernel) : ChainName → Option Chain
  | .forward => some k.forward
  | .input => k.input
  | .output => k.output
  | .prerouting => k.prerouting
  | .postrouting => k.postrouting

def setChain (k : Kernel) (name : ChainName) (c : Chain) : Kernel :=
  match name with
  | .forward => { k with forward := c }
  | .input => { k with input := some c }
  | .output => { k with output := some c }
  | .prerouting => { k with prerouting := some c }
  | .postrouting => { k with postrouting := some c }

variable (k : Kernel) (name : ChainName)

@[simp] theorem chain_setChain_self (c : Chain) :
    (k.setChain name c).chain name = some c := by cases name <;> rfl

def noSuchFile : String := "Error: No such file or directory"

def modifyRules (k : Kernel) (name : ChainName) (f : List NftRuleSpec → List NftRuleSpec) :
    Except String (Unit × Kernel) :=
  match k.chain name with
  | some c => .ok ((), k.setChain name { c with rules := f c.rules })
  | none => .error noSuchFile

def list (k : Kernel) : Except String (List NftRuleSpec × Kernel) :=
  match k.chain name with
  | some c => .ok (c.rules, k)
  | none => .error noSuchFile

def add (spec : NftRuleSpec) (k : Kernel) : Except String (Unit × Kernel) :=
  k.modifyRules name (· ++ [spec])

def delete (handle : ℕ) (k : Kernel) : Except String (Unit × Kernel) :=
  k.modifyRules name (·.eraseIdx handle)

def flush (k : Kernel) : Except String (Unit × Kernel) :=
  k.modifyRules name fun _ => []

def addChain (hook : String) (k : Kernel) : Except String (Unit × Kernel) :=
  match k.chain name with
  | some _ => .ok ((), k)
  | none => .ok ((), k.setChain name { hook := hook })

def setPolicy (policy : Policy) (k : Kernel) : Except String (Unit × Kernel) :=
  match k.chain name with
  | some c => .ok ((), k.setChain name { c with policy := policy })
  | none => .error noSuchFile

def writeIpForward (enabled : Bool) (k : Kernel) : Except String (Unit × Kernel) :=
  .ok ((), { k with ipForward := enabled })

def onForward (k : Kernel) (f : List NftRuleSpec → List NftRuleSpec) : Kernel :=
  { k with forward := { k.forward with rules := f k.forward.rules } }

@[simp] theorem rules_onForward (f : List NftRuleSpec → List NftRuleSpec) :
    (k.onForward f).forward.rules = f k.forward.rules := rfl

theorem onForward_eq_self {f : List NftRuleSpec → List NftRuleSpec} {k : Kernel}
    (h : f k.forward.rules = k.forward.rules) : k.onForward f = k := by
  simp [onForward, h]

theorem list_forward : list .forward k = .ok (k.forward.rules, k) := rfl

theorem add_forward (spec : NftRuleSpec) :
    add .forward spec k = .ok ((), k.onForward (· ++ [spec])) := rfl

theorem delete_forward (handle : ℕ) :
    delete .forward handle k = .ok ((), k.onForward (·.eraseIdx handle)) := rfl

theorem flush_forward : flush .forward k = .ok ((), k.onForward fun _ => []) := rfl

end Kernel

inductive CmdOutcome where
  | done
  | failed (stderr : String)
  | notStarted (message : String)
  | noBinary
  deriving DecidableEq

inductive CmdError where
  | exit (stderr : String)
  | io (message : String)
  | noBinary
  deriving DecidableEq

def CmdError.toError (what : String) : CmdError → Error
  | .exit stderr => .fatal (what ++ stderr)
  | .io message => .io message
  | .noBinary => .misconfiguration "nft binary not found"

/-- The kernel and the outcomes of the commands to come. -/
structure System where
  kernel : Kernel := {}
  outcomes : List CmdOutcome := []
  deriving DecidableEq

namespace System

/-- No command fails. -/
def Quiet (s : System) : Prop := ∀ o ∈ s.outcomes, o = .done

def outcome (s : System) (i : ℕ) : CmdOutcome := s.outcomes[i]?.getD .done

def after (s : System) (k : Kernel) : System := { kernel := k, outcomes := s.outcomes.tail }

def command {α : Type} (cmd : Kernel → Except String (α × Kernel)) (s : System) :
    Except CmdError α × System :=
  match s.outcome 0 with
  | .noBinary => (.error .noBinary, s.after s.kernel)
  | .failed stderr => (.error (.exit stderr), s.after s.kernel)
  | .notStarted message => (.error (.io message), s.after s.kernel)
  | .done =>
    match cmd s.kernel with
    | .ok (a, k) => (.ok a, s.after k)
    | .error stderr => (.error (.exit stderr), s.after s.kernel)

def nft {α : Type} (what : String) (cmd : Kernel → Except String (α × Kernel)) (s : System) :
    Except Error α × System :=
  match s.command cmd with
  | (.ok a, s) => (.ok a, s)
  | (.error e, s) => (.error (e.toError what), s)

/-- `s'` is reached from `s` by commands that left the kernel `k`. -/
structure Carried (s s' : System) (k : Kernel) : Prop where
  kernel : s'.kernel = k
  quiet : s.Quiet → s'.Quiet

/-- `s'` is reached from `s` by commands of which one failed; the kernel is as before. -/
structure Refused (s s' : System) : Prop where
  kernel : s'.kernel = s.kernel
  noisy : ¬s.Quiet

variable {s s' : System} {α : Type} {cmd : Kernel → Except String (α × Kernel)}

theorem Refused.carried (h : Refused s s') : Carried s s' s.kernel :=
  ⟨h.kernel, fun hq => absurd hq h.noisy⟩

theorem Carried.trans {s'' : System} {k k' : Kernel} (h : Carried s s' k) (h' : Carried s' s'' k') :
    Carried s s'' k' :=
  ⟨h'.kernel, fun hq => h'.quiet (h.quiet hq)⟩

theorem Carried.trans_refused {s'' : System} (h : Carried s s' s.kernel) (h' : Refused s' s'') :
    Refused s s'' :=
  ⟨h'.kernel.trans h.kernel, fun hq => h'.noisy (h.quiet hq)⟩

@[simp] theorem kernel_after (s : System) (k : Kernel) : (s.after k).kernel = k := rfl

@[simp] theorem outcome_after (s : System) (k : Kernel) (i : ℕ) :
    (s.after k).outcome i = s.outcome (i + 1) := by
  simp [outcome, after]

theorem Quiet.outcome_eq (h : s.Quiet) (i : ℕ) : s.outcome i = .done := by
  unfold outcome
  cases ho : s.outcomes[i]? with
  | none => rfl
  | some o => exact h o (mem_of_getElem? ho)

theorem Quiet.after (h : s.Quiet) (k : Kernel) : (s.after k).Quiet :=
  fun o ho => h o (mem_of_mem_tail ho)

theorem nft_of_done (what : String) {a : α}
    {k : Kernel} (ho : s.outcome 0 = .done) (hc : cmd s.kernel = .ok (a, k)) :
    s.nft what cmd = (.ok a, s.after k) := by
  simp only [nft, command, ho, hc]

theorem nft_of_not_done (what : String) (cmd : Kernel → Except String (α × Kernel))
    (ho : s.outcome 0 ≠ .done) : ∃ e, s.nft what cmd = (.error e, s.after s.kernel) := by
  unfold nft command
  cases h : s.outcome 0 with
  | done => exact absurd h ho
  | _ => exact ⟨_, rfl⟩

theorem nft_cases {what : String} {a : α} {k : Kernel} (hc : cmd s.kernel = .ok (a, k)) :
    (∃ s', s.nft what cmd = (.ok a, s') ∧ Carried s s' k) ∨
      (∃ e s', s.nft what cmd = (.error e, s') ∧ Refused s s') := by
  by_cases ho : s.outcome 0 = .done
  · exact .inl ⟨_, nft_of_done what ho hc, rfl, fun hq => hq.after k⟩
  · obtain ⟨e, h⟩ := nft_of_not_done what cmd ho
    exact .inr ⟨e, _, h, rfl, fun hq => ho (hq.outcome_eq 0)⟩

end System

namespace NftablesBackend

/-- `parse_handle_for_comment` looks for the quoted comment in a listed line; `ReadBack` says of
which rules that is the search by the comment. -/
def handleOf (comment : String) (rules : List NftRuleSpec) : Option ℕ :=
  rules.findIdx? fun r => r.comment = some comment

def addRule (spec : NftRuleSpec) (s : System) : Except Error Unit × System :=
  s.nft "nft add rule failed: " (Kernel.add .forward spec)

def flush (s : System) : Except Error Unit × System :=
  s.nft "nft flush failed: " (Kernel.flush .forward)

def findHandleByComment (comment : String) (s : System) : Except Error (Option ℕ) × System :=
  match s.nft "nft list failed: " (Kernel.list .forward) with
  | (.ok rules, s) => (.ok (handleOf comment rules), s)
  | (.error e, s) => (.error e, s)

def removeRuleByComment (comment : String) (s : System) : Except Error Unit × System :=
  match findHandleByComment comment s with
  | (.error e, s) => (.error e, s)
  | (.ok none, s) => (.ok (), s)
  | (.ok (some handle), s) => s.nft "nft delete rule failed: " (Kernel.delete .forward handle)

def afterFirst (pat : List Char) : List Char → Option (List Char)
  | [] => if pat.isEmpty then some [] else none
  | c :: rest =>
    if pat.isPrefixOf (c :: rest) then some ((c :: rest).drop pat.length) else afterFirst pat rest

def ruleIdOf (comment : String) : Option UInt32 :=
  match afterFirst "balansir:".toList comment.toList with
  | none => none
  | some rest =>
    let digits := rest.takeWhile Char.isDigit
    let value := Nat.ofDigitChars 10 digits 0
    if digits.isEmpty then none
    else if value < UInt32.size then some (UInt32.ofNat value) else none

theorem afterFirst_append {pat : List Char} (h : pat ≠ []) (rest : List Char) :
    afterFirst pat (pat ++ rest) = some rest := by
  obtain ⟨c, pat, rfl⟩ := exists_cons_of_ne_nil h
  have hp : (c :: pat).isPrefixOf (c :: (pat ++ rest)) = true :=
    List.isPrefixOf_iff_prefix.2 (prefix_append (c :: pat) rest)
  rw [cons_append, afterFirst, if_pos hp, ← cons_append, drop_left]

def listRuleIds (s : System) : Except Error (List UInt32) × System :=
  match s.nft "nft list failed: " (Kernel.list .forward) with
  | (.ok rules, s) => (.ok (rules.filterMap fun r => r.comment.bind ruleIdOf), s)
  | (.error e, s) => (.error e, s)

variable {comment : String} {rules : List NftRuleSpec}

theorem eraseIdx_handleOf {handle : ℕ} (h : handleOf comment rules = some handle) :
    rules.eraseIdx handle = dropFirst NftRuleSpec.comment (some comment) rules := by
  unfold handleOf at h
  unfold dropFirst
  rw [eraseP_eq_eraseIdx, h]

theorem handleOf_eq_none :
    handleOf comment rules = none ↔ tagged NftRuleSpec.comment (some comment) rules = [] := by
  simp [handleOf, Lib.tagged_eq_nil]

theorem isSome_handleOf (comment : String) (rules : List NftRuleSpec) :
    (handleOf comment rules).isSome =
      decide (tagged NftRuleSpec.comment (some comment) rules ≠ []) := by
  cases hh : handleOf comment rules with
  | none => simp [handleOf_eq_none.1 hh]
  | some handle =>
    have hne : tagged NftRuleSpec.comment (some comment) rules ≠ [] := fun hn => by
      rw [handleOf_eq_none.2 hn] at hh
      cases hh
    simp [hne]

theorem addRule_cases (spec : NftRuleSpec) (s : System) :
    (∃ s', addRule spec s = (.ok (), s') ∧ s.Carried s' (s.kernel.onForward (· ++ [spec]))) ∨
      (∃ e s', addRule spec s = (.error e, s') ∧ s.Refused s') :=
  System.nft_cases (s.kernel.add_forward spec)

theorem flush_cases (s : System) :
    (∃ s', flush s = (.ok (), s') ∧ s.Carried s' (s.kernel.onForward fun _ => [])) ∨
      (∃ e s', flush s = (.error e, s') ∧ s.Refused s') :=
  System.nft_cases s.kernel.flush_forward

theorem findHandleByComment_cases (comment : String) (s : System) :
    (∃ s', findHandleByComment comment s = (.ok (handleOf comment s.kernel.forward.rules), s') ∧
        s.Carried s' s.kernel) ∨
      (∃ e s', findHandleByComment comment s = (.error e, s') ∧ s.Refused s') := by
  unfold findHandleByComment
  rcases System.nft_cases s.kernel.list_forward with ⟨s', hs, h⟩ | ⟨e, s', hs, h⟩
  · exact .inl ⟨s', by rw [hs], h⟩
  · exact .inr ⟨e, s', by rw [hs], h⟩

theorem removeRuleByComment_cases (comment : String) (s : System) :
    (∃ s', removeRuleByComment comment s = (.ok (), s') ∧
        s.Carried s' (s.kernel.onForward (dropFirst NftRuleSpec.comment (some comment)))) ∨
      (∃ e s', removeRuleByComment comment s = (.error e, s') ∧ s.Refused s') := by
  unfold removeRuleByComment
  rcases findHandleByComment_cases comment s with ⟨s₁, h₁, hc₁⟩ | ⟨e, s₁, h₁, hr₁⟩
  · rw [h₁]
    cases hh : handleOf comment s.kernel.forward.rules with
    | none =>
      refine .inl ⟨s₁, rfl, ?_⟩
      rw [Kernel.onForward_eq_self (Lib.dropFirst_of_not_mem (handleOf_eq_none.1 hh))]
      exact hc₁
    | some handle =>
      have hk : s₁.kernel.onForward (·.eraseIdx handle) =
          s.kernel.onForward (dropFirst NftRuleSpec.comment (some comment)) := by
        rw [hc₁.kernel, Kernel.onForward, eraseIdx_handleOf hh, Kernel.onForward]
      rcases System.nft_cases (s₁.kernel.delete_forward handle) with
        ⟨s₂, h₂, hc₂⟩ | ⟨e, s₂, h₂, hr₂⟩
      · exact .inl ⟨s₂, h₂, hc₁.trans (hk ▸ hc₂)⟩
      · exact .inr ⟨e, s₂, h₂, hc₁.trans_refused hr₂⟩
  · exact .inr ⟨e, s₁, by rw [h₁], hr₁⟩

theorem listRuleIds_cases (s : System) : (∃ s', listRuleIds s =
          (.ok (s.kernel.forward.rules.filterMap fun r => r.comment.bind ruleIdOf), s') ∧
        s.Carried s' s.kernel) ∨ (∃ e s', listRuleIds s = (.error e, s') ∧ s.Refused s') := by
  unfold listRuleIds
  rcases System.nft_cases s.kernel.list_forward with ⟨s', hs, h⟩ | ⟨e, s', hs, h⟩
  · exact .inl ⟨s', by rw [hs], h⟩
  · exact .inr ⟨e, s', by rw [hs], h⟩

end NftablesBackend

end BalanSir.Executor
