/-
# The order of the chain

`nft add rule` appends: which histories of plans give chains that decide alike.
-/

import BalanSir.Daemon.Convergence
import BalanSir.Daemon.Reconciler
import BalanSir.Daemon.Slots
import BalanSir.Executor.Packet
import Mathlib.Data.List.Induction

namespace BalanSir.Daemon

open Common Control Executor Reconciler DaemonExecutorAdapter List
open Lib (lookup run Along OverlapAgree)
open DaemonExecutorAdapter (step Succeeds answer)
open StateDiff (operations updatePolicy_mem_operations)
open NftablesExecutor (rulesOf)

section

variable [Postcard]

def specOf (rule : DesiredRule) : Option NftRuleSpec := specFor (PolicyCompiler.compile rule)

omit [Postcard] in
theorem comment_specOf {rule : DesiredRule} {spec : NftRuleSpec} (h : specOf rule = some spec) :
    spec.comment = some (ruleComment rule.id) := by
  have hc := comment_specFor h
  exact hc

def specs (desired : DesiredState) : List NftRuleSpec := desired.rules.filterMap specOf

def Supported (desired : DesiredState) : Prop := ∀ rule ∈ desired.rules, (specOf rule).isSome

def advance (state : DesiredState) (r : Reconciler Link) : Reconciler Link :=
  ((r.setCell state).reconcile executorClient).2

def Reconciles (state : DesiredState) (r : Reconciler Link) : Prop :=
  ((r.setCell state).reconcile executorClient).1 = .ok ()

/-- Nothing is in the chain and nothing is accounted. -/
structure Fresh (r : Reconciler Link) : Prop where
  actual : r.handles.actual.activeRules = []
  rules : r.handles.executor.executor.rules = []

def CollisionFree (rules : List DesiredRule) : Prop :=
  ∀ r ∈ rules, ∀ s ∈ rules, r.id = s.id →
    ruleFingerprint (PolicyCompiler.compile r) = ruleFingerprint (PolicyCompiler.compile s) →
      specOf r = specOf s

def rulesIn (history : List DesiredState) : List DesiredRule := history.flatMap (·.rules)

def chainAfter (history : List DesiredState) (r : Reconciler Link) : List NftRuleSpec :=
  (run advance history r).handles.executor.executor.rules

def HistoryIndependent {ν : Type} (out : NftRuleSpec → ν) (desired : DesiredState) : Prop :=
  ∀ (r₁ r₂ : Reconciler Link) (h₁ h₂ : List DesiredState), Fresh r₁ → Fresh r₂ →
    Along advance Reconciles (h₁ ++ [desired]) r₁ →
    Along advance Reconciles (h₂ ++ [desired]) r₂ →
    CollisionFree (rulesIn (h₁ ++ [desired])) → CollisionFree (rulesIn (h₂ ++ [desired])) →
      ∀ p, Lib.firstMatch NftRuleSpec.hits out (chainAfter (h₁ ++ [desired]) r₁) p =
        Lib.firstMatch NftRuleSpec.hits out (chainAfter (h₂ ++ [desired]) r₂) p

/-- Rules that match a common packet agree, and rules under one id match the same packets. -/
structure Alike {ν : Type} (out : NftRuleSpec → ν) (desired : DesiredState) : Prop where
  agree : OverlapAgree NftRuleSpec.hits out (specs desired)
  cover : ∀ r ∈ desired.rules, ∀ s ∈ desired.rules, r.id = s.id →
    ∀ a ∈ specOf r, ∀ b ∈ specOf s, ∀ p, a.hits p = b.hits p

def SlotKnown (seen : List DesiredRule) (h : Handles Link) (id : UInt32) : Prop :=
  (lookup ActualRule.id id h.actual.activeRules = none ∧ (h.executor.slot id).rules = []) ∨
    ∃ rule ∈ seen, ∃ ar spec, rule.id = id ∧
      lookup ActualRule.id id h.actual.activeRules = some ar ∧ ar.action = rule.action ∧
      ar.flow = rule.flow ∧ specOf rule = some spec ∧
      h.executor.slot id = ⟨[spec], some (ruleFingerprint (PolicyCompiler.compile rule))⟩

/-- The invariant of a history. -/
structure Tracked (seen : List DesiredRule) (h : Handles Link) : Prop where
  slots : ∀ id, SlotKnown seen h id
  tagged : ∀ spec ∈ h.executor.executor.rules, ∃ id, spec.comment = some (ruleComment id)

variable {seen : List DesiredRule} {h : Handles Link} {id : UInt32}

theorem SlotKnown.replace (hk : SlotKnown seen h id) (spec : NftRuleSpec) (fingerprint : UInt64) :
    (h.executor.slot id).replace spec fingerprint = ⟨[spec], some fingerprint⟩ := by
  rcases hk with ⟨-, hn⟩ | ⟨_, -, _, _, -, -, -, -, -, hs⟩
  · simp [Slot.replace, hn]
  · simp [Slot.replace, hs]

theorem SlotKnown.rules_remove (hk : SlotKnown seen h id) :
    (h.executor.slot id).remove.rules = [] := by
  rcases hk with ⟨-, hn⟩ | ⟨_, -, _, _, -, -, -, -, -, hs⟩
  · simp [Slot.remove, hn]
  · simp [Slot.remove, hs]

variable {op : ReconciliationOperation}

theorem SlotKnown.step (hk : ∀ id, SlotKnown seen h id)
    (hse : ∀ rule, op = .updatePolicy rule → rule ∈ seen) (hs : Succeeds executorClient op h)
    (id : UInt32) : SlotKnown seen (step executorClient op h) id := by
  by_cases ht : op.target = some id
  · cases op with
    | updatePolicy rule =>
      obtain rfl : rule.id = id := Option.some.inj ht
      rcases slot_step_update hs with ⟨-, ha, hsl⟩ | ⟨spec, time, ruleId, hsp, ha, -, hsl⟩
      · have hac : (Daemon.DaemonExecutorAdapter.step executorClient (.updatePolicy rule)
            h).actual = h.actual :=
          actual_step_not_applied fun _ _ h' => nomatch ha.symm.trans h'
        rw [SlotKnown, hac, hsl]
        exact hk rule.id
      · refine .inr ⟨rule, hse rule rfl,
          { id := rule.id, action := rule.action, ruleId := ruleId, flow := rule.flow }, spec,
          rfl, ?_, rfl, rfl, hsp, hsl.trans ((hk rule.id).replace _ _)⟩
        rw [actual_step_applied ha]
        exact lookup_recordRule_self rule ruleId h.actual
    | removePolicy i =>
      obtain rfl : i = id := Option.some.inj ht
      refine .inl ⟨?_, by rw [slot_step_remove hs]; exact (hk i).rules_remove⟩
      rw [actual_step_remove, if_pos (hs _ rfl)]
      exact Lib.lookup_dropAll_self i _
    | _ => cases ht
  · rw [SlotKnown, slot_step_of_ne ht, lookup_step_of_ne _ ht]
    exact hk id

theorem Tracked.step (ht : Tracked seen h) (hse : ∀ rule, op = .updatePolicy rule → rule ∈ seen)
    (hs : Succeeds executorClient op h) : Tracked seen (step executorClient op h) where
  slots := SlotKnown.step ht.slots hse hs
  tagged spec hsp := by
    obtain ⟨keep, hk, hr⟩ := rules_step op h
    have ho : ∀ s ∈ keep, ∃ id, s.comment = some (ruleComment id) := by
      rcases hk with rfl | ⟨id, -, rfl⟩
      · exact ht.tagged
      · exact fun s hm => ht.tagged s (Lib.mem_of_mem_dropFirst hm)
    rcases hr with hr | ⟨rule, spec', -, hsp', hr⟩
    · rw [hr] at hsp
      exact ho spec hsp
    · rw [hr, mem_append, mem_singleton] at hsp
      rcases hsp with hsp | rfl
      · exact ho spec hsp
      · exact ⟨_, comment_specFor hsp'⟩

variable {ops : List ReconciliationOperation}

theorem Tracked.run (ht : Tracked seen h) (hse : ∀ rule, .updatePolicy rule ∈ ops → rule ∈ seen)
    (hs : Along (DaemonExecutorAdapter.step executorClient) (Succeeds executorClient) ops h) :
    Tracked seen (Lib.run (DaemonExecutorAdapter.step executorClient) ops h) :=
  Lib.Along.invariant (fun _ _ ht h => ht.step (fun rule e => hse rule (e ▸ h.1)) h.2) ht
    hs.and_mem

theorem Tracked.plan (ht : Tracked seen h) (hse : ∀ rule ∈ h.desired.rules, rule ∈ seen)
    (hs : Along (DaemonExecutorAdapter.step executorClient) (Succeeds executorClient)
      (operations h.desired h.actual) h) :
    Tracked seen (Lib.run (DaemonExecutorAdapter.step executorClient)
      (operations h.desired h.actual) h) :=
  ht.run (fun rule hm => hse rule (updatePolicy_mem_operations.1 hm).1) hs

omit [Postcard] in
theorem specOf_congr {r s : DesiredRule} (hid : r.id = s.id) (ha : r.action = s.action)
    (hf : r.flow = s.flow) : specOf r = specOf s := by
  simp only [specOf, PolicyCompiler.compile, hid, ha, hf]

variable {rule : DesiredRule} {ν : Type} {out : NftRuleSpec → ν}

theorem rulesOf_step_update (ht : Tracked seen h) (hcf : CollisionFree seen) (hru : rule ∈ seen)
    (hs : Succeeds executorClient (.updatePolicy rule) h) : ∃ spec, specOf rule = some spec ∧
      (step executorClient (.updatePolicy rule) h).executor.executor.rulesOf rule.id = [spec] := by
  rcases slot_step_update hs with ⟨hh, -, hse⟩ | ⟨spec, _, _, hsp, -, -, hse⟩
  · rcases ht.slots rule.id with ⟨-, hn⟩ | ⟨r, hr, _, spec, hid, -, -, -, hsp, hk⟩
    · exact absurd hn hh.2
    · have hfp := Option.some.inj (hh.1.symm.trans (congrArg Slot.fingerprint hk))
      exact ⟨spec, (hcf rule hru r hr hid.symm hfp).trans hsp, congrArg Slot.rules (hse.trans hk)⟩
  · exact ⟨spec, hsp, congrArg Slot.rules (hse.trans ((ht.slots rule.id).replace _ _))⟩

theorem rulesOf_run_updates (ht : Tracked seen h) (hcf : CollisionFree seen)
    (hse : ∀ rule, .updatePolicy rule ∈ ops → rule ∈ seen)
    (hid : ∀ op ∈ ops, op.target = some id → ∃ rule, op = .updatePolicy rule)
    (hs : Along (step executorClient) (Succeeds executorClient) ops h) :
    (∀ op ∈ ops, op.target ≠ some id) ∨
      ∃ rule spec, .updatePolicy rule ∈ ops ∧ rule.id = id ∧ specOf rule = some spec ∧
        (run (step executorClient) ops h).executor.executor.rulesOf id = [spec] := by
  -- the last operation on the id decides
  induction ops using List.reverseRecOn with
  | nil => exact .inl fun op hop => absurd hop not_mem_nil
  | append_singleton ops op ih =>
    rw [Lib.along_append] at hs
    have hm : ∀ {o}, o ∈ ops → o ∈ ops ++ [op] := mem_append_left _
    have hl : op ∈ ops ++ [op] := mem_append_right _ (mem_singleton_self op)
    rw [Lib.run_append]
    by_cases hta : op.target = some id
    · obtain ⟨rule, rfl⟩ := hid op hl hta
      obtain rfl : rule.id = id := Option.some.inj hta
      obtain ⟨spec, hsp, hru⟩ := rulesOf_step_update
        (ht.run (fun r hr => hse r (hm hr)) hs.1) hcf (hse rule hl) hs.2.1
      exact .inr ⟨rule, spec, hl, rfl, hsp, hru⟩
    · rcases ih (fun r hr => hse r (hm hr)) (fun o ho => hid o (hm ho)) hs.1 with
        hn | ⟨rule, spec, hrul, hri, hsp, hru⟩
      · refine .inl fun o ho => ?_
        rcases List.mem_append.1 ho with ho | ho
        · exact hn o ho
        · exact List.mem_singleton.1 ho ▸ hta
      · exact .inr ⟨rule, spec, hm hrul, hri, hsp,
          (congrArg Slot.rules (slot_step_of_ne hta _)).trans hru⟩

theorem Tracked.slot_of_agrees (ht : Tracked seen h) (ha : StateDiff.Agrees h.actual rule) :
    ∃ spec, specOf rule = some spec ∧ h.executor.executor.rulesOf rule.id = [spec] := by
  obtain ⟨ar, hl, hac, hf⟩ := ha
  rcases ht.slots rule.id with ⟨hn, -⟩ | ⟨r, -, ar', spec, hid, hl', ha', hf', hs, hk⟩
  · cases hn.symm.trans hl
  · obtain rfl := Option.some.inj (hl'.symm.trans hl)
    refine ⟨spec, ?_, congrArg Slot.rules hk⟩
    rw [← hs, specOf_congr hid.symm (hac.symm.trans ha') (hf.symm.trans hf')]

/-- A plan that succeeds, with all its rules among those seen, which do not collide. -/
structure Planned (seen : List DesiredRule) (h : Handles Link) : Prop where
  tracked : Tracked seen h
  known : ∀ rule ∈ h.desired.rules, rule ∈ seen
  apart : CollisionFree seen
  succeeds : Along (step executorClient) (Succeeds executorClient)
    (operations h.desired h.actual) h

theorem Planned.supported (hp : Planned seen h) : Supported h.desired := by
  obtain ⟨ht, hse, hcf, hs⟩ := hp
  intro rule hr
  by_cases ha : StateDiff.Agrees h.actual rule
  · obtain ⟨spec, hsp, -⟩ := ht.slot_of_agrees ha
    rw [hsp]
    rfl
  · obtain ⟨pre, post, hspl⟩ :=
      append_of_mem (updatePolicy_mem_operations.2 ⟨hr, ha⟩)
    rw [hspl, Lib.along_append] at hs
    have hp : Tracked seen (run (step executorClient) pre h) := ht.run (fun r hm => hse r
      (updatePolicy_mem_operations.1 (hspl ▸ mem_append_left _ hm)).1) hs.1
    obtain ⟨spec, hsp, -⟩ := rulesOf_step_update hp hcf (hse rule hr) hs.2.1
    rw [hsp]
    rfl

theorem Planned.rulesOf_desired (hp : Planned seen h) (hrul : rule ∈ h.desired.rules) :
    ∃ rule' ∈ h.desired.rules, rule'.id = rule.id ∧ ∃ spec, specOf rule' = some spec ∧
      (run (step executorClient) (operations h.desired h.actual)
        h).executor.executor.rulesOf rule.id = [spec] := by
  have hup : ∀ op ∈ operations h.desired h.actual, op.target = some rule.id →
      ∃ r, op = .updatePolicy r := by
    intro op hop hta
    rcases StateDiff.mem_operations.1 hop with ⟨r, -, -, rfl⟩ | ⟨a, -, hu, rfl⟩
    · exact ⟨r, rfl⟩
    · exact absurd (Option.some.inj hta).symm (hu rule hrul)
  rcases rulesOf_run_updates hp.tracked hp.apart
    (fun r hr => hp.known r (updatePolicy_mem_operations.1 hr).1) hup hp.succeeds with
    hno | ⟨rule', spec, hm, hid, hsp, hru⟩
  · have ha : StateDiff.Agrees h.actual rule := by
      by_contra hn
      exact hno _ (updatePolicy_mem_operations.2 ⟨hrul, hn⟩) rfl
    obtain ⟨spec, hsp, hru⟩ := hp.tracked.slot_of_agrees ha
    exact ⟨rule, hrul, rfl, spec, hsp, (congrArg Slot.rules (slot_run_of_ne hno h)).trans hru⟩
  · exact ⟨rule', (updatePolicy_mem_operations.1 hm).1, hid, spec, hsp, hru⟩

theorem Planned.rulesOf_not_desired (hp : Planned seen h)
    (hid : ∀ rule ∈ h.desired.rules, rule.id ≠ id) :
    (run (step executorClient) (operations h.desired h.actual)
      h).executor.executor.rulesOf id = [] := by
  rcases (hp.tracked.plan hp.known hp.succeeds).slots id with ⟨-, hn⟩ | ⟨r, -, ar, _, -, hl, -⟩
  · exact hn
  · obtain ⟨rule, hr, he⟩ := desired_of_mem_run hp.succeeds (Lib.mem_of_lookup hl)
    exact absurd (he.trans (Lib.key_of_lookup hl)) (hid rule hr)

/-- The chain holds rules of the state only, and a rule under every id of the state. -/
structure Realizes (desired : DesiredState) (chain : List NftRuleSpec) : Prop where
  subset : chain ⊆ specs desired
  every : ∀ rule ∈ desired.rules, ∃ rule' ∈ desired.rules, rule'.id = rule.id ∧
    ∃ spec ∈ chain, specOf rule' = some spec

/-- **What the chain holds after a successful plan.** -/
theorem Planned.realizes (hp : Planned seen h) :
    Realizes h.desired (run (step executorClient) (operations h.desired h.actual)
      h).executor.executor.rules where
  subset spec hm := by
    obtain ⟨id, hid⟩ := (hp.tracked.plan hp.known hp.succeeds).tagged spec hm
    have hof := Lib.mem_tagged.2 ⟨hm, hid⟩
    by_cases hd : ∃ rule ∈ h.desired.rules, rule.id = id
    · obtain ⟨rule, hr, rfl⟩ := hd
      obtain ⟨rule', hr', -, spec', hsp', hru⟩ := hp.rulesOf_desired hr
      rw [← rulesOf, hru, mem_singleton] at hof
      exact List.mem_filterMap.2 ⟨rule', hr', hof ▸ hsp'⟩
    · rw [← rulesOf, hp.rulesOf_not_desired fun rule hr he => hd ⟨rule, hr, he⟩] at hof
      cases hof
  every rule hr := by
    obtain ⟨rule', hr', hid, spec, hsp, hru⟩ := hp.rulesOf_desired hr
    have hof : spec ∈ rulesOf _ rule.id := hru ▸ mem_singleton_self spec
    exact ⟨rule', hr', hid, spec, (Lib.mem_tagged.1 hof).1, hsp⟩

omit [Postcard] in
theorem Realizes.hit {desired : DesiredState}
    (hc : Alike out desired) {l l' : List NftRuleSpec} (hl : Realizes desired l)
    (hl' : Realizes desired l') {p : Packet} (h : ∃ spec ∈ l, spec.hits p) :
    ∃ spec ∈ l', spec.hits p := by
  obtain ⟨spec, hs, hh⟩ := h
  obtain ⟨rule, hr, hof⟩ := List.mem_filterMap.1 (hl.subset hs)
  obtain ⟨rule', hr', hid, spec', hs', hof'⟩ := hl'.every rule hr
  exact ⟨spec', hs', by rw [hc.cover rule' hr' rule hr hid spec' hof' spec hof, hh]⟩

def withDesired (state : DesiredState) (h : Handles Link) : Handles Link :=
  { h with desired := state }

theorem Tracked.withDesired (ht : Tracked seen h) (state : DesiredState) :
    Tracked seen (withDesired state h) := ⟨ht.slots, ht.tagged⟩

variable {r : Reconciler Link} {state : DesiredState} {history : List DesiredState}

theorem reconciles_iff : Reconciles state r ↔ Along (step executorClient) (Succeeds executorClient)
      (operations state r.handles.actual) (withDesired state r.handles) :=
  reconcile_ok_iff_along

theorem handles_advance (hok : Reconciles state r) :
    (advance state r).handles = run (step executorClient)
      (operations state r.handles.actual) (withDesired state r.handles) :=
  handles_reconcile_of_ok hok

theorem Fresh.tracked (hf : Fresh r) (seen : List DesiredRule) : Tracked seen r.handles where
  slots id := .inl ⟨by rw [hf.actual]; rfl, by
    rw [Link.slot, rulesOf, hf.rules]
    rfl⟩
  tagged spec hs := by
    rw [hf.rules] at hs
    cases hs

theorem tracked_history (hf : Fresh r) (hse : ∀ state ∈ history, ∀ rule ∈ state.rules, rule ∈ seen)
    (hs : Along advance Reconciles history r) : Tracked seen (run advance history r).handles := by
  refine Lib.Along.invariant (I := fun r : Reconciler Link => Tracked seen r.handles)
    (fun state r ht hP => ?_) (hf.tracked seen) hs.and_mem
  rw [handles_advance hP.2]
  exact (ht.withDesired state).plan (hse state hP.1) (reconciles_iff.1 hP.2)

variable {desired : DesiredState}

theorem realizes_chainAfter (hf : Fresh r) (hcf : CollisionFree (rulesIn (history ++ [desired])))
    (hs : Along advance Reconciles (history ++ [desired]) r) :
    Supported desired ∧ Realizes desired (chainAfter (history ++ [desired]) r) := by
  have hse : ∀ state ∈ history ++ [desired], ∀ rule ∈ state.rules,
      rule ∈ rulesIn (history ++ [desired]) :=
    fun state hst rule hr => List.mem_flatMap.2 ⟨state, hst, hr⟩
  rw [Lib.along_append] at hs
  have ht := (tracked_history hf
    (fun state hst => hse state (mem_append_left _ hst)) hs.1).withDesired desired
  have hp : Planned _ (withDesired desired (run advance history r).handles) :=
    ⟨ht, hse desired (mem_append_right _ (mem_singleton_self _)), hcf, reconciles_iff.1 hs.2.1⟩
  refine ⟨hp.supported, ?_⟩
  rw [chainAfter, Lib.run_append]
  show Realizes desired (advance desired (run advance history r)).handles.executor.executor.rules
  rw [handles_advance hs.2.1]
  exact hp.realizes

theorem historyIndependent_of_alike
    (ha : Supported desired → Alike out desired) : HistoryIndependent out desired := by
  intro r₁ r₂ h₁ h₂ hf₁ hf₂ hs₁ hs₂ hcf₁ hcf₂ p
  obtain ⟨hs, hl₁⟩ := realizes_chainAfter hf₁ hcf₁ hs₁
  obtain ⟨-, hl₂⟩ := realizes_chainAfter hf₂ hcf₂ hs₂
  exact (ha hs).agree.firstMatch_congr hl₁.subset hl₂.subset
    ⟨hl₁.hit (ha hs) hl₂, hl₂.hit (ha hs) hl₁⟩

variable {spec : NftRuleSpec}

theorem head_step (hid : op.target ≠ some id) (hc : spec.comment = some (ruleComment id))
    (hh : h.executor.executor.rules.head? = some spec) :
    (step executorClient op h).executor.executor.rules.head? = some spec := by
  obtain ⟨keep, hke, hr⟩ := rules_step op h
  obtain ⟨rest, hre⟩ := List.head?_eq_some_iff.1 hh
  have hk : ∃ tail, keep = spec :: tail := by
    rcases hke with rfl | ⟨j, hj, rfl⟩
    · exact ⟨rest, hre⟩
    · have hne : spec.comment ≠ some (ruleComment j) := fun e => hid <| by
        rw [hj, ruleComment_injective (Option.some.inj (hc.symm.trans e))]
      exact ⟨_, by rw [hre, Lib.dropFirst_cons_of_ne hne]⟩
  obtain ⟨tail, rfl⟩ := hk
  rcases hr with hr | ⟨_, _, -, -, hr⟩
  · rw [hr]
    rfl
  · rw [hr]
    rfl

theorem head_run (hid : ∀ op ∈ ops, op.target ≠ some id) (hc : spec.comment = some (ruleComment id))
    (hh : h.executor.executor.rules.head? = some spec) :
    (run (step executorClient) ops h).executor.executor.rules.head? = some spec := by
  induction ops generalizing h with
  | nil => exact hh
  | cons op ops ih =>
    rw [forall_mem_cons] at hid
    exact ih hid.2 (head_step hid.1 hc hh)

theorem reconciles_of_reliable (he : ∀ q, (Postcard.request q).isSome)
    (hr : r.handles.executor.Reliable) (hs : Supported state) :
    Reconciles state r ∧ (advance state r).handles.executor.Reliable := by
  have hok : Reconciles state r := reconciles_iff.2 <| along_succeeds hr fun rule hm =>
    ⟨he _, hs rule (updatePolicy_mem_operations.1 hm).1⟩
  refine ⟨hok, ?_⟩
  rw [handles_advance hok]
  exact Lib.run_invariant (I := fun h : Handles Link => h.executor.Reliable)
    (fun op _ => reliable_step op) _ hr

omit [Postcard] in
theorem specOf_eq_of_oneContent {desired : DesiredState} (ho : desired.OneContent)
    {r s : DesiredRule} (hr : r ∈ desired.rules) (hs : s ∈ desired.rules) (hid : r.id = s.id) :
    specOf r = specOf s :=
  specOf_congr hid (ho r hr s hs hid).1 (ho r hr s hs hid).2

theorem collisionFree_of_oneContent (ho : desired.OneContent) {rules : List DesiredRule}
    (hin : ∀ rule ∈ rules, rule ∈ desired.rules) : CollisionFree rules :=
  fun r hr s hs hid _ => specOf_eq_of_oneContent ho (hin r hr) (hin s hs) hid

omit [Postcard] in
theorem alike_of_oneContent {desired : DesiredState}
    (ho : desired.OneContent) (h : OverlapAgree NftRuleSpec.hits out (specs desired)) :
    Alike out desired where
  agree := h
  cover r hr s hs hid a ha b hb p := by
    rw [specOf_eq_of_oneContent ho hr hs hid] at ha
    rw [Option.some.inj (ha.symm.trans hb)]

theorem advance_one (hf : Fresh r) (hspe : specOf rule = some spec)
    (hok : Reconciles { rules := [rule] } r) :
    StateDiff.Agrees (advance { rules := [rule] } r).handles.actual rule ∧
      (advance { rules := [rule] } r).handles.executor.executor.rules.head? = some spec := by
  have ho : DesiredState.OneContent { rules := [rule] } := by
    intro a ha b hb _
    rw [List.mem_singleton.1 ha, List.mem_singleton.1 hb]
    exact ⟨rfl, rfl⟩
  have hp : Planned [rule] (withDesired { rules := [rule] } r.handles) :=
    ⟨(hf.tracked [rule]).withDesired _, fun _ => id, collisionFree_of_oneContent ho fun _ => id,
      reconciles_iff.1 hok⟩
  have hr := hp.realizes
  obtain ⟨_, -, -, _, -, hof⟩ := hp.rulesOf_desired (mem_singleton_self rule)
  have hsl := (hp.tracked.plan hp.known hp.succeeds).slots rule.id
  have hsp : specs { rules := [rule] } = [spec] := by simp [specs, hspe]
  rw [handles_advance hok]
  constructor
  · rcases hsl with ⟨-, hn⟩ | ⟨s, hs, ar, _, -, hlo, ha, hfl, -⟩
    · cases hn.symm.trans hof
    · rw [List.mem_singleton.1 hs] at ha hfl
      exact ⟨ar, hlo, ha, hfl⟩
  · obtain ⟨_, -, -, _, hm, -⟩ := hr.every rule (mem_singleton_self rule)
    obtain ⟨first, rest, hl⟩ := exists_cons_of_ne_nil (ne_nil_of_mem hm)
    have hfi : first ∈ specs { rules := [rule] } := hr.subset (hl ▸ mem_cons_self)
    rw [hsp, mem_singleton] at hfi
    rw [← hfi]
    exact congrArg List.head? hl

/-- **Any rule of a state can come first** in some history. -/
theorem exists_history_first (he : ∀ q, (Postcard.request q).isSome) (hon : desired.OneContent)
    (hsu : Supported desired) (hru : rule ∈ desired.rules) (hs : specOf rule = some spec) :
    ∃ r history, Fresh r ∧ Along advance Reconciles (history ++ [desired]) r ∧
      CollisionFree (rulesIn (history ++ [desired])) ∧
      (chainAfter (history ++ [desired]) r).head? = some spec := by
  -- the state of that one rule first, then the whole state
  have hf : Fresh { handles := { executor := {} } } := ⟨rfl, rfl⟩
  generalize hr₀ : ({ handles := { executor := {} } } : Reconciler Link) = r₀ at hf
  have hre₀ : r₀.handles.executor.Reliable := by
    rw [← hr₀]
    exact ⟨(fun _ h => nomatch h), (fun _ h => nomatch h)⟩
  have hsu₁ : Supported { rules := [rule] } := fun r hr => by
    rw [List.mem_singleton.1 hr, hs]
    rfl
  obtain ⟨hok₁, hre₁⟩ := reconciles_of_reliable he hre₀ hsu₁
  obtain ⟨ha, hh⟩ := advance_one hf hs hok₁
  obtain ⟨hok₂, -⟩ := reconciles_of_reliable he hre₁ hsu
  refine ⟨r₀, [{ rules := [rule] }], hf, ⟨hok₁, hok₂, trivial⟩,
    collisionFree_of_oneContent hon fun r hr => ?_, ?_⟩
  · rcases (by simpa [rulesIn] using hr : r = rule ∨ r ∈ desired.rules) with rfl | hr
    · exact hru
    · exact hr
  · show (advance desired (advance { rules := [rule] } r₀)).handles.executor.executor.rules.head? =
      some spec
    rw [handles_advance hok₂]
    have ho : ∀ op ∈ operations desired
        (advance { rules := [rule] } r₀).handles.actual, op.target ≠ some rule.id :=
      fun op hop => StateDiff.target_ne_of_agrees hon hru ha hop
    exact head_run ho (comment_specOf hs) hh

theorem overlapAgree_of_historyIndependent (he : ∀ q, (Postcard.request q).isSome)
    {out : NftRuleSpec → ν} (ho : desired.OneContent) (hs : Supported desired)
    (hi : HistoryIndependent out desired) : OverlapAgree NftRuleSpec.hits out (specs desired) := by
  intro a ha b hb p hap hbp
  obtain ⟨ra, hra, hsa⟩ := List.mem_filterMap.1 ha
  obtain ⟨rb, hrb, hsb⟩ := List.mem_filterMap.1 hb
  obtain ⟨r₁, h₁, hf₁, hs₁, hcf₁, hh₁⟩ := exists_history_first he ho hs hra hsa
  obtain ⟨r₂, h₂, hf₂, hs₂, hcf₂, hh₂⟩ := exists_history_first he ho hs hrb hsb
  have heq := hi r₁ r₂ h₁ h₂ hf₁ hf₂ hs₁ hs₂ hcf₁ hcf₂ p
  obtain ⟨rest₁, hl₁⟩ := List.head?_eq_some_iff.1 hh₁
  obtain ⟨rest₂, hl₂⟩ := List.head?_eq_some_iff.1 hh₂
  rw [hl₁, hl₂, Lib.firstMatch_cons_hit hap, Lib.firstMatch_cons_hit hbp] at heq
  exact Option.some.inj heq

/-- **The order of the chain.** Two successful histories that end in a state decide every packet
alike if the state's rules that match a common packet do, and those under one id match the same
packets; with one content per id, only if. -/
theorem historyIndependent_iff (henc : ∀ q, (Postcard.request q).isSome)
    (out : NftRuleSpec → ν) (desired : DesiredState) :
    ((Supported desired → Alike out desired) → HistoryIndependent out desired) ∧
      (desired.OneContent → (HistoryIndependent out desired ↔
        (Supported desired → OverlapAgree NftRuleSpec.hits out (specs desired)))) := by
  refine ⟨historyIndependent_of_alike, fun ho => ⟨fun hi hs => ?_, fun ha => ?_⟩⟩
  · exact overlapAgree_of_historyIndependent henc ho hs hi
  · exact historyIndependent_of_alike fun hs => alike_of_oneContent ho (ha hs)

end

def blockThenAllow : DesiredState where
  rules := [blockEverything, { id := 2, action := .allow, priority := 1 }]

theorem twoBlocks_historyIndependent : ∃ _ : Postcard, HistoryIndependent NftRuleSpec.verdict
      { rules := [blockEverything, { blockEverything with id := 2 }] } :=
  ⟨.wire, ((@historyIndependent_iff .wire _ (fun _ => rfl) _ _).2 (by decide)).2 (by
    intro _ a ha b hb _ _ _
    have ho : ∀ s ∈ specs { rules := [blockEverything, { blockEverything with id := 2 }] },
        s.verdict = .drop := by decide +kernel
    rw [ho a ha, ho b hb])⟩

/-- The state at once, or its second rule first: the chain drops a packet or accepts it. -/
theorem blockThenAllow_order_shows :
    ¬∀ _ : Postcard, HistoryIndependent NftRuleSpec.verdict blockThenAllow := by
  intro h
  let _ : Postcard := .wire
  have ho : blockThenAllow.OneContent := by decide
  let r₀ : Reconciler Link := { handles := { executor := {} } }
  let allowFirst : DesiredState := { rules := blockThenAllow.rules.tail }
  have hok : ((r₀.setCell blockThenAllow).reconcile executorClient).1 = .ok () := by
    decide +kernel
  have hok₁ : ((r₀.setCell allowFirst).reconcile executorClient).1 = .ok () := by
    decide +kernel
  have hok₂ : (((advance allowFirst r₀).setCell blockThenAllow).reconcile
      executorClient).1 = .ok () := by decide +kernel
  have heq := h .wire r₀ r₀ [] [allowFirst] ⟨rfl, rfl⟩ ⟨rfl, rfl⟩ ⟨hok, trivial⟩
    ⟨hok₁, hok₂, trivial⟩ (collisionFree_of_oneContent ho (by decide))
    (collisionFree_of_oneContent ho (by decide))
    { iifname := "eth0", src := .v4 1, dst := .v4 2, l4proto := 6 }
  exact absurd heq (by decide +kernel)

end BalanSir.Daemon
