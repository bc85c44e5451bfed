/-
# Recovery from the kernel's inventory

`sync_actual_from_executor`, and the reconcile after it.
-/

import BalanSir.Daemon.Convergence
import BalanSir.Daemon.Reconciler
import BalanSir.Daemon.Slots

namespace BalanSir.Daemon

open Common Control Executor List StateDiff
open Lib (run Along)
open DaemonExecutorAdapter (step Succeeds)
open PolicyCompiler (compile)

def ruleIds (x : NftablesExecutor) : List UInt32 :=
  x.rules.filterMap fun r => r.comment.bind NftablesBackend.ruleIdOf

/-- A comment that reads as an id is the comment of that id. -/
def WellTagged (x : NftablesExecutor) : Prop :=
  ∀ r ∈ x.rules, ∀ id, r.comment.bind NftablesBackend.ruleIdOf = some id →
    r.comment = some (ruleComment id)

def Converged (desired : DesiredState) (x : NftablesExecutor) : Prop :=
  (∀ rule ∈ desired.rules, ∃ spec, specFor (PolicyCompiler.compile rule) = some spec ∧
      x.rulesOf rule.id = [spec]) ∧
    ∀ id, (∀ rule ∈ desired.rules, rule.id ≠ id) → x.rulesOf id = []

def Kept [Postcard] (x : NftablesExecutor) (rule : DesiredRule) : Prop :=
  (rule.action = .allow ∧ rule.flow = none) ∨
    x.installed rule.id = some (ruleFingerprint (PolicyCompiler.compile rule))

/-- The rule is gone, kept as it should be, or replaced. -/
def Recovers [Postcard] (x : NftablesExecutor) (rule : DesiredRule) : Prop :=
  x.rulesOf rule.id = [] ∨
    (Kept x rule ∧ ∃ spec, specFor (PolicyCompiler.compile rule) = some spec ∧
      x.rulesOf rule.id = [spec]) ∨
    (¬Kept x rule ∧ (x.installed rule.id).isSome ∧ (x.rulesOf rule.id).length = 1)

variable {x : NftablesExecutor}

theorem count_ruleIds (h : WellTagged x) (id : UInt32) :
    (ruleIds x).count id = (x.rulesOf id).length := by
  rw [ruleIds, count_filterMap, NftablesExecutor.rulesOf, Lib.tagged, ← countP_eq_length_filter]
  refine countP_congr fun r hr => ?_
  rw [beq_iff_eq, decide_eq_true_eq]
  constructor
  · exact h r hr id
  · intro hc
    rw [hc]
    exact ruleIdOf_ruleComment id

theorem mem_ruleIds (h : WellTagged x) {id : UInt32} : id ∈ ruleIds x ↔ x.rulesOf id ≠ [] := by
  rw [← count_pos_iff, count_ruleIds h, length_pos_iff]

def Handles.Inventoried (h : Handles Link) : Prop :=
  h.actual = { activeRules := (ruleIds h.executor.executor).map Reconciler.placeholder }

theorem sync_spec [Postcard] {r : Reconciler Link} (hre : r.handles.executor.Reliable) :
    (r.syncActualFromExecutor executorClient).handles.Inventoried ∧
      (r.syncActualFromExecutor executorClient).handles.executor.Reliable ∧
      (r.syncActualFromExecutor executorClient).handles.executor.executor.rules =
        r.handles.executor.executor.rules ∧
      (r.syncActualFromExecutor executorClient).handles.executor.executor.installed =
        r.handles.executor.executor.installed := by
  obtain ⟨ids, link, heq, hru, hi, hr⟩ := Link.actualRuleIds_cases r.handles.executor
  obtain ⟨hl, rfl⟩ := hr hre
  simp only [Reconciler.syncActualFromExecutor, executorClient, heq, Handles.Inventoried, ruleIds,
    hru, hi, hl, and_self]

variable {rule : DesiredRule}

theorem recovers_congr [Postcard] {x' : NftablesExecutor} (hr : x'.rules = x.rules)
    (hi : x'.installed = x.installed) : Recovers x' rule ↔ Recovers x rule := by
  simp only [Recovers, Kept, NftablesExecutor.rulesOf, hr, hi]

section

variable [Postcard] {h : Handles Link}

/-- A plan keeps the slot of a desired rule that is kept, and replaces it otherwise. -/
theorem slot_run_desired (hd : h.desired.DistinctIds) (hre : h.executor.Reliable)
    (hs : Along (step executorClient) (Succeeds executorClient)
      (StateDiff.operations h.desired h.actual) h) (hr : rule ∈ h.desired.rules) :
    ((StateDiff.Agrees h.actual rule ∨
          h.executor.executor.Holds (compile rule)) ∧
        (run (step executorClient) (StateDiff.operations h.desired h.actual) h).executor.slot
          rule.id = h.executor.slot rule.id) ∨ (¬StateDiff.Agrees h.actual rule ∧
        ¬h.executor.executor.Holds (compile rule) ∧
        ∃ spec, specFor (compile rule) = some spec ∧
          (run (step executorClient) (StateDiff.operations h.desired h.actual) h).executor.slot
            rule.id = (h.executor.slot rule.id).replace spec
              (ruleFingerprint (compile rule))) := by
  -- the operations before and after the one on this id leave the slot alone
  by_cases ha : StateDiff.Agrees h.actual rule
  · exact .inl ⟨.inl ha,
      slot_run_of_ne (fun op hop => target_ne_of_agrees hd.oneContent hr ha hop) h⟩
  · obtain ⟨pre, post, hsp, hpr, hp⟩ := operations_split hd hr ha
    rw [hsp, Lib.along_append] at hs
    have hb := slot_run_of_ne hpr h
    have hre' := Lib.run_invariant (I := fun h : Handles Link => h.executor.Reliable)
      (fun op _ => reliable_step op) pre hre
    rw [hsp, Lib.run_append, run, slot_run_of_ne hp]
    generalize run (step executorClient) pre h = h' at hs hb hre'
    have hho : h'.executor.executor.Holds (compile rule) ↔
        h.executor.executor.Holds (compile rule) := Link.holds_congr hb
    rcases slot_step_update hs.2.1 with ⟨hh, -, hsl⟩ | ⟨spec, _, _, hspe, -, hh, hsl⟩
    · exact .inl ⟨.inr (hho.1 hh), hsl.trans hb⟩
    · exact .inr ⟨ha, fun hx => hh hre' (hho.2 hx), spec, hspe, by rw [hsl, hb]⟩

theorem converged_at_iff (hin : h.Inventoried) (hre : h.executor.Reliable)
    (hta : WellTagged h.executor.executor) (hd : h.desired.DistinctIds)
    (hs : Along (step executorClient) (Succeeds executorClient)
      (StateDiff.operations h.desired h.actual) h) (hru : rule ∈ h.desired.rules) :
    (∃ spec, specFor (compile rule) = some spec ∧
        (run (step executorClient) (StateDiff.operations h.desired h.actual)
          h).executor.executor.rulesOf rule.id = [spec]) ↔
      Recovers h.executor.executor rule := by
  have hag : StateDiff.Agrees h.actual rule ↔ h.executor.executor.rulesOf rule.id ≠ [] ∧
      rule.action = .allow ∧ rule.flow = none := by
    rw [hin, Reconciler.agrees_inventory_iff, mem_ruleIds hta]
  rcases slot_run_desired hd hre hs hru with ⟨hke, hsa⟩ | ⟨hna, hnh, spec, hsp, hrep⟩
  · have hr : _ = h.executor.executor.rulesOf rule.id := congrArg Slot.rules hsa
    have hne : h.executor.executor.rulesOf rule.id ≠ [] :=
      hke.elim (fun ha => (hag.1 ha).1) And.right
    have hk : Kept h.executor.executor rule := hke.imp (fun ha => (hag.1 ha).2) And.left
    show (∃ spec, _ ∧ (Link.slot _ rule.id).rules = [spec]) ↔ _
    rw [hr]
    simp [Recovers, hne, hk]
  · have hr : _ = (if (h.executor.executor.installed rule.id).isSome then
        (h.executor.executor.rulesOf rule.id).tail else h.executor.executor.rulesOf rule.id) ++
          [spec] := congrArg Slot.rules hrep
    show (∃ spec, _ ∧ (Link.slot _ rule.id).rules = [spec]) ↔ _
    rw [hr]
    by_cases hn : h.executor.executor.rulesOf rule.id = []
    · exact iff_of_true ⟨spec, hsp, by simp [hn]⟩ (.inl hn)
    · have hk : ¬Kept h.executor.executor rule := fun hk =>
        hk.elim (fun hp => hna (hag.2 ⟨hn, hp⟩)) fun hf => hnh ⟨hf, hn⟩
      by_cases hi : (h.executor.executor.installed rule.id).isSome
      · have hl := List.length_pos_iff.2 hn
        have ht : (h.executor.executor.rulesOf rule.id).tail = [] ↔
            (h.executor.executor.rulesOf rule.id).length = 1 := by
          rw [← length_eq_zero_iff, length_tail]
          omega
        simp [Recovers, hn, hk, hi, hsp, ht]
      · simp [Recovers, hk, hi, hsp]

theorem rulesOf_undesired (hi : h.Inventoried) (hta : WellTagged h.executor.executor)
    (hs : Along (step executorClient) (Succeeds executorClient)
      (StateDiff.operations h.desired h.actual) h)
    {id : UInt32} (hid : ∀ rule ∈ h.desired.rules, rule.id ≠ id) :
    (run (step executorClient) (StateDiff.operations h.desired h.actual)
      h).executor.executor.rulesOf id = [] := by
  have hr := rules_slot_run_remove
    (fun op hop ht => eq_removePolicy_of_target hid hop ht) hs
  have hc : (StateDiff.operations h.desired h.actual).count (.removePolicy id) =
      (h.executor.executor.rulesOf id).length := by
    rw [count_removePolicy_operations hid, hi, countP_map, ← count_ruleIds hta]
    exact countP_congr fun j _ => by
      rw [beq_iff_eq]
      exact decide_eq_true_iff
  rw [hc] at hr
  exact hr.trans drop_length

end

/-- **Recovery, exactly.** Over a reliable link, the inventory and one successful reconcile leave
the desired rules and no other precisely when every desired rule recovers. -/
theorem inventory_converged_iff [Postcard] (r : Reconciler Link)
    (hrel : r.handles.executor.Reliable) (htag : WellTagged r.handles.executor.executor)
    (hd : r.handles.desired.DistinctIds)
    (hok : ((r.syncActualFromExecutor executorClient).reconcile executorClient).1 = .ok ()) :
    Converged r.handles.desired ((r.syncActualFromExecutor executorClient).reconcile
        executorClient).2.handles.executor.executor ↔
      ∀ rule ∈ r.handles.desired.rules, Recovers r.handles.executor.executor rule := by
  obtain ⟨hin, hrel', hru, hi⟩ := sync_spec hrel
  have hs := Reconciler.reconcile_ok_iff_along.1 hok
  have htag' : WellTagged (r.syncActualFromExecutor executorClient).handles.executor.executor := by
    rwa [WellTagged, hru]
  rw [Reconciler.handles_reconcile_of_ok hok]
  constructor
  · intro hc rule hr
    exact (recovers_congr hru hi).1
      ((converged_at_iff hin hrel' htag' hd hs hr).1 (hc.1 rule hr))
  · intro h
    exact ⟨fun rule hr => (converged_at_iff hin hrel' htag' hd hs hr).2
      ((recovers_congr hru hi).2 (h rule hr)), fun id => rulesOf_undesired hin htag' hs⟩

def allowEverything : DesiredRule := { id := 1, action := .allow, priority := 0 }

def overBlockEverything [Postcard] (rules : List DesiredRule) : Reconciler Link where
  handles :=
    { desired := { rules := rules }
      executor := (Link.execute (PolicyCompiler.compile blockEverything) {}).2 }

theorem wellTagged_overBlockEverything [Postcard] (rules : List DesiredRule)
    (h : Postcard.request (compile blockEverything) ≠ none) :
    WellTagged (overBlockEverything rules).handles.executor.executor := by
  obtain ⟨bytes, hb⟩ := Option.ne_none_iff_exists'.1 h
  have hru : (overBlockEverything rules).handles.executor.executor.rules =
      [ruleSpec (compile blockEverything) .drop none] := by
    simp only [overBlockEverything, Link.execute, hb]
    rfl
  intro r hr id hid
  rw [hru, mem_singleton] at hr
  rw [hr, ruleSpec, Option.bind_some, ruleIdOf_ruleComment] at hid
  rw [hr, ← Option.some.inj hid, ruleSpec]

theorem allowOther_inventory_converged :
    ∃ _ : Postcard, Converged { rules := [{ allowEverything with id := 2 }] }
      (((overBlockEverything [{ allowEverything with id := 2 }]).syncActualFromExecutor
        executorClient).reconcile executorClient).2.handles.executor.executor :=
  ⟨.wire, (@inventory_converged_iff .wire (@overBlockEverything .wire _)
    ⟨(fun _ h => nomatch h), (fun _ h => nomatch h)⟩
    (@wellTagged_overBlockEverything .wire _ (by decide))
    (by decide) (by decide +kernel)).2
    fun rule hr => .inl (by rw [List.mem_singleton.1 hr]; decide +kernel)⟩

/-- The inventory shows rule `1`, to allow all, as in place, and the chain keeps dropping all. -/
theorem allowEverything_not_converged :
    ¬∀ _ : Postcard, (((overBlockEverything [allowEverything]).syncActualFromExecutor
        executorClient).reconcile executorClient).1 = .ok () →
      Converged { rules := [allowEverything] }
        (((overBlockEverything [allowEverything]).syncActualFromExecutor
          executorClient).reconcile executorClient).2.handles.executor.executor := by
  intro h
  let _ : Postcard := .wire
  obtain ⟨spec, hs, hr⟩ := (h .wire (by decide +kernel)).1 allowEverything
    (mem_singleton_self _)
  cases hs
  exact absurd hr (by decide +kernel)

def Reconciler.syncActual {ε : Type} (x : ExecutorAdapter ε) (r : Reconciler ε) :
    Except ReconciliationError Unit × Reconciler ε :=
  (.ok (), r.syncActualFromExecutor x)

def Link.LosesInventory (link : Link) : Prop :=
  ∃ e, (link.request NftablesExecutor.actualRuleIds).1 = .error e

theorem Link.actualRuleIds_of_loses {link : Link} (h : link.LosesInventory) :
    (link.actualRuleIds).1 = [] := by
  obtain ⟨e, he⟩ := h
  unfold Link.actualRuleIds
  rcases hr : link.request NftablesExecutor.actualRuleIds with ⟨answer, link'⟩
  rw [hr] at he
  cases he
  rfl

/-- **A lost inventory is no error:** a call whose request for the inventory fails returns `Ok` and
leaves nothing accounted. -/
theorem sync_of_lost_inventory [Postcard] (r : Reconciler Link)
    (hlost : r.handles.executor.LosesInventory) :
    (r.syncActual executorClient).1 = .ok () ∧ (r.syncActual executorClient).2.handles.actual = {} ∧
      ¬((∃ e, (r.syncActual executorClient).1 = .error e) ∧
        (r.syncActual executorClient).2.handles.actual = r.handles.actual) := by
  have ha : (r.syncActual executorClient).2.handles.actual =
      { activeRules := (r.handles.executor.actualRuleIds).1.map Reconciler.placeholder } := rfl
  refine ⟨rfl, ?_, ?_⟩
  · rw [ha, Link.actualRuleIds_of_loses hlost, map_nil]
  · rintro ⟨⟨e, he⟩, -⟩
    cases he

def accounting (outcome : IpcOutcome) : Reconciler Link where
  handles :=
    { actual := recordRule blockEverything none {}
      executor := { ipc := [outcome] } }

theorem sync_of_malformed :
    ∃ _ : Postcard, ((accounting .malformed).syncActual executorClient).2.handles.actual = {} :=
  ⟨.wire, (@sync_of_lost_inventory .wire (accounting .malformed) ⟨.malformed, rfl⟩).2.1⟩

/-- The executor cannot be reached: the call returns `Ok`, and the rule is forgotten. -/
theorem sync_of_unreachable :
    ∃ _ : Postcard,
      (accounting (.unreachable (.io "connection refused"))).handles.executor.LosesInventory ∧
      ((accounting (.unreachable (.io "connection refused"))).syncActual executorClient).1 =
        .ok () ∧
      ((accounting (.unreachable (.io "connection refused"))).syncActual
        executorClient).2.handles.actual ≠
        (accounting (.unreachable (.io "connection refused"))).handles.actual :=
  ⟨.wire, ⟨_, rfl⟩, rfl, by decide +kernel⟩

end BalanSir.Daemon
