/-
# Plans and the diff that builds them

`StateDiff::build` compares the desired with the accounted rules, by id.
-/

import BalanSir.Common.Types
import BalanSir.Lib.Keyed
import BalanSir.Lib.Run

namespace BalanSir.Common

open List

open Lib (lookup dropAll run)

inductive ReconciliationOperation where
  | createDriver (id : DriverId)
  | removeDriver (id : DriverId)
  | restartDriver (id : DriverId)
  | updatePolicy (rule : DesiredRule)
  | removePolicy (id : UInt32)
  | noOp
  deriving DecidableEq

def ReconciliationOperation.target : ReconciliationOperation → Option UInt32
  | .updatePolicy rule => some rule.id
  | .removePolicy id => some id
  | _ => none

structure ReconciliationPlan where
  generationBefore : UInt64
  generationAfter : UInt64
  operations : List ReconciliationOperation
  deriving DecidableEq

/-- The next generation wraps, as `gen_before + 1` does in a release build. -/
def ReconciliationPlan.new (genBefore : UInt64) (operations : List ReconciliationOperation) :
    ReconciliationPlan where
  generationBefore := genBefore
  generationAfter := if operations.any (· ≠ .noOp) then genBefore + 1 else genBefore
  operations := operations

def ReconciliationPlan.isEmpty (plan : ReconciliationPlan) : Bool :=
  plan.operations.isEmpty || plan.operations.all (· = .noOp)

/-- `Snapshot`, with the generation of its metadata. -/
structure Snapshot where
  desired : DesiredState
  actual : ActualState
  generation : UInt64
  deriving DecidableEq

theorem DesiredState.DistinctIds.oneContent {desired : DesiredState} (hd : desired.DistinctIds) :
    desired.OneContent := fun r hr s hs hid => by
  rw [inj_on_of_nodup_map hd hr hs hid]
  exact ⟨rfl, rfl⟩

namespace StateDiff

def Agrees (actual : ActualState) (rule : DesiredRule) : Prop :=
  ∃ ar, lookup ActualRule.id rule.id actual.activeRules = some ar ∧
    ar.action = rule.action ∧ ar.flow = rule.flow

def updateFor (actual : ActualState) (rule : DesiredRule) : Option ReconciliationOperation :=
  match lookup ActualRule.id rule.id actual.activeRules with
  | some ar =>
    if ar.action = rule.action ∧ ar.flow = rule.flow then none else some (.updatePolicy rule)
  | none => some (.updatePolicy rule)

def removalFor (desired : DesiredState) (actualRule : ActualRule) :
    Option ReconciliationOperation :=
  if desired.rules.any (·.id = actualRule.id) then none else some (.removePolicy actualRule.id)

def operations (desired : DesiredState) (actual : ActualState) : List ReconciliationOperation :=
  desired.rules.filterMap (updateFor actual) ++ actual.activeRules.filterMap (removalFor desired)

def build (desired : DesiredState) (actual : ActualState) (currentGeneration : UInt64) :
    ReconciliationPlan :=
  let ops := operations desired actual
  ReconciliationPlan.new currentGeneration (if ops.isEmpty then [.noOp] else ops)

variable {rule : DesiredRule} {actual : ActualState}

theorem updateFor_eq_none : updateFor actual rule = none ↔ Agrees actual rule := by
  unfold updateFor Agrees
  cases h : lookup ActualRule.id rule.id actual.activeRules with
  | none => simp
  | some ar => by_cases ha : ar.action = rule.action ∧ ar.flow = rule.flow <;> simp [ha]

variable {op : ReconciliationOperation} {desired : DesiredState} {a : ActualRule}

theorem updateFor_eq_some :
    updateFor actual rule = some op ↔ ¬Agrees actual rule ∧ op = .updatePolicy rule := by
  rw [← updateFor_eq_none]
  unfold updateFor
  cases lookup ActualRule.id rule.id actual.activeRules with
  | none => simp [eq_comm]
  | some ar => by_cases ha : ar.action = rule.action ∧ ar.flow = rule.flow <;> simp [eq_comm]

theorem removalFor_eq_none : removalFor desired a = none ↔ ∃ r ∈ desired.rules, r.id = a.id := by
  simp [removalFor]

theorem removalFor_eq_some : removalFor desired a = some op ↔
      (∀ r ∈ desired.rules, r.id ≠ a.id) ∧ op = .removePolicy a.id := by
  by_cases h : desired.rules.any (·.id = a.id)
  · simp only [removalFor, h, if_true, reduceCtorEq, false_iff]
    simp only [any_eq_true, decide_eq_true_eq] at h
    exact fun ⟨h', _⟩ => let ⟨r, hr, hid⟩ := h; h' r hr hid
  · simp only [removalFor, h]
    simp only [any_eq_true, decide_eq_true_eq, not_exists, not_and] at h
    simp only [Bool.false_eq_true, if_false, Option.some.injEq]
    exact ⟨fun h' => ⟨h, h'.symm⟩, fun h' => h'.2.symm⟩

/-- An update for every desired rule not accounted so, a removal for every other accounted one. -/
theorem mem_operations : op ∈ operations desired actual ↔
      (∃ rule ∈ desired.rules, ¬Agrees actual rule ∧ op = .updatePolicy rule) ∨
      (∃ a ∈ actual.activeRules, (∀ r ∈ desired.rules, r.id ≠ a.id) ∧ op = .removePolicy a.id) := by
  simp only [operations, mem_append, mem_filterMap, updateFor_eq_some, removalFor_eq_some]

theorem updatePolicy_mem_operations : .updatePolicy rule ∈ operations desired actual ↔
      rule ∈ desired.rules ∧ ¬Agrees actual rule := by
  simp [mem_operations]

variable {id : UInt32}

theorem removePolicy_mem_operations : .removePolicy id ∈ operations desired actual ↔
      (∃ a ∈ actual.activeRules, a.id = id) ∧ ∀ r ∈ desired.rules, r.id ≠ id := by
  simp only [mem_operations, reduceCtorEq, and_false, exists_false, false_or,
    ReconciliationOperation.removePolicy.injEq]
  constructor
  · rintro ⟨a, ha, hr, rfl⟩
    exact ⟨⟨a, ha, rfl⟩, hr⟩
  · rintro ⟨⟨a, ha, rfl⟩, hr⟩
    exact ⟨a, ha, hr, rfl⟩

theorem operations_eq_nil :
    operations desired actual = [] ↔ (∀ rule ∈ desired.rules, Agrees actual rule) ∧
      ∀ a ∈ actual.activeRules, ∃ r ∈ desired.rules, r.id = a.id := by
  simp only [operations, append_eq_nil_iff, filterMap_eq_nil_iff, updateFor_eq_none,
    removalFor_eq_none]

theorem noOp_not_mem_operations (desired : DesiredState) (actual : ActualState) :
    ReconciliationOperation.noOp ∉ operations desired actual := by
  simp [mem_operations]

theorem operations_split (hd : desired.DistinctIds)
    (hr : rule ∈ desired.rules) (hn : ¬Agrees actual rule) :
    ∃ pre post, operations desired actual = pre ++ .updatePolicy rule :: post ∧
      (∀ op ∈ pre, op.target ≠ some rule.id) ∧ ∀ op ∈ post, op.target ≠ some rule.id := by
  obtain ⟨l₁, l₂, hl⟩ := append_of_mem hr
  rw [DesiredState.DistinctIds, hl, map_append, map_cons, nodup_middle, nodup_cons] at hd
  have hne : ∀ r ∈ l₁ ++ l₂, r.id ≠ rule.id := fun r hr e =>
    hd.1 (by rw [← map_append, ← e]; exact mem_map_of_mem hr)
  have hup : ∀ l : List DesiredRule, (∀ r ∈ l, r.id ≠ rule.id) →
      ∀ op ∈ l.filterMap (updateFor actual), op.target ≠ some rule.id := by
    intro l hl op hop ht
    obtain ⟨r, hr, hu⟩ := List.mem_filterMap.1 hop
    rw [(updateFor_eq_some.1 hu).2] at ht
    exact hl r hr (Option.some.inj ht)
  refine ⟨l₁.filterMap (updateFor actual),
    l₂.filterMap (updateFor actual) ++ actual.activeRules.filterMap (removalFor desired),
    ?_, hup l₁ fun r hr => hne r (mem_append_left _ hr), fun op hop => ?_⟩
  · rw [operations, hl, filterMap_append,
      filterMap_cons_some (updateFor_eq_some.2 ⟨hn, rfl⟩), append_assoc, cons_append]
  · rcases List.mem_append.1 hop with hop | hop
    · exact hup l₂ (fun r hr => hne r (mem_append_right _ hr)) op hop
    · obtain ⟨a, -, hre⟩ := List.mem_filterMap.1 hop
      obtain ⟨hun, rfl⟩ := removalFor_eq_some.1 hre
      exact fun ht => hun rule hr (Option.some.inj ht).symm

theorem target_ne_of_split (hd : desired.DistinctIds) {pre post : List ReconciliationOperation}
    (h : operations desired actual = pre ++ .updatePolicy rule :: post) :
    (∀ op ∈ pre, op.target ≠ some rule.id) ∧ ∀ op ∈ post, op.target ≠ some rule.id := by
  have hm : .updatePolicy rule ∈ operations desired actual := by simp [h]
  obtain ⟨hr, hn⟩ := updatePolicy_mem_operations.1 hm
  obtain ⟨pre', post', h', hpr', hp'⟩ := operations_split hd hr hn
  have hf := congrArg (List.filter (·.target = some rule.id)) (h.symm.trans h')
  have hni : ∀ l : List ReconciliationOperation, (∀ op ∈ l, op.target ≠ some rule.id) ↔
      l.filter (·.target = some rule.id) = [] := by simp
  rw [filter_append, filter_append,
    filter_cons_of_pos (by simp [ReconciliationOperation.target]),
    filter_cons_of_pos (by simp [ReconciliationOperation.target]), (hni pre').1 hpr',
    (hni post').1 hp', nil_append, append_eq_singleton_iff] at hf
  rcases hf with ⟨hpr, hp⟩ | ⟨_, hp⟩
  · exact ⟨(hni pre).2 hpr, (hni post).2 (List.cons.inj hp).2⟩
  · cases hp

theorem target_ne_of_agrees (hd : desired.OneContent)
    (hr : rule ∈ desired.rules) (ha : Agrees actual rule)
    (hop : op ∈ operations desired actual) : op.target ≠ some rule.id := by
  intro ht
  rcases mem_operations.1 hop with ⟨r, hr', hn, rfl⟩ | ⟨a, -, hu, rfl⟩
  · have hid : r.id = rule.id := Option.some.inj ht
    obtain ⟨ar, hl, hac, hf⟩ := ha
    obtain ⟨hac', hf'⟩ := hd r hr' rule hr hid
    exact hn ⟨ar, hid ▸ hl, hac.trans hac'.symm, hf.trans hf'.symm⟩
  · exact hu rule hr (Option.some.inj ht).symm

theorem eq_removePolicy_of_target
    (hid : ∀ r ∈ desired.rules, r.id ≠ id) (hop : op ∈ operations desired actual)
    (ht : op.target = some id) : op = .removePolicy id := by
  rcases mem_operations.1 hop with ⟨r, hr, -, rfl⟩ | ⟨a, -, -, rfl⟩
  · exact absurd (Option.some.inj ht) (hid r hr)
  · rw [← Option.some.inj ht]

theorem count_removePolicy_operations
    (hid : ∀ r ∈ desired.rules, r.id ≠ id) (actual : ActualState) :
    (operations desired actual).count (.removePolicy id) =
      actual.activeRules.countP (·.id = id) := by
  have hu : (desired.rules.filterMap (updateFor actual)).count (.removePolicy id) = 0 := by
    rw [count_eq_zero]
    intro hm
    obtain ⟨r, -, hr⟩ := List.mem_filterMap.1 hm
    exact nomatch (updateFor_eq_some.1 hr).2
  rw [operations, count_append, hu, Nat.zero_add, count_filterMap]
  refine countP_congr fun a _ => ?_
  simp only [beq_iff_eq, decide_eq_true_eq, removalFor_eq_some,
    ReconciliationOperation.removePolicy.injEq]
  exact ⟨fun h => h.2.symm, fun h => ⟨h ▸ hid, h.symm⟩⟩

variable {gen : UInt64}

/-- **When there is nothing to do:** when the desired rules are accounted and no others. -/
theorem isEmpty_build :
    (build desired actual gen).isEmpty ↔ (∀ rule ∈ desired.rules, Agrees actual rule) ∧
      ∀ a ∈ actual.activeRules, ∃ r ∈ desired.rules, r.id = a.id := by
  rw [← operations_eq_nil]
  cases h : operations desired actual with
  | nil => simp [build, h, ReconciliationPlan.new, ReconciliationPlan.isEmpty]
  | cons op ops =>
    have hop : op ≠ .noOp := fun e =>
      noOp_not_mem_operations desired actual (by rw [h, e]; exact mem_cons_self)
    simp [build, h, ReconciliationPlan.new, ReconciliationPlan.isEmpty, hop]

theorem isEmpty_build_iff_nil :
    (build desired actual gen).isEmpty ↔ operations desired actual = [] :=
  isEmpty_build.trans operations_eq_nil.symm

theorem operations_build (h : operations desired actual ≠ []) :
    (build desired actual gen).operations = operations desired actual := by
  simp [build, ReconciliationPlan.new, h]

theorem operations_build_nil
    (h : operations desired actual = []) : (build desired actual gen).operations = [.noOp] := by
  simp [build, ReconciliationPlan.new, h]

theorem generationAfter_build (h : operations desired actual ≠ []) :
    (build desired actual gen).generationAfter = gen + 1 := by
  obtain ⟨op, ops, hops⟩ := exists_cons_of_ne_nil h
  have hop : op ≠ .noOp := fun e =>
    noOp_not_mem_operations desired actual (by rw [hops, e]; exact mem_cons_self)
  simp [build, ReconciliationPlan.new, hops, hop]

end StateDiff

def ActualRule.content (rule : ActualRule) : UInt32 × Action × Option FlowCriteria :=
  (rule.id, rule.action, rule.flow)

def DesiredRule.content (rule : DesiredRule) : UInt32 × Action × Option FlowCriteria :=
  (rule.id, rule.action, rule.flow)

def DesiredRule.asActual (rule : DesiredRule) : ActualRule :=
  { id := rule.id, action := rule.action, ruleId := none, flow := rule.flow }

def ActualState.DistinctIds (actual : ActualState) : Prop :=
  (actual.activeRules.map (·.id)).Nodup

instance (actual : ActualState) : Decidable actual.DistinctIds := List.nodupDecidable _

def ReconciliationOperation.applyTo : ReconciliationOperation → List ActualRule → List ActualRule
  | .updatePolicy rule, rules =>
    dropAll ActualRule.id rule.id rules ++ [rule.asActual]
  | .removePolicy id, rules => dropAll ActualRule.id id rules
  | _, rules => rules

namespace ReconciliationOperation

variable {rules : List ActualRule}

theorem nodup_applyTo (op : ReconciliationOperation)
    (h : (rules.map (·.id)).Nodup) : ((op.applyTo rules).map (·.id)).Nodup := by
  cases op with
  | updatePolicy rule => exact Lib.nodup_replace (a := rule.asActual) rfl h
  | removePolicy id => exact Lib.nodup_dropAll h id
  | _ => exact h

variable {id : UInt32} {ops : List ReconciliationOperation}

theorem lookup_applyTo_of_ne {op : ReconciliationOperation} (h : op.target ≠ some id)
    (rules : List ActualRule) :
    lookup ActualRule.id id (op.applyTo rules) = lookup ActualRule.id id rules := by
  cases op with
  | updatePolicy rule =>
    have hne : rule.id ≠ id := fun e => h (congrArg some e)
    exact Lib.lookup_replace_of_ne (a := rule.asActual) rfl hne rules
  | removePolicy id' => exact Lib.lookup_dropAll_of_ne (fun e => h (congrArg some e)) rules
  | _ => rfl

theorem lookup_run_applyTo_of_ne (h : ∀ op ∈ ops, op.target ≠ some id) (rules : List ActualRule) :
    lookup ActualRule.id id (run applyTo ops rules) = lookup ActualRule.id id rules :=
  Lib.run_frame (fun op hop => lookup_applyTo_of_ne (h op hop)) rules

theorem lookup_run_removals (h : ∀ op ∈ ops, op.target = some id → op = .removePolicy id)
    (hn : lookup ActualRule.id id rules = none) :
    lookup ActualRule.id id (run applyTo ops rules) = none := by
  induction ops generalizing rules with
  | nil => exact hn
  | cons op ops ih =>
    refine ih (fun o ho => h o (mem_cons_of_mem op ho)) ?_
    by_cases ht : op.target = some id
    · rw [h op mem_cons_self ht]
      exact Lib.lookup_dropAll_self id rules
    · rw [lookup_applyTo_of_ne ht, hn]

end ReconciliationOperation

namespace StateDiff

open ReconciliationOperation (applyTo)

variable {desired : DesiredState} {actual : ActualState}

theorem content_run_desired (hd : desired.DistinctIds) {rule : DesiredRule}
    (hr : rule ∈ desired.rules) :
    (lookup ActualRule.id rule.id (run applyTo (operations desired actual)
      actual.activeRules)).map ActualRule.content = some rule.content := by
  by_cases ha : Agrees actual rule
  · rw [ReconciliationOperation.lookup_run_applyTo_of_ne fun op hop =>
      target_ne_of_agrees hd.oneContent hr ha hop]
    obtain ⟨ar, hl, hac, hf⟩ := ha
    rw [hl, Option.map_some, ActualRule.content, Lib.key_of_lookup hl, hac, hf]
    rfl
  · obtain ⟨pre, post, hs, -, hp⟩ := operations_split hd hr ha
    rw [hs, Lib.run_append, run, ReconciliationOperation.lookup_run_applyTo_of_ne hp]
    exact congrArg _ (Lib.lookup_replace_self (a := rule.asActual) rfl _)

theorem lookup_run_undesired {id : UInt32} (hid : ∀ r ∈ desired.rules, r.id ≠ id) :
    lookup ActualRule.id id (run applyTo (operations desired actual) actual.activeRules) =
      none := by
  have hr : ∀ op ∈ operations desired actual, op.target = some id → op = .removePolicy id :=
    fun op hop => eq_removePolicy_of_target hid hop
  by_cases hac : ∃ a ∈ actual.activeRules, a.id = id
  · -- it is removed, and after that it stays away
    obtain ⟨pre, post, hs⟩ :=
      append_of_mem (removePolicy_mem_operations.2 ⟨hac, hid⟩)
    rw [hs] at hr ⊢
    rw [Lib.run_append, run]
    refine ReconciliationOperation.lookup_run_removals (fun op hop => hr op ?_) ?_
    · exact mem_append_right _ (mem_cons_of_mem _ hop)
    · exact Lib.lookup_dropAll_self id _
  · refine ReconciliationOperation.lookup_run_removals hr (Lib.lookup_eq_none.2 ?_)
    exact fun a ha e => hac ⟨a, ha, e⟩

/-- **The operations make the desired rules of the accounted ones.** -/
theorem perm_run_operations (hd : desired.DistinctIds) (ha : actual.DistinctIds) :
    ((run applyTo (operations desired actual) actual.activeRules).map ActualRule.content).Perm
      (desired.rules.map DesiredRule.content) := by
  have hn : ((run applyTo (operations desired actual) actual.activeRules).map (·.id)).Nodup :=
    Lib.run_invariant (I := fun rules : List ActualRule => (rules.map ActualRule.id).Nodup)
      (fun op _ h => ReconciliationOperation.nodup_applyTo op h) (operations desired actual)
      ha
  refine Lib.perm_of_lookup hn hd fun id => ?_
  show (lookup ActualRule.id id _).map _ = (lookup DesiredRule.id id desired.rules).map _
  cases hl : lookup DesiredRule.id id desired.rules with
  | none => rw [lookup_run_undesired (Lib.lookup_eq_none.1 hl), Option.map_none, Option.map_none]
  | some rule =>
    rw [← Lib.key_of_lookup hl, content_run_desired hd (Lib.mem_of_lookup hl), Option.map_some]

theorem nodup_targets (hd : desired.DistinctIds) (ha : actual.DistinctIds) :
    ((operations desired actual).filterMap ReconciliationOperation.target).Nodup := by
  have hup : ∀ {r : DesiredRule} {id}, (updateFor actual r).bind
      ReconciliationOperation.target = some id → id = r.id := by
    intro r id h
    obtain ⟨op, hop, ht⟩ := Option.bind_eq_some_iff.1 h
    rw [(updateFor_eq_some.1 hop).2] at ht
    exact (Option.some.inj ht).symm
  have hre : ∀ {a : ActualRule} {id}, (removalFor desired a).bind
      ReconciliationOperation.target = some id → id = a.id ∧ ∀ r ∈ desired.rules, r.id ≠ a.id := by
    intro a id h
    obtain ⟨op, hop, ht⟩ := Option.bind_eq_some_iff.1 h
    obtain ⟨hu, rfl⟩ := removalFor_eq_some.1 hop
    exact ⟨(Option.some.inj ht).symm, hu⟩
  rw [operations, filterMap_append, filterMap_filterMap, filterMap_filterMap, nodup_append]
  refine ⟨?_, ?_, ?_⟩
  · rw [List.Nodup, pairwise_filterMap]
    refine (List.pairwise_map.1 hd).imp fun hne id hid id' hid' => ?_
    rw [hup hid, hup hid']
    exact hne
  · rw [List.Nodup, pairwise_filterMap]
    refine (List.pairwise_map.1 ha).imp fun hne id hid id' hid' => ?_
    rw [(hre hid).1, (hre hid').1]
    exact hne
  · intro id hid id' hid' heq
    obtain ⟨r, hr, hri⟩ := List.mem_filterMap.1 hid
    obtain ⟨a, -, hai⟩ := List.mem_filterMap.1 hid'
    obtain ⟨hi, hu⟩ := hre hai
    exact hu r hr (by rw [← hup hri, heq, hi])

theorem target_ne_of_same (hd : desired.DistinctIds) {id : UInt32}
    (hs : (lookup ActualRule.id id actual.activeRules).map ActualRule.content =
      (lookup DesiredRule.id id desired.rules).map DesiredRule.content)
    {op : ReconciliationOperation} (hop : op ∈ operations desired actual) :
    op.target ≠ some id := by
  cases hl : lookup DesiredRule.id id desired.rules with
  | none =>
    rw [hl, Option.map_none, Option.map_eq_none_iff, Lib.lookup_eq_none] at hs
    intro ht
    rw [eq_removePolicy_of_target (Lib.lookup_eq_none.1 hl) hop ht] at hop
    obtain ⟨⟨a, ha, hai⟩, -⟩ := removePolicy_mem_operations.1 hop
    exact hs a ha hai
  | some rule =>
    rw [hl, Option.map_some, Option.map_eq_some_iff] at hs
    obtain ⟨ar, har, hc⟩ := hs
    have hid := Lib.key_of_lookup hl
    have hag : Agrees actual rule :=
      ⟨ar, by rw [hid, har], congrArg (·.2.1) hc, congrArg (·.2.2) hc⟩
    rw [← hid]
    exact target_ne_of_agrees hd.oneContent (Lib.mem_of_lookup hl) hag hop

/-- **The diff is correct and touches nothing needlessly.** For distinct ids the plan turns the
accounted rules into the desired ones, leaves agreeing ids alone, and uses no id twice. -/
theorem build_patches (gen : UInt64) (hd : desired.DistinctIds) (ha : actual.DistinctIds) :
    ((run applyTo (build desired actual gen).operations
        actual.activeRules).map ActualRule.content).Perm (desired.rules.map DesiredRule.content) ∧
    (∀ id, (lookup ActualRule.id id actual.activeRules).map ActualRule.content =
        (lookup DesiredRule.id id desired.rules).map DesiredRule.content →
      ∀ op ∈ (build desired actual gen).operations, op.target ≠ some id) ∧
    ((build desired actual gen).operations.filterMap ReconciliationOperation.target).Nodup := by
  have hp := perm_run_operations hd ha
  by_cases hn : operations desired actual = []
  · -- a plan with nothing to do is a `NoOp`, which is about no id
    rw [operations_build_nil hn]
    rw [hn] at hp
    refine ⟨hp, fun id _ op hop => ?_, nodup_nil⟩
    rw [List.mem_singleton.1 hop]
    exact nofun
  · rw [operations_build hn]
    exact ⟨hp, fun id hs op hop => target_ne_of_same hd hs hop, nodup_targets hd ha⟩

/-- Rule `1` is missing, rule `2` is in place and rule `3` is stale. -/
theorem build_patches_sample :
    ((run applyTo (build { rules := [⟨1, .block, 100, none⟩, ⟨2, .allow, 50, none⟩] }
        { activeRules := [⟨2, .allow, some 20, none⟩, ⟨3, .block, some 30, none⟩] } 42).operations
        [⟨2, .allow, some 20, none⟩, ⟨3, .block, some 30, none⟩]).map ActualRule.content).Perm
      [(1, .block, none), (2, .allow, none)] :=
  (build_patches 42 (by decide) (by decide)).1

end StateDiff

end BalanSir.Common
