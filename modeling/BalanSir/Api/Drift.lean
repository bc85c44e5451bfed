/-
# Drift as the API reports it

`get_drift` and `get_state` of the API, against the reconciler's plan.
-/

import BalanSir.Common.Diff
import BalanSir.Lib.Text

namespace BalanSir.Api

open Lib Common Option List

def debugDriver : DriverId → Text
  | .wireGuard => "WireGuard".toList
  | .amneziaWG => "AmneziaWG".toList
  | .xray => "Xray".toList
  | .hysteria => "Hysteria".toList
  | .b4 => "B4".toList
  | .dnsForwarder => "DnsForwarder".toList
  | .custom id => "Custom(".toList ++ Nat.toDigits 10 id.toNat ++ ")".toList

def debugVariant (name field : String) (value : Text) : Text :=
  name.toList ++ " \x7b ".toList ++ field.toList ++ ": ".toList ++ value ++ " \x7d".toList

/-- The derived `Debug` of an action. -/
def debugAction : Action → Text
  | .route table => debugVariant "Route" "table" (Nat.toDigits 10 table.toNat)
  | .mark fwmark => debugVariant "Mark" "fwmark" (Nat.toDigits 10 fwmark.toNat)
  | .forward driver => debugVariant "Forward" "driver" (debugDriver driver)
  | .block => "Block".toList
  | .reject => "Reject".toList
  | .allow => "Allow".toList
  | .shape class' => debugVariant "Shape" "class" (Nat.toDigits 10 class'.toNat)
  | .log => "Log".toList
  | .queue num => debugVariant "Queue" "num" (Nat.toDigits 10 num.toNat)

inductive DriftKind where
  | updated
  | missing
  | extra
  deriving DecidableEq

structure DriftItem where
  ruleId : UInt32
  kind : DriftKind
  details : Text
  deriving DecidableEq

/-- A desired rule is compared by its action only. -/
def driftFor (actual : ActualState) (rule : DesiredRule) : Option DriftItem :=
  match lookup ActualRule.id rule.id actual.activeRules with
  | some ar =>
    if ar.action = rule.action then none
    else some ⟨rule.id, .updated, "desired ".toList ++ debugAction rule.action ++
      ", actual ".toList ++ debugAction ar.action⟩
  | none => some ⟨rule.id, .missing,
      "rule ".toList ++ Nat.toDigits 10 rule.id.toNat ++ " not present".toList⟩

/-- A rule that is in place and not desired. -/
def extraFor (desired : DesiredState) (ar : ActualRule) : Option DriftItem :=
  if desired.rules.any (·.id = ar.id) then none
  else some ⟨ar.id, .extra,
    "rule ".toList ++ Nat.toDigits 10 ar.id.toNat ++ " not in desired state".toList⟩

def driftItems (desired : DesiredState) (actual : ActualState) : List DriftItem :=
  desired.rules.filterMap (driftFor actual) ++ actual.activeRules.filterMap (extraFor desired)

/-- The control plane as a handler sees it: absent, or its two states or their errors. -/
abbrev Plane := Option (Except Text DesiredState × Except Text ActualState)

structure DriftResponse where
  status : ℕ
  error : Option Text
  driftCount : ℕ
  items : List DriftItem
  deriving DecidableEq

/-- `get_drift`, with the HTTP status. -/
def getDrift : Plane → DriftResponse
  | none => ⟨503, some "Control plane not available".toList, 0, []⟩
  | some (.error e, _) => ⟨500, some e, 0, []⟩
  | some (.ok _, .error e) => ⟨500, some e, 0, []⟩
  | some (.ok desired, .ok actual) =>
    ⟨200, none, (driftItems desired actual).length, driftItems desired actual⟩

inductive StateResponse where
  | error (e : Text)
  | state (desiredRuleCount actualRuleCount driftCount : ℕ) (generation : UInt64)
  deriving DecidableEq

/-- `get_state` counts the missing rules only. -/
def missingCount (desired : DesiredState) (actual : ActualState) : ℕ :=
  (desired.rules.filter fun r => !(actual.activeRules.map ActualRule.id).contains r.id).length

/-- `get_state`. -/
def getState (generation : UInt64) : Plane → StateResponse
  | none => .error "Control plane not available".toList
  | some (.error e, _) => .error e
  | some (.ok _, .error e) => .error e
  | some (.ok desired, .ok actual) => .state desired.rules.length actual.activeRules.length
      (missingCount desired actual) generation

section Comparisons

variable {desired : DesiredState} {actual : ActualState}

/-- What `get_drift` compares of the rules under one id, -/
def SameActions (desired : DesiredState) (actual : ActualState) : Prop :=
  ∀ rule ∈ desired.rules, ∀ ar, lookup ActualRule.id rule.id actual.activeRules = some ar →
    ar.action = rule.action

/-- and what it does not. -/
def SameFlows (desired : DesiredState) (actual : ActualState) : Prop :=
  ∀ rule ∈ desired.rules, ∀ ar, lookup ActualRule.id rule.id actual.activeRules = some ar →
    ar.flow = rule.flow

def NoneMissing (desired : DesiredState) (actual : ActualState) : Prop :=
  ∀ rule ∈ desired.rules, (lookup ActualRule.id rule.id actual.activeRules).isSome

def NoneExtra (desired : DesiredState) (actual : ActualState) : Prop :=
  ∀ a ∈ actual.activeRules, ∃ r ∈ desired.rules, r.id = a.id

theorem extraFor_eq_none {a : ActualRule} :
    extraFor desired a = none ↔ ∃ r ∈ desired.rules, r.id = a.id := by
  have ha : desired.rules.any (·.id = a.id) = true ↔ ∃ r ∈ desired.rules, r.id = a.id := by simp
  rw [← ha, extraFor]
  by_cases hd : desired.rules.any (·.id = a.id)
  · exact iff_of_true (if_pos hd) hd
  · rw [if_neg hd]
    exact iff_of_false (some_ne_none _) hd

theorem filterMap_extraFor_eq_nil :
    actual.activeRules.filterMap (extraFor desired) = [] ↔ NoneExtra desired actual := by
  simp only [filterMap_eq_nil_iff, extraFor_eq_none, NoneExtra]

theorem driftFor_eq_none {rule : DesiredRule} :
    driftFor actual rule = none ↔ (lookup ActualRule.id rule.id actual.activeRules).isSome ∧
        ∀ ar, lookup ActualRule.id rule.id actual.activeRules = some ar →
          ar.action = rule.action := by
  unfold driftFor
  cases lookup ActualRule.id rule.id actual.activeRules with
  | none => exact iff_of_false (some_ne_none _) fun h => Bool.false_ne_true h.1
  | some ar =>
    by_cases hs : ar.action = rule.action
    · refine iff_of_true (if_pos hs) ⟨rfl, ?_⟩
      rintro _ ⟨⟩
      exact hs
    · dsimp only
      rw [if_neg hs]
      exact iff_of_false (some_ne_none _) fun h => hs (h.2 ar rfl)

theorem driftItems_eq_nil : driftItems desired actual = [] ↔
    NoneMissing desired actual ∧ SameActions desired actual ∧ NoneExtra desired actual := by
  rw [driftItems, append_eq_nil_iff, filterMap_extraFor_eq_nil, filterMap_eq_nil_iff, ← and_assoc]
  refine and_congr_left fun _ => ?_
  simp only [driftFor_eq_none]
  exact ⟨fun h => ⟨fun rule hr => (h rule hr).1, fun rule hr => (h rule hr).2⟩,
    fun h rule hr => ⟨h.1 rule hr, h.2 rule hr⟩⟩

theorem isEmpty_build_iff {generation : UInt64} :
    (StateDiff.build desired actual generation).isEmpty ↔
      driftItems desired actual = [] ∧ SameFlows desired actual := by
  rw [StateDiff.isEmpty_build, driftItems_eq_nil]
  constructor
  · rintro ⟨ha, he⟩
    refine ⟨⟨fun rule hr => ?_, fun rule hr ar har => ?_, he⟩, fun rule hr ar har => ?_⟩
    · obtain ⟨ar, har, -⟩ := ha rule hr
      rw [har]
      rfl
    · obtain ⟨ar', har', hact, -⟩ := ha rule hr
      cases har.symm.trans har'
      exact hact
    · obtain ⟨ar', har', -, hfl⟩ := ha rule hr
      cases har.symm.trans har'
      exact hfl
  · rintro ⟨⟨hm, hac, he⟩, hf⟩
    refine ⟨fun rule hr => ?_, he⟩
    obtain ⟨ar, har⟩ := Option.isSome_iff_exists.1 (hm rule hr)
    exact ⟨ar, har, hac rule hr ar har, hf rule hr ar har⟩

theorem missingCount_eq : missingCount desired actual = (desired.rules.filter fun r =>
      (lookup ActualRule.id r.id actual.activeRules).isNone).length := by
  refine congrArg List.length (filter_congr fun r _ => ?_)
  rw [Bool.eq_iff_iff, isNone_iff_eq_none, lookup_eq_none]
  simp

theorem length_filter_filterMap {α β : Type} {p : α → Bool} {f : α → Option β}
    (hpf : ∀ x, p x → (f x).isSome) (l : List α) :
    (l.filter p).length ≤ (l.filterMap f).length ∧
      ((l.filter p).length = (l.filterMap f).length ↔ ∀ x ∈ l, (f x).isSome → p x) := by
  induction l with
  | nil => simp
  | cons x l ih =>
    obtain ⟨hle, heq⟩ := ih
    rw [forall_mem_cons, ← heq]
    cases hp : p x with
    | true =>
      obtain ⟨y, hy⟩ := Option.isSome_iff_exists.1 (hpf x hp)
      rw [filter_cons_of_pos hp, filterMap_cons_some hy, length_cons, length_cons]
      exact ⟨by omega, by simp⟩
    | false =>
      rw [filter_cons_of_neg (by rw [hp]; exact Bool.false_ne_true)]
      cases hy : f x with
      | none =>
        rw [filterMap_cons_none hy]
        exact ⟨hle, by simp⟩
      | some y =>
        rw [filterMap_cons_some hy, length_cons]
        exact ⟨by omega, iff_of_false (by omega) (by simp)⟩

theorem missingCount_eq_length_iff : missingCount desired actual =
    (driftItems desired actual).length ↔ SameActions desired actual ∧ NoneExtra desired actual := by
  have hi : ∀ rule : DesiredRule, (driftFor actual rule).isSome ↔
      ¬((lookup ActualRule.id rule.id actual.activeRules).isSome ∧
        ∀ ar, lookup ActualRule.id rule.id actual.activeRules = some ar →
          ar.action = rule.action) := fun rule => by
    rw [← driftFor_eq_none, isSome_iff_ne_none]
  obtain ⟨hle, heq⟩ := length_filter_filterMap (f := driftFor actual)
    (p := fun r => (lookup ActualRule.id r.id actual.activeRules).isNone)
    (fun rule hn => (hi rule).2 fun h => by simp_all) desired.rules
  have ha : SameActions desired actual ↔ ∀ rule ∈ desired.rules,
      (driftFor actual rule).isSome →
        (lookup ActualRule.id rule.id actual.activeRules).isNone = true := by
    refine forall₂_congr fun rule _ => ?_
    rw [hi]
    cases lookup ActualRule.id rule.id actual.activeRules with
    | none => simp
    | some ar => simp
  rw [missingCount_eq, driftItems, length_append, ← filterMap_extraFor_eq_nil,
    ← length_eq_zero_iff, ha, ← heq]
  omega

end Comparisons

/-- **When the reports agree** with the plan and each other: exactly when rules under one id have
the same action, none is extra and, if none is missing, the flows are the same. -/
theorem drift_reports_iff (desired : DesiredState) (actual : ActualState) (generation : UInt64) :
    (((getDrift (some (.ok desired, .ok actual))).items = [] ↔
        (StateDiff.build desired actual generation).isEmpty = true) ∧
      getState generation (some (.ok desired, .ok actual)) =
        .state desired.rules.length actual.activeRules.length
          (getDrift (some (.ok desired, .ok actual))).items.length generation) ↔
    SameActions desired actual ∧ NoneExtra desired actual ∧
      (NoneMissing desired actual → SameFlows desired actual) := by
  have hs : getState generation (some (.ok desired, .ok actual)) =
      .state desired.rules.length actual.activeRules.length
        (getDrift (some (.ok desired, .ok actual))).items.length generation ↔
      SameActions desired actual ∧ NoneExtra desired actual := by
    rw [← missingCount_eq_length_iff, getState, StateResponse.state.injEq]
    exact ⟨fun h => h.2.2.1, fun h => ⟨rfl, rfl, h, rfl⟩⟩
  rw [hs, isEmpty_build_iff, show (getDrift (some (.ok desired, .ok actual))).items =
    driftItems desired actual from rfl, driftItems_eq_nil]
  tauto

/-- A rule in place with another flow: no drift is reported, and the plan is to update it. -/
theorem drift_overlooks_flow :
    (getDrift (some (.ok { rules := [⟨1, .block, 0, some { dstPort := some 443 }⟩] },
      .ok { activeRules := [⟨1, .block, none, some { dstPort := some 80 }⟩] }))).items = [] ∧
    (StateDiff.build { rules := [⟨1, .block, 0, some { dstPort := some 443 }⟩] }
      { activeRules := [⟨1, .block, none, some { dstPort := some 80 }⟩] } 0).isEmpty = false ∧
    -- a rule that is not desired: one item, and no drift in the combined state
    (getDrift (some (.ok {}, .ok { activeRules := [⟨1, .block, none, none⟩] }))).items.length = 1 ∧
    getState 0 (some (.ok {}, .ok { activeRules := [⟨1, .block, none, none⟩] })) =
      .state 0 1 0 0 := by
  decide +kernel

end BalanSir.Api
