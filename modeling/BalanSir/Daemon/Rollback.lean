/-
# What a rollback restores

The compensations of a failed plan, run backwards over the executor's table.
-/

import BalanSir.Daemon.RuleTable

namespace BalanSir.Daemon

open Common Control DaemonExecutorAdapter
open Lib (lookup run Along)
open DaemonExecutorAdapter (step answer)
open DaemonRollback (rollback toRevert)

structure Trail (τ : Type) where
  accounted : Bool := false
  left : Option (Option τ) := none

section

variable {ε τ : Type} {x : ExecutorAdapter ε} (tbl : RuleTable x τ)

def Trail.next (id : UInt32) (op : ReconciliationOperation) (h : Handles ε) (t : Trail τ) :
    Trail τ :=
  if op.target = some id then
    match op, answer x op h with
    | .updatePolicy rule, some (.applied _ _) =>
      { accounted := true, left := some (tbl.entry (PolicyCompiler.compile rule)) }
    | .updatePolicy _, some .alreadyApplied => t
    | .removePolicy _, some (.applied _ _) | .removePolicy _, some .alreadyApplied =>
      { accounted := false, left := some none }
    | _, _ => { t with left := some (tbl.table (step x op h).executor id) }
  else t

def trail (id : UInt32) : List ReconciliationOperation → Handles ε → Trail τ → Trail τ
  | [], _, t => t
  | op :: ops, h, t => trail id ops (step x op h) (t.next tbl id op h)

def Trail.Restorable (snapshot : ActualState) (id : UInt32) (before : Option τ) (t : Trail τ) :
    Prop :=
  if t.accounted = true ∧ id ∉ snapshot.activeRules.map (·.id) then before = none
  else ∀ entry, t.left = some entry → entry = before

def RollbackSucceeds (x : ExecutorAdapter ε) (snapshot : ActualState) (h : Handles ε) : Prop :=
  Along (fun id e => (x.removeRule id e).2) (fun id e => (x.removeRule id e).1.isSuccess = true)
    (DaemonRollback.toRevert snapshot h.actual) h.executor

theorem table_run_removeRule {ids : List UInt32} {e : ε} (he : tbl.inv e)
    (hs : Along (fun id e => (x.removeRule id e).2)
      (fun id e => (x.removeRule id e).1.isSuccess) ids e) (id : UInt32) :
    tbl.table (run (fun id e => (x.removeRule id e).2) ids e) id =
      if id ∈ ids then none else tbl.table e id := by
  induction ids generalizing e with
  | nil => rfl
  | cons i ids ih =>
    rw [run, ih (tbl.inv_removeRule he) hs.2]
    by_cases hid : id ∈ ids
    · rw [if_pos hid, if_pos (List.mem_cons_of_mem i hid)]
    rw [if_neg hid]
    by_cases hi : i = id
    · subst hi
      rw [if_pos List.mem_cons_self]
      exact tbl.removeRule_success he hs.1
    · rw [if_neg (by simp [hid, Ne.symm hi])]
      exact tbl.removeRule_other he hi

variable {h : Handles ε}

theorem inv_step (op : ReconciliationOperation) (he : tbl.inv h.executor) :
    tbl.inv (step x op h).executor := by
  cases op with
  | updatePolicy rule =>
    rw [executor_step_update]
    exact tbl.inv_execute he
  | removePolicy id =>
    rw [executor_step_remove]
    exact tbl.inv_removeRule he
  | _ => exact he

variable {id : UInt32}

theorem table_step_of_ne {op : ReconciliationOperation} (he : tbl.inv h.executor)
    (hid : op.target ≠ some id) :
    tbl.table (step x op h).executor id = tbl.table h.executor id := by
  cases op with
  | updatePolicy rule =>
    rw [executor_step_update]
    exact tbl.execute_other he fun e => hid (congrArg some e)
  | removePolicy i =>
    rw [executor_step_remove]
    exact tbl.removeRule_other he fun e => hid (congrArg some e)
  | _ => rfl

/-- What the trail of an id says about the state it leads to. -/
structure Trail.Follows (snapshot : ActualState) (id : UInt32) (before : Option τ) (t : Trail τ)
    (h : Handles ε) : Prop where
  inv : tbl.inv h.executor
  table : tbl.table h.executor id = t.left.getD before
  live : if t.accounted then (lookup ActualRule.id id h.actual.activeRules).isSome
    else (lookup ActualRule.id id h.actual.activeRules).isSome →
      (lookup ActualRule.id id snapshot.activeRules).isSome

variable {tbl} {before : Option τ} {snapshot : ActualState} {t : Trail τ}

theorem Trail.Follows.update {rule : DesiredRule} (hf : t.Follows tbl snapshot rule.id before h) :
    (t.next tbl rule.id (.updatePolicy rule) h).Follows tbl snapshot rule.id before
      (step x (.updatePolicy rule) h) := by
  have hi := inv_step tbl (.updatePolicy rule) hf.inv
  have he := executor_step_update x rule h
  obtain ⟨a, ha⟩ : ∃ a, answer x (.updatePolicy rule) h = some a := ⟨_, rfl⟩
  have han := Option.some.inj ha
  have hn : ReconciliationOperation.target (.updatePolicy rule) = some rule.id := rfl
  cases a with
  | applied time ruleId =>
    unfold Trail.next
    rw [if_pos hn, ha]
    refine ⟨hi, ?_, ?_⟩
    · rw [he]
      exact tbl.execute_applied hf.inv han
    · rw [actual_step_applied ha, lookup_recordRule_self]
      rfl
  | alreadyApplied =>
    unfold Trail.next
    rw [if_pos hn, ha]
    refine ⟨hi, ?_, ?_⟩
    · rw [he, ← hf.table]
      exact tbl.execute_already hf.inv han
    · rw [actual_step_not_applied (by simp [ha])]
      exact hf.live
  | _ =>
    unfold Trail.next
    rw [if_pos hn, ha]
    refine ⟨hi, rfl, ?_⟩
    rw [actual_step_not_applied (by simp [ha])]
    exact hf.live

theorem Trail.Follows.remove (hf : t.Follows tbl snapshot id before h) :
    (t.next tbl id (.removePolicy id) h).Follows tbl snapshot id before
      (step x (.removePolicy id) h) := by
  have hi := inv_step tbl (.removePolicy id) hf.inv
  have he := executor_step_remove x id h
  obtain ⟨a, ha⟩ : ∃ a, answer x (.removePolicy id) h = some a := ⟨_, rfl⟩
  have han := Option.some.inj ha
  have hn : ReconciliationOperation.target (.removePolicy id) = some id := rfl
  have hac := actual_step_remove x id h
  rw [han] at hac
  have hg : a.isSuccess = true →
      (Trail.mk false (some none)).Follows tbl snapshot id before
        (step x (.removePolicy id) h) := by
    intro hs
    refine ⟨hi, ?_, ?_⟩
    · rw [he]
      exact tbl.removeRule_success hf.inv (han ▸ hs)
    · rw [hac, if_pos hs]
      simp [eraseRule, Lib.lookup_dropAll_self]
  have hk : a.isSuccess = false → Trail.Follows tbl snapshot id before
      { t with left := some (tbl.table (step x (.removePolicy id) h).executor id) }
      (step x (.removePolicy id) h) := by
    intro hs
    refine ⟨hi, rfl, ?_⟩
    rw [hac, hs]
    exact hf.live
  unfold Trail.next
  rw [if_pos hn, ha]
  cases a with
  | applied _ _ => exact hg rfl
  | alreadyApplied => exact hg rfl
  | _ => exact hk rfl

theorem Trail.Follows.step (hf : t.Follows tbl snapshot id before h)
    (op : ReconciliationOperation) :
    (t.next tbl id op h).Follows tbl snapshot id before (step x op h) := by
  by_cases hid : op.target = some id
  · cases op with
    | updatePolicy rule =>
      obtain rfl : rule.id = id := Option.some.inj hid
      exact hf.update
    | removePolicy i =>
      obtain rfl : i = id := Option.some.inj hid
      exact hf.remove
    | _ => cases hid
  · unfold Trail.next
    rw [if_neg hid]
    refine ⟨inv_step tbl op hf.inv, ?_, ?_⟩
    · rw [table_step_of_ne tbl hf.inv hid, hf.table]
    · rw [lookup_step_of_ne x hid]
      exact hf.live

theorem Trail.Follows.run (ops : List ReconciliationOperation)
    (hf : t.Follows tbl snapshot id before h) :
    (trail tbl id ops h t).Follows tbl snapshot id before
      (Lib.run (DaemonExecutorAdapter.step x) ops h) := by
  induction ops generalizing t h with
  | nil => exact hf
  | cons op ops ih => exact ih (hf.step op)

theorem mem_ids {l : List ActualRule} :
    id ∈ l.map (·.id) ↔ (lookup ActualRule.id id l).isSome := by
  rw [Lib.lookup_isSome_iff, List.mem_map]

theorem Trail.Follows.table_rollback {snapshot : Snapshot}
    (hf : t.Follows tbl snapshot.actual id before h) (hs : RollbackSucceeds x snapshot.actual h) :
    tbl.table (rollback x snapshot h).2.executor id = before ↔
      t.Restorable snapshot.actual id before := by
  have hta := table_run_removeRule tbl hf.inv hs id
  have hm : id ∈ toRevert snapshot.actual h.actual ↔
      t.accounted = true ∧ id ∉ snapshot.actual.activeRules.map (·.id) := by
    have hl := hf.live
    rw [toRevert, List.mem_filter, decide_eq_true_eq, mem_ids]
    cases ht : t.accounted with
    | true => simp only [ht, if_true] at hl; simp [hl]
    | false =>
      simp only [ht] at hl
      simp only [mem_ids, Bool.false_eq_true, false_and, iff_false]
      exact fun h => h.2 (hl h.1)
  rw [rollback, hta, Trail.Restorable, hf.table]
  by_cases hr : id ∈ toRevert snapshot.actual h.actual
  · rw [if_pos hr, if_pos (hm.1 hr), eq_comm]
  · rw [if_neg hr, if_neg (fun h => hr (hm.2 h))]
    cases t.left with
    | none => simp
    | some entry => simp

/-- **What a rollback restores, exactly.** The executor's table is what it was precisely when the
trail of every id is restorable. -/
theorem rollback_restores_iff (tbl : RuleTable x τ) (c : Coordinator) (h : Handles ε)
    (he : tbl.inv h.executor) (hfail : (Coordinator.reconcile (ports x) c h).1 ≠ .ok ())
    (hroll : RollbackSucceeds x h.actual
      (Lib.run (step x) (StateDiff.operations h.desired h.actual) h)) :
    (∀ id, tbl.table (Coordinator.reconcile (ports x) c h).2.2.executor id =
        tbl.table h.executor id) ↔
      ∀ id, (trail tbl id (StateDiff.operations h.desired h.actual) h {}).Restorable
        h.actual id (tbl.table h.executor id) := by
  have hc := reconcile_cycle x c h
  generalize Coordinator.reconcile (ports x) c h = out at hfail hc ⊢
  cases hc with
  | nothing _ _ => exact absurd rfl hfail
  | committed _ _ _ => exact absurd rfl hfail
  | rolledBack _ _ _ =>
    refine forall_congr' fun id => ?_
    have hs : (Trail.mk (τ := τ) false none).Follows tbl h.actual id
        (tbl.table h.executor id) h := ⟨he, rfl, fun h => h⟩
    exact (hs.run (StateDiff.operations h.desired h.actual)).table_rollback hroll

end

def swapHandles [Postcard] : Handles Link where
  desired := { rules := [{ id := 2, action := .route 100, priority := 0 }] }
  actual := { activeRules := [{ id := 1, action := .block, ruleId := some 1 }] }
  executor :=
    (Link.execute (PolicyCompiler.compile { id := 1, action := .block, priority := 0 }) {}).2

theorem swap_rollback_restores_iff :
    ∃ _ : Postcard, (Coordinator.reconcile (ports executorClient) {} swapHandles).1 ≠ .ok () ∧
      ((∀ id, linkTable.table
          (Coordinator.reconcile (ports executorClient) {} swapHandles).2.2.executor id =
          linkTable.table swapHandles.executor id) ↔
        ∀ id, (trail linkTable id
          (StateDiff.operations swapHandles.desired swapHandles.actual) swapHandles {}).Restorable
            swapHandles.actual id (linkTable.table swapHandles.executor id)) := by
  have ht : (@linkTable .wire).inv (@swapHandles .wire).executor :=
    (@linkTable .wire).inv_execute (e := {})
      (q := PolicyCompiler.compile { id := 1, action := .block, priority := 0 })
      fun id => ⟨Nat.zero_le 1, fun h => absurd rfl h⟩
  exact ⟨.wire, by decide +kernel, @rollback_restores_iff _ _ _ (@linkTable .wire) {}
    (@swapHandles .wire) ht (by decide +kernel) trivial⟩

/-- The update fails, rule `1` is removed, and the rollback does not bring it back. -/
theorem swap_rollback_loses_rule :
    ¬∀ _ : Postcard, (Coordinator.reconcile (ports executorClient) {} swapHandles).1 ≠ .ok () →
      RollbackSucceeds executorClient swapHandles.actual (run (step executorClient)
          (StateDiff.operations swapHandles.desired swapHandles.actual) swapHandles) →
      ∀ id, linkTable.table
          (Coordinator.reconcile (ports executorClient) {} swapHandles).2.2.executor id =
        linkTable.table swapHandles.executor id := by
  intro h
  have hl := h .wire (by decide +kernel) trivial 1
  exact absurd hl (by decide +kernel)

end BalanSir.Daemon
