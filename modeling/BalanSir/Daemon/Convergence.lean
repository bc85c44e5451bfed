/-
# Does a successful cycle leave nothing to do?

The plan after a cycle without a failure.
-/

import BalanSir.Daemon.ExecutorClient

namespace BalanSir.Daemon

open Common Control DaemonExecutorAdapter StateDiff
open Lib (lookup run Along)
open DaemonExecutorAdapter (step Succeeds answer)
open StateDiff (operations build)

variable {ε : Type}

def Accounted (x : ExecutorAdapter ε) (op : ReconciliationOperation) (h : Handles ε) : Prop :=
  ∀ rule, op = .updatePolicy rule → answer x op h ≠ some .alreadyApplied

variable {rule : DesiredRule}

theorem agrees_congr {actual actual' : ActualState}
    (h : lookup ActualRule.id rule.id actual.activeRules =
      lookup ActualRule.id rule.id actual'.activeRules) :
    StateDiff.Agrees actual rule ↔ StateDiff.Agrees actual' rule := by
  simp only [StateDiff.Agrees, h]

variable {x : ExecutorAdapter ε} {h : Handles ε}

theorem agrees_step_update (hs : Succeeds x (.updatePolicy rule) h)
    (hn : ¬StateDiff.Agrees h.actual rule) :
    StateDiff.Agrees (step x (.updatePolicy rule) h).actual rule ↔
      answer x (.updatePolicy rule) h ≠ some .alreadyApplied := by
  obtain ⟨a, ha⟩ : ∃ a, answer x (.updatePolicy rule) h = some a := ⟨_, rfl⟩
  have hsu := hs a ha
  cases a with
  | applied time ruleId =>
    rw [actual_step_applied ha, ha]
    exact iff_of_true ⟨_, lookup_recordRule_self rule ruleId h.actual, rfl, rfl⟩ (by simp)
  | alreadyApplied =>
    rw [actual_step_not_applied (by simp [ha])]
    exact iff_of_false hn (by simp [ha])
  | failed _ _ => cases hsu
  | retry _ _ => cases hsu
  | unsupported _ => cases hsu

theorem agrees_run_split (hd : h.desired.DistinctIds) {pre post : List ReconciliationOperation}
    (hsp : operations h.desired h.actual = pre ++ .updatePolicy rule :: post)
    (hs : Along (step x) (Succeeds x) (operations h.desired h.actual) h) :
    StateDiff.Agrees (run (step x) (operations h.desired h.actual) h).actual rule ↔
      answer x (.updatePolicy rule) (run (step x) pre h) ≠ some .alreadyApplied := by
  obtain ⟨hpr, hp⟩ := target_ne_of_split hd hsp
  have hn : ¬StateDiff.Agrees h.actual rule :=
    (StateDiff.updatePolicy_mem_operations.1 (by rw [hsp]; simp)).2
  have hn' : ¬StateDiff.Agrees (run (step x) pre h).actual rule := by
    rwa [agrees_congr (lookup_run_of_ne x hpr h)]
  rw [← agrees_step_update (Lib.along_iff_split.1 hs pre _ post hsp) hn', hsp, Lib.run_append]
  exact agrees_congr (lookup_run_of_ne x hp _)

theorem agrees_run_of_agrees (x : ExecutorAdapter ε) (hd : h.desired.DistinctIds)
    (hr : rule ∈ h.desired.rules) (ha : StateDiff.Agrees h.actual rule) :
    StateDiff.Agrees (run (step x) (operations h.desired h.actual) h).actual rule :=
  (agrees_congr (lookup_run_of_ne x
    (fun _ hop => target_ne_of_agrees hd.oneContent hr ha hop) h)).2 ha

theorem lookup_run_eq_none {id : UInt32} {ops : List ReconciliationOperation}
    (hops : ∀ op ∈ ops, op.target = some id → op = .removePolicy id)
    (hs : Along (step x) (Succeeds x) ops h)
    (hid : lookup ActualRule.id id h.actual.activeRules = none ∨ .removePolicy id ∈ ops) :
    lookup ActualRule.id id (run (step x) ops h).actual.activeRules = none := by
  induction ops generalizing h with
  | nil => exact hid.resolve_right (by simp)
  | cons op ops ih =>
    rw [List.forall_mem_cons] at hops
    refine ih hops.2 hs.2 ?_
    by_cases ht : op.target = some id
    · obtain rfl := hops.1 ht
      have ha : (x.removeRule id h.executor).1.isSuccess := hs.1 _ rfl
      rw [actual_step_remove, if_pos ha]
      exact .inl (Lib.lookup_dropAll_self id _)
    · rw [lookup_step_of_ne x ht]
      refine hid.imp_right fun hm => ?_
      rcases List.mem_cons.1 hm with rfl | hm
      · exact absurd rfl ht
      · exact hm

theorem desired_of_mem_run
    (hs : Along (step x) (Succeeds x) (operations h.desired h.actual) h) {a : ActualRule}
    (ha : a ∈ (run (step x) (operations h.desired h.actual) h).actual.activeRules) :
    ∃ r ∈ h.desired.rules, r.id = a.id := by
  by_contra hn
  have hid : ∀ r ∈ h.desired.rules, r.id ≠ a.id := fun r hr e => hn ⟨r, hr, e⟩
  have := lookup_run_eq_none
    (fun op hop ht => eq_removePolicy_of_target hid hop ht) hs ?_
  · exact Lib.lookup_eq_none.1 this a ha rfl
  · rw [removePolicy_mem_operations, Lib.lookup_eq_none]
    by_cases h' : ∃ b ∈ h.actual.activeRules, b.id = a.id
    · exact .inr ⟨h', hid⟩
    · exact .inl fun b hb e => h' ⟨b, hb, e⟩

theorem isEmpty_run_iff (hd : h.desired.DistinctIds)
    (hs : Along (step x) (Succeeds x) (operations h.desired h.actual) h) {gen : UInt64} :
    (build h.desired
        (run (step x) (operations h.desired h.actual) h).actual gen).isEmpty ↔
      Along (step x) (Accounted x) (operations h.desired h.actual) h := by
  rw [isEmpty_build, Lib.along_iff_split]
  constructor
  · rintro ⟨hag, -⟩ pre op post hsp rule rfl
    have hm : .updatePolicy rule ∈ operations h.desired h.actual := by simp [hsp]
    have hr := (StateDiff.updatePolicy_mem_operations.1 hm).1
    exact (agrees_run_split hd hsp hs).1 (hag rule hr)
  · intro hac
    refine ⟨fun rule hr => ?_, fun a ha => desired_of_mem_run hs ha⟩
    by_cases ha : StateDiff.Agrees h.actual rule
    · exact agrees_run_of_agrees x hd hr ha
    · obtain ⟨pre, post, hsp, -⟩ := operations_split hd hr ha
      exact (agrees_run_split hd hsp hs).2 (hac pre _ post hsp rule rfl)

/-- **Convergence, exactly.** For distinct ids, a cycle whose steps all succeed leaves an empty next
plan precisely when no update is answered `AlreadyApplied`. -/
theorem next_plan_empty_iff (x : ExecutorAdapter ε) (c : Coordinator) (h : Handles ε)
    (hd : h.desired.DistinctIds) (hs : Along (step x) (Succeeds x)
      (StateDiff.build h.desired h.actual c.generation).operations h) :
    (StateDiff.build h.desired (Coordinator.reconcile (ports x) c h).2.2.actual
        (Coordinator.reconcile (ports x) c h).2.1.generation).isEmpty = true ↔
      Along (step x) (Accounted x)
        (StateDiff.build h.desired h.actual c.generation).operations h := by
  have hc := reconcile_cycle x c h
  generalize Coordinator.reconcile (ports x) c h = out at hc ⊢
  cases hc with
  | nothing empty _ =>
    rw [operations_build_nil empty]
    exact iff_of_true (StateDiff.isEmpty_build_iff_nil.2 empty) ⟨(fun _ h => nomatch h), trivial⟩
  | committed nonempty succeeds _ =>
    rw [operations_build nonempty]
    exact isEmpty_run_iff hd succeeds
  | rolledBack nonempty fails _ =>
    rw [operations_build nonempty] at hs
    exact absurd hs fails

def blockEverything : DesiredRule := { id := 1, action := .block, priority := 0 }

def freshHandles : Handles Link :=
  { desired := { rules := [blockEverything] }, executor := {} }

def restartedHandles [Postcard] : Handles Link where
  desired := { rules := [blockEverything] }
  actual := { activeRules := [{ id := 1, action := .allow, ruleId := none }] }
  executor := (Link.execute (PolicyCompiler.compile blockEverything) {}).2

theorem fresh_next_plan_empty :
    ∃ _ : Postcard, (StateDiff.build freshHandles.desired
      (Coordinator.reconcile (ports executorClient) {} freshHandles).2.2.actual
      (Coordinator.reconcile (ports executorClient) {} freshHandles).2.1.generation).isEmpty =
        true :=
  ⟨.wire, (@next_plan_empty_iff _ (@executorClient .wire) {} freshHandles (by decide)
    ⟨fun _ h => by cases h; rfl, trivial⟩).2 ⟨(fun _ _ h => nomatch h), trivial⟩⟩

/-- Every step of the cycle succeeds and the next plan still asks for the same update. -/
theorem restarted_next_plan_not_empty :
    ¬∀ _ : Postcard,
      Along (step executorClient) (Succeeds executorClient)
          (StateDiff.build restartedHandles.desired restartedHandles.actual 1).operations
          restartedHandles → (StateDiff.build restartedHandles.desired
          (Coordinator.reconcile (ports executorClient) {} restartedHandles).2.2.actual
          (Coordinator.reconcile (ports executorClient) {}
            restartedHandles).2.1.generation).isEmpty = true := by
  intro h
  exact absurd (h .wire ⟨fun _ h => by cases h; rfl, trivial⟩) (by decide +kernel)

end BalanSir.Daemon
