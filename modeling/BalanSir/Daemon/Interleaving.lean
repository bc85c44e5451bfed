/-
# A reload among other calls

`Reconciler::reload` step by step, with the steps of other tasks in between.
-/

import BalanSir.Daemon.Reload
import BalanSir.Daemon.Tasks

namespace BalanSir.Daemon

open Common Control
open Net (IpAddr)
open Lib (run Along)

variable {ε : Type}

def ReloadPc.swapped : ReloadPc → Bool
  | .cycle _ _ _ _ | .storeRaw _ _ | .storeFingerprint _ | .returned (.ok ()) => true
  | _ => false

def ReloadPc.succeeded : ReloadPc → Bool
  | .returned (.ok ()) => true
  | _ => false

/-- No resync writes what it compiled before the reload. -/
def Timely (compiled : DesiredState) (turn : Turn) (w : World ε) : Prop :=
  match w.tasks.head?, w.tasks[turn.task]? with
  | some (.reload pc), some (.dnsResync (.swap recompiled)) =>
    pc.swapped = true → recompiled = compiled
  | some (.reload pc), some (.dnsResync (.storeFingerprint recompiled)) =>
    pc.succeeded = true → recompiled = compiled
  | _, _ => True

instance (compiled : DesiredState) (turn : Turn) (w : World ε) :
    Decidable (Timely compiled turn w) := by
  unfold Timely
  split <;> infer_instance

def ReloadPc.Holds [Postcard] (candidate compiled : DesiredState)
    (cells : Option DesiredState × DesiredState × Option UInt64) : ReloadPc → Prop
  | .compile c => c = candidate
  | .swap c d => c = candidate ∧ d = compiled
  | .cycle c d _ _ => c = candidate ∧ d = compiled ∧ cells.2.1 = compiled
  | .storeRaw c d => c = candidate ∧ d = compiled ∧ cells.2.1 = compiled
  | .storeFingerprint d => d = compiled ∧ cells.2.1 = compiled ∧ cells.1 = some candidate
  | .restore _ _ => True
  | .returned (.ok ()) => cells = (some candidate, compiled, some (configFingerprint compiled))
  | .returned (.error _) => True

theorem executeStep_sameCells (x : ExecutorAdapter ε) (plan : ReconciliationPlan)
    (snapshot : Snapshot) (op : ReconciliationOperation) (todo : List ReconciliationOperation)
    (outcomes : List DaemonExecutorAdapter.StepOutcome) (s : Shared ε) :
    s.reconciler.SameCells (executeStep x plan snapshot op todo outcomes s).2.reconciler := by
  cases op with
  | updatePolicy rule =>
    rcases hx : x.execute (PolicyCompiler.compile rule) s.handles.executor with
      ⟨answer, executor⟩
    cases answer <;> simp only [executeStep, hx] <;> exact ⟨rfl, rfl, rfl, rfl⟩
  | removePolicy id =>
    rcases hx : x.removeRule id s.handles.executor with ⟨answer, executor⟩
    cases answer <;> simp only [executeStep, hx] <;> exact ⟨rfl, rfl, rfl, rfl⟩
  | _ => exact ⟨rfl, rfl, rfl, rfl⟩

theorem cycleStep_sameCells (x : ExecutorAdapter ε) (pc : CyclePc) (s : Shared ε) :
    s.reconciler.SameCells (cycleStep x pc s).2.reconciler := by
  cases pc with
  | start =>
    rw [cycleStep]
    split <;> exact ⟨rfl, rfl, rfl, rfl⟩
  | readActual desired =>
    simp only [cycleStep]
    split <;> exact ⟨rfl, rfl, rfl, rfl⟩
  | execute plan snapshot todo outcomes =>
    cases todo with
    | nil =>
      simp only [cycleStep]
      split <;> exact ⟨rfl, rfl, rfl, rfl⟩
    | cons op todo => exact executeStep_sameCells x plan snapshot op todo outcomes s
  | revert snapshot err ids => cases ids <;> exact ⟨rfl, rfl, rfl, rfl⟩
  | _ => exact ⟨rfl, rfl, rfl, rfl⟩

section

variable [Postcard] {x : ExecutorAdapter ε} {c : FlowCompiler}
  {resolve : String → Option (List IpAddr)} {s : Shared ε} {now : ℕ}

theorem dnsResyncStep_cells (hs : Steady c resolve s.reconciler)
    (hn : c.registry.view now = resolve) (pc : DnsResyncPc) :
    Steady c resolve (dnsResyncStep x now pc s).2.reconciler ∧
      ((dnsResyncStep x now pc s).2.reconciler.cells = s.reconciler.cells ∨
        ∃ d, (pc = .swap d ∧ (dnsResyncStep x now pc s).2.reconciler.cells =
            (s.reconciler.cells.1, d, s.reconciler.cells.2.2)) ∨
          (pc = .storeFingerprint d ∧ (dnsResyncStep x now pc s).2.reconciler.cells =
            (s.reconciler.cells.1, s.reconciler.cells.2.1, some (configFingerprint d)))) := by
  cases pc with
  | getCompiler =>
    rw [dnsResyncStep]
    split <;> exact ⟨hs, .inl rfl⟩
  | readRaw =>
    rw [dnsResyncStep]
    cases s.reconciler.desiredRaw with
    | none => exact ⟨hs, .inl rfl⟩
    | some raw =>
      obtain ⟨compiler, hc, hr⟩ := s.reconciler.compile_spec now raw
      simp only [hc]
      exact ⟨hs.of_readAt hn hr, .inl rfl⟩
  | swap d =>
    rw [dnsResyncStep]
    split
    · exact ⟨hs, .inl rfl⟩
    · exact ⟨hs.of_eq rfl, .inr ⟨d, .inl ⟨rfl, rfl⟩⟩⟩
  | storeFingerprint d => exact ⟨hs.of_eq rfl, .inr ⟨d, .inr ⟨rfl, rfl⟩⟩⟩
  | cycle pc =>
    rw [dnsResyncStep_cycle]
    have h := cycleStep_sameCells x pc s
    rcases hst : cycleStep x pc s with ⟨pc', s'⟩
    rw [hst] at h
    cases pc' <;> exact ⟨hs.of_eq h.flowCompiler, .inl h.cells_eq⟩
  | returned changed => exact ⟨hs, .inl rfl⟩

theorem reloadStep_holds {candidate : DesiredState} (hs : Steady c resolve s.reconciler)
    (hn : c.registry.view now = resolve) {pc : ReloadPc}
    (h : pc.Holds candidate (compileWith resolve candidate) s.reconciler.cells) :
    Steady c resolve (reloadStep x now pc s).2.reconciler ∧
      (reloadStep x now pc s).1.Holds candidate (compileWith resolve candidate)
        (reloadStep x now pc s).2.reconciler.cells := by
  cases pc with
  | compile cand =>
    obtain rfl : cand = candidate := h
    obtain ⟨compiler, hco, hr⟩ := s.reconciler.compile_spec now cand
    simp only [reloadStep, hco]
    exact ⟨hs.of_readAt hn hr, rfl, hs.compiledBy_eq hn cand⟩
  | swap cand d => exact ⟨hs.of_eq rfl, h.1, h.2, h.2⟩
  | cycle cand d prev pc =>
    obtain ⟨rfl, hd, hc⟩ := h
    have hsa := cycleStep_sameCells x pc s
    rw [reloadStep_cycle]
    rcases hst : cycleStep x pc s with ⟨pc', s'⟩
    rw [hst] at hsa
    have hc' : s'.reconciler.cells.2.1 = compileWith resolve cand := by
      rw [hsa.cells_eq]
      exact hc
    cases pc' with
    | finished result =>
      cases result with
      | ok _ => exact ⟨hs.of_eq hsa.flowCompiler, rfl, hd, hc'⟩
      | error e => exact ⟨hs.of_eq hsa.flowCompiler, trivial⟩
    | _ => exact ⟨hs.of_eq hsa.flowCompiler, rfl, hd, hc'⟩
  | storeRaw cand d =>
    obtain ⟨rfl, hd, hc⟩ := h
    exact ⟨hs.of_eq rfl, hd, hc, rfl⟩
  | storeFingerprint d =>
    obtain ⟨rfl, hc, hra⟩ := h
    exact ⟨hs.of_eq rfl, Prod.ext hra (Prod.ext hc rfl)⟩
  | restore prev e => exact ⟨hs.of_eq rfl, trivial⟩
  | returned result => exact ⟨hs, h⟩

end

section

variable [Postcard] {candidate compiled d : DesiredState}
  {cells : Option DesiredState × DesiredState × Option UInt64} {pc : ReloadPc}

theorem ReloadPc.Holds.write_desired (h : pc.Holds candidate compiled cells)
    (hd : pc.swapped → d = compiled) :
    pc.Holds candidate compiled (cells.1, d, cells.2.2) := by
  cases pc with
  | compile _ => exact h
  | swap _ _ => exact h
  | cycle _ _ _ _ => exact ⟨h.1, h.2.1, hd rfl⟩
  | storeRaw _ _ => exact ⟨h.1, h.2.1, hd rfl⟩
  | storeFingerprint _ => exact ⟨h.1, hd rfl, h.2.2⟩
  | restore _ _ => exact trivial
  | returned result =>
    cases result with
    | ok _ =>
      obtain rfl : cells = _ := h
      rw [hd rfl]
      exact rfl
    | error _ => exact trivial

theorem ReloadPc.Holds.write_fingerprint (h : pc.Holds candidate compiled cells)
    (hd : pc.succeeded → d = compiled) :
    pc.Holds candidate compiled (cells.1, cells.2.1, some (configFingerprint d)) := by
  cases pc with
  | returned result =>
    cases result with
    | ok _ =>
      obtain rfl : cells = _ := h
      rw [hd rfl]
      exact rfl
    | error _ => exact trivial
  | _ => exact h

end

section

variable [Postcard] (x : ExecutorAdapter ε) {c : FlowCompiler}
  {resolve : String → Option (List IpAddr)} {candidate : DesiredState}

def Settling (c : FlowCompiler) (resolve : String → Option (List IpAddr))
    (candidate : DesiredState) (w : World ε) : Prop :=
  ∃ pc others, w.tasks = .reload pc :: others ∧ (∀ task ∈ others, ∀ p, task ≠ .reload p) ∧
    Steady c resolve w.shared.reconciler ∧
    pc.Holds candidate (compileWith resolve candidate) w.shared.reconciler.cells

theorem step_other {task : Task} (ht : ∀ p, task ≠ .reload p) {pc : ReloadPc} {s : Shared ε}
    {now : ℕ} (hs : Steady c resolve s.reconciler) (hn : c.registry.view now = resolve)
    (hsw : ∀ d, task = .dnsResync (.swap d) → pc.swapped →
      d = compileWith resolve candidate)
    (hst : ∀ d, task = .dnsResync (.storeFingerprint d) → pc.succeeded →
      d = compileWith resolve candidate)
    (h : pc.Holds candidate (compileWith resolve candidate) s.reconciler.cells) :
    (∀ p, (task.step x now s).1 ≠ .reload p) ∧
      Steady c resolve (task.step x now s).2.reconciler ∧
      pc.Holds candidate (compileWith resolve candidate)
        (task.step x now s).2.reconciler.cells := by
  cases task with
  | reload p => exact absurd rfl (ht p)
  | reconcile cpc =>
    have hsa := cycleStep_sameCells x cpc s
    refine ⟨(fun _ h => nomatch h), hs.of_eq hsa.flowCompiler, ?_⟩
    show pc.Holds _ _ (cycleStep x cpc s).2.reconciler.cells
    rw [hsa.cells_eq]
    exact h
  | dnsResync dpc =>
    obtain ⟨hs', hce⟩ := dnsResyncStep_cells hs hn dpc
    refine ⟨(fun _ h => nomatch h), hs', ?_⟩
    show pc.Holds _ _ (dnsResyncStep x now dpc s).2.reconciler.cells
    rcases hce with hc | ⟨d, ⟨rfl, hc⟩ | ⟨rfl, hc⟩⟩
    · rw [hc]
      exact h
    · rw [hc]
      exact h.write_desired (hsw d rfl)
    · exact h.write_fingerprint (hst d rfl)

theorem Settling.step {w : World ε} {turn : Turn} (h : Settling c resolve candidate w)
    (hn : c.registry.view turn.now = resolve) (ht : Timely (compileWith resolve candidate) turn w) :
    Settling c resolve candidate (w.step x turn) := by
  obtain ⟨pc, others, hta, ho, hs, hh⟩ := h
  obtain ⟨i, now⟩ := turn
  cases i with
  | zero =>
    obtain ⟨hs', hh'⟩ := reloadStep_holds hs hn hh
    refine ⟨(reloadStep x now pc w.shared).1, others, ?_, ho, ?_⟩
    · simp [World.step, hta, Task.step]
    · simpa [World.step, hta] using ⟨hs', hh'⟩
  | succ j =>
    cases hj : others[j]? with
    | none =>
      have hst : w.step x ⟨j + 1, now⟩ = w := by simp [World.step, hta, hj]
      rw [hst]
      exact ⟨pc, others, hta, ho, hs, hh⟩
    | some task =>
      have hme : task ∈ others := List.mem_of_getElem? hj
      have ht' : Timely (compileWith resolve candidate) ⟨j + 1, now⟩ w := ht
      simp only [Timely, hta, List.getElem?_cons_succ, hj] at ht'
      obtain ⟨hot, hs', hh'⟩ := step_other x (ho task hme) hs hn
        (fun d hd => by rw [hd] at ht'; exact ht') (fun d hd => by rw [hd] at ht'; exact ht')
        hh
      refine ⟨pc, others.set j (task.step x now w.shared).1, ?_, ?_, ?_⟩
      · simp [World.step, hta, hj]
      · intro t htm
        rcases List.mem_or_eq_of_mem_set htm with hm | rfl
        · exact ho t hm
        · exact hot
      · simpa [World.step, hta, hj] using ⟨hs', hh'⟩

/-- **A reload among other calls.** If every turn is timely and the reload has returned `Ok`, the
cells hold the candidate, its compilation and its fingerprint. -/
theorem reload_settles (r : Reconciler ε) (hc : r.flowCompiler = some c) (busy : Bool)
    (others : List Task) (hothers : ∀ task ∈ others, ∀ p, task ≠ .reload p)
    (turns : List Turn) (htimes : ∀ turn ∈ turns, c.registry.view turn.now = resolve)
    (htimely : Along (World.step x) (Timely (compileWith resolve candidate)) turns
      ⟨⟨r, busy⟩, .reload (.compile candidate) :: others⟩) (hok : (run (World.step x) turns
      ⟨⟨r, busy⟩, .reload (.compile candidate) :: others⟩).tasks.head? =
        some (.reload (.returned (.ok ())))) :
    (run (World.step x) turns
        ⟨⟨r, busy⟩, .reload (.compile candidate) :: others⟩).shared.reconciler.cells =
      (some candidate, compileWith resolve candidate,
        some (configFingerprint (compileWith resolve candidate))) := by
  have hi : Settling c resolve candidate (run (World.step x) turns
      ⟨⟨r, busy⟩, .reload (.compile candidate) :: others⟩) :=
    Lib.Along.invariant (fun turn w hw ht => hw.step x (htimes turn ht.1) ht.2)
      ⟨_, _, rfl, hothers, ⟨c, hc, fun _ h => h⟩, rfl⟩ htimely.and_mem
  obtain ⟨pc, others', hta, -, -, hh⟩ := hi
  rw [hta, List.head?_cons, Option.some.injEq, Task.reload.injEq] at hok
  rw [hok] at hh
  exact hh

end

def blockingReconciler [Postcard] : Reconciler Link :=
  Reconciler.setDesired 0 { rules := [blockEverything] }
    { handles := { executor := {} }, flowCompiler := some oneDomain }

def turnsOf (task n : ℕ) : List Turn := List.replicate n ⟨task, 0⟩

def timelyTurns : List Turn := turnsOf 1 3 ++ turnsOf 0 5 ++ turnsOf 2 3 ++ turnsOf 0 2

theorem timely_reload_settles :
    ∃ _ : Postcard, (run (World.step executorClient) timelyTurns ⟨⟨blockingReconciler, false⟩,
        [.reload (.compile {}), .dnsResync .getCompiler,
          .reconcile .start]⟩).shared.reconciler.cells =
      (some {}, compileWith (oneDomain.registry.view 0) {},
        some (configFingerprint (compileWith (oneDomain.registry.view 0) {}))) :=
  ⟨.wire, @reload_settles _ .wire (@executorClient .wire) oneDomain _ _
    (@blockingReconciler .wire) rfl false [.dnsResync .getCompiler, .reconcile .start] (by simp)
    timelyTurns (by simp [timelyTurns, turnsOf]) (by decide +kernel) (by decide +kernel)⟩

def raceTurns : List Turn :=
  turnsOf 1 2 ++ turnsOf 0 5 ++ turnsOf 1 2 ++ turnsOf 0 2 ++ turnsOf 1 6

theorem resync_undoes_reload :
    ¬∀ _ : Postcard, (run (World.step executorClient) raceTurns ⟨⟨blockingReconciler, false⟩,
          [.reload (.compile {}), .dnsResync .getCompiler]⟩).tasks =
        [.reload (.returned (.ok ())), .dnsResync (.returned true)] →
      (run (World.step executorClient) raceTurns ⟨⟨blockingReconciler, false⟩,
          [.reload (.compile {}), .dnsResync .getCompiler]⟩).shared.reconciler.cells =
        (some {}, compileWith (oneDomain.registry.view 0) {},
          some (configFingerprint (compileWith (oneDomain.registry.view 0) {}))) := by
  intro h
  have hc := h .wire (by decide +kernel)
  exact absurd (congrArg (·.2.1) hc) (by decide +kernel)

end BalanSir.Daemon
