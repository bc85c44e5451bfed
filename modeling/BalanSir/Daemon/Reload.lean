/-
# Two ways to reload

`Reconciler::reload` and `reload_api` along a run of calls.
-/

import BalanSir.Daemon.Convergence
import BalanSir.Daemon.Reconciler

namespace BalanSir.Daemon

open Common Control
open Net (IpAddr)
open Lib (run Along)

variable {ε : Type}

inductive Call where
  | setDesired (now : ℕ) (state : DesiredState)
  | reload (now : ℕ) (candidate : DesiredState)
  | reloadApi (now later : ℕ) (candidate : DesiredState)
  | dnsResync (now : ℕ)
  deriving DecidableEq

namespace Call

def times : Call → List ℕ
  | .setDesired now _ => [now]
  | .reload now _ => [now]
  | .reloadApi now later _ => [now, later]
  | .dnsResync now => [now]

def apply [Postcard] (x : ExecutorAdapter ε) : Call → Reconciler ε → Reconciler ε
  | .setDesired now state, r => r.setDesired now state
  | .reload now candidate, r => (r.reload x now candidate).2
  | .reloadApi now later candidate, r => (ControlPlane.reloadApi x now later candidate r).2
  | .dnsResync now, r => (r.dnsResync x now).2

def Fails [Postcard] (x : ExecutorAdapter ε) (r : Reconciler ε) : Call → Prop
  | .reload now candidate => (r.reload x now candidate).1 ≠ .ok ()
  | .reloadApi now later candidate => (ControlPlane.reloadApi x now later candidate r).1 ≠ .ok ()
  | _ => False

end Call

def Reconciler.cells (r : Reconciler ε) : Option DesiredState × DesiredState × Option UInt64 :=
  (r.desiredRaw, r.handles.desired, r.configFingerprint)

def Consistent [Postcard] (resolve : String → Option (List IpAddr)) (r : Reconciler ε) : Prop :=
  ∃ raw, r.cells =
    (some raw, compileWith resolve raw, some (configFingerprint (compileWith resolve raw)))

def Steady (c : FlowCompiler) (resolve : String → Option (List IpAddr)) (r : Reconciler ε) : Prop :=
  ∃ c', r.flowCompiler = some c' ∧
    ∀ t, c.registry.view t = resolve → c'.registry.view t = resolve

def Call.Guarantee [Postcard] (x : ExecutorAdapter ε) (resolve : String → Option (List IpAddr))
    (call : Call) (r : Reconciler ε) : Prop :=
  Consistent resolve (call.apply x r) ∧ (call.Fails x r → (call.apply x r).cells = r.cells)

def Call.Lossless [Postcard] (x : ExecutorAdapter ε) (call : Call) (r : Reconciler ε) : Prop :=
  ∀ now later candidate raw, call = .reloadApi now later candidate →
    ((r.setDesired now candidate).runCycle x).1 ≠ .ok () → r.desiredRaw = some raw →
      raw.DomainFree

section

variable {c : FlowCompiler} {resolve : String → Option (List IpAddr)} {r r' : Reconciler ε}
  {now : ℕ}

theorem Steady.compiledBy_eq (h : Steady c resolve r) (hn : c.registry.view now = resolve)
    (state : DesiredState) : compiledBy r.flowCompiler now state = compileWith resolve state := by
  obtain ⟨c', hc', hv⟩ := h
  rw [hc', compiledBy, hv now hn]

theorem Steady.of_readAt (h : Steady c resolve r) (hn : c.registry.view now = resolve)
    (hr : ReadAt now r.flowCompiler r'.flowCompiler) : Steady c resolve r' := by
  obtain ⟨c', hc', hv⟩ := h
  rw [hc'] at hr
  cases hr' : r'.flowCompiler with
  | none =>
    rw [hr'] at hr
    exact hr.elim
  | some c'' =>
    rw [hr'] at hr
    exact ⟨c'', hr', fun t ht => by rw [hr t (by rw [hv t ht, hv now hn]), hv t ht]⟩

theorem Steady.of_eq (h : Steady c resolve r) (heq : r'.flowCompiler = r.flowCompiler) :
    Steady c resolve r' := by
  rwa [Steady, heq]

theorem Reconciler.SameCells.cells_eq (h : r.SameCells r') : r'.cells = r.cells := by
  rw [Reconciler.cells, h.desiredRaw, h.desired, h.configFingerprint, Reconciler.cells]

theorem cells_runCycle (x : ExecutorAdapter ε) (r : Reconciler ε) :
    (r.runCycle x).2.cells = r.cells :=
  (Reconciler.runCycle_sameCells x r).cells_eq

end

section

variable [Postcard] {x : ExecutorAdapter ε} {c : FlowCompiler}
  {resolve : String → Option (List IpAddr)} {r : Reconciler ε}

variable {now : ℕ}

theorem setDesired_cells (hs : Steady c resolve r)
    (hn : c.registry.view now = resolve) (state : DesiredState) :
    (r.setDesired now state).cells = (some state, compileWith resolve state,
          some (configFingerprint (compileWith resolve state))) ∧
      Steady c resolve (r.setDesired now state) := by
  obtain ⟨compiler, hr, h⟩ := r.setDesired_spec now state
  rw [h, ← hs.compiledBy_eq hn]
  exact ⟨rfl, hs.of_readAt hn hr⟩

theorem reload_cells (hs : Steady c resolve r) (hn : c.registry.view now = resolve)
    (candidate : DesiredState) :
    (((r.reload x now candidate).1 = .ok () ∧ Consistent resolve (r.reload x now candidate).2) ∨
        ((r.reload x now candidate).1 ≠ .ok () ∧ (r.reload x now candidate).2.cells = r.cells)) ∧
      Steady c resolve (r.reload x now candidate).2 := by
  obtain ⟨compiler, hr, ⟨-, h⟩ | ⟨e, h⟩⟩ := r.reload_spec x now candidate
  · have hc := cells_runCycle x (r.staged compiler (compiledBy r.flowCompiler now candidate))
    rw [h]
    refine ⟨.inl ⟨rfl, candidate, ?_⟩, hs.of_readAt hn hr⟩
    rw [← hs.compiledBy_eq hn]
    simp only [Reconciler.cells, Prod.mk.injEq] at hc ⊢
    exact ⟨trivial, hc.2.1, trivial⟩
  · have hc := cells_runCycle x (r.staged compiler (compiledBy r.flowCompiler now candidate))
    rw [h]
    refine ⟨.inr ⟨by simp, ?_⟩, hs.of_readAt hn hr⟩
    simp only [Reconciler.cells, Prod.mk.injEq] at hc ⊢
    exact ⟨hc.1, rfl, hc.2.2⟩

theorem reloadApi_cells (hs : Steady c resolve r) {now later : ℕ}
    (hn : c.registry.view now = resolve) (hl : c.registry.view later = resolve)
    (candidate : DesiredState) : ((((r.setDesired now candidate).runCycle x).1 = .ok () ∧
          (ControlPlane.reloadApi x now later candidate r).1 = .ok () ∧
          Consistent resolve (ControlPlane.reloadApi x now later candidate r).2) ∨
        (((r.setDesired now candidate).runCycle x).1 ≠ .ok () ∧
          (ControlPlane.reloadApi x now later candidate r).1 ≠ .ok () ∧
          (ControlPlane.reloadApi x now later candidate r).2.cells =
            (some r.handles.desired, compileWith resolve r.handles.desired,
              some (configFingerprint (compileWith resolve r.handles.desired))))) ∧
      Steady c resolve (ControlPlane.reloadApi x now later candidate r).2 := by
  obtain ⟨hc, hs'⟩ := setDesired_cells hs hn candidate
  have hr := cells_runCycle x (r.setDesired now candidate)
  have hs'' : Steady c resolve ((r.setDesired now candidate).runCycle x).2 := hs'.of_eq rfl
  rcases Reconciler.reloadApi_spec x now later candidate r with ⟨hok, h⟩ | ⟨e, he, h⟩
  · rw [h]
    exact ⟨.inl ⟨hok, rfl, candidate, hr.trans hc⟩, hs''⟩
  · obtain ⟨hc', hs'''⟩ := setDesired_cells hs'' hl r.handles.desired
    rw [h, he]
    exact ⟨.inr ⟨by simp, by simp, hc'⟩, hs'''⟩

theorem dnsResync_cells (hs : Steady c resolve r) (hr : Consistent resolve r)
    (hn : c.registry.view now = resolve) :
    (r.dnsResync x now).2.cells = r.cells ∧ Steady c resolve (r.dnsResync x now).2 := by
  obtain ⟨raw, hra⟩ := hr
  simp only [Reconciler.cells, Prod.mk.injEq] at hra
  rcases r.dnsResync_spec x now with h | ⟨raw', compiler, hra', -, hre, ⟨-, h⟩ | ⟨hne, -⟩⟩
  · rw [h]
    exact ⟨rfl, hs⟩
  · rw [h]
    exact ⟨rfl, hs.of_readAt hn hre⟩
  · obtain rfl := Option.some.inj (hra'.symm.trans hra.1)
    exact absurd (hra.2.1.trans (hs.compiledBy_eq hn raw').symm) hne

theorem Call.guarantee_iff (call : Call) (hs : Steady c resolve r) (hr : Consistent resolve r)
    (ht : ∀ t ∈ call.times, c.registry.view t = resolve) :
    (call.Guarantee x resolve r ↔ call.Lossless x r) ∧ Steady c resolve (call.apply x r) := by
  cases call with
  | setDesired now state =>
    obtain ⟨hc, hs'⟩ := setDesired_cells hs (ht now (by simp [times])) state
    exact ⟨iff_of_true ⟨⟨state, hc⟩, fun h => h.elim⟩ (by simp [Lossless]), hs'⟩
  | reload now candidate =>
    obtain ⟨hc, hs'⟩ := reload_cells (x := x) hs (ht now (by simp [times])) candidate
    refine ⟨iff_of_true ?_ (by simp [Lossless]), hs'⟩
    rcases hc with ⟨hok, hco⟩ | ⟨-, hsa⟩
    · exact ⟨hco, fun hf => absurd hok hf⟩
    · exact ⟨hr.imp fun _ h => hsa.trans h, fun _ => hsa⟩
  | dnsResync now =>
    obtain ⟨hc, hs'⟩ := dnsResync_cells (x := x) hs hr (ht now (by simp [times]))
    refine ⟨iff_of_true ⟨hr.imp fun _ h => hc.trans h, fun h => h.elim⟩ ?_, hs'⟩
    simp [Lossless]
  | reloadApi now later candidate =>
    obtain ⟨hc, hs'⟩ := reloadApi_cells (x := x) hs (ht now (by simp [times]))
      (ht later (by simp [times])) candidate
    refine ⟨?_, hs'⟩
    obtain ⟨raw, hra⟩ := hr
    have hra' : r.desiredRaw = some raw ∧ r.handles.desired = compileWith resolve raw := by
      simp only [Reconciler.cells, Prod.mk.injEq] at hra
      exact ⟨hra.1, hra.2.1⟩
    rcases hc with ⟨hcy, hok, hco⟩ | ⟨hcy, hf, ha⟩
    · exact iff_of_true ⟨hco, fun h => absurd hok h⟩
        fun _ _ _ _ h hne => by cases h; exact absurd hcy hne
    · -- the authored state is the compiled one now; it was the same before exactly when it
      -- carried no domain
      have hi : compileWith resolve (compileWith resolve raw) = compileWith resolve raw :=
        compileWith_of_domainFree (domainFree_compileWith raw)
      rw [hra'.2, hi] at ha
      constructor
      · rintro ⟨-, hsa⟩ _ _ _ raw'' - - h
        obtain rfl := Option.some.inj (hra'.1.symm.trans h)
        have heq := congrArg Prod.fst (ha.symm.trans ((hsa hf).trans hra))
        exact compileWith_eq_self_iff.1 (Option.some.inj heq)
      · intro hl
        have hfr : compileWith resolve raw = raw :=
          compileWith_of_domainFree (hl now later candidate raw rfl hcy hra'.1)
        rw [hfr] at ha hra
        refine ⟨⟨raw, ?_⟩, fun _ => ha.trans hra.symm⟩
        rw [hfr]
        exact ha

/-- **The configuration cells, exactly.** Every call leaves consistent cells and every failed reload
leaves them alone precisely when no `reload_api` fails over an authored state with a domain. -/
theorem consistent_along_iff (x : ExecutorAdapter ε) (r : Reconciler ε) (c : FlowCompiler)
    (hc : r.flowCompiler = some c) (resolve : String → Option (List IpAddr)) (now : ℕ)
    (state : DesiredState) (calls : List Call)
    (htimes : ∀ call ∈ Call.setDesired now state :: calls, ∀ t ∈ call.times,
      c.registry.view t = resolve) :
    Along (Call.apply x) (Call.Guarantee x resolve) calls (r.setDesired now state) ↔
      Along (Call.apply x) (Call.Lossless x) calls (r.setDesired now state) := by
  rw [List.forall_mem_cons] at htimes
  obtain ⟨hce, hs⟩ := setDesired_cells (c := c) (r := r) ⟨c, hc, fun _ h => h⟩
    (htimes.1 now (by simp [Call.times])) state
  exact Lib.along_congr (I := fun r => Steady c resolve r ∧ Consistent resolve r)
    (fun call hca r h => (call.guarantee_iff h.1 h.2 (htimes.2 call hca)).1)
    (fun call hca r h hg => ⟨(call.guarantee_iff h.1 h.2 (htimes.2 call hca)).2, hg.1⟩)
    ⟨hs, state, hce⟩

end

def oneDomain : FlowCompiler := { registry := DnsRegistry.insert "example.org" [.v4 1] {} }

def blockDomain : DesiredState where
  rules :=
    [{ id := 7, action := .block, priority := 0, flow := some { dstDomain := "example.org" } }]

def unansweredReconciler : Reconciler Link where
  handles := { executor := { ipc := [.unreachable (.io "connection refused")] } }
  flowCompiler := some oneDomain

theorem consistent_along_reload_resync : ∃ _ : Postcard, Along (Call.apply executorClient)
      (Call.Guarantee executorClient (oneDomain.registry.view 0))
      [.reload 0 { rules := [blockEverything] }, .dnsResync 0]
      (unansweredReconciler.setDesired 0 blockDomain) :=
  ⟨.wire, (@consistent_along_iff _ .wire (@executorClient .wire) unansweredReconciler oneDomain
    rfl _ 0 blockDomain _ (by simp [Call.times])).2 (by simp [Along, Call.Lossless])⟩

/-- The reload fails, and the domain is gone from the authored state. -/
theorem reloadApi_loses_domain : ¬∀ _ : Postcard, Along (Call.apply executorClient)
      (Call.Guarantee executorClient (oneDomain.registry.view 0))
      [.reloadApi 0 0 { rules := [blockEverything] }]
      (unansweredReconciler.setDesired 0 blockDomain) := by
  intro h
  let _ : Postcard := .wire
  obtain ⟨⟨-, hs⟩, -⟩ := h .wire
  have hf : (ControlPlane.reloadApi executorClient 0 0 { rules := [blockEverything] }
      (unansweredReconciler.setDesired 0 blockDomain)).1 ≠ .ok () := by decide +kernel
  exact absurd (congrArg Prod.fst (hs hf)) (by decide +kernel)

end BalanSir.Daemon
