/-
# The start of the daemon

`main` up to the first reconcile, and what it sends to the executor.
-/

import BalanSir.Daemon.Reload

namespace BalanSir.Daemon

open Common Control Reconciler List
open Net (IpAddr)
open Lib (run)

variable {ε : Type}

def viewAt (now : ℕ) (r : Reconciler ε) : String → Option (List IpAddr) :=
  match r.flowCompiler with
  | some c => c.registry.view now
  | none => fun _ => none

/-- The reconciler, the rules authored so far and the resolutions read so far. -/
structure History (ε : Type) where
  reconciler : Reconciler ε
  authored : List DesiredRule := []
  resolutions : List (String → Option (List IpAddr)) := []

namespace Call

def authors : Call → List DesiredRule
  | .setDesired _ state => state.rules
  | .reload _ candidate => candidate.rules
  | .reloadApi _ _ candidate => candidate.rules
  | .dnsResync _ => []

def views [Postcard] (r : Reconciler ε) : Call → List (String → Option (List IpAddr))
  | .setDesired now _ => [viewAt now r]
  | .reload now _ => [viewAt now r]
  | .reloadApi now later candidate => [viewAt now r, viewAt later (r.setDesired now candidate)]
  | .dnsResync now => [viewAt now r]

end Call

/-- Calls, steps of the ownership loop, and observations of the DNS plane. -/
inductive Event where
  | call (call : Call)
  | step (resyncEveryNCycles cycle : ℕ)
  | insert (domain : String) (ips : List IpAddr)
  | insertWithTtl (domain : String) (ips : List IpAddr) (ttl now : ℕ)
  | remove (domain : String)
  deriving DecidableEq

def observe (f : DnsRegistry → DnsRegistry) (r : Reconciler ε) : Reconciler ε :=
  { r with flowCompiler := r.flowCompiler.map fun c => { registry := f c.registry } }

def Event.apply [Postcard] (x : ExecutorAdapter ε) : Event → History ε → History ε
  | .call c, s =>
    { reconciler := c.apply x s.reconciler
      authored := s.authored ++ c.authors
      resolutions := s.resolutions ++ c.views s.reconciler }
  | .step n cycle, s => { s with reconciler := s.reconciler.step x n cycle }
  | .insert domain ips, s => { s with reconciler := observe (.insert domain ips) s.reconciler }
  | .insertWithTtl domain ips ttl now, s =>
    { s with reconciler := observe (.insertWithTtl domain ips ttl now) s.reconciler }
  | .remove domain, s => { s with reconciler := observe (.remove domain) s.reconciler }

def boot [Postcard] (x : ExecutorAdapter ε) (startup : DesiredState) (executor : ε) :
    Reconciler ε :=
  ((((Reconciler.new startup executor).setDesired 0 startup).syncActualFromExecutor
    x).reconcile x).2

def daemonRun [Postcard] (x : ExecutorAdapter ε) (startup : DesiredState) (executor : ε)
    (loop : List (ℕ × ℕ)) (c : FlowCompiler) (events : List Event) : History ε :=
  run (Event.apply x) events
    { reconciler :=
        (run (fun p r => r.step x p.1 p.2) loop (boot x startup executor)).withFlowCompiler c
      authored := startup.rules }

def Delivered (authored : List DesiredRule) (resolutions : List (String → Option (List IpAddr)))
    (rule : DesiredRule) : Prop :=
  (rule ∈ authored ∧ rule.domain = none) ∨
    ∃ a ∈ authored, ∃ resolve ∈ resolutions, ∃ flow domain ips ip, a.flow = some flow ∧
      flow.dstDomain = some domain ∧ resolve domain = some ips ∧ ip ∈ ips ∧
        rule = withAddress a flow ip

def History.Faithful (s : History ε) : Prop :=
  ∀ rule ∈ s.reconciler.handles.sent,
    rule.domain = none ∧ Delivered s.authored s.resolutions rule

section

variable {authored authored' : List DesiredRule}
  {resolutions resolutions' : List (String → Option (List IpAddr))} {rule : DesiredRule}

theorem Delivered.domain_eq_none (h : Delivered authored resolutions rule) :
    rule.domain = none := by
  rcases h with ⟨-, h⟩ | ⟨_, -, _, -, _, _, _, _, -, -, -, -, rfl⟩
  · exact h
  · rfl

theorem Delivered.mono (ha : authored ⊆ authored') (hr : resolutions ⊆ resolutions')
    (h : Delivered authored resolutions rule) : Delivered authored' resolutions' rule := by
  rcases h with ⟨h, hd⟩ | ⟨a, h, resolve, hre, rest⟩
  · exact .inl ⟨ha h, hd⟩
  · exact .inr ⟨a, ha h, resolve, hr hre, rest⟩

def Known (authored : List DesiredRule) (resolutions : List (String → Option (List IpAddr)))
    (rule : DesiredRule) : Prop :=
  rule ∈ authored ∨ Delivered authored resolutions rule

theorem Known.mono (ha : authored ⊆ authored') (hr : resolutions ⊆ resolutions')
    (h : Known authored resolutions rule) : Known authored' resolutions' rule :=
  h.imp (fun h => ha h) (.mono ha hr)

theorem delivered_compileWith {resolve : String → Option (List IpAddr)}
    (hre : resolve ∈ resolutions) {state : DesiredState}
    (h : ∀ rule ∈ state.rules, Known authored resolutions rule) :
    ∀ rule ∈ (compileWith resolve state).rules, Delivered authored resolutions rule := by
  intro rule hr
  obtain ⟨a, ha, hr⟩ := List.mem_flatMap.1 hr
  rcases mem_compileRuleWith hr with
    ⟨hd, rfl⟩ | ⟨flow, domain, ips, ip, hf, hdo, hi, hip, rfl⟩
  · exact (h rule ha).elim (fun h => .inl ⟨h, hd⟩) id
  · rcases h a ha with h | h
    · exact .inr ⟨a, h, resolve, hre, flow, domain, ips, ip, hf, hdo, hi, hip, rfl⟩
    · have hn := h.domain_eq_none
      simp [DesiredRule.domain, hf, hdo] at hn

end

/-- The desired rules and the requests are delivered ones, the authored rules known ones. -/
structure Sound (authored : List DesiredRule)
    (resolutions : List (String → Option (List IpAddr))) (r : Reconciler ε) : Prop where
  desired : ∀ rule ∈ r.handles.desired.rules, Delivered authored resolutions rule
  raw : ∀ raw, r.desiredRaw = some raw → ∀ rule ∈ raw.rules, Known authored resolutions rule
  sent : ∀ rule ∈ r.handles.sent, Delivered authored resolutions rule

section

variable {authored authored' : List DesiredRule}
  {resolutions resolutions' : List (String → Option (List IpAddr))} {r r' : Reconciler ε}

theorem Sound.mono (ha : authored ⊆ authored') (hr : resolutions ⊆ resolutions')
    (h : Sound authored resolutions r) : Sound authored' resolutions' r where
  desired rule hru := (h.desired rule hru).mono ha hr
  raw raw hra rule hru := (h.raw raw hra rule hru).mono ha hr
  sent rule hru := (h.sent rule hru).mono ha hr

theorem Sound.runCycle (x : ExecutorAdapter ε) (h : Sound authored resolutions r) :
    Sound authored resolutions (r.runCycle x).2 where
  desired rule hr := h.desired rule (by rwa [(r.runCycle_sameCells x).desired] at hr)
  raw raw hra := h.raw raw hra
  sent rule hr := by
    rw [sent_runCycle, mem_append, mem_ruleOf_operations] at hr
    exact hr.elim (h.sent rule) fun hr => h.desired rule hr.1

theorem sent_subset_runCycle (x : ExecutorAdapter ε) (r : Reconciler ε) :
    r.handles.sent ⊆ (r.runCycle x).2.handles.sent := by
  rw [sent_runCycle]
  exact subset_append_left _ _

theorem step_eq_runCycle (x : ExecutorAdapter ε) (n cycle : ℕ) (r : Reconciler ε) :
    ∃ executor actual, r.step x n cycle = (Reconciler.runCycle x
        { r with handles := { r.handles with executor := executor, actual := actual } }).2 := by
  rw [Reconciler.step, reconcile_snd]
  split
  · exact ⟨_, _, rfl⟩
  · exact ⟨_, _, rfl⟩

theorem Sound.step (x : ExecutorAdapter ε) (n cycle : ℕ) (h : Sound authored resolutions r) :
    Sound authored resolutions (r.step x n cycle) := by
  obtain ⟨executor, actual, heq⟩ := step_eq_runCycle x n cycle r
  rw [heq]
  exact Sound.runCycle x ⟨h.desired, h.raw, h.sent⟩

theorem sent_subset_step (x : ExecutorAdapter ε) (n cycle : ℕ) (r : Reconciler ε) :
    r.handles.sent ⊆ (r.step x n cycle).handles.sent := by
  obtain ⟨executor, actual, heq⟩ := step_eq_runCycle x n cycle r
  rw [heq]
  exact sent_subset_runCycle x
    { r with handles := { r.handles with executor := executor, actual := actual } }

theorem compiledBy_eq_of_isSome (hc : r.flowCompiler.isSome) (now : ℕ) (state : DesiredState) :
    compiledBy r.flowCompiler now state = compileWith (viewAt now r) state := by
  obtain ⟨c, hc⟩ := Option.isSome_iff_exists.1 hc
  rw [viewAt, hc, compiledBy]

theorem ReadAt.isSome {now : ℕ} {compiler compiler' : Option FlowCompiler}
    (h : ReadAt now compiler compiler') (hc : compiler.isSome) : compiler'.isSome := by
  cases compiler with
  | none => simp at hc
  | some c =>
    cases compiler' with
    | none => exact h.elim
    | some c' => rfl

end

section

variable [Postcard] {authored : List DesiredRule}
  {resolutions : List (String → Option (List IpAddr))} {r : Reconciler ε}

variable {now : ℕ} {candidate : DesiredState}

theorem Sound.setDesired (h : Sound authored resolutions r) (hc : r.flowCompiler.isSome)
    (hv : viewAt now r ∈ resolutions) {state : DesiredState}
    (hs : ∀ rule ∈ state.rules, Known authored resolutions rule) :
    Sound authored resolutions (r.setDesired now state) ∧
      (r.setDesired now state).flowCompiler.isSome := by
  obtain ⟨compiler, hr, heq⟩ := r.setDesired_spec now state
  rw [heq, compiledBy_eq_of_isSome hc]
  exact ⟨⟨delivered_compileWith hv hs,
    fun raw hra => by cases hra; exact hs, h.sent⟩, hr.isSome hc⟩

theorem sent_setDesired (now : ℕ) (state : DesiredState) (r : Reconciler ε) :
    (r.setDesired now state).handles.sent = r.handles.sent := by
  obtain ⟨_, -, heq⟩ := r.setDesired_spec now state
  rw [heq]

theorem Sound.reload (x : ExecutorAdapter ε) (h : Sound authored resolutions r)
    (hc : r.flowCompiler.isSome) (hv : viewAt now r ∈ resolutions)
    (hca : ∀ rule ∈ candidate.rules, Known authored resolutions rule) :
    Sound authored resolutions (r.reload x now candidate).2 ∧
      (r.reload x now candidate).2.flowCompiler.isSome := by
  obtain ⟨compiler, hr, hsp⟩ := r.reload_spec x now candidate
  have hs : Sound authored resolutions
      (r.staged compiler (compiledBy r.flowCompiler now candidate)) := by
    rw [compiledBy_eq_of_isSome hc]
    exact ⟨delivered_compileWith hv hca, h.raw, h.sent⟩
  have hru := hs.runCycle x
  rcases hsp with ⟨-, heq⟩ | ⟨e, heq⟩
  · rw [heq]
    exact ⟨⟨hru.desired, fun raw hra => by cases hra; exact hca, hru.sent⟩, hr.isSome hc⟩
  · rw [heq]
    exact ⟨⟨h.desired, h.raw, hru.sent⟩, hr.isSome hc⟩

theorem sent_subset_reload (x : ExecutorAdapter ε) (now : ℕ) (candidate : DesiredState)
    (r : Reconciler ε) : r.handles.sent ⊆ (r.reload x now candidate).2.handles.sent := by
  obtain ⟨compiler, -, ⟨-, heq⟩ | ⟨e, heq⟩⟩ := r.reload_spec x now candidate <;>
  · rw [heq]
    exact sent_subset_runCycle x (r.staged compiler (compiledBy r.flowCompiler now candidate))

theorem Sound.reloadApi (x : ExecutorAdapter ε) (h : Sound authored resolutions r)
    (hc : r.flowCompiler.isSome) {now later : ℕ}
    (hv : viewAt now r ∈ resolutions) (hl : viewAt later (r.setDesired now candidate) ∈ resolutions)
    (hca : ∀ rule ∈ candidate.rules, Known authored resolutions rule) :
    Sound authored resolutions (ControlPlane.reloadApi x now later candidate r).2 ∧
      (ControlPlane.reloadApi x now later candidate r).2.flowCompiler.isSome := by
  obtain ⟨hs, hs'⟩ := h.setDesired hc hv hca
  rcases r.reloadApi_spec x now later candidate with ⟨-, heq⟩ | ⟨e, -, heq⟩
  · rw [heq]
    exact ⟨hs.runCycle x, hs'⟩
  · rw [heq]
    exact (hs.runCycle x).setDesired hs' hl fun rule hr => .inr (h.desired rule hr)

theorem sent_subset_reloadApi (x : ExecutorAdapter ε) (now later : ℕ) (candidate : DesiredState)
    (r : Reconciler ε) :
    r.handles.sent ⊆ (ControlPlane.reloadApi x now later candidate r).2.handles.sent := by
  have h := sent_subset_runCycle x (r.setDesired now candidate)
  rw [sent_setDesired] at h
  rcases r.reloadApi_spec x now later candidate with ⟨-, heq⟩ | ⟨e, -, heq⟩
  · rw [heq]
    exact h
  · rw [heq, sent_setDesired]
    exact h

theorem Sound.dnsResync (x : ExecutorAdapter ε) (h : Sound authored resolutions r)
    (hc : r.flowCompiler.isSome) (hv : viewAt now r ∈ resolutions) :
    Sound authored resolutions (r.dnsResync x now).2 ∧
      (r.dnsResync x now).2.flowCompiler.isSome := by
  rcases r.dnsResync_spec x now with
    heq | ⟨raw, compiler, hra, -, hr, ⟨-, heq⟩ | ⟨-, heq⟩⟩
  · rw [heq]
    exact ⟨h, hc⟩
  · rw [heq]
    exact ⟨⟨h.desired, h.raw, h.sent⟩, hr.isSome hc⟩
  · rw [heq, compiledBy_eq_of_isSome hc]
    exact ⟨Sound.runCycle x ⟨delivered_compileWith hv (h.raw raw hra), h.raw, h.sent⟩, hr.isSome hc⟩

theorem sent_subset_dnsResync (x : ExecutorAdapter ε) (now : ℕ) (r : Reconciler ε) :
    r.handles.sent ⊆ (r.dnsResync x now).2.handles.sent := by
  rcases r.dnsResync_spec x now with heq | ⟨raw, compiler, -, -, -, ⟨-, heq⟩ | ⟨-, heq⟩⟩
  · rw [heq]
    exact List.Subset.refl _
  · rw [heq]
    exact List.Subset.refl _
  · rw [heq]
    exact sent_subset_runCycle x { r.staged compiler (compiledBy r.flowCompiler now raw) with
      configFingerprint := some (configFingerprint (compiledBy r.flowCompiler now raw)) }

end

def History.Sound (s : History ε) : Prop :=
  Daemon.Sound s.authored s.resolutions s.reconciler ∧ s.reconciler.flowCompiler.isSome

theorem sound_observe (f : DnsRegistry → DnsRegistry) {s : History ε} (h : s.Sound) :
    ({ s with reconciler := observe f s.reconciler } : History ε).Sound :=
  ⟨⟨h.1.desired, h.1.raw, h.1.sent⟩, by simp [observe, h.2]⟩

theorem flowCompiler_step (x : ExecutorAdapter ε) (n cycle : ℕ) (r : Reconciler ε) :
    (r.step x n cycle).flowCompiler = r.flowCompiler := by
  obtain ⟨executor, actual, heq⟩ := step_eq_runCycle x n cycle r
  rw [heq]
  rfl

theorem not_agrees_placeholder {rule : DesiredRule} (h : rule.domain ≠ none) (ids : List UInt32) :
    ¬StateDiff.Agrees { activeRules := ids.map Reconciler.placeholder } rule := by
  intro ha
  refine h ?_
  rw [DesiredRule.domain, (Reconciler.agrees_inventory_iff.1 ha).2.2]
  rfl

section

variable [Postcard] (x : ExecutorAdapter ε) {startup : DesiredState}

theorem sound_call (call : Call) {s : History ε} (h : s.Sound) :
    ((Event.call call).apply x s).Sound := by
  have hm := h.1.mono (subset_append_left s.authored call.authors)
    (subset_append_left s.resolutions (call.views s.reconciler))
  have hk : ∀ rule ∈ call.authors, Known (s.authored ++ call.authors)
      (s.resolutions ++ call.views s.reconciler) rule :=
    fun rule hr => .inl (mem_append_right _ hr)
  have hvi : ∀ v ∈ call.views s.reconciler, v ∈ s.resolutions ++ call.views s.reconciler :=
    fun v hv => mem_append_right _ hv
  cases call with
  | setDesired now state =>
    exact hm.setDesired h.2 (hvi _ (mem_singleton_self _)) hk
  | reload now candidate =>
    exact hm.reload x h.2 (hvi _ (mem_singleton_self _)) hk
  | reloadApi now later candidate =>
    exact hm.reloadApi x h.2 (hvi _ mem_cons_self)
      (hvi _ (mem_cons_of_mem _ (mem_singleton_self _))) hk
  | dnsResync now => exact hm.dnsResync x h.2 (hvi _ (mem_singleton_self _))

theorem sound_event (e : Event) (s : History ε) (h : s.Sound) : (e.apply x s).Sound := by
  cases e with
  | call call => exact sound_call x call h
  | step n cycle => exact ⟨h.1.step x n cycle, by rw [Event.apply, flowCompiler_step]; exact h.2⟩
  | insert domain ips => exact sound_observe _ h
  | insertWithTtl domain ips ttl now => exact sound_observe _ h
  | remove domain => exact sound_observe _ h

theorem sent_subset_event (e : Event) (s : History ε) :
    s.reconciler.handles.sent ⊆ (e.apply x s).reconciler.handles.sent := by
  cases e with
  | call call =>
    cases call with
    | setDesired now state =>
      rw [Event.apply, Call.apply, sent_setDesired]
      exact List.Subset.refl _
    | reload now candidate => exact sent_subset_reload x now candidate s.reconciler
    | reloadApi now later candidate =>
      exact sent_subset_reloadApi x now later candidate s.reconciler
    | dnsResync now => exact sent_subset_dnsResync x now s.reconciler
  | step n cycle => exact sent_subset_step x n cycle s.reconciler
  | _ => exact List.Subset.refl _

theorem boot_eq (startup : DesiredState) (executor : ε) :
    ∃ (executor' : ε) (ids : List UInt32), boot x startup executor = (Reconciler.runCycle x
      { handles :=
          { desired := startup, executor := executor'
            actual := { activeRules := ids.map Reconciler.placeholder } }
        desiredRaw := some startup
        configFingerprint := some (configFingerprint startup) }).2 := by
  rw [boot, reconcile_snd]
  exact ⟨_, _, rfl⟩

theorem mem_sent_boot {rule : DesiredRule} (hr : rule ∈ startup.rules)
    (h : rule.domain ≠ none) (executor : ε) : rule ∈ (boot x startup executor).handles.sent := by
  obtain ⟨executor', ids, heq⟩ := boot_eq x startup executor
  rw [heq, sent_runCycle, mem_append, mem_ruleOf_operations]
  exact .inr ⟨hr, not_agrees_placeholder h ids⟩

theorem sound_boot (h : startup.DomainFree) (executor : ε) :
    Sound startup.rules [] (boot x startup executor) := by
  obtain ⟨executor', ids, heq⟩ := boot_eq x startup executor
  rw [heq]
  refine Sound.runCycle x ⟨fun rule hr => .inl ⟨hr, h rule hr⟩, fun raw hra => ?_,
    fun _ hr => nomatch hr⟩
  cases hra
  exact fun rule hr => .inl hr

/-- **What reaches the executor, exactly:** each request is for a rule without a domain, authored so
or made for a resolved address, precisely when the startup configuration has no domain. -/
theorem sent_faithful_iff (startup : DesiredState) (executor : ε) (loop : List (ℕ × ℕ))
    (c : FlowCompiler) (events : List Event) :
    (daemonRun x startup executor loop c events).Faithful ↔ startup.DomainFree := by
  constructor
  · intro hf rule hru
    by_contra hd
    have hse : rule ∈ (daemonRun x startup executor loop c events).reconciler.handles.sent :=
      Lib.run_invariant
        (fun e s hs => sent_subset_event x e s hs) events
        (Lib.run_invariant
          (fun p r hr => sent_subset_step x p.1 p.2 r hr) loop (mem_sent_boot x hru hd executor))
    exact hd (hf rule hse).1
  · intro hfr rule hru
    have hl := Lib.run_invariant
      (fun p r hr => hr.step x p.1 p.2) loop (sound_boot x hfr executor)
    have hs : (daemonRun x startup executor loop c events).Sound :=
      Lib.run_invariant (sound_event x) events ⟨⟨hl.desired, hl.raw, hl.sent⟩, rfl⟩
    have hde := hs.1.sent rule hru
    exact ⟨hde.domain_eq_none, hde⟩

end

/-- Started with a blocked domain, the daemon sends a request that blocks everything. -/
theorem blockDomain_sent_unresolved :
    ¬∀ _ : Postcard, (daemonRun executorClient blockDomain {} [] {} []).Faithful := by
  intro h
  let _ : Postcard := .wire
  have hn : ∀ rule ∈ (daemonRun executorClient blockDomain {} [] {} []).reconciler.handles.sent,
      rule.domain = none := fun rule hr => (h .wire rule hr).1
  exact absurd hn (by decide +kernel)

end BalanSir.Daemon
