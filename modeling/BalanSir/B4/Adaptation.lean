/-
# The adaptation engine

`b4_engine`: `B4Engine` classifies the observations of a flow and adapts it by its profile.
-/

import BalanSir.Lib.Run
import BalanSir.Lib.Table
import BalanSir.Lib.Text

namespace BalanSir.B4
namespace Adaptation

open List

open Lib (Table Text run Along results)

/-- `B4Observation`, durations in nanoseconds. -/
structure B4Observation where
  connectLatency : Option ℕ
  rtt : Option ℕ
  rttVar : Option ℕ
  retransmissions : Option UInt32
  throughputBps : Option UInt64
  dnsOk : Option Bool
  resetOrTimeout : Option Bool
  mtuSymptom : Option Bool
  deriving DecidableEq

def B4Observation.default : B4Observation :=
  ⟨none, none, none, none, none, none, none, none⟩

def B4Observation.anySignal (obs : B4Observation) : Bool :=
  obs.connectLatency.isSome || obs.rtt.isSome || obs.rttVar.isSome ||
    obs.retransmissions.isSome || obs.throughputBps.isSome || obs.dnsOk.isSome ||
    obs.resetOrTimeout.isSome || obs.mtuSymptom.isSome

inductive B4Class where
  | direct
  | degraded
  | interfered
  | blocked
  | unknown
  deriving DecidableEq

def classify (obs : B4Observation) : B4Class :=
  if !obs.anySignal then .unknown
  else if obs.mtuSymptom = some true ∧ obs.resetOrTimeout ≠ some true then .interfered
  else if obs.resetOrTimeout = some true then .interfered
  else if obs.dnsOk = some false then .interfered
  else
    let retransHeavy := obs.retransmissions.any fun r => 3 ≤ r
    let highRtt := obs.rtt.any fun rtt => 400000000 ≤ rtt
    let lowThroughput := obs.throughputBps.any fun b => b < 1000
    if retransHeavy || highRtt || lowThroughput then .degraded
    else .direct

inductive B4FailSemantic where
  | strict
  | safe
  | default
  deriving DecidableEq

inductive B4Capability where
  | mtu
  | dnsPath
  deriving DecidableEq

structure B4Profile where
  capabilities : List B4Capability
  fail : B4FailSemantic
  allowDirect : Bool
  allowTunnel : Bool
  deriving DecidableEq

def B4Profile.default : B4Profile := ⟨[], .strict, true, false⟩

structure B4FlowRule where
  domain : Text
  profile : B4Profile
  deriving DecidableEq

structure B4Policy where
  flows : List B4FlowRule
  deriving DecidableEq

def B4Policy.flowDomains (policy : B4Policy) : List Text := policy.flows.map (·.domain)

def B4Policy.profileFor (policy : B4Policy) (domain : Text) : B4Profile :=
  let lower := Lib.toAsciiLowercase domain
  ((policy.flows.find? fun r =>
    lower = Lib.toAsciiLowercase r.domain ||
      Lib.endsWith lower ('.' :: Lib.toAsciiLowercase r.domain)).map (·.profile)).getD .default

inductive B4State where
  | idle
  | observing
  | adapting
  | monitoring
  | recovered
  | fallback
  | strictFail
  deriving DecidableEq

inductive B4Decision where
  | noop
  | adaptMtu (mtu : UInt16)
  | switchDnsPath
  | useFallback
  | failStrict
  | recovered
  deriving DecidableEq

inductive B4Event where
  | classified (flow : Text) (class' : B4Class)
  | adapted (flow : Text) (capability : B4Capability)
  | recovered (flow : Text)
  | strictFailed (flow : Text)
  deriving DecidableEq

def B4Event.named (flow : Text) : B4Event → B4Event
  | .adapted f capability => .adapted (if f = [] then flow else f) capability
  | .strictFailed f => .strictFailed (if f = [] then flow else f)
  | event => event

structure FlowContext where
  state : B4State
  mtu : Option UInt16
  attempts : UInt32
  deriving DecidableEq

def FlowContext.default : FlowContext := ⟨.idle, none, 0⟩

def FlowContext.recover (ctx : FlowContext) (profile : B4Profile) :
    (B4Decision × List B4Event) × FlowContext :=
  if profile.allowTunnel then ((.useFallback, []), { ctx with state := .fallback })
  else if profile.allowDirect ∧ profile.fail ≠ .strict then
    ((.useFallback, []), { ctx with state := .fallback })
  else ((.failStrict, [.strictFailed []]), { ctx with state := .strictFail })

def FlowContext.adapt (ctx : FlowContext) (profile : B4Profile) (obs : B4Observation)
    (maxAttempts : UInt32) : (B4Decision × List B4Event) × FlowContext :=
  let ctx := { ctx with state := .adapting, attempts := ctx.attempts + 1 }
  if maxAttempts < ctx.attempts then ctx.recover profile
  else if obs.mtuSymptom = some true ∧ profile.capabilities.contains .mtu then
    let current := ctx.mtu.getD 1500
    let newMtu := if 1280 < current then current - 20 else current
    ((.adaptMtu newMtu, [.adapted [] .mtu]),
      { ctx with mtu := some newMtu, state := .monitoring })
  else if obs.dnsOk = some false ∧ profile.capabilities.contains .dnsPath then
    ((.switchDnsPath, [.adapted [] .dnsPath]), { ctx with state := .monitoring })
  else ctx.recover profile

def FlowContext.decide (ctx : FlowContext) (profile : B4Profile) (class' : B4Class)
    (obs : B4Observation) (maxAttempts : UInt32) : (B4Decision × List B4Event) × FlowContext :=
  match class' with
  | .direct => ((.recovered, []), { ctx with state := .recovered, attempts := 0 })
  | .unknown => ((.noop, []), { ctx with state := .observing })
  | .degraded | .interfered => ctx.adapt profile obs maxAttempts
  | .blocked => ctx.recover profile

structure B4EngineConfig where
  maxAttempts : UInt32
  enabled : Bool
  deriving DecidableEq

def B4EngineConfig.default : B4EngineConfig := ⟨3, true⟩

/-- `B4Engine`, without its observer. -/
structure B4Engine where
  policy : B4Policy
  config : B4EngineConfig
  flows : Table Text FlowContext
  lastDecisions : Table Text B4Decision
  lastObservations : Table Text B4Observation

namespace B4Engine

def withConfig (policy : B4Policy) (config : B4EngineConfig) : B4Engine :=
  ⟨policy, config, ∅, ∅, ∅⟩

def markAdapting (flow : Text) (engine : B4Engine) : B4Engine :=
  match engine.flows.lookup flow with
  | some ctx => { engine with flows := engine.flows.insert flow { ctx with state := .adapting } }
  | none => engine

def flowKeys (engine : B4Engine) : List Text := engine.flows.keys

def policyDomains (engine : B4Engine) : List Text := engine.policy.flowDomains

def decide (flow : Text) (profile : B4Profile) (class' : B4Class) (obs : B4Observation)
    (engine : B4Engine) : (B4Decision × List B4Event) × B4Engine :=
  let ctx := (engine.flows.lookup flow).getD .default
  let (decided, ctx) := ctx.decide profile class' obs engine.config.maxAttempts
  (decided, { engine with flows := engine.flows.insert flow ctx })

def evaluate (flow : Text) (obs : B4Observation) (engine : B4Engine) :
    (B4Decision × List B4Event) × B4Engine :=
  let profile := engine.policy.profileFor flow
  let class' := classify obs
  if !engine.config.enabled then ((.noop, [.classified flow class']), engine)
  else
    let ((decision, events), engine) := engine.decide flow profile class' obs
    ((decision, .classified flow class' :: events.map (·.named flow)),
      { engine with
        lastDecisions := engine.lastDecisions.insert flow decision
        lastObservations := engine.lastObservations.insert flow obs })

end B4Engine

def lowered (mtu : Option UInt16) : UInt16 :=
  let current := mtu.getD 1500
  if 1280 < current then current - 20 else current

def B4Profile.Permits (profile : B4Profile) : B4Decision → Prop
  | .adaptMtu mtu => .mtu ∈ profile.capabilities ∧ 1280 ≤ mtu ∧ mtu ≤ 1480
  | .switchDnsPath => .dnsPath ∈ profile.capabilities
  | .useFallback =>
    profile.allowTunnel = true ∨ profile.allowDirect = true ∧ profile.fail ≠ .strict
  | _ => True

def B4Decision.adapts : B4Decision → Bool
  | .adaptMtu _ | .switchDnsPath => true
  | _ => false

def B4Decision.mtuAfter (mtu : Option UInt16) : B4Decision → Option UInt16
  | .adaptMtu new => some new
  | _ => mtu

/-- What a decision about a flow of a class does, from one context to the next. -/
structure Decides (profile : B4Profile) (class' : B4Class) (maxAttempts : UInt32)
    (ctx : FlowContext) (decision : B4Decision) (next : FlowContext) : Prop where
  permits : (∀ mtu, decision = .adaptMtu mtu → mtu = lowered ctx.mtu) ∧
    ((∀ mtu, decision = .adaptMtu mtu → 1280 ≤ mtu ∧ mtu ≤ 1480) → profile.Permits decision)
  mtu : next.mtu = decision.mtuAfter ctx.mtu
  recovered : decision = .recovered ↔ class' = .direct
  attempts : class' ≠ .direct → next.attempts = ctx.attempts ∨ next.attempts = ctx.attempts + 1
  adapts : decision.adapts = true →
    next.attempts = ctx.attempts + 1 ∧ ctx.attempts + 1 ≤ maxAttempts
  direct : class' = .direct → next.attempts = 0

section Decide

variable {profile : B4Profile} {class' : B4Class} {maxAttempts : UInt32} {ctx from' : FlowContext}

theorem recover_decides (hc : class' ≠ .direct) (hm : from'.mtu = ctx.mtu)
    (ha : from'.attempts = ctx.attempts ∨ from'.attempts = ctx.attempts + 1) :
    Decides profile class' maxAttempts ctx (from'.recover profile).1.1
      (from'.recover profile).2 := by
  have hn : ∀ {d : B4Decision}, d ≠ .recovered → (d = .recovered ↔ class' = .direct) :=
    fun hd => iff_of_false hd hc
  unfold FlowContext.recover
  split_ifs with ht hdi
  · exact ⟨⟨nofun, fun _ => .inl ht⟩, hm, hn nofun, fun _ => ha, nofun,
      fun h => absurd h hc⟩
  · exact ⟨⟨nofun, fun _ => .inr hdi⟩, hm, hn nofun, fun _ => ha, nofun,
      fun h => absurd h hc⟩
  · exact ⟨⟨nofun, fun _ => trivial⟩, hm, hn nofun, fun _ => ha, nofun,
      fun h => absurd h hc⟩

theorem adapt_decides (hc : class' ≠ .direct) (obs : B4Observation) :
    Decides profile class' maxAttempts ctx (ctx.adapt profile obs maxAttempts).1.1
      (ctx.adapt profile obs maxAttempts).2 := by
  have hr : Decides profile class' maxAttempts ctx
      (FlowContext.recover ⟨.adapting, ctx.mtu, ctx.attempts + 1⟩ profile).1.1
      (FlowContext.recover ⟨.adapting, ctx.mtu, ctx.attempts + 1⟩ profile).2 :=
    recover_decides hc rfl (.inr rfl)
  unfold FlowContext.adapt
  by_cases hm : maxAttempts < ctx.attempts + 1
  · rw [if_pos hm]
    exact hr
  rw [if_neg hm]
  have hle := UInt32.not_lt.1 hm
  by_cases hmt : obs.mtuSymptom = some true ∧ profile.capabilities.contains .mtu
  · rw [if_pos hmt]
    have hme := List.contains_iff_mem.1 hmt.2
    refine ⟨⟨?_, fun h => ⟨hme, h _ rfl⟩⟩, rfl, iff_of_false nofun hc, fun _ => .inr rfl,
      fun _ => ⟨rfl, hle⟩, fun h => absurd h hc⟩
    rintro mtu ⟨⟩
    rfl
  rw [if_neg hmt]
  by_cases hd : obs.dnsOk = some false ∧ profile.capabilities.contains .dnsPath
  · rw [if_pos hd]
    exact ⟨⟨nofun, fun _ => List.contains_iff_mem.1 hd.2⟩, rfl, iff_of_false nofun hc,
      fun _ => .inr rfl, fun _ => ⟨rfl, hle⟩, fun h => absurd h hc⟩
  · rw [if_neg hd]
    exact hr

theorem decide_decides (ctx : FlowContext) (profile : B4Profile) (class' : B4Class)
    (obs : B4Observation) (maxAttempts : UInt32) :
    Decides profile class' maxAttempts ctx (ctx.decide profile class' obs maxAttempts).1.1
      (ctx.decide profile class' obs maxAttempts).2 := by
  cases class' with
  | direct =>
    exact ⟨⟨nofun, fun _ => trivial⟩, rfl, iff_of_true rfl rfl, absurd rfl, nofun, fun _ => rfl⟩
  | unknown =>
    exact ⟨⟨nofun, fun _ => trivial⟩, rfl, iff_of_false nofun nofun, fun _ => .inl rfl, nofun,
      nofun⟩
  | degraded => exact adapt_decides (by decide) obs
  | interfered => exact adapt_decides (by decide) obs
  | blocked => exact recover_decides (by decide) rfl (.inl rfl)

end Decide

namespace B4Engine

def context (engine : B4Engine) (flow : Text) : FlowContext :=
  (engine.flows.lookup flow).getD .default

/-- One call of `evaluate`: the flow, and what is observed of it. -/
abbrev Call := Text × B4Observation

def step (call : Call) (engine : B4Engine) : B4Engine := (engine.evaluate call.1 call.2).2

def decision (call : Call) (engine : B4Engine) : B4Decision :=
  (engine.evaluate call.1 call.2).1.1

variable (call : Call) (engine : B4Engine) {flow : Text}

theorem step_policy_config :
    (step call engine).policy = engine.policy ∧ (step call engine).config = engine.config := by
  unfold step evaluate
  split_ifs
  · exact ⟨rfl, rfl⟩
  · exact ⟨rfl, rfl⟩

theorem lookup_step_ne (h : flow ≠ call.1) :
    (step call engine).flows.lookup flow = engine.flows.lookup flow := by
  unfold step evaluate
  split_ifs
  · rfl
  · exact AList.lookup_insert_ne h

theorem context_step_ne (h : flow ≠ call.1) :
    (step call engine).context flow = engine.context flow :=
  congrArg (·.getD FlowContext.default) (lookup_step_ne call engine h)

theorem step_of_disabled (h : ¬engine.config.enabled) :
    decision call engine = .noop ∧ step call engine = engine := by
  have ho : (!engine.config.enabled) := by rwa [Bool.not_eq_true', ← Bool.not_eq_true]
  unfold decision step evaluate
  rw [if_pos ho]
  exact ⟨rfl, rfl⟩

theorem step_decides (h : engine.config.enabled) :
    Decides (engine.policy.profileFor call.1) (classify call.2) engine.config.maxAttempts
      (engine.context call.1) (decision call engine) ((step call engine).context call.1) := by
  have hon : ¬(!engine.config.enabled) := by
    rw [h]
    exact Bool.false_ne_true
  have hd := decide_decides (engine.context call.1) (engine.policy.profileFor call.1)
    (classify call.2) call.2 engine.config.maxAttempts
  unfold decision step evaluate
  rw [if_neg hon]
  unfold context decide
  rw [AList.lookup_insert]
  exact hd

theorem mtu_step : ((step call engine).context call.1).mtu =
      (decision call engine).mtuAfter (engine.context call.1).mtu := by
  by_cases h : engine.config.enabled
  · exact (step_decides call engine h).mtu
  · obtain ⟨hd, hs⟩ := step_of_disabled call engine h
    rw [hd, hs]
    rfl

theorem decision_eq_recovered : decision call engine = .recovered ↔
    engine.config.enabled ∧ classify call.2 = .direct := by
  by_cases h : engine.config.enabled
  · rw [(step_decides call engine h).recovered, and_iff_right h]
  · rw [(step_of_disabled call engine h).1]
    exact iff_of_false nofun fun hon => h hon.1

def MtusOk (engine : B4Engine) : Prop :=
  ∀ flow, ∀ mtu ∈ (engine.context flow).mtu,
    1280 ≤ mtu.toNat ∧ mtu.toNat ≤ 1480 ∧ mtu.toNat % 20 = 0

theorem lowered_ok {mtu : Option UInt16}
    (h : ∀ m ∈ mtu, 1280 ≤ m.toNat ∧ m.toNat ≤ 1480 ∧ m.toNat % 20 = 0) :
    1280 ≤ (lowered mtu).toNat ∧ (lowered mtu).toNat ≤ 1480 ∧ (lowered mtu).toNat % 20 = 0 := by
  cases mtu with
  | none => decide
  | some current =>
    have hm := h current rfl
    rw [lowered, Option.getD_some]
    split_ifs with hl
    · have hlt : 1280 < current.toNat := UInt16.lt_iff_toNat_lt.1 hl
      have hle : (20 : UInt16) ≤ current := UInt16.le_iff_toNat_le.2 (Nat.le_trans (by decide) hm.1)
      have hs : (current - 20).toNat = current.toNat - 20 := UInt16.toNat_sub_of_le _ _ hle
      omega
    · exact hm

theorem MtusOk.step {engine : B4Engine} (h : MtusOk engine) (call : Call) :
    MtusOk (step call engine) ∧
      (engine.policy.profileFor call.1).Permits (decision call engine) := by
  by_cases hon : engine.config.enabled
  · have hd := step_decides call engine hon
    have hl := lowered_ok (h call.1)
    have hm : ∀ mtu, decision call engine = .adaptMtu mtu →
        1280 ≤ mtu.toNat ∧ mtu.toNat ≤ 1480 ∧ mtu.toNat % 20 = 0 := by
      intro mtu hm
      rwa [hd.permits.1 mtu hm]
    refine ⟨fun flow => ?_, hd.permits.2 fun mtu he => ?_⟩
    · by_cases hf : flow = call.1
      · subst hf
        rw [hd.mtu]
        cases hde : decision call engine with
        | adaptMtu mtu =>
          rintro _ ⟨⟩
          exact hm mtu hde
        | _ => exact h call.1
      · rw [context_step_ne call engine hf]
        exact h flow
    · have hb := hm mtu he
      exact ⟨UInt16.le_iff_toNat_le.2 hb.1, UInt16.le_iff_toNat_le.2 hb.2.1⟩
  · obtain ⟨hde, hs⟩ := step_of_disabled call engine hon
    rw [hde, hs]
    exact ⟨h, trivial⟩

def adaptations (flow : Text) : List Call → B4Engine → List Call :=
  results step fun call engine =>
    if call.1 = flow ∧ (decision call engine).adapts then some call else none

theorem attempts_step_le (flow : Text) : ((step call engine).context flow).attempts.toNat ≤
      (engine.context flow).attempts.toNat + 1 := by
  by_cases hf : flow = call.1
  · subst hf
    by_cases hon : engine.config.enabled
    · have hd := step_decides call engine hon
      by_cases hdi : classify call.2 = .direct
      · rw [hd.direct hdi]
        exact Nat.zero_le _
      · rcases hd.attempts hdi with h | h
        · rw [h]
          exact Nat.le_succ _
        · rw [h]
          exact Nat.mod_le _ _
    · rw [(step_of_disabled call engine hon).2]
      exact Nat.le_succ _
  · rw [context_step_ne call engine hf]
    exact Nat.le_succ _

theorem attempts_run_le (flow : Text) (calls : List Call) :
    ((run step calls engine).context flow).attempts.toNat ≤
      (engine.context flow).attempts.toNat + calls.length := by
  induction calls generalizing engine with
  | nil => exact Nat.le_refl _
  | cons call calls ih =>
    have hs := attempts_step_le call engine flow
    have hr := ih (step call engine)
    rw [run, length_cons]
    omega

theorem attempts_step (hdi : call.1 = flow → classify call.2 ≠ .direct)
    (hlt : (engine.context flow).attempts.toNat + 1 < 4294967296) :
    (engine.context flow).attempts.toNat ≤ ((step call engine).context flow).attempts.toNat ∧
      (call.1 = flow ∧ (decision call engine).adapts →
        ((step call engine).context flow).attempts.toNat =
          (engine.context flow).attempts.toNat + 1 ∧
        (engine.context flow).attempts.toNat + 1 ≤ engine.config.maxAttempts.toNat) := by
  have hs : ((engine.context flow).attempts + 1).toNat =
      (engine.context flow).attempts.toNat + 1 := by
    exact Nat.mod_eq_of_lt hlt
  by_cases hf : flow = call.1
  · subst hf
    by_cases hon : engine.config.enabled
    · have hd := step_decides call engine hon
      refine ⟨?_, fun h => ?_⟩
      · rcases hd.attempts (hdi rfl) with h | h
        · rw [h]
        · rw [h, hs]
          exact Nat.le_succ _
      · obtain ⟨hn, hle⟩ := hd.adapts h.2
        rw [hn, ← hs]
        exact ⟨rfl, UInt32.le_iff_toNat_le.1 hle⟩
    · obtain ⟨hde, hst⟩ := step_of_disabled call engine hon
      rw [hde, hst]
      exact ⟨Nat.le_refl _, fun h => absurd h.2 Bool.false_ne_true⟩
  · rw [context_step_ne call engine hf]
    exact ⟨Nat.le_refl _, fun h => absurd h.1.symm hf⟩

theorem length_adaptations_le (flow : Text) (calls : List Call)
    (hd : ∀ call ∈ calls, call.1 = flow → classify call.2 ≠ .direct)
    (hl : (engine.context flow).attempts.toNat + calls.length < 4294967296) :
    (adaptations flow calls engine).length ≤
      engine.config.maxAttempts.toNat - (engine.context flow).attempts.toNat := by
  induction calls generalizing engine with
  | nil => exact Nat.zero_le _
  | cons call calls ih =>
    rw [forall_mem_cons] at hd
    rw [length_cons] at hl
    have hle := attempts_step_le call engine flow
    obtain ⟨hk, ha⟩ := attempts_step call engine hd.1 (by omega)
    have ih := ih (step call engine) hd.2 (by omega)
    rw [(step_policy_config call engine).2] at ih
    rw [adaptations, results, length_append, ← adaptations]
    split_ifs with h
    · have := ha h
      rw [Option.toList_some, length_singleton]
      omega
    · rw [Option.toList_none, length_nil]
      omega

/-- **The adaptation loop is safe.** In every run of fewer than `2 ^ 32` calls each decision is one
the profile permits, other contexts stay, and between two times that a flow is found direct it is
adapted at most `max_attempts` times. -/
theorem evaluate_safe (policy : B4Policy) (config : B4EngineConfig) (calls : List Call)
    (hcalls : calls.length < 4294967296) :
    Along step (fun call engine => (policy.profileFor call.1).Permits (decision call engine) ∧
      ∀ flow ≠ call.1, (step call engine).flows.lookup flow = engine.flows.lookup flow)
      calls (withConfig policy config) ∧
    ∀ flow before between after, calls = before ++ between ++ after →
      (∀ call ∈ between, call.1 = flow → classify call.2 ≠ .direct) →
      (adaptations flow between (run step before (withConfig policy config))).length ≤
        config.maxAttempts.toNat := by
  constructor
  · refine Along.imp_invariant (P := fun _ _ => True)
      (I := fun engine => engine.policy = policy ∧ MtusOk engine) ?_ ?_ ?_
      (Lib.along_iff_split.2 fun _ _ _ _ => trivial)
    · rintro call engine ⟨hp, hok⟩ -
      exact ⟨(step_policy_config call engine).1.trans hp, (hok.step call).1⟩
    · rintro call engine ⟨rfl, hok⟩ -
      exact ⟨(hok.step call).2, fun flow => lookup_step_ne call engine⟩
    · exact ⟨rfl, fun flow => nofun⟩
  · rintro flow before between after rfl hd
    rw [length_append, length_append] at hcalls
    have hc : (run step before (withConfig policy config)).config = config :=
      Lib.run_frame (fun call _ engine => (step_policy_config call engine).2) _
    have ha : ((run step before (withConfig policy config)).context flow).attempts.toNat ≤
        0 + before.length := attempts_run_le _ flow before
    have hb := length_adaptations_le (run step before (withConfig policy config)) flow
      between hd (by omega)
    rw [hc] at hb
    exact hb.trans (Nat.sub_le _ _)

def mtuPolicy : B4Policy := ⟨[⟨"a".toList, [.mtu], .strict, true, false⟩]⟩

def mtuCall : Call := ("a".toList, { B4Observation.default with mtuSymptom := some true })

/-- Five calls with the symptom, after one that found the flow direct. -/
theorem evaluate_safe_mtuCalls : (adaptations mtuCall.1 (replicate 5 mtuCall)
      (run step [mtuCall, (mtuCall.1, { B4Observation.default with dnsOk := some true })]
        (withConfig mtuPolicy .default))).length ≤ 3 :=
  (evaluate_safe mtuPolicy .default _ (by decide)).2 mtuCall.1 _ _ [mtuCall] rfl (by decide)

end B4Engine

end Adaptation
end BalanSir.B4
