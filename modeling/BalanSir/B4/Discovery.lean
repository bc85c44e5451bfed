/-
# Strategy discovery

`B4Discovery` tries its candidate sets on a blocked domain, one probe a call, and `DiscoveryManager`
hands the selected ones to the engine.
-/

import BalanSir.B4.Strategies
import BalanSir.Lib.F64
import BalanSir.Lib.Run
import BalanSir.Lib.Table

namespace BalanSir.B4

open Lib (Table Text F64 run)

/-- `B4Set` with all its fields: those the engine reads, and the rest. -/
structure StrategySet (ρ : Type) where
  engine : B4Set
  middleSni : Bool
  shuffleMode : String
  fakeLen : UInt32
  filterQuic : String
  rest : ρ
  deriving DecidableEq

def StrategySet.name {ρ : Type} (s : StrategySet ρ) : Text := s.engine.name

def StrategySet.enabled {ρ : Type} (s : StrategySet ρ) : Bool := s.engine.enabled

/-- `ProfileToml`, its embedded set. -/
structure ProfileToml (ρ : Type) where
  set : Option (StrategySet ρ)

/-- `B4Config`, its sets and profiles. -/
structure B4Config (ρ : Type) where
  sets : List (StrategySet ρ)
  profiles : List (ProfileToml ρ)

def B4Config.allSets {ρ : Type} (config : B4Config ρ) : List (StrategySet ρ) :=
  config.sets ++ config.profiles.filterMap (·.set)

section Candidates

variable {ρ : Type} [Inhabited ρ]

def baseSet : StrategySet ρ where
  engine :=
    { name := "base".toList
      tcp := ⟨7, false⟩
      udp := ⟨"", ""⟩
      fragmentation := ⟨"", ⟨false, false⟩⟩
      faking := ⟨false, "", 0⟩
      targets := ⟨[], []⟩
      enabled := true }
  middleSni := false
  shuffleMode := ""
  fakeLen := 0
  filterQuic := ""
  rest := default

def mssSet : StrategySet ρ :=
  { baseSet with
    engine :=
      { (baseSet : StrategySet ρ).engine with
        name := "mss".toList
        fragmentation := ⟨"combo", ⟨false, true⟩⟩ } }

def pastseqSet : StrategySet ρ :=
  { baseSet with
    engine :=
      { (baseSet : StrategySet ρ).engine with
        name := "pastseq".toList
        faking := ⟨true, "pastseq", 10000⟩
        fragmentation := ⟨"combo", ⟨true, true⟩⟩ } }

def comboSet : StrategySet ρ :=
  { baseSet with
    engine :=
      { (baseSet : StrategySet ρ).engine with
        name := "combo".toList
        fragmentation := ⟨"combo", ⟨true, true⟩⟩
        faking := ⟨true, "pastseq", 10000⟩ }
    middleSni := true
    shuffleMode := "full" }

def comboUdpSet : StrategySet ρ :=
  { comboSet with
    engine :=
      { (comboSet : StrategySet ρ).engine with
        name := "combo+quic".toList
        udp := ⟨"fake", ""⟩
        tcp := ⟨7, false⟩ }
    fakeLen := 64
    filterQuic := "parse" }

def buildCandidateSets : List (StrategySet ρ) := [mssSet, pastseqSet, comboSet, comboUdpSet]

end Candidates

def saturatingSub (a b : ℤ) : ℤ := max (-9223372036854775808) (min 9223372036854775807 (a - b))

def wrapI64 (x : ℤ) : ℤ := Int.bmod x 18446744073709551616

structure DiscoveryConfig where
  strategyTtlSecs : UInt64
  maxCandidatesPerDomain : ℕ
  trialWindowSecs : UInt64
  maxConcurrentTrials : ℕ
  betterThresholdPct : F64
  deriving DecidableEq

namespace DiscoveryConfig

def default : DiscoveryConfig := ⟨24 * 3600, 5, 45, 4, 20⟩

def ttlMs (config : DiscoveryConfig) : ℤ := wrapI64 (config.strategyTtlSecs * 1000).toNat

def trialEnd (config : DiscoveryConfig) (now : ℤ) : ℤ :=
  wrapI64 (now + wrapI64 (wrapI64 config.trialWindowSecs.toNat * 1000))

end DiscoveryConfig

/-- The status of a candidate, `trying` only inside one call. -/
inductive CandidateStatus where
  | untried
  | trying
  | measured
  deriving DecidableEq

structure CandidateState where
  name : Text
  status : CandidateStatus
  quality : F64
  rejectedReason : Option Text
  trialEndsMs : ℤ
  deriving DecidableEq

structure DomainDiscoveryState where
  domain : Text
  active : Option Text
  candidates : List CandidateState
  selectedMs : ℤ
  validatedMs : ℤ
  observedBlocked : Bool
  lastEvent : Option Text
  deriving DecidableEq

namespace DomainDiscoveryState

def new (domain : Text) (names : List Text) : DomainDiscoveryState :=
  ⟨domain, none, names.map fun name => ⟨name, .untried, 0, none, 0⟩, 0, 0, true, none⟩

variable (state : DomainDiscoveryState)

def fresh (ttl now : ℤ) : Bool :=
  state.active.isSome && saturatingSub now state.validatedMs < ttl

def nextCandidate (ttl now : ℤ) : Option ℕ :=
  (state.candidates.findIdx? fun c => c.status = .untried).or
    (state.candidates.findIdx? fun c =>
      c.status = .measured && ttl < saturatingSub now c.trialEndsMs)

def shouldSelect (thresholdPct quality : F64) : Bool :=
  match state.active with
  | none => true
  | some cur =>
    let curQ := ((state.candidates.find? fun c => c.name = cur).map (·.quality)).getD 0
    (curQ * (1 + thresholdPct / 100)).lt quality

/-- The candidate after its trial. -/
def measure (config : DiscoveryConfig) (index : ℕ) (now : ℤ) (quality : F64)
    (state : DomainDiscoveryState) : DomainDiscoveryState :=
  { state with
    candidates := state.candidates.modify index fun c =>
      { c with trialEndsMs := config.trialEnd now, quality, status := .measured } }

def trial (config : DiscoveryConfig) (index : ℕ) (now : ℤ) (quality : F64)
    (state : DomainDiscoveryState) : Option Text × DomainDiscoveryState :=
  let name := ((state.candidates[index]?).map (·.name)).getD []
  let state := state.measure config index now quality
  if quality.lt (F64.ofRat (1 / 2)) then
    (state.active,
      { state with
        candidates := state.candidates.modify index fun c =>
          { c with rejectedReason := some "connectivity probe failed".toList }
        lastEvent := some ("candidate ".toList ++ name ++ " rejected (quality ".toList ++
          quality.fixed 2 ++ ")".toList) })
  else if state.shouldSelect config.betterThresholdPct quality then
    (some name,
      { state with
        active := some name
        selectedMs := now
        validatedMs := now
        observedBlocked := false
        lastEvent := some ("selected ".toList ++ name ++ " (quality ".toList ++
          quality.fixed 2 ++ ")".toList) })
  else
    (state.active,
      { state with
        lastEvent := some ("candidate ".toList ++ name ++ " measured ".toList ++
          quality.fixed 2 ++ ", below threshold".toList) })

end DomainDiscoveryState

/-- `B4Discovery`, without its probe. -/
structure B4Discovery (ρ : Type) where
  config : DiscoveryConfig
  store : Table Text DomainDiscoveryState
  candidateSets : List (StrategySet ρ)
  activeTrials : ℕ

namespace B4Discovery

variable {ρ : Type}

def new [Inhabited ρ] : B4Discovery ρ := ⟨.default, ∅, buildCandidateSets, 0⟩

def observeBlocked (domain : Text) (d : B4Discovery ρ) : B4Discovery ρ :=
  let state := (d.store.lookup domain).getD (.new domain (d.candidateSets.map (·.name)))
  let state :=
    if !state.observedBlocked then
      { state with
        observedBlocked := true
        lastEvent := some "observed blocked → starting discovery".toList }
    else state
  { d with store := d.store.insert domain state }

def discover (domain : Text) (now : ℤ) (quality : F64) (d : B4Discovery ρ) :
    Option Text × B4Discovery ρ :=
  let d := if (d.store.lookup domain).isSome then d else d.observeBlocked domain
  match d.store.lookup domain with
  | none => (none, d)
  | some state =>
    let ttl := d.config.ttlMs
    if state.fresh ttl now then (state.active, d)
    else if d.config.maxCandidatesPerDomain ≤
        state.candidates.countP (fun c => c.status = .measured) then (state.active, d)
    else
      match state.nextCandidate ttl now with
      | none => (none, d)
      | some index =>
        if d.config.maxConcurrentTrials ≤ d.activeTrials then (state.active, d)
        else
          let (selected, state) := state.trial d.config index now quality
          (selected, { d with store := d.store.insert domain state })

def activeFor (d : B4Discovery ρ) (domain : Text) : Option Text :=
  (d.store.lookup domain).bind (·.active)

def domains (d : B4Discovery ρ) : List Text := d.store.keys

end B4Discovery

/-- One call of `on_blocked`: the domain, the time, and what the probe answers. -/
structure Blocked where
  domain : Text
  now : ℤ
  quality : F64

/-- `DiscoveryManager`: discovery and the set list of the attached engine. -/
structure DiscoveryManager (ρ : Type) where
  inner : B4Discovery ρ
  engine : Option (List (StrategySet ρ))
  enabled : Bool

variable {ρ : Type}

def B4Discovery.blocked (call : Blocked) (d : B4Discovery ρ) : Option Text × B4Discovery ρ :=
  (d.observeBlocked call.domain).discover call.domain call.now call.quality

def B4Discovery.merged (d : B4Discovery ρ) : List (StrategySet ρ) :=
  let activeNames := d.domains.filterMap d.activeFor
  d.candidateSets.filter fun s => activeNames.contains s.name

namespace DiscoveryManager

def new [Inhabited ρ] : DiscoveryManager ρ := ⟨.new, none, true⟩

def attachEngine (sets : List (StrategySet ρ)) (m : DiscoveryManager ρ) : DiscoveryManager ρ :=
  { m with engine := some sets }

def onBlocked (call : Blocked) (m : DiscoveryManager ρ) : Option Text × DiscoveryManager ρ :=
  if !m.enabled then (none, m)
  else
    let (selected, inner) := m.inner.blocked call
    (selected, { m with inner, engine := m.engine.map fun _ => inner.merged })

end DiscoveryManager

def DpiManager.new [Inhabited ρ] (config : B4Config ρ) : DiscoveryManager ρ :=
  DiscoveryManager.new.attachEngine config.allSets

theorem B4Discovery.discover_store (domain : Text) (now : ℤ) (quality : F64) (d : B4Discovery ρ) :
    ∃ store, (d.discover domain now quality).2 = { d with store } := by
  obtain ⟨tracked, ht⟩ : ∃ store,
      (if (d.store.lookup domain).isSome then d else d.observeBlocked domain) =
        { d with store } := by
    by_cases hd : (d.store.lookup domain).isSome
    · exact ⟨d.store, if_pos hd⟩
    · exact ⟨_, if_neg hd⟩
  rw [discover, ht]
  cases tracked.lookup domain with
  | none => exact ⟨tracked, rfl⟩
  | some state =>
    dsimp only
    -- the selection is fresh, the domain's budget is used up, nothing is left to try, too many
    -- trials run, or a candidate is tried
    split
    · exact ⟨tracked, rfl⟩
    · split
      · exact ⟨tracked, rfl⟩
      · cases state.nextCandidate d.config.ttlMs now with
        | none => exact ⟨tracked, rfl⟩
        | some index =>
          dsimp only
          split
          · exact ⟨tracked, rfl⟩
          · exact ⟨_, rfl⟩

theorem B4Discovery.candidateSets_blocked (call : Blocked) (d : B4Discovery ρ) :
    (d.blocked call).2.candidateSets = d.candidateSets := by
  obtain ⟨store, hs⟩ :=
    (d.observeBlocked call.domain).discover_store call.domain call.now call.quality
  rw [blocked, hs]
  rfl

theorem B4Discovery.mem_merged {d : B4Discovery ρ} {s : StrategySet ρ} :
    s ∈ d.merged ↔ s ∈ d.candidateSets ∧ ∃ domain, d.activeFor domain = some s.name := by
  rw [merged, List.mem_filter, List.contains_iff_mem, List.mem_filterMap]
  refine and_congr_right fun _ => ⟨fun ⟨domain, _, h⟩ => ⟨domain, h⟩, fun ⟨domain, h⟩ => ?_⟩
  refine ⟨domain, ?_, h⟩
  -- A domain with an active set is one of the store.
  obtain ⟨state, hs, -⟩ := Option.bind_eq_some_iff.1 h
  exact AList.lookup_isSome.1 (Option.isSome_iff_exists.2 ⟨state, hs⟩)

def B4Discovery.step (call : Blocked) (d : B4Discovery ρ) : B4Discovery ρ := (d.blocked call).2

def B4Discovery.after [Inhabited ρ] (calls : List Blocked) : B4Discovery ρ := run step calls .new

theorem B4Discovery.candidateSets_after [Inhabited ρ] (calls : List Blocked) :
    (after calls : B4Discovery ρ).candidateSets = buildCandidateSets :=
  Lib.run_frame (fun call _ => candidateSets_blocked call) _

namespace DiscoveryManager

def onAllBlocked (calls : List Blocked) (m : DiscoveryManager ρ) : DiscoveryManager ρ :=
  run (fun call m => (m.onBlocked call).2) calls m

variable {m : DiscoveryManager ρ}

theorem onBlocked_of_enabled (h : m.enabled) (call : Blocked) : (m.onBlocked call).2 = { m with
        inner := m.inner.step call
        engine := m.engine.map fun _ => (m.inner.step call).merged } := by
  rw [onBlocked, if_neg (by rw [h]; exact Bool.false_ne_true)]
  rfl

theorem onAllBlocked_eq (h : m.enabled) (calls : List Blocked) : m.onAllBlocked calls = { m with
        inner := run B4Discovery.step calls m.inner
        engine := if calls = [] then m.engine
          else m.engine.map fun _ => (run B4Discovery.step calls m.inner).merged } := by
  induction calls generalizing m with
  | nil => rfl
  | cons call calls ih =>
    have hs := onBlocked_of_enabled h call
    have hr := ih (m := (m.onBlocked call).2) (by rw [hs]; exact h)
    show ((m.onBlocked call).2).onAllBlocked calls = _
    rw [hr, hs]
    cases calls with
    | nil => rfl
    | cons next calls =>
      rw [Option.map_map]
      rfl

end DiscoveryManager

end BalanSir.B4
