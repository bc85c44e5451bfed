/-
# The Xray manager

`XrayManager`: its endpoints, its handle, and one cycle.
-/

import BalanSir.Lib.Run
import BalanSir.Xray.Config
import BalanSir.Xray.Health

namespace BalanSir.Xray

open Lib Vpn
open Health (PathHealth PathHealthConfig PathSample)

/-- The sample that the manager takes of a health check. -/
def HealthStatus.sample : HealthStatus → PathSample
  | .healthy => .healthy
  | _ => .failure

structure XrayEndpoint where
  name : Text
  server : Text
  port : UInt16
  uuid : Text
  flow : Option Text := none
  transport : XrayTransport := .tcp
  security : XraySecurity := .none
  socksPort : Option UInt16 := none
  httpPort : Option UInt16 := none
  priority : ℤ := 100
  enabled : Bool := true
  deriving DecidableEq

instance : Inhabited XrayEndpoint := ⟨{ name := [], server := [], port := 0, uuid := [] }⟩

def XrayEndpoint.intoConfig (e : XrayEndpoint) (fallbackSocks fallbackHttp : UInt16) :
    XrayConfig :=
  { server := e.server, port := e.port, uuid := e.uuid, flow := e.flow, transport := e.transport,
    security := e.security, name := some e.name, socksPort := e.socksPort.getD fallbackSocks,
    httpPort := e.httpPort.getD fallbackHttp, geoDomains := [] }

structure Settings where
  endpoints : List XrayEndpoint := []
  socksPort : UInt16 := 10808
  httpPort : UInt16 := 10809
  failoverThreshold : UInt32 := 3
  geoDomains : List Text := []

namespace Settings

variable (s : Settings)

/-- `path_config_for` -/
def pathConfig : PathHealthConfig where
  enterDegraded := max s.failoverThreshold 1
  exitDegraded := 2

def endpoint (idx : ℕ) : XrayEndpoint := s.endpoints.getD idx default

def endpointConfig (idx : ℕ) : XrayConfig :=
  { (s.endpoint idx).intoConfig s.socksPort s.httpPort with geoDomains := s.geoDomains }

def enabledIndices : List ℕ :=
  ((List.range s.endpoints.length).filter fun i => (s.endpoint i).enabled).insertionSort fun i j =>
    toLex ((s.endpoint i).priority, i) ≤ toLex ((s.endpoint j).priority, j)

def preferred : Option ℕ := s.enabledIndices.head?

def indexOf (name : Text) : Option ℕ := s.endpoints.findIdx? (·.name = name)

def poolConfig (profile : VpnProfile) : Except Text XrayConfig :=
  (profileToXrayConfig profile s.socksPort s.httpPort).map fun config =>
    { config with geoDomains := s.geoDomains }

end Settings

/-- A driver, with the number in which it was built and the pool profile it is for. -/
structure Driver where
  id : ℕ
  origin : Option VpnProfile
  config : XrayConfig
  deriving DecidableEq

/-- What is done to drivers, and whether it succeeds. -/
inductive DriverCall where
  | start (driver : Driver) (ok : Bool)
  | stop (driver : Driver) (ok : Bool)
  | drop (driver : Driver)
  deriving DecidableEq

inductive XrayEvent where
  | started (profile : Text)
  | switched (source : Option Text) (target reason : Text)
  | healthChanged (profile health : Text)
  | stopped
  | error (detail : Text)
  deriving DecidableEq

structure Manager where
  paused : Bool := false
  pinned : Option Text := none
  active : Option ℕ := none
  poolProfile : Option VpnProfile := none
  poolLabel : Option Text := none
  poolDriven : Bool := false
  paths : List PathHealth := []
  lastError : Option Text := none
  switchReason : Option Text := none
  lastSwitchMs : ℤ := 0
  driver : Option Driver := none
  l2 : L2Recovery := {}
  l2ExhaustedLabel : Option Text := none
  startedCount : ℕ := 0
  events : List XrayEvent := []
  calls : List DriverCall := []
  built : ℕ := 0

def Manager.init (s : Settings) : Manager :=
  { paths := s.endpoints.map fun _ => .new s.pathConfig }

structure Surroundings where
  nowMs : ℤ := 0
  instant : ℕ := 0
  start : Except Text Unit := .ok ()
  stop : Except Text Unit := .ok ()
  health : HealthStatus := .healthy

namespace Manager

variable (s : Settings) (env : Surroundings) (m : Manager)

def launch (origin : Option VpnProfile) (config : XrayConfig) : Except Text Unit × Manager :=
  let driver : Driver := ⟨m.built, origin, config⟩
  match env.start with
  | .error e =>
    (.error e, { m with
      built := m.built + 1
      calls := m.calls ++ [.start driver false, .drop driver] })
  | .ok () =>
    (.ok (), { m with
      built := m.built + 1
      driver := some driver
      calls := m.calls ++ .start driver true :: (m.driver.map .drop).toList })

def startEndpoint (idx : ℕ) : Except Text Unit × Manager :=
  match m.launch env none (s.endpointConfig idx) with
  | (.error e, m) => (.error e, m)
  | (.ok (), m) =>
    (.ok (), { m with
      active := some idx
      lastSwitchMs := env.nowMs
      startedCount := m.startedCount + 1
      l2 := m.l2.onStart env.nowMs
      events := m.events ++ [.started (s.endpoint idx).name] })

def startConfig (profile : VpnProfile) (config : XrayConfig) (label reason : Text) :
    Except Text Unit × Manager :=
  match m.launch env (some profile) config with
  | (.error e, m) => (.error e, m)
  | (.ok (), m) =>
    (.ok (), { m with
      active := none
      poolLabel := some label
      switchReason := some reason
      lastSwitchMs := env.nowMs
      startedCount := m.startedCount + 1
      l2 := m.l2.onStart env.nowMs
      l2ExhaustedLabel := none
      events := m.events ++ [.started label] })

def activeLabel : Option Text := m.poolLabel

def stopDriver : Manager :=
  match m.driver with
  | none => m
  | some driver =>
    { m with
      driver := none
      active := none
      poolLabel := none
      calls := m.calls ++ [.stop driver env.stop.isOk, .drop driver] }

def activeName : Option Text :=
  match m.active with
  | some i => some (s.endpoint i).name
  | none => m.activeLabel

def switchToIndex (idx : ℕ) (reason : Text) : Except Text Unit × Manager :=
  let prevName := m.activeName s
  match (m.stopDriver env).startEndpoint s env idx with
  | (.error e, m) => (.error e, m)
  | (.ok (), m) =>
    (.ok (), { m with
      paths := m.paths.modify idx PathHealth.reset
      switchReason := some reason
      lastSwitchMs := env.nowMs
      events := m.events ++ [.switched prevName (s.endpoint idx).name reason] })

def switchTo (name reason : Text) : Except Text Unit × Manager :=
  match s.indexOf name with
  | none => (.error ("unknown xray profile '".toList ++ name ++ "'".toList), m)
  | some idx => m.switchToIndex s env idx reason

def takenOver : Manager := { m with poolDriven := true }

def ensurePool (profile : VpnProfile) : Except Text Unit × Manager :=
  let m := m.takenOver
  match s.poolConfig profile with
  | .error e => (.error ("vpn pool profile invalid: ".toList ++ e), m)
  | .ok config =>
    let label := profileLabel profile
    if m.driver.isSome ∧ m.activeLabel = some label then (.ok (), m)
    else if m.l2ExhaustedLabel = some label then (.ok (), m)
    else m.startConfig env profile config label "vpn pool selected".toList

def ensureStatic : Except Text Unit × Manager :=
  if m.active.isSome ∧ m.driver.isSome then
    match m.pinned with
    | some pinned =>
      if m.active ≠ s.indexOf pinned then m.switchTo s env pinned "manual override".toList
      else (.ok (), m)
    | none => (.ok (), m)
  else
    match m.pinned.bind s.indexOf with
    | some idx => m.startEndpoint s env idx
    | none =>
      match s.preferred with
      | some idx => m.startEndpoint s env idx
      | none => (.error "no enabled Xray endpoints configured".toList, m)

def ensureRunning : Except Text Unit × Manager :=
  match m.poolProfile with
  | some profile => m.ensurePool s env profile
  | none =>
    -- the pool took over selection and cleared it
    if m.poolDriven then (.ok (), if m.driver.isSome then m.stopDriver env else m)
    else m.ensureStatic s env

def failover (idx : ℕ) (reasons : List Text) : Manager :=
  let enabled := s.enabledIndices
  match (enabled.find? (· ≠ idx)).or enabled.head? with
  | none => m
  | some next =>
    if next ≠ idx then
      let name := (s.endpoint idx).name
      let reasons := "; ".toList.intercalate reasons
      let reason := "endpoint '".toList ++ name ++
        if reasons = [] then "' failed health probes".toList else "' failing: ".toList ++ reasons
      -- a pin on the failing endpoint would pull straight back to it
      let m := if m.pinned = some name then { m with pinned := none } else m
      (m.switchToIndex s env next reason).2
    else m

def healthAndFailover : Manager :=
  match m.active, m.driver with
  | some idx, some _ =>
    let before := m.paths.getD idx (.new s.pathConfig)
    let path := (before.observe env.health.sample env.instant).2
    let m := { m with
      paths := m.paths.set idx path
      events := m.events ++ if path.state.label ≠ before.state.label then
        [.healthChanged (s.endpoint idx).name (toAsciiLowercase path.state.label)] else [] }
    if path.state = .failing then m.failover s env idx path.failingReasons else m
  | _, _ => m

def restartActiveDriver : Manager :=
  match m.driver with
  | none => m
  | some driver =>
    let failed (e : Text) (m : Manager) : Manager :=
      { m with lastError := some ("L2 driver restart failed: ".toList ++ e) }
    match env.stop with
    | .error e => failed e { m with calls := m.calls ++ [.stop driver false] }
    | .ok () =>
      match env.start with
      | .error e =>
        failed e { m with calls := m.calls ++ [.stop driver true, .start driver false] }
      | .ok () =>
        { m with
          calls := m.calls ++ [.stop driver true, .start driver true]
          lastSwitchMs := env.nowMs
          l2 := m.l2.onRestart env.nowMs
          startedCount := m.startedCount + 1
          events := m.events ++ [.started (m.activeLabel.getD "active".toList)] }

def exhaustRecovery : Manager :=
  let label := m.activeLabel.getD "active".toList
  let m := m.stopDriver env
  { m with
    l2ExhaustedLabel := some label
    events := m.events ++ [.error ("L2 recovery exhausted: active runtime '".toList ++ label ++
      "' stopped (traffic direct)".toList)] }

def l2Watchdog : Manager :=
  if m.driver.isSome ∧ m.poolDriven then
    let (action, l2) := m.l2.observe env.health env.nowMs
    let m := { m with l2 := l2 }
    match action with
    | .none | .grace => m
    | .restart => m.restartActiveDriver env
    | .exhaust => m.exhaustRecovery env
  else m

def settle : Except Text Unit × Manager → Manager
  | (.ok (), m) => m
  | (.error e, m) => { m with lastError := some e, events := m.events ++ [.error e] }

def supervise : Manager :=
  if m.driver.isSome then
    if m.poolDriven then m.l2Watchdog env else m.healthAndFailover s env
  else m

end Manager

inductive HandleOp where
  | setPaused (paused : Bool)
  | select (profile : Text)
  | rotateNext (enabledNames : List Text)
  | applyPoolProfile (profile : Option VpnProfile)
  deriving DecidableEq

def nextEnabled (current : Option Text) (enabled : List Text) : Option Text :=
  match current.bind fun c => enabled.findIdx? (· = c) with
  | some i => enabled[(i + 1) % enabled.length]?
  | none => enabled.head?

def HandleOp.apply (op : HandleOp) (m : Manager) : Manager :=
  match op with
  | .setPaused paused => { m with paused := paused }
  | .select profile => { m with pinned := some profile }
  | .rotateNext enabledNames =>
    match nextEnabled m.pinned enabledNames with
    | some next => { m with pinned := some next }
    | none => m
  | .applyPoolProfile profile => { m with poolProfile := profile }

/-- What `ensure_running` and the supervision meet, and the operations in between. -/
structure Cycle where
  ensure : Surroundings := {}
  between : List HandleOp := []
  supervise : Surroundings := {}

def Cycle.found (s : Settings) (c : Cycle) (m : Manager) : Manager :=
  c.between.foldl (fun m op => op.apply m) (Manager.settle (m.ensureRunning s c.ensure))

def Cycle.apply (s : Settings) (c : Cycle) (m : Manager) : Manager :=
  if m.paused then
    if m.driver.isSome then
      let m := m.stopDriver c.ensure
      { m with events := m.events ++ [.stopped] }
    else m
  else (c.found s m).supervise s c.supervise

inductive Op where
  | handle (op : HandleOp)
  | cycle (c : Cycle)

def Op.apply (s : Settings) (op : Op) (m : Manager) : Manager :=
  match op with
  | .handle op => op.apply m
  | .cycle c => c.apply s m

end BalanSir.Xray
