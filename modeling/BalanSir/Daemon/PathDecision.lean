/-
# The path decision and the DNS proxy

`decide` of `path_decision.rs`, and the task that sets the proxy by it.
-/

import BalanSir.Dns.Forwarder
import BalanSir.Vpn.Live

namespace BalanSir.Daemon.PathDecision

open Lib Vpn Dns

inductive OverallPath where
  | direct | b4Adapting | vpnActive | vpnDegradedDirect | noPath
  deriving DecidableEq

def OverallPath.label : OverallPath → String
  | .direct => "Direct"
  | .b4Adapting => "B4 adapting"
  | .vpnActive => "VPN active"
  | .vpnDegradedDirect => "VPN degraded (direct)"
  | .noPath => "No path"

/-- `B4Snapshot`, with the `path.state` of each flow. -/
structure B4Snapshot where
  enabled : Bool
  mtuEnabled : Bool
  flows : List String
  paused : Bool

structure VpnSnapshot where
  paused : Bool := false
  profiles : List ProfileHealth := []
  active : Option Text := none

structure PathDecisionView where
  overall : String
  activeCandidate : String
  reason : String
  directState : String
  b4Active : Bool
  b4Ineffective : Bool
  vpnActive : Option Text
  vpnPaused : Bool
  dpiActive : Bool

def b4DirectState (b4 : B4Snapshot) : String × Bool :=
  let degraded := b4.flows.count "degraded"
  if 0 < b4.flows.count "failing" then ("failing", true)
  else if b4.flows.count "healthy" < degraded then ("degraded", true)
  else if 0 < degraded then ("degraded", false)
  else ("healthy", false)

def short (id : Text) : String := .ofList (if 10 < id.length then id.take 10 ++ ['…'] else id)

def decide (b4 : B4Snapshot) (vpn : VpnSnapshot) (dpiActive : Bool) : PathDecisionView :=
  let (directState, b4Ineffective) := b4DirectState b4
  let (overall, activeCandidate, reason) :=
    if vpn.paused then (OverallPath.direct, "direct", "VPN pool paused; traffic direct")
    else if let some active := vpn.active then
      let healthy := vpn.profiles.countP (·.state = .healthy)
      (.vpnActive, "vpn",
        s!"VPN pool selected profile {short active} ({healthy} healthy); direct path {directState}")
    else if vpn.profiles ≠ [] then (.vpnDegradedDirect, "direct",
      "VPN pool has no eligible profile (cooldown/failed); traffic direct")
    else if b4.enabled && b4Ineffective then
      (.b4Adapting, "b4", s!"B4 adaptation active but ineffective ({directState}); direct")
    else if b4.enabled && !b4.paused && b4.mtuEnabled then
      (.b4Adapting, "b4", s!"B4 adapting direct path ({directState})")
    else (.direct, "direct", s!"Direct path ({directState})")
  let (overall, reason) :=
    if directState = "failing" ∧ overall ≠ .vpnActive ∧ !b4.enabled ∧ vpn.profiles = [] then
      (.noPath, s!"Direct path failing and no alternative available; {reason}")
    else (overall, reason)
  { overall := overall.label, activeCandidate, reason, directState
    b4Active := b4.enabled && !b4.paused
    b4Ineffective, vpnActive := vpn.active, vpnPaused := vpn.paused, dpiActive }

theorem OverallPath.label_inj {o o' : OverallPath} : o.label = o'.label ↔ o = o' := by
  cases o <;> cases o' <;> simp [label]

variable (b4 : B4Snapshot) (dpiActive : Bool) (proxy : SocketAddr)

theorem overall_eq_vpnActive (vpn : VpnSnapshot) :
    (decide b4 vpn dpiActive).overall = OverallPath.vpnActive.label ↔
      vpn.active.isSome && !vpn.paused := by
  simp only [decide, OverallPath.label_inj]
  split_ifs <;> cases ha : vpn.active <;> simp_all

/-- The published snapshot, the shared `vpn_proxy` and the memory of the task that sets it. -/
structure ProxyTask where
  vpn : VpnSnapshot := {}
  vpnProxy : Option SocketAddr := none
  lastVpnActive : Bool := false

inductive Step where
  | publish (vpn : VpnSnapshot)
  | tick

def Step.apply (step : Step) (t : ProxyTask) : ProxyTask :=
  match step with
  | .publish vpn => { t with vpn }
  | .tick =>
    let vpnActive := t.vpn.active.isSome && !t.vpn.paused
    if vpnActive ≠ t.lastVpnActive then
      { t with vpnProxy := if vpnActive then some proxy else none, lastVpnActive := vpnActive }
    else t

def Remembers (t : ProxyTask) : Prop := t.vpnProxy = if t.lastVpnActive then some proxy else none

variable {proxy}

theorem remembers_apply (step : Step) (t : ProxyTask) (h : Remembers proxy t) :
    Remembers proxy (step.apply proxy t) := by
  cases step with
  | publish vpn => exact h
  | tick =>
    rw [Step.apply]
    split
    · rfl
    · exact h

theorem vpnProxy_tick {t : ProxyTask} (h : Remembers proxy t) :
    (Step.tick.apply proxy t).vpnProxy =
      if t.vpn.active.isSome && !t.vpn.paused then some proxy else none := by
  rw [Step.apply]
  split_ifs <;> simp_all [Remembers]

/-- **The proxy follows the decision**: whatever is published before and after a tick of the task,
the proxy is set exactly when the decision at the tick is the VPN. -/
theorem proxy_follows_decision (before : List Step) (after : List VpnSnapshot) :
    (run (Step.apply proxy) (before ++ .tick :: after.map .publish) {}).vpnProxy =
      if (decide b4 (run (Step.apply proxy) before {}).vpn dpiActive).overall =
        OverallPath.vpnActive.label then some proxy else none := by
  have hr : Remembers proxy (run (Step.apply proxy) before {}) :=
    run_invariant remembers_apply before rfl
  simp only [overall_eq_vpnActive, ← vpnProxy_tick hr, run_append, run]
  refine Lib.run_frame (fun step hs _ => ?_) _
  obtain ⟨vpn, -, rfl⟩ := List.mem_map.1 hs
  rfl

end BalanSir.Daemon.PathDecision
