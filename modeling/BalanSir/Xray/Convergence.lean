/-
# What runs for the selected profile

`ensure_running` against the profile that the pool has selected.
-/

import BalanSir.Xray.Slot

namespace BalanSir.Xray

open Lib Vpn Manager

/-- The same configuration, labels aside. -/
structure SameOutbound (q p : VpnProfile) : Prop where
  server : q.server = p.server
  port : q.port = p.port
  uuid : q.uuid = p.uuid
  flow : q.flow = p.flow
  transport : q.transport = p.transport
  security : q.security = p.security
  sni : p.security ≠ .none → q.sni.getD q.server = p.sni.getD p.server
  pin : p.security = .tls → q.pinnedPeerCertSha256 = p.pinnedPeerCertSha256
  publicKey : p.security = .reality → q.realityPbk = p.realityPbk
  fingerprint : p.security = .reality →
    q.fingerprint.getD "chrome".toList = p.fingerprint.getD "chrome".toList
  shortId : p.security = .reality → q.realitySid.getD [] = p.realitySid.getD []

theorem toXrayTransport_injective : Function.Injective toXrayTransport := by
  intro t t' h
  cases t <;> cases t' <;> cases h <;> rfl

variable {p : VpnProfile} {q : VpnProfile}

theorem toXraySecurity_eq_iff {layer : XraySecurity} (h : toXraySecurity q = .ok layer) :
    toXraySecurity p = .ok layer ↔ q.security = p.security ∧
      (p.security ≠ .none → q.sni.getD q.server = p.sni.getD p.server) ∧
      (p.security = .tls → q.pinnedPeerCertSha256 = p.pinnedPeerCertSha256) ∧
      (p.security = .reality → q.realityPbk = p.realityPbk ∧
        q.fingerprint.getD "chrome".toList = p.fingerprint.getD "chrome".toList ∧
        q.realitySid.getD [] = p.realitySid.getD []) := by
  unfold toXraySecurity at h ⊢
  cases hq : q.security with
  | none =>
    rw [hq] at h
    cases h
    cases hp : p.security with
    | none => simp
    | tls => simp
    | reality => cases p.realityPbk <;> simp
  | tls =>
    rw [hq] at h
    cases h
    cases hp : p.security with
    | none => simp
    | tls => simp [eq_comm]
    | reality => cases p.realityPbk <;> simp
  | reality =>
    rw [hq] at h
    cases hk : q.realityPbk with
    | none =>
      rw [hk] at h
      cases h
    | some pbk =>
      rw [hk] at h
      cases h
      cases hp : p.security with
      | none => simp
      | tls => simp
      | reality =>
        cases hk' : p.realityPbk with
        | none => simp
        | some pbk' =>
          simp [eq_comm]
          tauto

variable {config : XrayConfig}

theorem poolConfig_eq_ok {s : Settings} :
    s.poolConfig p = .ok config ↔ ∃ layer, toXraySecurity p = .ok layer ∧
      config = { server := p.server, port := p.port, uuid := p.uuid, flow := p.flow,
                 transport := toXrayTransport p.transport, security := layer,
                 name := some (profileLabel p), socksPort := s.socksPort, httpPort := s.httpPort,
                 geoDomains := s.geoDomains } := by
  unfold Settings.poolConfig profileToXrayConfig
  cases toXraySecurity p with
  | error e =>
    constructor
    · rintro ⟨⟩
    · rintro ⟨_, ⟨⟩, -⟩
  | ok layer =>
    constructor
    · rintro ⟨⟩
      exact ⟨layer, rfl, rfl⟩
    · rintro ⟨_, ⟨⟩, rfl⟩
      rfl

/-- **Profiles of one label have one configuration exactly when they are one outbound.** -/
theorem poolConfig_eq_iff {s : Settings} (hla : profileLabel q = profileLabel p)
    (hq : s.poolConfig q = .ok config) : s.poolConfig p = .ok config ↔ SameOutbound q p := by
  obtain ⟨layer, hl, rfl⟩ := poolConfig_eq_ok.1 hq
  rw [poolConfig_eq_ok]
  constructor
  · rintro ⟨layer', hl', heq⟩
    injection heq with hse hp hu hf ht hs
    rw [← hs, toXraySecurity_eq_iff hl] at hl'
    obtain ⟨hsec, hsn, hpi, hre⟩ := hl'
    exact ⟨hse, hp, hu, hf, toXrayTransport_injective ht, hsec, hsn, hpi,
      fun h => (hre h).1, fun h => (hre h).2.1, fun h => (hre h).2.2⟩
  · intro h
    refine ⟨layer, (toXraySecurity_eq_iff hl).2 ?_, ?_⟩
    · exact ⟨h.security, h.sni, h.pin, fun hr =>
        ⟨h.publicKey hr, h.fingerprint hr, h.shortId hr⟩⟩
    · rw [h.server, h.port, h.uuid, h.flow, h.transport, hla]

variable {s : Settings} {m : Manager}

def ConvergesAt (s : Settings) (op : Op) (m : Manager) : Prop :=
  match op with
  | .handle _ => True
  | .cycle c => m.paused = false → ∀ p ∈ m.poolProfile,
      (m.ensureRunning s c.ensure).1 = .ok () →
        ∀ d ∈ (m.ensureRunning s c.ensure).2.driver, s.poolConfig p = .ok d.config

instance (op : Op) (m : Manager) : Decidable (ConvergesAt s op m) := by
  unfold ConvergesAt
  cases op <;> infer_instance

def SameUnderLabel (s : Settings) (m : Manager) : Prop :=
  ∀ p ∈ m.poolProfile, ∀ config, s.poolConfig p = .ok config →
    ∀ d ∈ m.driver, ∀ q ∈ d.origin, profileLabel q = profileLabel p → SameOutbound q p

def SameUnderLabelAt (s : Settings) (op : Op) (m : Manager) : Prop :=
  match op with
  | .handle _ => True
  | .cycle _ => m.paused = false → SameUnderLabel s m

theorem config_of_startConfig {env : Surroundings} {label reason : Text}
    (hok : (m.startConfig env p config label reason).1 = .ok ()) {d : Driver}
    (hd : d ∈ (m.startConfig env p config label reason).2.driver) : d.config = config := by
  unfold startConfig at hok hd
  cases hs : env.start with
  | error e =>
    rw [launch_error hs] at hok
    cases hok
  | ok _ =>
    rw [launch_ok hs] at hd
    cases hd
    rfl

theorem ensurePool_converges_iff (env : Surroundings) (h : m.Consistent s)
    (hc : s.poolConfig p = .ok config) : ((m.ensurePool s env p).1 = .ok () →
        ∀ d ∈ (m.ensurePool s env p).2.driver, s.poolConfig p = .ok d.config) ↔
      ∀ d ∈ m.driver, ∀ q ∈ d.origin, profileLabel q = profileLabel p → SameOutbound q p := by
  have hl : ∀ d ∈ m.driver, ∀ q ∈ d.origin, m.poolLabel = some (profileLabel q) := by
    intro d hd q hq
    rw [h.label, Option.mem_def.1 hd, Option.bind_some, Option.mem_def.1 hq]
    rfl
  by_cases hs : Starts s m p
  · constructor
    · intro _ d hd q hq hlq
      refine absurd ⟨Option.isSome_of_mem hd, ?_⟩ hs.2.1
      rw [hl d hd q hq, hlq]
    · intro _ hok d hd
      obtain ⟨config', hc', heq⟩ := ensurePool_of_starts env hs
      rw [heq] at hok hd
      rw [config_of_startConfig hok hd]
      exact hc'
  · rw [ensurePool_of_ok hc hs, imp_iff_right rfl]
    refine forall₂_congr fun d (hd : m.driver = some d) => ?_
    -- the driver is not barred, so it runs under the label of the selection
    have hr : m.poolLabel = some (profileLabel p) := by
      by_contra hne
      refine hs ⟨⟨config, hc⟩, fun hr => hne hr.2, fun hb => ?_⟩
      have hn := (h.exhausted (hb ▸ Option.some_ne_none _)).1
      rw [hn] at hd
      cases hd
    have ho : d.origin.map profileLabel = some (profileLabel p) := by
      rw [← hr, h.label, hd, Option.bind_some]
    obtain ⟨q, hq, hlq⟩ := Option.map_eq_some_iff.1 ho
    rw [poolConfig_eq_iff hlq (h.config d q hd hq)]
    constructor
    · intro hsa q' hq' _
      obtain rfl : q = q' := Option.some.inj (hq.symm.trans hq')
      exact hsa
    · exact fun ha => ha q hq hlq

theorem convergesAt_iff (op : Op) (m : Manager) (h : m.Consistent s) :
    ConvergesAt s op m ↔ SameUnderLabelAt s op m := by
  cases op with
  | handle op => exact Iff.rfl
  | cycle c =>
    refine forall_congr' fun _ => forall₂_congr fun p hp => ?_
    have heq : m.ensureRunning s c.ensure = m.ensurePool s c.ensure p := by
      unfold ensureRunning
      rw [Option.mem_def.1 hp]
    rw [heq]
    cases hc : s.poolConfig p with
    | error e =>
      refine iff_of_true (fun hok => ?_) fun _ hno => nomatch hno
      rw [ensurePool_of_error hc] at hok
      cases hok
    | ok config =>
      rw [← hc, ensurePool_converges_iff c.ensure h hc]
      exact ⟨fun ha _ _ => ha, fun ha => ha config hc⟩

/-- **When the manager converges.** Every successful `ensure_running` leaves the selected profile's
configuration running exactly when no cycle finds a driver under its label for another outbound. -/
theorem converges_run_iff (s : Settings) (ops : List Op) :
    Along (Op.apply s) (ConvergesAt s) ops (Manager.init s) ↔
      Along (Op.apply s) (SameUnderLabelAt s) ops (Manager.init s) :=
  along_congr (fun op _ m h => convergesAt_iff op m h) (fun op _ m h _ => consistent_apply op m h)
    init_consistent

/-- The subscription gives out a new user under the same name and endpoint. -/
theorem stale_user_after_refresh : ¬Along (Op.apply {}) (ConvergesAt {})
      [.handle (.applyPoolProfile (some (vlessProfile "a" "1"))), .cycle {},
        .handle (.applyPoolProfile (some (vlessProfile "a" "2"))), .cycle {}]
      (Manager.init {}) := by decide +kernel

end BalanSir.Xray
