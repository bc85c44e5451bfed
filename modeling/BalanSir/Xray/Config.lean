/-
# The Xray configuration of a profile

`profile_to_xray_config` and `XrayConfig::validate`.
-/

import BalanSir.Lib.Prog
import BalanSir.Vpn.Importer

namespace BalanSir.Xray

open Lib Vpn

inductive XrayTransport where
  | tcp
  | webSocket (path : Text) (host : Option Text)
  | grpc (serviceName : Text)
  | httpUpgrade (path : Text) (host : Option Text)
  | xhttp (path : Text) (host mode extra : Option Text)
  deriving DecidableEq

structure XrayTls where
  serverName : Text
  pinnedPeerCertSha256 : Option Text
  verifyPeerCertByName : Option Text
  allowInsecure : Bool
  deriving DecidableEq

structure XrayReality where
  serverName : Text
  fingerprint : Text
  publicKey : Text
  shortId : Text
  spiderX : Text
  deriving DecidableEq

inductive XraySecurity where
  | none
  | tls (tls : XrayTls)
  | reality (reality : XrayReality)
  deriving DecidableEq

structure XrayConfig where
  server : Text
  port : UInt16
  uuid : Text
  flow : Option Text
  transport : XrayTransport
  security : XraySecurity
  name : Option Text
  socksPort : UInt16
  httpPort : UInt16
  geoDomains : List Text
  deriving DecidableEq

inductive ConfigInvalid where
  | server
  | portZero
  | samePorts
  | path (path : Text)
  | grpcServiceName
  | tlsServerName
  | allowInsecure
  | realityServerName
  | realityPublicKey
  | realityFingerprint
  deriving DecidableEq

def ConfigInvalid.toText (debug : Text → Text) : ConfigInvalid → Text
  | .server => "xray server address missing or too long".toList
  | .portZero => "xray ports must be non-zero".toList
  | .samePorts => "xray socks and http inbound ports must differ".toList
  | .path p => "xray transport path ".toList ++ debug p ++ " must start with '/'".toList
  | .grpcServiceName => "xray grpc service_name must not be empty".toList
  | .tlsServerName => "xray tls server_name must not be empty".toList
  | .allowInsecure => ("xray tls allow_insecure is not supported by Xray ≥26; " ++
      "migrate to pinned_peer_cert_sha256 (and/or verify_peer_cert_by_name)").toList
  | .realityServerName => "xray reality server_name must not be empty".toList
  | .realityPublicKey => "xray reality public_key must not be empty".toList
  | .realityFingerprint => "xray reality fingerprint must not be empty".toList

def XrayTransport.validate : XrayTransport → Except ConfigInvalid Unit
  | .webSocket path _ | .httpUpgrade path _ | .xhttp path _ _ _ =>
    if startsWith path ['/'] then .ok () else .error (.path path)
  | .grpc serviceName => if trim serviceName = [] then .error .grpcServiceName else .ok ()
  | .tcp => .ok ()

def XraySecurity.validate : XraySecurity → Except ConfigInvalid Unit
  | .none => .ok ()
  | .tls t =>
    if trim t.serverName = [] then .error .tlsServerName
    else if t.allowInsecure then .error .allowInsecure
    else .ok ()
  | .reality r =>
    if trim r.serverName = [] then .error .realityServerName
    else if trim r.publicKey = [] then .error .realityPublicKey
    else if trim r.fingerprint = [] then .error .realityFingerprint
    else .ok ()

def XrayConfig.validate (config : XrayConfig) : Except ConfigInvalid Unit := do
  if trim config.server = [] ∨ byteLen config.server > 253 then throw .server
  if config.port = 0 ∨ config.socksPort = 0 ∨ config.httpPort = 0 then throw .portZero
  if config.socksPort = config.httpPort then throw .samePorts
  config.transport.validate
  config.security.validate

variable (profile : VpnProfile)

def endpoint : Text :=
  if ':' ∈ profile.server ∧ ¬startsWith profile.server ['['] then
    '[' :: profile.server ++ "]:".toList ++ Nat.toDigits 10 profile.port.toNat
  else profile.server ++ ':' :: Nat.toDigits 10 profile.port.toNat

def profileLabel : Text :=
  profile.label ++ " @ ".toList ++ endpoint profile

def toXrayTransport : Transport → XrayTransport
  | .tcp => .tcp
  | .webSocket path host => .webSocket path host
  | .grpc serviceName => .grpc serviceName
  | .httpUpgrade path host => .httpUpgrade path host
  | .xhttp path host mode extra => .xhttp path host mode extra

def toXraySecurity : Except Text XraySecurity :=
  match profile.security with
  | .none => .ok .none
  | .tls => .ok (.tls {
      serverName := profile.sni.getD profile.server
      pinnedPeerCertSha256 := profile.pinnedPeerCertSha256
      verifyPeerCertByName := none
      allowInsecure := false })
  | .reality =>
    match profile.realityPbk with
    | none => .error "reality profile missing public key".toList
    | some pbk => .ok (.reality {
        serverName := profile.sni.getD profile.server
        fingerprint := profile.fingerprint.getD "chrome".toList
        publicKey := pbk
        shortId := profile.realitySid.getD []
        spiderX := [] })

def profileToXrayConfig (fallbackSocks fallbackHttp : UInt16) : Except Text XrayConfig := do
  let security ← toXraySecurity profile
  return {
    server := profile.server
    port := profile.port
    uuid := profile.uuid
    flow := profile.flow
    transport := toXrayTransport profile.transport
    security
    name := some (profileLabel profile)
    socksPort := fallbackSocks
    httpPort := fallbackHttp
    geoDomains := [] }

theorem XrayConfig.validate_eq_ok {config : XrayConfig} :
    config.validate = .ok () ↔ (trim config.server ≠ [] ∧ byteLen config.server ≤ 253) ∧
      (config.port ≠ 0 ∧ config.socksPort ≠ 0 ∧ config.httpPort ≠ 0) ∧
      config.socksPort ≠ config.httpPort ∧ config.transport.validate = .ok () ∧
      config.security.validate = .ok () := by
  unfold validate
  by_cases hs : trim config.server = [] ∨ byteLen config.server > 253
  · rw [if_pos hs]
    exact ⟨nofun, fun h => absurd hs (not_or.2 ⟨h.1.1, h.1.2.not_gt⟩)⟩
  rw [if_neg hs]
  by_cases hp : config.port = 0 ∨ config.socksPort = 0 ∨ config.httpPort = 0
  · rw [if_pos hp]
    refine ⟨nofun, fun h => absurd hp ?_⟩
    rw [not_or, not_or]
    exact h.2.1
  rw [if_neg hp]
  by_cases he : config.socksPort = config.httpPort
  · rw [if_pos he]
    exact ⟨nofun, fun h => absurd he h.2.2.1⟩
  rw [if_neg he]
  rw [not_or, not_lt] at hs
  rw [not_or, not_or] at hp
  cases ht : config.transport.validate with
  | error e => exact ⟨nofun, fun h => nomatch h.2.2.2.1⟩
  | ok _ => exact ⟨fun h => ⟨hs, hp, he, rfl, h⟩, fun h => h.2.2.2.2⟩

/-- The host is short, and what `grpc`, `tls` or `reality` needs is not blank. -/
structure RuntimeReady (uri : ParsedUri) : Prop where
  host : byteLen uri.host ≤ 253
  serviceName : uri.get "type" = some "grpc".toList →
    trim ((uri.get "serviceName").getD []) ≠ []
  sni : uri.get "security" = some "tls".toList ∨ uri.get "security" = some "reality".toList →
    ∀ sni, (nonEmpty (uri.get "sni")).or (nonEmpty (uri.get "host")) = some sni → trim sni ≠ []
  publicKey : uri.get "security" = some "reality".toList →
    ∃ pbk, uri.get "pbk" = some pbk ∧ trim pbk ≠ []
  fingerprint : uri.get "security" = some "reality".toList →
    ∀ fp, uri.get "fp" = some fp → fp = [] ∨ trim fp ≠ []

theorem nonEmpty_eq_some {value : Option Text} {text : Text} :
    nonEmpty value = some text ↔ value = some text ∧ text ≠ [] := by
  simp [nonEmpty]

theorem ne_nil_of_trim {text : Text} (h : trim text ≠ []) : text ≠ [] := by
  rintro rfl
  exact h rfl

variable {uri : ParsedUri}

theorem startsWith_of_transportPath {transport : String} {path : Text}
    (h : transportPath uri transport = .ok path) : startsWith path ['/'] := by
  unfold transportPath at h
  dsimp only at h
  split_ifs at h with hp
  cases h
  exact hp

variable {transport : Transport}

theorem validate_of_transportPath {name : String} {make : Text → Transport}
    (h : (do let path ← transportPath uri name; return make path) = Except.ok transport)
    (hm : ∀ path, startsWith path ['/'] →
      (toXrayTransport (make path)).validate = .ok ()) :
    (toXrayTransport transport).validate = .ok () := by
  cases hp : transportPath uri name with
  | error e =>
    rw [hp] at h
    cases h
  | ok path =>
    rw [hp] at h
    cases h
    exact hm path (startsWith_of_transportPath hp)

theorem validate_toXrayTransport (h : parseTransport uri = .ok transport) :
    (toXrayTransport transport).validate = .ok () ↔
      (uri.get "type" = some "grpc".toList → trim ((uri.get "serviceName").getD []) ≠ []) := by
  unfold parseTransport at h
  dsimp only at h
  generalize ht : (uri.get "type").getD "tcp".toList = type at h
  have hgr : uri.get "type" = some "grpc".toList ↔ type = "grpc".toList := by
    rw [← ht]
    cases uri.get "type" with
    | none => exact ⟨nofun, fun he => absurd he (by decide)⟩
    | some text => simp
  -- of another transport nothing is asked, and its path starts with a slash
  have ho : type ≠ "grpc".toList → (toXrayTransport transport).validate = .ok () →
      ((toXrayTransport transport).validate = .ok () ↔
        (type = "grpc".toList → trim ((uri.get "serviceName").getD []) ≠ [])) :=
    fun hne hok => ⟨fun _ he => absurd he hne, fun _ => hok⟩
  rw [hgr]
  split_ifs at h with htc hws hg hup hx
  · cases h
    exact ho (by rcases htc with rfl | rfl <;> decide) rfl
  · exact ho (by rcases hws with rfl | rfl <;> decide)
      (validate_of_transportPath h fun _ hp => if_pos hp)
  · cases h
    simp [hg, toXrayTransport, XrayTransport.validate]
  · exact ho (by rcases hup with rfl | rfl <;> decide)
      (validate_of_transportPath h fun _ hp => if_pos hp)
  · exact ho (by rcases hx with rfl | rfl | rfl <;> decide)
      (validate_of_transportPath h fun _ hp => if_pos hp)

theorem host?_of_parseTransport (h : parseTransport uri = .ok transport) :
    transport.host? = none ∨ transport.host? = nonEmpty (uri.get "host") := by
  simp only [parseTransport, bind, Except.bind] at h
  repeat' split at h
  all_goals cases h
  all_goals first | exact Or.inl rfl | exact Or.inr rfl

variable {p : VpnProfile} {source line : Text}

theorem sni_of_accepted (h : Accepted line source uri p) {sni : Text} (hsn : p.sni = some sni) :
    (nonEmpty (uri.get "sni")).or (nonEmpty (uri.get "host")) = some sni := by
  rw [h.sni] at hsn
  cases hs : nonEmpty (uri.get "sni") with
  | some text =>
    rw [hs] at hsn
    exact hsn
  | none =>
    rw [hs, Option.none_or] at hsn
    rcases host?_of_parseTransport h.transport with hh | hh
    · rw [hh] at hsn
      cases hsn
    · rw [hh, nonEmpty_eq_some] at hsn
      exact hsn.1

theorem parseSecurity_eq {security : Security} (h : parseSecurity uri = .ok security) :
    (uri.get "security" = some "tls".toList ↔ security = .tls) ∧
      (uri.get "security" = some "reality".toList ↔ security = .reality) := by
  unfold parseSecurity at h
  dsimp only at h
  cases hs : uri.get "security" with
  | none =>
    rw [hs] at h
    cases h
    simp
  | some text =>
    rw [hs] at h
    split_ifs at h with hn ht hr
    · cases h
      rcases hn with rfl | rfl | rfl <;> decide
    · cases h
      subst ht
      decide
    · cases h
      subst hr
      decide

theorem validate_reality {r : XrayReality} : (XraySecurity.reality r).validate = .ok () ↔
      trim r.serverName ≠ [] ∧ trim r.publicKey ≠ [] ∧ trim r.fingerprint ≠ [] := by
  simp only [XraySecurity.validate]
  split_ifs with hs hp hf
  · exact ⟨nofun, fun h => absurd hs h.1⟩
  · exact ⟨nofun, fun h => absurd hp h.2.1⟩
  · exact ⟨nofun, fun h => absurd hf h.2.2⟩
  · exact ⟨fun _ => ⟨hs, hp, hf⟩, fun _ => rfl⟩

theorem validate_toXraySecurity (h : Accepted line source uri p) :
    (∃ security, toXraySecurity p = .ok security ∧ security.validate = .ok ()) ↔
      (p.security ≠ .none → ∀ sni, p.sni = some sni → trim sni ≠ []) ∧
      (p.security = .reality → (∃ pbk, p.realityPbk = some pbk ∧ trim pbk ≠ []) ∧
        ∀ fp, p.fingerprint = some fp → trim fp ≠ []) := by
  have hso := h.sni_of_security
  unfold toXraySecurity
  cases hs : p.security with
  | none => simp [XraySecurity.validate]
  | tls =>
    obtain ⟨sni, hsn⟩ := Option.ne_none_iff_exists'.1 (hso (by simp [hs]))
    simp [XraySecurity.validate, hsn]
  | reality =>
    obtain ⟨sni, hsn⟩ := Option.ne_none_iff_exists'.1 (hso (by simp [hs]))
    cases hp : p.realityPbk with
    | none => simp
    | some pbk =>
      have hc : trim ['c', 'h', 'r', 'o', 'm', 'e'] ≠ [] := by decide
      cases hfp : p.fingerprint with
      | none => simp [validate_reality, hsn, hc]
      | some fp => simp [validate_reality, hsn]

theorem trim_ne_nil_of_validHost {host : Text} (h : validHost host) : trim host ≠ [] := by
  unfold validHost at h
  intro he
  simp [he] at h

theorem runs_iff_of_accepted {socks htt : UInt16} (h : Accepted line source uri p)
    (hso : socks ≠ 0) (hh : htt ≠ 0) (hne : socks ≠ htt) :
    (∃ config, profileToXrayConfig p socks htt = .ok config ∧ config.validate = .ok ()) ↔
      byteLen uri.host ≤ 253 ∧ (toXrayTransport p.transport).validate = .ok () ∧
        ∃ security, toXraySecurity p = .ok security ∧ security.validate = .ok () := by
  have hho : trim p.server ≠ [] := by
    rw [h.server]
    exact trim_ne_nil_of_validHost h.validHost
  unfold profileToXrayConfig
  cases hs : toXraySecurity p with
  | error e =>
    constructor
    · rintro ⟨_, ⟨⟩, -⟩
    · rintro ⟨-, -, _, ⟨⟩, -⟩
  | ok security =>
    constructor
    · rintro ⟨config, ⟨⟩, hv⟩
      obtain ⟨⟨-, hl⟩, -, -, ht, hse⟩ := XrayConfig.validate_eq_ok.1 hv
      exact ⟨h.server ▸ hl, ht, security, rfl, hse⟩
    · rintro ⟨hl, ht, _, ⟨⟩, hse⟩
      refine ⟨_, rfl, XrayConfig.validate_eq_ok.2 ?_⟩
      exact ⟨⟨hho, h.server ▸ hl⟩, ⟨h.port, hso, hh⟩, hne, ht, hse⟩

/-- **When an imported profile can run:** exactly when the URI has what the runtime asks for. -/
theorem runs_parseLine_iff {line source : Text} {sourceTsMs : ℤ} {p : VpnProfile}
    {uri : ParsedUri} {socks http : UInt16} (h : parseLine line source sourceTsMs = .ok p)
    (huri : parse (trim line) = some uri) (hsocks : socks ≠ 0) (hhttp : http ≠ 0)
    (hne : socks ≠ http) :
    (∃ config, profileToXrayConfig p socks http = .ok config ∧ config.validate = .ok ()) ↔
      RuntimeReady uri := by
  obtain ⟨uri', ha⟩ := accepted_of_parseLine h
  obtain rfl : uri' = uri := Option.some.inj (ha.parsed.symm.trans huri)
  obtain ⟨htl, hre⟩ := parseSecurity_eq ha.security
  have hla : uri'.get "security" = some "tls".toList ∨
      uri'.get "security" = some "reality".toList ↔ p.security ≠ .none := by
    rw [htl, hre]
    cases p.security <;> simp
  rw [runs_iff_of_accepted ha hsocks hhttp hne, validate_toXrayTransport ha.transport,
    validate_toXraySecurity ha]
  constructor
  · rintro ⟨hh, hse, hsn, hk⟩
    constructor
    · exact hh
    · exact hse
    · intro hl sni hs
      rw [hla] at hl
      obtain ⟨sni', hs'⟩ := Option.ne_none_iff_exists'.1 (ha.sni_of_security hl)
      obtain rfl : sni' = sni := Option.some.inj ((sni_of_accepted ha hs').symm.trans hs)
      exact hsn hl sni' hs'
    · intro hr
      obtain ⟨pbk, hp, ht⟩ := (hk (hre.1 hr)).1
      rw [ha.realityPbk, nonEmpty_eq_some] at hp
      exact ⟨pbk, hp.1, ht⟩
    · intro hr fp hfp
      by_cases he : fp = []
      · exact Or.inl he
      · refine Or.inr ((hk (hre.1 hr)).2 fp ?_)
        rw [ha.fingerprint, nonEmpty_eq_some]
        exact ⟨hfp, he⟩
  · intro hrea
    refine ⟨hrea.host, hrea.serviceName, fun hl sni hs => ?_, fun hr => ⟨?_, fun fp hfp => ?_⟩⟩
    · exact hrea.sni (hla.2 hl) sni (sni_of_accepted ha hs)
    · obtain ⟨pbk, hp, ht⟩ := hrea.publicKey (hre.2 hr)
      refine ⟨pbk, ?_, ht⟩
      rw [ha.realityPbk, nonEmpty_eq_some]
      exact ⟨hp, ne_nil_of_trim ht⟩
    · rw [ha.fingerprint, nonEmpty_eq_some] at hfp
      exact (hrea.fingerprint (hre.2 hr) fp hfp.1).resolve_left hfp.2

def plainLine : Text := "vless://11111111@h.example:443?type=tcp#plain".toList

def grpcLine : Text := "vless://11111111@h.example:443?type=grpc#grpc".toList

def plainUri : ParsedUri :=
  { scheme := "vless".toList, userinfo := "11111111".toList, host := "h.example".toList,
    port := some 443, query := [("type".toList, "tcp".toList)], fragment := some "plain".toList }

theorem runs_plainLine : ∃ p, parseLine plainLine [] 0 = .ok p ∧
    ∃ config, profileToXrayConfig p 10808 10809 = .ok config ∧ config.validate = .ok () := by
  have ha : ∃ p, parseLine plainLine [] 0 = .ok p ∧ p.security = .none := by decide +kernel
  obtain ⟨p, hp, -⟩ := ha
  have hr : RuntimeReady plainUri := by
    constructor
    · decide
    · exact fun h => absurd h (by decide)
    · exact fun h => absurd h (by decide)
    · exact fun h => absurd h (by decide)
    · exact fun h => absurd h (by decide)
  exact ⟨p, hp, (runs_parseLine_iff hp (by decide +kernel) (by decide) (by decide) (by decide)).2
    hr⟩

theorem grpcLine_refused : ∃ p, parseLine grpcLine [] 0 = .ok p ∧
    ∃ config, profileToXrayConfig p 10808 10809 = .ok config ∧
      config.validate = .error .grpcServiceName := by decide +kernel

end BalanSir.Xray
