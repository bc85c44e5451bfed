/-
# The subscription importer

`importer.rs`: a subscription is read line by line.
-/

import BalanSir.Common.Types
import BalanSir.Lib.Firsts
import BalanSir.Vpn.Uri
import Mathlib.Data.Char
import Mathlib.Data.List.Lex

namespace BalanSir.Vpn

open Lib List

inductive Protocol where
  | vless
  deriving DecidableEq

def Protocol.name : Protocol → Text
  | .vless => "vless".toList

def Protocol.fromScheme (scheme : Text) : Option Protocol :=
  if toAsciiLowercase (trim scheme) = "vless".toList then some .vless else none

inductive Transport where
  | tcp
  | webSocket (path : Text) (host : Option Text)
  | grpc (serviceName : Text)
  | httpUpgrade (path : Text) (host : Option Text)
  | xhttp (path : Text) (host mode extra : Option Text)
  deriving DecidableEq

def Transport.name : Transport → Text
  | .tcp => "tcp".toList
  | .webSocket _ _ => "ws".toList
  | .grpc _ => "grpc".toList
  | .httpUpgrade _ _ => "httpupgrade".toList
  | .xhttp _ _ _ _ => "xhttp".toList

def Transport.host? : Transport → Option Text
  | .webSocket _ host | .httpUpgrade _ host | .xhttp _ host _ _ => host
  | .tcp | .grpc _ => none

inductive Security where
  | none
  | tls
  | reality
  deriving DecidableEq

def Security.name : Security → Text
  | .none => "none".toList
  | .tls => "tls".toList
  | .reality => "reality".toList

structure VpnProfile where
  profileId : Text
  protocol : Protocol
  server : Text
  port : UInt16
  transport : Transport
  security : Security
  sni : Option Text
  realityPbk : Option Text
  realitySid : Option Text
  flow : Option Text
  uuid : Text
  fingerprint : Option Text
  pinnedPeerCertSha256 : Option Text
  label : Text
  source : Text
  sourceTsMs : ℤ
  deriving DecidableEq

def hexDigit (n : ℕ) : Char := Char.ofNat (if n < 10 then 48 + n else 87 + n)

def hex16 (h : UInt64) : Text :=
  (List.range 16).map fun i => hexDigit ((h.toNat >>> (4 * (15 - i))) % 16)

def stableId (protocol : Protocol) (server : Text) (port : UInt16) (transport : Transport)
    (security : Security) : Text :=
  let canonical := protocol.name ++ '|' :: toAsciiLowercase (trim server) ++
    '|' :: Nat.toDigits 10 port.toNat ++ '|' :: transport.name ++ '|' :: security.name
  hex16 (Common.fnv1a64 (encode canonical))

def validHost (host : Text) : Bool :=
  let h := trim host
  if h = [] ∨ byteLen h > 253 then false
  else if (Net.IpAddr.ofText (String.ofList h)).isSome then true
  else
    let lower := toAsciiLowercase h
    if lower.any fun c => !isAsciiAlphanumeric c && c != '.' && c != '-' then false
    else
      let labels := (lower.splitOn '.').filter (· ≠ [])
      if labels = [] ∨ labels.length > 4 then false
      else labels.all fun l => byteLen l ≤ 63 && !startsWith l ['-'] && l.getLast? != some '-'

def nonEmpty (value : Option Text) : Option Text := value.filter (· ≠ [])

variable (uri : ParsedUri)

def transportPath (transport : String) : Except Text Text :=
  let path := (uri.get "path").getD ['/']
  if startsWith path ['/'] then .ok path
  else .error (transport.toList ++ " path must start with '/'".toList)

def parseTransport : Except Text Transport := do
  let type := (uri.get "type").getD "tcp".toList
  if type = "tcp".toList ∨ type = [] then return .tcp
  else if type = "ws".toList ∨ type = "websocket".toList then
    let path ← transportPath uri "ws"
    return .webSocket path (nonEmpty (uri.get "host"))
  else if type = "grpc".toList then return .grpc ((uri.get "serviceName").getD [])
  else if type = "httpupgrade".toList ∨ type = "http_upgrade".toList then
    let path ← transportPath uri "httpupgrade"
    return .httpUpgrade path (nonEmpty (uri.get "host"))
  else if type = "xhttp".toList ∨ type = "splithttp".toList ∨ type = "split_http".toList then
    let path ← transportPath uri "xhttp"
    return .xhttp path (nonEmpty (uri.get "host")) (nonEmpty (uri.get "mode"))
      (nonEmpty (uri.get "extra"))
  else throw ("unsupported transport type '".toList ++ type ++ "'".toList)

def parseSecurity : Except Text Security :=
  let security := (uri.get "security").getD "none".toList
  if security = "none".toList ∨ security = [] ∨ security = "false".toList then .ok .none
  else if security = "tls".toList then .ok .tls
  else if security = "reality".toList then .ok .reality
  else .error ("unsupported security '".toList ++ security ++ "'".toList)

def parsePins : Except Text (Option Text) :=
  match nonEmpty ((uri.get "pinSHA256").or (uri.get "pinnedPeerCertSha256")) with
  | none => .ok none
  | some s =>
    let parts := (s.splitOn ',').map trim
    if parts.all fun p => byteLen p = 64 ∧ p.all isAsciiHexdigit then
      .ok (some ([','].intercalate parts))
    else .error ("invalid certificate pin sha256: ".toList ++ s)

def parseLine (line : Text) (source : Text) (sourceTsMs : ℤ) : Except Text VpnProfile := do
  let line := trim line
  if line = [] ∨ startsWith line ['#'] then throw "empty or comment".toList
  let uri ← match parse line with
    | some uri => pure uri
    | none => throw "malformed URI".toList
  let protocol ← match Protocol.fromScheme uri.scheme with
    | some protocol => pure protocol
    | none => throw ("unsupported scheme '".toList ++ uri.scheme ++ "'".toList)
  if !validHost uri.host then throw ("invalid host '".toList ++ uri.host ++ "'".toList)
  let port ← match uri.port.filter (0 < ·) with
    | some port => pure port
    | none => throw "missing or invalid port".toList
  let uuid := trim uri.userinfo
  if uuid = [] ∨ byteLen uuid < 8 then throw "missing or too-short credential".toList
  let transport ← parseTransport uri
  let security ← parseSecurity uri
  let sni := (nonEmpty (uri.get "sni")).or (nonEmpty transport.host?)
  if security ≠ .none ∧ sni = none then throw "TLS/reality requires a non-empty sni".toList
  let pinnedPeerCertSha256 ← parsePins uri
  let label := uri.fragment.getD []
  return {
    profileId := stableId protocol uri.host port transport security
    protocol, server := uri.host, port, transport, security, sni
    realityPbk := nonEmpty (uri.get "pbk")
    realitySid := nonEmpty (uri.get "sid")
    flow := nonEmpty (uri.get "flow")
    uuid
    fingerprint := nonEmpty (uri.get "fp")
    pinnedPeerCertSha256
    label := if trim label = [] then uri.host else label
    source, sourceTsMs }

structure RejectedProfile where
  line : Text
  reason : Text
  deriving DecidableEq

structure ImportResult where
  profiles : List VpnProfile := []
  rejected : List RejectedProfile := []
  duplicatesSkipped : ℕ := 0
  deriving DecidableEq

def truncate (s : Text) (n : ℕ) : Text :=
  if s.length > n then s.take n ++ [Char.ofNat 0x2026] else s

variable (source : Text) (sourceTsMs : ℤ)

def importLine (state : List Text × ImportResult) (line : Text) : List Text × ImportResult :=
  let (seen, result) := state
  let line := trim line
  if line = [] ∨ startsWith line ['#'] then (seen, result)
  else
    match parseLine line source sourceTsMs with
    | .ok profile =>
      if profile.profileId ∈ seen then
        (seen, { result with duplicatesSkipped := result.duplicatesSkipped + 1 })
      else (profile.profileId :: seen, { result with profiles := result.profiles ++ [profile] })
    | .error reason =>
      (seen, { result with rejected := result.rejected ++ [⟨truncate line 120, reason⟩] })

def importLines (body : List Text) : ImportResult :=
  let result := (body.foldl (importLine source sourceTsMs) ([], {})).2
  { result with profiles := result.profiles.insertionSort fun a b => a.profileId ≤ b.profileId }

def importSubscription (body : Text) : ImportResult := importLines source sourceTsMs (lines body)

def parsed (line : Text) : Option VpnProfile :=
  let line := trim line
  if line = [] ∨ startsWith line ['#'] then none
  else (parseLine line source sourceTsMs).toOption

variable {source sourceTsMs} {line : Text}

theorem importLine_of_none (h : parsed source sourceTsMs line = none) (seen : List Text)
    (result : ImportResult) :
    ∃ result', importLine source sourceTsMs (seen, result) line = (seen, result') ∧
      result'.profiles = result.profiles := by
  unfold parsed at h
  unfold importLine
  by_cases hb : trim line = [] ∨ startsWith (trim line) ['#']
  · exact ⟨result, if_pos hb, rfl⟩
  · simp only [if_neg hb] at h ⊢
    cases hp : parseLine (trim line) source sourceTsMs with
    | error reason => exact ⟨_, rfl, rfl⟩
    | ok profile => simp [hp, Except.toOption] at h

theorem importLine_of_some {profile : VpnProfile} (h : parsed source sourceTsMs line = some profile)
    (seen : List Text) (result : ImportResult) : importLine source sourceTsMs (seen, result) line =
      if profile.profileId ∈ seen then
        (seen, { result with duplicatesSkipped := result.duplicatesSkipped + 1 })
      else
        (profile.profileId :: seen, { result with profiles := result.profiles ++ [profile] }) := by
  unfold parsed at h
  unfold importLine
  by_cases hb : trim line = [] ∨ startsWith (trim line) ['#']
  · simp [hb] at h
  · simp only [if_neg hb] at h ⊢
    cases hp : parseLine (trim line) source sourceTsMs with
    | error reason => simp [hp, Except.toOption] at h
    | ok profile' =>
      rw [hp] at h
      cases h
      rfl

variable (body : List Text)

theorem foldl_importLine_profiles (seen : List Text) (result : ImportResult) :
    (body.foldl (importLine source sourceTsMs) (seen, result)).2.profiles =
      result.profiles ++
        firstsFrom VpnProfile.profileId seen (body.filterMap (parsed source sourceTsMs)) := by
  induction body generalizing seen result with
  | nil => simp [firstsFrom]
  | cons line body ih =>
    rw [foldl_cons, filterMap_cons]
    cases h : parsed source sourceTsMs line with
    | none =>
      obtain ⟨result', hl, hp⟩ := importLine_of_none h seen result
      rw [hl, ih, hp]
    | some profile =>
      rw [importLine_of_some h, firstsFrom]
      split_ifs with hs
      · exact ih _ _
      · rw [ih, append_assoc, singleton_append]

/-- **What is imported:** the first profile of each id, sorted. -/
theorem importLines_profiles : (importLines source sourceTsMs body).profiles =
      sortedFirsts VpnProfile.profileId (body.filterMap (parsed source sourceTsMs)) := by
  unfold importLines sortedFirsts firsts
  simp only [foldl_importLine_profiles, nil_append]

theorem filterMap_parsed_eq : body.filterMap (parsed source sourceTsMs) =
      ((body.map trim).filter (· ≠ [])).filterMap fun line =>
        if startsWith line ['#'] then none else (parseLine line source sourceTsMs).toOption := by
  induction body with
  | nil => rfl
  | cons line body ih =>
    rw [filterMap_cons, ih]
    unfold parsed
    by_cases hb : trim line = []
    · simp [hb]
    · simp [hb, filterMap_cons]

theorem importLines_newline (body : Text) :
    (importLines source sourceTsMs (lines (body ++ ['\n']))).profiles =
      (importLines source sourceTsMs (lines body)).profiles := by
  rw [importLines_profiles, importLines_profiles, filterMap_parsed_eq, trim_lines_newline,
    ← filterMap_parsed_eq]

def sniOf (uri : ParsedUri) (transport : Transport) : Option Text :=
  (nonEmpty (uri.get "sni")).or (nonEmpty transport.host?)

/-- The checks of `parse_line`, with what they find. -/
structure Checks (line : Text) (uri : ParsedUri) (protocol : Protocol) (port : UInt16)
    (transport : Transport) (security : Security) (pins : Option Text) : Prop where
  counts : ¬(trim line = [] ∨ startsWith (trim line) ['#'])
  parse_eq : parse (trim line) = some uri
  protocol_eq : Protocol.fromScheme uri.scheme = some protocol
  host : validHost uri.host = true
  port_eq : uri.port.filter (0 < ·) = some port
  credential : ¬(trim uri.userinfo = [] ∨ byteLen (trim uri.userinfo) < 8)
  transport_eq : parseTransport uri = .ok transport
  security_eq : parseSecurity uri = .ok security
  sni_of_security : ¬(security ≠ .none ∧ sniOf uri transport = none)
  pins_eq : parsePins uri = .ok pins

def profileOf (uri : ParsedUri) (protocol : Protocol) (port : UInt16) (transport : Transport)
    (security : Security) (pins : Option Text) (source : Text) (sourceTsMs : ℤ) : VpnProfile where
  profileId := stableId protocol uri.host port transport security
  protocol := protocol
  server := uri.host
  port := port
  transport := transport
  security := security
  sni := sniOf uri transport
  realityPbk := nonEmpty (uri.get "pbk")
  realitySid := nonEmpty (uri.get "sid")
  flow := nonEmpty (uri.get "flow")
  uuid := trim uri.userinfo
  fingerprint := nonEmpty (uri.get "fp")
  pinnedPeerCertSha256 := pins
  label := if trim (uri.fragment.getD []) = [] then uri.host else uri.fragment.getD []
  source := source
  sourceTsMs := sourceTsMs

variable {p : VpnProfile}

/-- **A line is accepted** when it passes every check. -/
theorem parseLine_eq_ok_iff : parseLine line source sourceTsMs = .ok p ↔
      ∃ uri protocol port transport security pins,
        Checks line uri protocol port transport security pins ∧
        p = profileOf uri protocol port transport security pins source sourceTsMs := by
  simp only [parseLine, bind, Except.bind, pure, Except.pure, throw, throwThe, MonadExceptOf.throw]
  constructor
  · intro h
    -- every way through the checks ends in an error or in the profile, with its label or the host
    repeat' split at h
    all_goals cases h
    all_goals
      rename_i hb _ uri hpa _ protocol hp hh _ port hpo hu _ transport
        ht _ security hs hsn _ pins hpi hl
      refine ⟨uri, protocol, port, transport, security, pins, ⟨hb, hpa, hp,
        by simpa using hh, hpo, hu, ht, hs, hsn, hpi⟩, ?_⟩
      simp [profileOf, sniOf, hl]
  · rintro ⟨uri, protocol, port, transport, security, pins, h, rfl⟩
    have hh : ¬(!validHost uri.host) := by simp [h.host]
    have hsn := h.sni_of_security
    unfold sniOf at hsn
    rw [if_neg h.counts, h.parse_eq]
    dsimp only
    rw [h.protocol_eq]
    dsimp only
    rw [if_neg hh, h.port_eq]
    dsimp only
    rw [if_neg h.credential, h.transport_eq]
    rw [h.security_eq]
    dsimp only
    rw [if_neg hsn, h.pins_eq]
    rfl

/-- What an accepted line says. -/
structure Accepted (line source : Text) (uri : ParsedUri) (p : VpnProfile) : Prop where
  parsed : parse (trim line) = some uri
  validHost : validHost uri.host = true
  server : p.server = uri.host
  port : p.port ≠ 0
  transport : parseTransport uri = .ok p.transport
  security : parseSecurity uri = .ok p.security
  sni : p.sni = (nonEmpty (uri.get "sni")).or (nonEmpty p.transport.host?)
  sni_of_security : p.security ≠ .none → p.sni ≠ none
  realityPbk : p.realityPbk = nonEmpty (uri.get "pbk")
  fingerprint : p.fingerprint = nonEmpty (uri.get "fp")
  source : p.source = source

theorem accepted_of_parseLine (h : parseLine line source sourceTsMs = .ok p) :
    ∃ uri, Accepted line source uri p := by
  obtain ⟨uri, protocol, port, transport, security, pins, hc, rfl⟩ :=
    parseLine_eq_ok_iff.1 h
  have hne : port ≠ 0 := by
    rintro rfl
    exact absurd (Option.filter_eq_some_iff.1 hc.port_eq).2 (by decide)
  exact ⟨uri, hc.parse_eq, hc.host, rfl, hne, hc.transport_eq,
    hc.security_eq, rfl, fun hs hn => hc.sni_of_security ⟨hs, hn⟩, rfl, rfl, rfl⟩

theorem source_of_parseLine (h : parseLine line source sourceTsMs = .ok p) : p.source = source := by
  obtain ⟨uri, ha⟩ := accepted_of_parseLine h
  exact ha.source

theorem source_of_mem_importLines {body : List Text}
    (h : p ∈ (importLines source sourceTsMs body).profiles) : p.source = source := by
  rw [importLines_profiles, mem_sortedFirsts] at h
  obtain ⟨line, -, hp⟩ := List.mem_filterMap.1 (mem_of_mem_firsts h)
  simp only [parsed] at hp
  split_ifs at hp
  cases hl : parseLine (trim line) source sourceTsMs with
  | error reason => simp [hl, Except.toOption] at hp
  | ok p' =>
    rw [hl] at hp
    cases hp
    exact source_of_parseLine hl

end BalanSir.Vpn
