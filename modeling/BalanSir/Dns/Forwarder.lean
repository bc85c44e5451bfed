/-
# The forward loop

`forward_query` and the loop of `dns.rs`: filter, cache, proxy or upstream.
-/

import BalanSir.Dns.Filter
import BalanSir.Lib.Prog
import BalanSir.Lib.Run
import BalanSir.Lib.Table

namespace BalanSir.Dns

open Lib List Option

inductive SocketAddr where
  | v4 (ip : BitVec 32) (port : UInt16)
  | v6 (ip : BitVec 128) (port : UInt16) (flowinfo scopeId : UInt32)
  deriving DecidableEq

inductive ConnectError where
  | io
  | handshakeFailed
  | udpAssociateFailed
  | shortIpv4
  | shortIpv6
  | unsupportedAtyp
  deriving DecidableEq

def beNat (bytes : List UInt8) : ℕ := bytes.foldl (fun n b => n * 256 + b.toNat) 0

def parseSocks5Addr (bytes : List UInt8) : Except ConnectError SocketAddr :=
  match bytes.getD 0 0 with
  | 0x01 =>
    if bytes.length < 6 then .error .shortIpv4
    else .ok (.v4 (.ofNat 32 (beNat ((bytes.drop 1).take 4)))
      (.ofNat (beNat ((bytes.drop 5).take 2))))
  | 0x04 =>
    if bytes.length < 18 then .error .shortIpv6
    else .ok (.v6 (.ofNat 128 (beNat ((bytes.drop 1).take 16)))
      (.ofNat (beNat ((bytes.drop 18).take 2))) 0 0)
  | _ => .error .unsupportedAtyp

/-- What a proxy answers to an association, whether in time, and whether there are sockets. -/
structure Association where
  reached : Bool := true
  sent : List UInt8 := []
  inTime : Bool := true
  sockets : Bool := true
  deriving DecidableEq

/-- `Socks5UdpRelay`, with the proxy it was made with. -/
structure Relay where
  proxy : SocketAddr
  relayAddr : SocketAddr
  deriving DecidableEq

def boundAddr (a : Association) : Except ConnectError SocketAddr :=
  if ¬a.reached ∨ a.sent.length < 2 then .error .io
  else if a.sent.getD 0 0 ≠ 0x05 ∨ a.sent.getD 1 0 ≠ 0x00 then .error .handshakeFailed
  else
    let resp := (a.sent.drop 2).take 10
    if resp.length < 10 then .error .io
    else if resp.getD 0 0 ≠ 0x05 ∨ resp.getD 1 0 ≠ 0x00 then .error .udpAssociateFailed
    else parseSocks5Addr (resp.drop 3)

def connect (proxy : SocketAddr) (a : Association) : Except ConnectError Relay :=
  match boundAddr a with
  | .error e => .error e
  | .ok relayAddr => if a.sockets then .ok ⟨proxy, relayAddr⟩ else .error .io

def associate (proxy : SocketAddr) (a : Association) : Option Relay :=
  if a.inTime then (connect proxy a).toOption else none

def cacheTtl : ℕ := 30 * 1000000000

abbrev DnsCache := Table (List UInt8) (List UInt8 × ℕ)

def DnsCache.get (cache : DnsCache) (query : List UInt8) (now : ℕ) :
    Option (List UInt8) × DnsCache :=
  match cache.lookup query with
  | some (response, expires) =>
    if now < expires then (some response, cache) else (none, cache.erase query)
  | none => (none, cache)

def DnsCache.put (cache : DnsCache) (query response : List UInt8) (cap now : ℕ) : DnsCache :=
  if cap = 0 then cache
  else
    let cache :=
      if cap ≤ cache.size then
        let fresh := cache.retain fun _ entry => now < entry.2
        if cap ≤ fresh.size then ∅ else fresh
      else cache
    cache.insert query (response, now + cacheTtl)

def nxdomainResponse (query : List UInt8) : List UInt8 :=
  let resp := if 4 ≤ query.length then
    (query.set 2 ((query.getD 2 0 &&& 0x78) ||| 0x80)).set 3 ((query.getD 3 0 &&& 0x07) ||| 0x03)
    else query
  [6, 7, 8, 9, 10, 11].foldl (fun resp i => resp.set i 0) resp

/-- What `start` gives the loop: there is always an upstream. -/
structure Setup where
  upstreams : List SocketAddr
  cacheSize : ℕ
  filter : DnsFilterSets
  upstreams_ne : upstreams ≠ []

def defaultUpstream : SocketAddr := .v4 0x01010101 53

def Setup.ofConfig (upstreams : List SocketAddr) (cacheSize : ℕ)
    (blocklist allowlist : List Text) : Setup where
  upstreams := if upstreams = [] then [defaultUpstream] else upstreams
  cacheSize := cacheSize
  filter := .ofLists blocklist allowlist
  upstreams_ne := by
    split_ifs with h
    · exact cons_ne_nil _ _
    · exact h

/-- A query that is being forwarded, and how many upstreams have been tried. -/
structure Forwarding where
  query : List UInt8
  peer : SocketAddr
  offset : ℕ
  deriving DecidableEq

inductive Event where
  | reply (peer : SocketAddr) (response : List UInt8)
  | lookup (query : List UInt8)
  | store (query response : List UInt8)
  | upstream (relay : Option Relay) (upstream : SocketAddr) (query : List UInt8)
  deriving DecidableEq

/-- The state of the loop, with the shared setting `vpn_proxy`. -/
structure Forwarder where
  vpnProxy : Option SocketAddr := none
  lastProxyAddr : Option SocketAddr := none
  socks5Relay : Option Relay := none
  roundRobin : ℕ := 0
  cache : DnsCache := ∅
  current : Option Forwarding := none
  events : List Event := []

namespace Forwarder

variable (cfg : Setup) (f : Forwarder)

def refreshRelay (a : Association) : Forwarder :=
  if f.vpnProxy ≠ f.lastProxyAddr then
    { f with socks5Relay := f.vpnProxy.bind fun addr => associate addr a
             lastProxyAddr := f.vpnProxy }
  else f

def handle (query : List UInt8) (peer : SocketAddr) (now : ℕ) : Forwarder :=
  if cfg.filter.decision query = .block then
    { f with events := f.events ++ [.reply peer (nxdomainResponse query)] }
  else
    match f.cache.get query now with
    | (some response, cache) =>
      { f with cache := cache, events := f.events ++ [.lookup query, .reply peer response] }
    | (none, cache) =>
      { f with cache := cache, events := f.events ++ [.lookup query]
               current := some ⟨query, peer, 0⟩ }

def receive (datagram : List UInt8) (peer : SocketAddr) (a : Association) (now : ℕ) : Forwarder :=
  let query := datagram.take 4096
  if f.current.isSome ∨ query = [] then f
  else (f.refreshRelay a).handle cfg query peer now

def upstream (c : Forwarding) : SocketAddr :=
  cfg.upstreams.get ⟨(f.roundRobin + c.offset) % cfg.upstreams.length,
    Nat.mod_lt _ (length_pos_of_ne_nil cfg.upstreams_ne)⟩

def finish (c : Forwarding) (response : Option (List UInt8)) (now : ℕ) : Forwarder :=
  let f := { f with roundRobin := max (f.roundRobin + 1) 1 % cfg.upstreams.length, current := none }
  match response with
  | some r =>
    { f with cache := f.cache.put c.query r cfg.cacheSize now
             events := f.events ++ [.store c.query r, .reply c.peer r] }
  | none => f

def attempt (response : Option (List UInt8)) (now : ℕ) : Forwarder :=
  match f.current with
  | none => f
  | some c =>
    let f := { f with
      events := f.events ++ [Event.upstream f.socks5Relay (f.upstream cfg c) c.query] }
    if response.isSome ∨ cfg.upstreams.length ≤ c.offset + 1 then f.finish cfg c response now
    else { f with current := some { c with offset := c.offset + 1 } }

end Forwarder

/-- The setting changes, a datagram arrives, or an upstream is tried. -/
inductive Op where
  | setVpnProxy (addr : Option SocketAddr)
  | receive (datagram : List UInt8) (peer : SocketAddr) (a : Association) (now : ℕ)
  | attempt (accepts : SocketAddr → Bool) (response : Option (List UInt8)) (now : ℕ)

def Op.apply (cfg : Setup) (op : Op) (f : Forwarder) : Forwarder :=
  match op with
  | .setVpnProxy addr => { f with vpnProxy := addr }
  | .receive datagram peer a now => f.receive cfg datagram peer a now
  | .attempt _ response now => f.attempt cfg response now

def DnsQuery.read (q : DnsQuery) : DnsQuery :=
  { q with rest := q.rest.take (4096 - (q.header ++ (wire q.labels ++ 0 :: q.question)).length) }

theorem DnsQuery.take_bytes (q : DnsQuery) : q.bytes.take 4096 = q.read.bytes := by
  have hs : ∀ rest, q.header ++ (wire q.labels ++ 0 :: (q.question ++ rest)) =
      (q.header ++ (wire q.labels ++ 0 :: q.question)) ++ rest := by
    intro rest
    simp only [append_assoc, cons_append]
  have hl : (q.header ++ (wire q.labels ++ 0 :: q.question)).length ≤ 4096 := by
    have hn := q.name_length
    unfold maxNameLen at hn
    rw [length_append, length_append, length_cons, q.header_length, q.question_length]
    omega
  rw [bytes, hs, take_append, take_of_length_le hl, ← hs]
  rfl

/-- The loop replies that the name does not exist, without the cache. -/
structure AnswersLocally (cfg : Setup) (f : Forwarder) (q : DnsQuery) (peer : SocketAddr)
    (a : Association) (now : ℕ) : Prop where
  events : (f.receive cfg q.bytes peer a now).events =
    f.events ++ [.reply peer (nxdomainResponse (q.bytes.take 4096))]
  current : (f.receive cfg q.bytes peer a now).current = none
  cache : (f.receive cfg q.bytes peer a now).cache = f.cache

theorem refreshRelay_eq (f : Forwarder) (a : Association) :
    ∃ relay last, f.refreshRelay a = { f with socks5Relay := relay, lastProxyAddr := last } := by
  unfold Forwarder.refreshRelay
  split_ifs
  · exact ⟨_, _, rfl⟩
  · exact ⟨f.socks5Relay, f.lastProxyAddr, rfl⟩

variable {f : Forwarder}

theorem answersLocally_iff_decision {cfg : Setup} (hf : f.current = none)
    (q : DnsQuery) (peer : SocketAddr) (a : Association) (now : ℕ) :
    AnswersLocally cfg f q peer a now ↔ cfg.filter.decision q.read.bytes = .block := by
  obtain ⟨relay, last, hre⟩ := refreshRelay_eq f a
  have hne : q.read.bytes ≠ [] := by
    refine ne_nil_of_length_pos ?_
    rw [DnsQuery.bytes, length_append, q.read.header_length]
    omega
  have hr : f.receive cfg q.bytes peer a now =
      ({ f with socks5Relay := relay, lastProxyAddr := last } : Forwarder).handle cfg q.read.bytes
        peer now := by
    have hi : ¬(f.current.isSome = true ∨ q.read.bytes = []) := by
      rw [hf]
      exact not_or.2 ⟨Bool.false_ne_true, hne⟩
    unfold Forwarder.receive
    rw [q.take_bytes, hre]
    exact if_neg hi
  constructor
  · rintro ⟨he, -, -⟩
    by_contra hp
    rw [hr, Forwarder.handle, if_neg hp] at he
    split at he
    · cases append_cancel_left he
    · cases append_cancel_left he
  · intro hb
    constructor
    · rw [hr, Forwarder.handle, if_pos hb, q.take_bytes]
    · rw [hr, Forwarder.handle, if_pos hb]
      exact hf
    · rw [hr, Forwarder.handle, if_pos hb]

variable {blocklist allowlist : List Text}

theorem decided_read_iff {q : DnsQuery} :
    Decided q.read blocklist allowlist ↔ Decided q blocklist allowlist :=
  ⟨fun h => ⟨h.host, h.parts, h.block⟩, fun h => ⟨h.host, h.parts, h.block⟩⟩

/-- **Which queries under a blocked domain never leave the forwarder:** exactly those whose name has
bytes of host names only, no empty parts, and a blocked domain longer than every allowed one. -/
theorem answers_locally_iff {upstreams : List SocketAddr} {cacheSize : ℕ}
    {q : DnsQuery} (peer : SocketAddr) (a : Association) (now : ℕ) (hf : f.current = none)
    (hblock : ∃ entry ∈ blocklist, LiesUnder q.name entry) :
    AnswersLocally (.ofConfig upstreams cacheSize blocklist allowlist) f q peer a now ↔
      Decided q blocklist allowlist := by
  obtain ⟨entry, -, hu⟩ := hblock
  have hu' : LiesUnder q.read.name entry := hu
  rw [answersLocally_iff_decision hf, ← decided_read_iff]
  exact decision_bytes_iff hu'

def addressQuery (labels : List (List UInt8))
    (hl : ∀ label ∈ labels, 1 ≤ label.length ∧ label.length ≤ 63)
    (hn : (wire labels).length + 1 ≤ maxNameLen) : DnsQuery where
  header := [0x12, 0x34, 0x01, 0x00, 0, 1, 0, 0, 0, 0, 0, 0]
  labels := labels
  question := [0, 1, 0, 1]
  rest := []
  header_length := rfl
  isQuery := by decide
  qdcount_ne := by decide
  label_length := hl
  name_length := hn
  question_length := rfl

def adsQuery : DnsQuery :=
  addressQuery [[97, 100, 115], [101, 120, 97, 109, 112, 108, 101]] (by decide) (by decide)

def srvQuery : DnsQuery :=
  addressQuery [[95, 115, 114, 118], [101, 120, 97, 109, 112, 108, 101]] (by decide) (by decide)

def samplePeer : SocketAddr := .v4 0xC0A80302 5353

theorem answers_locally_ads :
    AnswersLocally (.ofConfig [] 100 ["example".toList] []) {} adsQuery samplePeer {} 0 := by
  have hb : ∃ entry ∈ ["example".toList], LiesUnder adsQuery.name entry := by decide +kernel
  refine (answers_locally_iff samplePeer {} 0 rfl hb).2 ?_
  exact decided_of_noDot (by decide +kernel) (by decide +kernel) hb (by decide +kernel)

/-- An underscore in a name under a blocked domain. -/
theorem underscore_not_blocked : (∃ entry ∈ ["example".toList], LiesUnder srvQuery.name entry) ∧
      (∀ entry ∈ ([] : List Text), ¬LiesUnder srvQuery.name entry) ∧
      ¬AnswersLocally (.ofConfig [] 100 ["example".toList] []) {} srvQuery samplePeer {} 0 := by
  rw [answersLocally_iff_decision rfl]
  decide +kernel

/-- An answer that the name does not exist, with the question only. -/
structure DeniesName (q : DnsQuery) (resp : List UInt8) : Prop where
  id : resp.take 2 = q.header.take 2
  opcode : resp.getD 2 0 &&& 0x78 = q.header.getD 2 0 &&& 0x78
  rd : resp.getD 2 0 &&& 0x01 = q.header.getD 2 0 &&& 0x01
  qr : resp.getD 2 0 &&& 0x80 = 0x80
  rcode : resp.getD 3 0 &&& 0x0F = 3
  qdcount : (resp.drop 4).take 2 = (q.header.drop 4).take 2
  counts : (resp.drop 6).take 6 = [0, 0, 0, 0, 0, 0]
  body : resp.drop 12 = wire q.labels ++ 0 :: q.question

theorem flags_nxdomain (b : UInt8) :
    ((b &&& 0x78) ||| 0x80) &&& 0x78 = b &&& 0x78 ∧ ((b &&& 0x78) ||| 0x80) &&& 0x80 = 0x80 ∧
      (((b &&& 0x78) ||| 0x80) &&& 0x01 = b &&& 0x01 ↔ b &&& 0x01 = 0) ∧
      (((b &&& 0x07) ||| 0x03) &&& 0x0F = 3 ↔ b &&& 0x04 = 0) := by
  revert b
  exact forall_byte (by decide +kernel)

theorem exists_header {header : List UInt8} (h : header.length = 12) :
    ∃ h0 h1 h2 h3 h4 h5 h6 h7 h8 h9 h10 h11,
      header = [h0, h1, h2, h3, h4, h5, h6, h7, h8, h9, h10, h11] := by
  match header, h with
  | [h0, h1, h2, h3, h4, h5, h6, h7, h8, h9, h10, h11], _ =>
    exact ⟨h0, h1, h2, h3, h4, h5, h6, h7, h8, h9, h10, h11, rfl⟩

/-- **When a blocked query gets the answer it should.** The RD bit and the third bit of the response
code must be clear, and nothing may stand behind the question. -/
theorem nxdomainResponse_deniesName_iff (q : DnsQuery) : DeniesName q (nxdomainResponse q.bytes) ↔
      q.header.getD 2 0 &&& 0x01 = 0 ∧ q.header.getD 3 0 &&& 0x04 = 0 ∧ q.rest = [] := by
  obtain ⟨header, labels, question, rest, hl, hqu, hqd, hla, hn, hq⟩ := q
  obtain ⟨h0, h1, h2, h3, h4, h5, h6, h7, h8, h9, h10, h11, rfl⟩ := exists_header hl
  have hf := flags_nxdomain h2
  have hc := (flags_nxdomain h3).2.2.2
  constructor
  · intro h
    refine ⟨hf.2.2.1.1 h.rd, hc.1 h.rcode, ?_⟩
    have hb : wire labels ++ 0 :: (question ++ rest) = wire labels ++ 0 :: question := h.body
    rw [append_cancel_left_eq, cons_inj_right, append_right_eq_self] at hb
    exact hb
  · rintro ⟨hrd, hc', hr⟩
    constructor
    · rfl
    · exact hf.1
    · exact hf.2.2.1.2 hrd
    · exact hf.2.1
    · exact hc.2 hc'
    · rfl
    · rfl
    · show wire labels ++ 0 :: (question ++ rest) = wire labels ++ 0 :: question
      rw [show rest = [] from hr, append_nil]

/-- The answer to a query with recursion desired is one without. -/
theorem nxdomainResponse_clears_rd :
    adsQuery.bytes.getD 2 0 = 1 ∧ (nxdomainResponse adsQuery.bytes).getD 2 0 = 0x80 := by
  decide +kernel

def Event.Through (proxy : SocketAddr) : Event → Prop
  | .upstream relay _ _ => ∃ r ∈ relay, r.proxy = proxy
  | _ => True

instance (proxy : SocketAddr) : DecidablePred (Event.Through proxy) := fun e =>
  match e with
  | .upstream relay _ _ => inferInstanceAs (Decidable (∃ r ∈ relay, r.proxy = proxy))
  | .reply _ _ | .lookup _ | .store _ _ => isTrue trivial

def RelayedAt (cfg : Setup) (op : Op) (f : Forwarder) : Prop :=
  match op with
  | .attempt accepts response now => ∀ proxy ∈ f.vpnProxy, accepts proxy = true →
      ∀ e ∈ (f.attempt cfg response now).events.drop f.events.length, e.Through proxy
  -- nothing else sends to an upstream
  | .setVpnProxy _ | .receive _ _ _ _ => True

instance (cfg : Setup) (op : Op) (f : Forwarder) : Decidable (RelayedAt cfg op f) := by
  unfold RelayedAt
  cases op <;> infer_instance

def Steady (op : Op) (f : Forwarder) : Prop :=
  match op with
  | .setVpnProxy addr => f.current = none ∨ addr = none ∨ addr = f.lastProxyAddr
  | .receive datagram _ a _ => f.current = none → datagram ≠ [] → f.vpnProxy ≠ f.lastProxyAddr →
      ∀ proxy ∈ f.vpnProxy, (associate proxy a).isSome = true
  | .attempt _ _ _ => True

instance (op : Op) (f : Forwarder) : Decidable (Steady op f) := by
  unfold Steady
  cases op <;> infer_instance

/-- The relay is that of the proxy that was read last. -/
structure Tied (f : Forwarder) : Prop where
  relay : ∀ proxy ∈ f.lastProxyAddr, ∃ r ∈ f.socks5Relay, r.proxy = proxy
  busy : f.current ≠ none → f.vpnProxy = none ∨ f.vpnProxy = f.lastProxyAddr

variable {a : Association}

theorem proxy_of_associate {proxy : SocketAddr} {r : Relay}
    (h : associate proxy a = some r) : r.proxy = proxy := by
  unfold associate connect at h
  by_cases ht : a.inTime
  · rw [if_pos ht] at h
    split at h
    · cases h
    · split_ifs at h
      · cases h
        rfl
      · cases h
  · rw [if_neg ht] at h
    cases h

theorem Tied.refreshRelay (h : Tied f)
    (ha : f.vpnProxy ≠ f.lastProxyAddr → ∀ proxy ∈ f.vpnProxy, (associate proxy a).isSome) :
    Tied (f.refreshRelay a) ∧ (f.refreshRelay a).vpnProxy = (f.refreshRelay a).lastProxyAddr := by
  unfold Forwarder.refreshRelay
  split_ifs with hne
  · refine ⟨⟨fun proxy hp => ?_, fun _ => Or.inr rfl⟩, rfl⟩
    obtain ⟨r, hr⟩ := Option.isSome_iff_exists.1 (ha hne proxy hp)
    have hpr : f.vpnProxy = some proxy := hp
    rw [hpr, bind_some, hr]
    exact ⟨r, rfl, proxy_of_associate hr⟩
  · exact ⟨h, not_not.1 hne⟩

theorem handle_fields (cfg : Setup) (f : Forwarder) (query : List UInt8) (peer : SocketAddr)
    (now : ℕ) : ∃ cache events current, f.handle cfg query peer now =
      { f with cache := cache, events := events, current := current } := by
  unfold Forwarder.handle
  split_ifs
  · exact ⟨f.cache, _, f.current, rfl⟩
  · split
    · exact ⟨_, _, f.current, rfl⟩
    · exact ⟨_, _, _, rfl⟩

theorem attempt_spec (cfg : Setup) {c : Forwarding} (hc : f.current = some c)
    (response : Option (List UInt8)) (now : ℕ) :
    ∃ roundRobin cache current rest, f.attempt cfg response now = { f with
          roundRobin := roundRobin, cache := cache, current := current
          events := f.events ++ .upstream f.socks5Relay (f.upstream cfg c) c.query :: rest } ∧
      ∀ e ∈ rest, ∀ proxy, e.Through proxy := by
  unfold Forwarder.attempt Forwarder.finish
  rw [hc]
  dsimp only
  split_ifs
  · cases response with
    | none => exact ⟨_, f.cache, none, [], rfl, nofun⟩
    | some r =>
      refine ⟨max (f.roundRobin + 1) 1 % cfg.upstreams.length,
        f.cache.put c.query r cfg.cacheSize now, none, [.store c.query r, .reply c.peer r], ?_, ?_⟩
      · dsimp only
        rw [append_assoc]
        rfl
      · simp [Event.Through]
  · exact ⟨f.roundRobin, f.cache, _, [], rfl, nofun⟩

theorem Tied.step (cfg : Setup) (op : Op) (f : Forwarder) (h : Tied f) (hs : Steady op f) :
    Tied (op.apply cfg f) := by
  cases op with
  | setVpnProxy addr =>
    refine ⟨h.relay, fun hb => ?_⟩
    exact hs.resolve_left hb
  | receive datagram peer a now =>
    unfold Op.apply Forwarder.receive
    dsimp only
    split_ifs with hsk
    · exact h
    · rw [not_or, not_isSome_iff_eq_none] at hsk
      have hne : datagram ≠ [] := by
        rintro rfl
        exact hsk.2 take_nil
      obtain ⟨ht, hsa⟩ := h.refreshRelay (hs hsk.1 hne)
      obtain ⟨_, _, _, hf⟩ :=
        handle_fields cfg (f.refreshRelay a) (datagram.take 4096) peer now
      rw [hf]
      exact ⟨ht.relay, fun _ => Or.inr hsa⟩
  | attempt accepts response now =>
    unfold Op.apply
    dsimp only
    cases hc : f.current with
    | none =>
      have hi : f.attempt cfg response now = f := by
        unfold Forwarder.attempt
        rw [hc]
      rw [hi]
      exact h
    | some c =>
      obtain ⟨_, _, _, _, ha, -⟩ := attempt_spec cfg hc response now
      rw [ha]
      exact ⟨h.relay, fun _ => h.busy (hc ▸ some_ne_none c)⟩

theorem Tied.relayedAt (cfg : Setup) (op : Op) (f : Forwarder) (h : Tied f) :
    RelayedAt cfg op f := by
  cases op with
  | setVpnProxy addr => trivial
  | receive datagram peer a now => trivial
  | attempt accepts response now =>
    intro proxy hp _ e he
    cases hc : f.current with
    | none =>
      have hi : f.attempt cfg response now = f := by
        unfold Forwarder.attempt
        rw [hc]
      rw [hi, drop_length] at he
      cases he
    | some c =>
      obtain ⟨_, _, _, rest, ha, hr⟩ := attempt_spec cfg hc response now
      rw [ha, drop_left] at he
      rcases List.mem_cons.1 he with rfl | he
      · have hs : f.vpnProxy = f.lastProxyAddr :=
          (h.busy (hc ▸ some_ne_none c)).resolve_left
            (Option.mem_def.1 hp ▸ some_ne_none proxy)
        exact h.relay proxy (hs ▸ hp)
      · exact hr e he proxy

/-- **When every query goes through the proxy that is set.** In a steady run, every query sent while
the proxy that is set accepts associations goes through a relay of it. -/
theorem relayed_run (cfg : Setup) (vpnProxy : Option SocketAddr) (ops : List Op)
    (h : Along (Op.apply cfg) Steady ops { vpnProxy := vpnProxy }) :
    Along (Op.apply cfg) (RelayedAt cfg) ops { vpnProxy := vpnProxy } :=
  Along.imp_invariant (I := Tied) (fun op f => Tied.step cfg op f)
    (fun op f hf _ => hf.relayedAt cfg op f) ⟨nofun, fun hb => absurd rfl hb⟩ h

def sampleProxy : SocketAddr := .v4 0x7F000001 10808

def accepted : Association := { sent := [5, 0, 5, 0, 0, 1, 127, 0, 0, 1, 0x2A, 0x38] }

theorem relayed_after_association :
    Along (Op.apply (.ofConfig [] 100 [] [])) (RelayedAt (.ofConfig [] 100 [] []))
      [.receive adsQuery.bytes samplePeer accepted 0, .attempt (fun _ => true) (some []) 0]
      { vpnProxy := some sampleProxy } :=
  relayed_run _ _ _ (by decide +kernel)

/-- The proxy is not up when the first query finds it set, and is when the second is forwarded. -/
theorem direct_after_refusal :
    ¬Along (Op.apply (.ofConfig [] 100 [] [])) (RelayedAt (.ofConfig [] 100 [] []))
      [.receive adsQuery.bytes samplePeer { reached := false } 0,
        .attempt (fun _ => false) (some []) 0, .receive srvQuery.bytes samplePeer accepted 1,
        .attempt (fun _ => true) (some []) 1] { vpnProxy := some sampleProxy } := by decide +kernel

end BalanSir.Dns
