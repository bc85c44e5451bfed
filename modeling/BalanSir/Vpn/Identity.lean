/-
# The identity of a profile

`stable_id`: what is hashed, and the endpoints it tells apart.
-/

import BalanSir.Vpn.Subscription

namespace BalanSir.Vpn

open Lib

variable {source : Text} {sourceTsMs : ℤ}

theorem hexDigit_inj : ∀ m < 16, ∀ n < 16, hexDigit m = hexDigit n → m = n := by decide

theorem hex16_injective : Function.Injective hex16 := by
  intro g h heq
  have hd : ∀ i < 16, g.toNat >>> (4 * (15 - i)) % 16 = h.toNat >>> (4 * (15 - i)) % 16 := by
    intro i hi
    have hc := (List.map_inj_left.1 heq) i (List.mem_range.2 hi)
    exact hexDigit_inj _ (Nat.mod_lt _ (by decide)) _ (Nat.mod_lt _ (by decide)) hc
  refine UInt64.toNat_inj.1 (Nat.eq_of_testBit_eq fun k => ?_)
  by_cases hk : k < 64
  · -- bit `k` is in digit `15 - k / 4`
    have hm : k % 4 < 4 := Nat.mod_lt _ (by decide)
    have hp : 4 * (15 - (15 - k / 4)) + k % 4 = k := by omega
    have hb : ∀ n : ℕ, (n >>> (4 * (15 - (15 - k / 4))) % 2 ^ 4).testBit (k % 4) =
        n.testBit k := by
      intro n
      rw [Nat.testBit_mod_two_pow, Nat.testBit_shiftRight, hp, decide_eq_true hm, Bool.true_and]
    have hdi := congrArg (Nat.testBit · (k % 4)) (hd (15 - k / 4) (by omega))
    exact (hb _).symm.trans (hdi.trans (hb _))
  · have hpo : ∀ n : UInt64, n.toNat < 2 ^ k := fun n =>
      n.toNat_lt.trans_le (Nat.pow_le_pow_right (by decide) (Nat.not_lt.1 hk))
    rw [Nat.testBit_lt_two_pow (hpo g), Nat.testBit_lt_two_pow (hpo h)]

def VpnProfile.canonical (p : VpnProfile) : Text :=
  p.protocol.name ++ '|' :: toAsciiLowercase (trim p.server) ++
    '|' :: Nat.toDigits 10 p.port.toNat ++ '|' :: p.transport.name ++ '|' :: p.security.name

variable {p : VpnProfile}

theorem profileId_of_parseLine {line : Text} (h : parseLine line source sourceTsMs = .ok p) :
    p.profileId = hex16 (Common.fnv1a64 (encode p.canonical)) := by
  obtain ⟨uri, protocol, port, transport, security, pins, -, rfl⟩ := parseLine_eq_ok_iff.1 h
  rfl

@[mk_iff]
structure SameHashed (p q : VpnProfile) : Prop where
  server : toAsciiLowercase (trim p.server) = toAsciiLowercase (trim q.server)
  port : p.port = q.port
  transport : p.transport.name = q.transport.name
  security : p.security = q.security

instance (p q : VpnProfile) : Decidable (SameHashed p q) := decidable_of_iff' _ (sameHashed_iff p q)

theorem bar_notMem_digits (n : ℕ) : '|' ∉ Nat.toDigits 10 n := fun hm =>
  absurd (Nat.isDigit_of_mem_toDigits (by decide) (by decide) hm) (by decide)

theorem bar_notMem_transport (transport : Transport) : '|' ∉ transport.name := by
  have hn : ∀ name ∈ ["tcp", "ws", "grpc", "httpupgrade", "xhttp"], '|' ∉ name.toList := by
    decide
  cases transport with
  | tcp => exact hn "tcp" (by decide)
  | webSocket path host => exact hn "ws" (by decide)
  | grpc serviceName => exact hn "grpc" (by decide)
  | httpUpgrade path host => exact hn "httpupgrade" (by decide)
  | xhttp path host mode extra => exact hn "xhttp" (by decide)

theorem bar_notMem_security (security : Security) : '|' ∉ security.name := by
  cases security <;> decide

theorem Security.name_injective : Function.Injective Security.name := by
  intro s t
  cases s <;> cases t <;> decide

theorem toDigits_injective : Function.Injective (Nat.toDigits 10) := by
  intro m n h
  have hv := congrArg (Nat.ofDigitChars 10 · 0) h
  simpa only [Nat.ofDigitChars_ten_toDigits] using hv

/-- **The text determines what it is made of.** -/
theorem canonical_eq_iff (p q : VpnProfile) : p.canonical = q.canonical ↔ SameHashed p q := by
  unfold VpnProfile.canonical
  rw [append_separator_inj (bar_notMem_security _) (bar_notMem_security _),
    append_separator_inj (bar_notMem_transport _) (bar_notMem_transport _),
    append_separator_inj (bar_notMem_digits _) (bar_notMem_digits _), List.append_cancel_left_eq,
    List.cons.injEq, toDigits_injective.eq_iff, UInt16.toNat_inj, Security.name_injective.eq_iff]
  constructor
  · rintro ⟨⟨⟨⟨-, hse⟩, hp⟩, ht⟩, hs⟩
    exact ⟨hse, hp, ht, hs⟩
  · rintro ⟨hse, hp, ht, hs⟩
    exact ⟨⟨⟨⟨rfl, hse⟩, hp⟩, ht⟩, hs⟩

def Transport.endpoint : Transport → Transport
  | .xhttp path host mode _ => .xhttp path host mode none
  | transport => transport

/-- The same server but for case, port, security and transport. -/
@[mk_iff]
structure SameEndpoint (p q : VpnProfile) : Prop where
  server : toAsciiLowercase p.server = toAsciiLowercase q.server
  port : p.port = q.port
  security : p.security = q.security
  transport : p.transport.endpoint = q.transport.endpoint

instance (p q : VpnProfile) : Decidable (SameEndpoint p q) :=
  decidable_of_iff' _ (sameEndpoint_iff p q)

variable {q : VpnProfile} {body : Text}

theorem SameEndpoint.symm (h : SameEndpoint p q) : SameEndpoint q p :=
  ⟨h.server.symm, h.port.symm, h.security.symm, h.transport.symm⟩

theorem SameEndpoint.trans {r : VpnProfile} (h : SameEndpoint p q) (h' : SameEndpoint q r) :
    SameEndpoint p r :=
  ⟨h.server.trans h'.server, h.port.trans h'.port, h.security.trans h'.security,
    h.transport.trans h'.transport⟩

theorem name_endpoint (transport : Transport) : transport.endpoint.name = transport.name := by
  cases transport <;> rfl

theorem SameEndpoint.sameHashed (h : SameEndpoint p q) : SameHashed p q where
  server := by rw [toAsciiLowercase_trim, h.server, ← toAsciiLowercase_trim]
  port := h.port
  transport := by rw [← name_endpoint, h.transport, name_endpoint]
  security := h.security

def DifferUnhashed (p q : VpnProfile) : Prop := SameHashed p q ∧ ¬SameEndpoint p q
  deriving Decidable

def NoCollision (p q : VpnProfile) : Prop :=
  Common.fnv1a64 (encode p.canonical) = Common.fnv1a64 (encode q.canonical) →
    p.canonical = q.canonical
  deriving Decidable

theorem profileId_eq_iff {source' : Text} {sourceTsMs' : ℤ} {line line' : Text}
    (hp : parseLine line source sourceTsMs = .ok p)
    (hq : parseLine line' source' sourceTsMs' = .ok q) (hc : NoCollision p q) :
    p.profileId = q.profileId ↔ SameHashed p q := by
  rw [profileId_of_parseLine hp, profileId_of_parseLine hq, hex16_injective.eq_iff,
    ← canonical_eq_iff]
  exact ⟨hc, fun h => by rw [h]⟩

def acceptedProfiles (source : Text) (sourceTsMs : ℤ) (body : Text) : List VpnProfile :=
  (lines body).filterMap (parsed source sourceTsMs)

theorem exists_line_of_mem_acceptedProfiles (h : p ∈ acceptedProfiles source sourceTsMs body) :
    ∃ line, parseLine line source sourceTsMs = .ok p := by
  obtain ⟨line, -, hp⟩ := List.mem_filterMap.1 h
  exact ⟨line, parsed_eq_some_iff.1 hp⟩

theorem mem_profiles_iff : p ∈ (importSubscription source sourceTsMs body).profiles ↔
      p ∈ firsts VpnProfile.profileId (acceptedProfiles source sourceTsMs body) := by
  rw [importSubscription, importLines_profiles, mem_sortedFirsts, acceptedProfiles]

theorem SameEndpoint.profileId_eq (h : SameEndpoint p q)
    (hp : p ∈ acceptedProfiles source sourceTsMs body)
    (hq : q ∈ acceptedProfiles source sourceTsMs body) : p.profileId = q.profileId := by
  obtain ⟨line, hl⟩ := exists_line_of_mem_acceptedProfiles hp
  obtain ⟨line', hl'⟩ := exists_line_of_mem_acceptedProfiles hq
  rw [profileId_of_parseLine hl, profileId_of_parseLine hl', (canonical_eq_iff p q).2 h.sameHashed]

theorem forall_imported_iff (source : Text) (sourceTsMs : ℤ) (body : Text) :
    (∀ q ∈ acceptedProfiles source sourceTsMs body,
      ∃ p ∈ (importSubscription source sourceTsMs body).profiles, SameEndpoint p q) ↔
    ∀ p ∈ acceptedProfiles source sourceTsMs body, ∀ q ∈ acceptedProfiles source sourceTsMs body,
      p.profileId = q.profileId → SameEndpoint p q := by
  constructor
  · intro h p hp q hq hid
    obtain ⟨p', hp', hpp⟩ := h p hp
    obtain ⟨q', hq', hqq⟩ := h q hq
    rw [mem_profiles_iff] at hp' hq'
    -- both stand for the one profile with their id
    have hid' : p'.profileId = q'.profileId :=
      (hpp.profileId_eq (mem_of_mem_firsts hp') hp).trans
        (hid.trans (hqq.profileId_eq (mem_of_mem_firsts hq') hq).symm)
    obtain rfl := eq_of_mem_firsts hp' hq' hid'
    exact hpp.symm.trans hqq
  · intro h q hq
    obtain ⟨p, hp, hid⟩ : ∃ p ∈ firsts VpnProfile.profileId
        (acceptedProfiles source sourceTsMs body), p.profileId = q.profileId := exists_mem_firsts hq
    exact ⟨p, mem_profiles_iff.2 hp, h p (mem_of_mem_firsts hp) q hq hid⟩

/-- **Endpoints that keep apart.** Without a collision, two lines of different endpoints have
different ids exactly when they differ in what is hashed; and a body loses no endpoint exactly when
all its lines do. -/
theorem endpoints_apart (source : Text) (sourceTsMs : ℤ) : (∀ line p line' source' sourceTsMs' q,
      parseLine line source sourceTsMs = .ok p → parseLine line' source' sourceTsMs' = .ok q →
      NoCollision p q →
      ((¬SameEndpoint p q → p.profileId ≠ q.profileId) ↔ ¬DifferUnhashed p q)) ∧ ∀ body,
      (∀ p ∈ acceptedProfiles source sourceTsMs body, ∀ q ∈ acceptedProfiles source sourceTsMs body,
        NoCollision p q) → ((∀ q ∈ acceptedProfiles source sourceTsMs body,
        ∃ p ∈ (importSubscription source sourceTsMs body).profiles, SameEndpoint p q) ↔
        ∀ p ∈ acceptedProfiles source sourceTsMs body,
          ∀ q ∈ acceptedProfiles source sourceTsMs body, ¬DifferUnhashed p q) := by
  have ha : ∀ {p q : VpnProfile}, (p.profileId = q.profileId ↔ SameHashed p q) →
      ((p.profileId = q.profileId → SameEndpoint p q) ↔ ¬DifferUnhashed p q) := by
    intro p q hid
    rw [hid, DifferUnhashed, not_and, not_not]
  constructor
  · intro line p line' source' sourceTsMs' q hp hq hc
    rw [← ha (profileId_eq_iff hp hq hc), not_imp_comm, not_not]
  · intro body hc
    rw [forall_imported_iff]
    refine forall₂_congr fun p hp => forall₂_congr fun q hq => ?_
    obtain ⟨line, hl⟩ := exists_line_of_mem_acceptedProfiles hp
    obtain ⟨line', hl'⟩ := exists_line_of_mem_acceptedProfiles hq
    exact ha (profileId_eq_iff hl hl' (hc p hp q hq))

def tcpLine (port : String) : Text := "vless://12345678@a:".toList ++ port.toList

def tcpProfile (port : UInt16) : VpnProfile :=
  profileOf ⟨"vless".toList, "12345678".toList, "a".toList, some port, [], none⟩ .vless port .tcp
    .none none [] 0

theorem endpoints_apart_ports : (tcpProfile 1).profileId ≠ (tcpProfile 2).profileId ∧
      ∀ q ∈ acceptedProfiles [] 0 (tcpLine "1" ++ '\n' :: tcpLine "2"),
        ∃ p ∈ (importSubscription [] 0 (tcpLine "1" ++ '\n' :: tcpLine "2")).profiles,
          SameEndpoint p q := by
  have ho : parsed [] 0 (tcpLine "1") = some (tcpProfile 1) := by decide +kernel
  have ht : parsed [] 0 (tcpLine "2") = some (tcpProfile 2) := by decide +kernel
  constructor
  · exact ((endpoints_apart [] 0).1 _ _ _ [] 0 _ (parsed_eq_some_iff.1 ho)
      (parsed_eq_some_iff.1 ht) (by decide +kernel)).2 (by decide +kernel) (by decide +kernel)
  · exact ((endpoints_apart [] 0).2 _ (by decide +kernel)).2 (by decide +kernel)

def wsLine (path : String) : Text := "vless://12345678@a:1?type=ws&path=".toList ++ path.toList

def wsProfile (path : String) : VpnProfile :=
  profileOf ⟨"vless".toList, "12345678".toList, "a".toList, some 1,
    [("type".toList, "ws".toList), ("path".toList, path.toList)], none⟩ .vless 1
    (.webSocket path.toList none) .none none [] 0

/-- Two paths, one id: the second endpoint is dropped as a duplicate. -/
theorem wsLine_paths_share_id : (parseLine (wsLine "/x") [] 0).toOption = some (wsProfile "/x") ∧
      (parseLine (wsLine "/y") [] 0).toOption = some (wsProfile "/y") ∧
      ¬SameEndpoint (wsProfile "/x") (wsProfile "/y") ∧
      (wsProfile "/x").canonical = (wsProfile "/y").canonical ∧
      (wsProfile "/x").profileId = (wsProfile "/y").profileId ∧
      importSubscription [] 0 (wsLine "/x" ++ '\n' :: wsLine "/y") =
        ⟨[wsProfile "/x"], [], 1⟩ := by
  decide +kernel

end BalanSir.Vpn
