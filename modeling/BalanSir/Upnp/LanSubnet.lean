/-
# The LAN subnet, validated and used

`lan_subnet` as the gateway checks it and as `is_lan_peer` reads it.
-/

import BalanSir.Common.Gateway
import BalanSir.Daemon.NetworkConfig
import BalanSir.Net.AddrText
import BalanSir.Upnp.Soap

namespace BalanSir.Upnp

open Lib Net Daemon

def isLanPeerChecked (lanSubnet : Text) (ip : IpAddr) : Option Bool :=
  match ip, parseCidr lanSubnet with
  | .v4 _, some (_, length) => if 32 < length.toNat then none else some (isLanPeer lanSubnet ip)
  | _, _ => some false

def Denotes (lanSubnet : Text) (net : BitVec 32) (length : ℕ) : Prop :=
  Roles.parseCidr lanSubnet = some (.v4 net) ∧
    ((rsplitOnceAt '/' (trim lanSubnet)).bind fun parts => parseUnsigned 256 parts.2) = some length

variable {lanSubnet addr digits : Text} {net : BitVec 32} {length : ℕ}

theorem parseUnsigned_spec (h : parseUnsigned 256 digits = some length) :
    '/' ∉ digits ∧ length < 256 := by
  unfold parseUnsigned at h
  generalize hb : (if startsWith digits ['+'] then digits.drop 1 else digits) = body at h
  dsimp only at h
  split_ifs at h with hba hlt
  cases h
  refine ⟨fun hs => ?_, hlt⟩
  have hm : '/' ∈ body := by
    rw [← hb]
    split_ifs with hp
    · obtain ⟨rest, rfl⟩ := List.isPrefixOf_iff_prefix.1 hp
      simpa using hs
    · exact hs
  have ha := List.all_eq_true.1 (not_not.1 (not_or.1 hba).2) _ hm
  exact absurd ha (by decide)

theorem ipv4OfText_eq_some {text : String} :
    ipv4OfText text = some net ↔ IpAddr.ofText text = some (.v4 net) := by
  unfold ipv4OfText
  cases IpAddr.ofText text with
  | none => simp
  | some a => cases a <;> simp

theorem parseCidr_of_parts (ht : trim lanSubnet = addr ++ '/' :: digits)
    (ha : ipv4OfText (String.ofList addr) = some net)
    (hd : parseUnsigned 256 digits = some length) :
    parseCidr lanSubnet = some (net, UInt8.ofNat length) ∧ Denotes lanSubnet net length := by
  have hr := ipv4OfText_eq_some.1 ha
  have hsl : '/' ∉ addr := fun hm =>
    absurd ((text_of_ofText (by rw [hr]; rfl)).2 '/' hm) (by decide)
  have hs := rsplitOnceAt_append addr (parseUnsigned_spec hd).1
  refine ⟨?_, ?_, ?_⟩
  · unfold parseCidr
    rw [ht, splitOnceAt_append hsl]
    dsimp only
    rw [ha, hd]
  · rw [Roles.parseCidr, ht, hs]
    exact hr
  · rw [ht, hs]
    exact hd

theorem Denotes.parts (h : Denotes lanSubnet net length) :
    ∃ addr digits, trim lanSubnet = addr ++ '/' :: digits ∧
      ipv4OfText (String.ofList addr) = some net ∧ parseUnsigned 256 digits = some length := by
  obtain ⟨ha, hn⟩ := h
  obtain ⟨⟨addr, digits⟩, hs, hd⟩ := Option.bind_eq_some_iff.1 hn
  rw [Roles.parseCidr, hs] at ha
  exact ⟨addr, digits, eq_of_rsplitOnceAt hs, ipv4OfText_eq_some.2 ha, hd⟩

/-- **A LAN peer is an address of the LAN** exactly when the subnet is an IPv4 address, a slash and
a number of at most 32, with blanks around them at most. -/
theorem isLanPeer_subnet_iff (lanSubnet : Text) :
    (∃ net length, Denotes lanSubnet net length ∧
      ∀ a, isLanPeerChecked lanSubnet (.v4 a) =
        some ((Cidr.mk (.v4 net) length).contains (.v4 a))) ↔
      ∃ addr digits, trim lanSubnet = addr ++ '/' :: digits ∧
        (ipv4OfText (String.ofList addr)).isSome ∧ ∃ n ≤ 32, parseUnsigned 256 digits = some n := by
  constructor
  · rintro ⟨net, length, hde, hpe⟩
    obtain ⟨addr, digits, ht, ha, hd⟩ := hde.parts
    refine ⟨addr, digits, ht, by rw [ha]; rfl, length, ?_, hd⟩
    have hc := hpe net
    unfold isLanPeerChecked at hc
    rw [(parseCidr_of_parts ht ha hd).1] at hc
    dsimp only at hc
    split_ifs at hc with hl
    rw [UInt8.toNat_ofNat_of_lt' (parseUnsigned_spec hd).2] at hl
    exact Nat.not_lt.1 hl
  · rintro ⟨addr, digits, ht, ha, length, hle, hd⟩
    obtain ⟨net, ha⟩ := Option.isSome_iff_exists.1 ha
    obtain ⟨hp, hde⟩ := parseCidr_of_parts ht ha hd
    have hn : (UInt8.ofNat length).toNat = length :=
      UInt8.toNat_ofNat_of_lt' (parseUnsigned_spec hd).2
    refine ⟨net, length, hde, fun a => ?_⟩
    unfold isLanPeerChecked
    rw [hp]
    dsimp only
    rw [if_neg (by rw [hn]; omega), isLanPeer_eq hp (by rw [hn]; exact hle), hn]

/-- Both validators accept a prefix of 33 bits, with which the LAN check overflows. -/
theorem overflowing_subnet_accepted :
    Roles.validate none ⟨some "eth1".toList, some "eth0".toList, none, none, none,
        "192.168.3.0/33".toList⟩ Roles.gatewayPorts = .ok () ∧
      Common.GatewayConfig.validate ⟨"eth1", "eth0", "192.168.3.0/33"⟩ = .ok () ∧
      isLanPeerChecked "192.168.3.0/33".toList (.ofOctets 192 168 3 7) = none := by
  decide +kernel

end BalanSir.Upnp
