/-
# What the gateway reads from a request

`extract_tag`, the number parsers, `is_lan_peer` and `is_private_unicast` of `upnp.rs`.
-/

import BalanSir.Lib.Text
import BalanSir.Net.Addr

namespace BalanSir.Upnp

open Lib (Text)
open Net (IpAddr Cidr octet)

variable (body tag : Text)

def extractTag : Text :=
  let lower := Lib.toAsciiLowercase body
  let startMarker := '<' :: Lib.toAsciiLowercase tag ++ ['>']
  match Lib.find startMarker lower with
  | none => []
  | some start =>
    let contentStart := start + startMarker.length
    match Lib.find "</".toList (lower.drop contentStart) with
    | none => []
    | some close => Lib.trim ((body.drop contentStart).take close)

def parseU16 : UInt16 :=
  UInt16.ofNat ((Lib.parseUnsigned 65536 (extractTag body tag)).getD 0)

def parseU32 : Option UInt32 :=
  (Lib.parseUnsigned 4294967296 (extractTag body tag)).map UInt32.ofNat

def protoOf (body : Text) : String :=
  String.ofList (Lib.toAsciiLowercase (extractTag body "NewProtocol".toList))

theorem toLower_protoOf (body : Text) : (protoOf body).toLower = protoOf body := by
  change (protoOf body).map Char.toLower = _
  rw [String.map_eq_internal, protoOf, String.toList_ofList, Lib.toAsciiLowercase, List.map_map]
  congr 1
  exact List.map_congr_left fun c _ => Lib.toLower_asciiLower c

def actionOfLine (line : Text) : Option Text :=
  let t := Lib.trim line
  match Lib.find "<u:".toList t with
  | none => none
  | some pos => (Lib.firstWord (t.drop (pos + 3))).map (Lib.trimEndMatches '>')

def actionOf (body : Text) : Text := ((Lib.lines body).findSome? actionOfLine).getD []

def element (tag text : String) : Text :=
  '<' :: tag.toList ++ '>' :: text.toList ++ "</".toList ++ tag.toList ++ ['>']

def addBody (client : String) : Text :=
  "<s:Body><u:AddPortMapping>\n".toList ++ element "NewExternalPort" "8080" ++
    element "NewInternalPort" "80" ++ element "NewInternalClient" client ++
    element "NewProtocol" "TCP" ++ "</u:AddPortMapping></s:Body>".toList

def parseCidr (cidr : Text) : Option (BitVec 32 × UInt8) :=
  match Lib.splitOnceAt '/' (Lib.trim cidr) with
  | none => none
  | some (ip, length) =>
    match Net.ipv4OfText (String.ofList ip), Lib.parseUnsigned 256 length with
    | some net, some n => some (net, UInt8.ofNat n)
    | _, _ => none

def lanMask (length : UInt8) : BitVec 32 :=
  if length = 0 then 0 else BitVec.allOnes 32 <<< ((32 - length).toNat % 32)

def isLanPeer (lanSubnet : Text) (ip : IpAddr) : Bool :=
  match ip, parseCidr lanSubnet with
  | .v4 addr, some (net, length) => addr &&& lanMask length == net &&& lanMask length
  | _, _ => false

def isPrivateUnicast : IpAddr → Bool
  | .v4 a =>
    let rfc1918 := octet a 0 == 10 || (octet a 0 == 172 && (16 ≤ octet a 1 && octet a 1 ≤ 31)) ||
      (octet a 0 == 192 && octet a 1 == 168)
    rfc1918 && !(IpAddr.v4 a).isLoopback && !(IpAddr.v4 a).isMulticast &&
      !(IpAddr.v4 a).isUnspecified
  | .v6 a => Net.segment a 0 &&& 0xfe00 == 0xfc00 || Net.segment a 0 &&& 0xffc0 == 0xfe80

def privateRanges : List Cidr :=
  [⟨.ofOctets 10 0 0 0, 8⟩, ⟨.ofOctets 172 16 0 0, 12⟩, ⟨.ofOctets 192 168 0 0, 16⟩]

theorem and_mask_eq_iff (a b : BitVec 32) (n : ℕ) :
    a &&& BitVec.allOnes 32 <<< n = b &&& BitVec.allOnes 32 <<< n ↔
      a.toNat >>> n = b.toNat >>> n := by
  have hb : ∀ (x : BitVec 32) (i : ℕ), (x &&& BitVec.allOnes 32 <<< n).getLsbD (n + i) =
      x.getLsbD (n + i) := by
    intro x i
    by_cases h : n + i < 32
    · have hi : i < 32 := by omega
      simp only [BitVec.getLsbD_and, BitVec.getLsbD_shiftLeft, BitVec.getLsbD_allOnes,
        Nat.add_sub_cancel_left, h, hi, Nat.not_lt.2 (Nat.le_add_right n i), decide_true,
        decide_false, Bool.not_false, Bool.and_true]
    · simp [BitVec.getLsbD_of_ge x _ (Nat.le_of_not_lt h)]
  rw [← BitVec.toNat_ushiftRight, ← BitVec.toNat_ushiftRight, BitVec.toNat_inj]
  constructor
  · intro h
    refine BitVec.eq_of_getLsbD_eq fun i _ => ?_
    rw [BitVec.getLsbD_ushiftRight, BitVec.getLsbD_ushiftRight, ← hb, h, hb]
  · intro h
    refine BitVec.eq_of_getLsbD_eq fun i _ => ?_
    by_cases hi : i < n
    · simp [hi]
    · obtain ⟨j, rfl⟩ := Nat.exists_eq_add_of_le (Nat.le_of_not_lt hi)
      rw [hb, hb, ← BitVec.getLsbD_ushiftRight, h, BitVec.getLsbD_ushiftRight]

variable {length : UInt8}

theorem lanMask_eq (h : length.toNat ≤ 32) :
    lanMask length = BitVec.allOnes 32 <<< (32 - length.toNat) := by
  have ha : ∀ n ≤ 32, lanMask (UInt8.ofNat n) = BitVec.allOnes 32 <<< (32 - n) := by
    decide +kernel
  rw [← ha length.toNat h, UInt8.ofNat_toNat]

/-- **A LAN peer is an address of the subnet.** -/
theorem isLanPeer_eq {lanSubnet : Text} {net : BitVec 32}
    (hs : parseCidr lanSubnet = some (net, length)) (h : length.toNat ≤ 32) (ip : IpAddr) :
    isLanPeer lanSubnet ip = (Cidr.mk (.v4 net) length.toNat).contains ip := by
  unfold isLanPeer
  rw [hs]
  cases ip with
  | v6 a => rfl
  | v4 a =>
    rw [Bool.eq_iff_iff]
    simp only [Cidr.contains, lanMask_eq h, beq_iff_eq, and_mask_eq_iff]

/-- **A private unicast IPv4 address is one of RFC 1918.** -/
theorem isPrivateUnicast_v4 (a : BitVec 32) :
    isPrivateUnicast (.v4 a) = privateRanges.any (·.contains (.v4 a)) := by
  have hz : a = 0#32 ↔ a.toNat = 0 := BitVec.toNat_inj.symm
  rw [Bool.eq_iff_iff]
  simp only [isPrivateUnicast, privateRanges, Cidr.contains, IpAddr.ofOctets, IpAddr.isLoopback,
    IpAddr.isMulticast, IpAddr.isUnspecified, List.any_cons, List.any_nil, octet,
    Nat.shiftRight_eq_div_pow]
  simp only [Bool.not_and, Bool.and_eq_true, Bool.or_eq_true, beq_iff_eq, decide_eq_true_eq,
    Bool.not_eq_eq_eq_not, Bool.not_true, beq_eq_false_iff_ne, ne_eq, decide_eq_false_iff_not,
    BitVec.ofNat_eq_ofNat, hz, UInt8.reduceToNat, UInt8.toNat_zero, BitVec.toNat_ofNat,
    Bool.or_false]
  omega

end BalanSir.Upnp
