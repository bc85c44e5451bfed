/-
# Datagrams through the SOCKS5 relay

`Socks5UdpRelay::send` and `recv`.
-/

import BalanSir.Dns.Forwarder
import BalanSir.Lib.Checked

namespace BalanSir.Dns

open Lib List

def socks5Header : SocketAddr → Bytes
  | .v4 ip port =>
    0x00 :: 0x00 :: 0x00 :: 0x01 :: (be32Bytes ip.toNat ++ be16Bytes port.toNat)
  | .v6 ip port _ _ =>
    0x00 :: 0x00 :: 0x00 :: 0x04 :: (be32Bytes (ip.toNat >>> 96) ++ be32Bytes (ip.toNat >>> 64) ++
      be32Bytes (ip.toNat >>> 32) ++ be32Bytes ip.toNat ++ be16Bytes port.toNat)

def socks5Packet (query : Bytes) (upstream : SocketAddr) : Bytes := socks5Header upstream ++ query

inductive RecvError
  | short
  | rsvFrag
  | unknownAtyp
  | header
deriving DecidableEq

def RecvError.message : RecvError → String
  | short => "Short SOCKS5 packet"
  | rsvFrag => "Invalid SOCKS5 UDP header (RSV/FRAG)"
  | unknownAtyp => "Unknown ATYP"
  | header => "Invalid SOCKS5 UDP header"

def headerLen (buf : Bytes) : Checked (Except RecvError ℕ) := do
  let atyp ← byteAt buf 3
  if atyp = 0x01 then .ok (.ok (2 + 1 + 1 + 4 + 2))
  else if atyp = 0x03 then do
    let addrLen ← byteAt buf 4
    .ok (.ok (2 + 1 + 1 + 1 + addrLen.toNat + 2))
  else if atyp = 0x04 then .ok (.ok (2 + 1 + 1 + 16 + 2))
  else .ok (.error .unknownAtyp)

def rsvFrag (buf : Bytes) : Checked Bool := do
  let high ← byteAt buf 0
  let low ← byteAt buf 1
  let frag ← byteAt buf 2
  .ok (high ≠ 0x00 || low ≠ 0x00 || frag ≠ 0x00)

def received (buf datagram : Bytes) : Bytes := patch buf 0 (datagram.take buf.length)

def recv (buf datagram : Bytes) : Checked (Except RecvError ℕ × Bytes) :=
  let n := min datagram.length buf.length
  let buf := received buf datagram
  if n < 4 then .ok (.error .short, buf) else do
  let bad ← rsvFrag buf
  if bad then .ok (.error .rsvFrag, buf) else do
  match ← headerLen buf with
  | .error e => .ok (.error e, buf)
  | .ok headerLen => do
    let bad ← rsvFrag buf
    if n < headerLen ∨ bad then .ok (.error .header, buf) else do
    let front ← slice buf 0 headerLen
    let suffix ← slice buf headerLen buf.length
    let payload ← slice suffix 0 (n - headerLen)
    let front ← copyAt front 0 payload
    .ok (.ok (n - headerLen), front ++ suffix)

def responseBuffer : Bytes := replicate 4096 0

def validHeader (buf : Bytes) (n : ℕ) : Option ℕ :=
  match rsvFrag buf, headerLen buf with
  | .ok false, .ok (.ok h) => if 4 ≤ n ∧ h ≤ n then some h else none
  | _, _ => none

variable {buf datagram : Bytes} {n len : ℕ}

theorem length_received (buf datagram : Bytes) : (received buf datagram).length = buf.length := by
  rw [received, length_patch]
  rw [length_take]
  omega

theorem headers_ok (h : 5 ≤ buf.length) :
    ∃ bad r, rsvFrag buf = .ok bad ∧ headerLen buf = .ok r := by
  unfold rsvFrag headerLen
  rw [byteAt_of_lt (by omega), byteAt_of_lt (by omega), byteAt_of_lt (by omega),
    byteAt_of_lt (by omega), byteAt_of_lt (by omega)]
  simp only [ok_bind]
  split_ifs
  all_goals exact ⟨_, _, rfl, rfl⟩

theorem recv_of_invalid (hb : 5 ≤ buf.length)
    (h : validHeader (received buf datagram) (min datagram.length buf.length) = none) :
    ∃ e, recv buf datagram = .ok (.error e, received buf datagram) := by
  rw [← length_received buf datagram] at hb
  obtain ⟨bad, result, hba, hr⟩ := headers_ok hb
  unfold validHeader at h
  unfold recv
  dsimp only
  rw [hba, hr] at h ⊢
  simp only [ok_bind]
  split_ifs with hs hrs
  · exact ⟨_, rfl⟩
  · exact ⟨_, rfl⟩
  · cases result with
    | error e => exact ⟨e, rfl⟩
    | ok len =>
      rw [Bool.eq_false_iff.2 hrs] at h ⊢
      dsimp only at h ⊢
      rw [if_pos (by split_ifs at h; omega)]
      exact ⟨_, rfl⟩

theorem recv_of_valid (hb : 5 ≤ buf.length) (hn : min datagram.length buf.length = n)
    (h : validHeader (received buf datagram) n = some len) :
    recv buf datagram = if len < n - len then .error .outOfRange
      else .ok (.ok (n - len), between (received buf datagram) len n ++
        (received buf datagram).drop (n - len)) := by
  have hle : n ≤ (received buf datagram).length := by
    rw [length_received]
    omega
  rw [← length_received buf datagram] at hb
  obtain ⟨bad, result, hba, hr⟩ := headers_ok hb
  unfold validHeader at h
  unfold recv
  dsimp only
  rw [hn]
  generalize received buf datagram = r at *
  rw [hba, hr] at h ⊢
  cases bad with
  | true => cases h
  | false =>
    cases result with
    | error e => cases h
    | ok len' =>
      dsimp only at h
      split_ifs at h with hlen
      cases h
      obtain ⟨hfo, hlen⟩ := hlen
      have hp : between (r.drop len) 0 (n - len) = between r len n :=
        (drop_take ..).symm
      have hleng : (between r len n).length = n - len := length_between hle
      have hf : (between r 0 len).length = len := length_between (by omega)
      simp only [ok_bind, if_neg Bool.false_ne_true]
      rw [if_neg (by omega), if_neg (by simpa using hlen), slice_of_le (Nat.zero_le _) (by omega),
        ok_bind, slice_to_end (by omega), ok_bind,
        slice_of_le (Nat.zero_le _) (by rw [length_drop]; omega), ok_bind, hp]
      by_cases hl : len < n - len
      · rw [if_pos hl, copyAt, if_neg (by omega), error_bind]
      · have hj : (between r 0 len).drop (n - len) ++ r.drop len = r.drop (n - len) := by
          rw [← drop_append_of_le_length (by omega)]
          exact congrArg _ (take_append_drop len r)
        rw [if_neg hl, copyAt_of_le (by omega), ok_bind, patch, take_zero, nil_append,
          Nat.zero_add, hleng, append_assoc, hj]

theorem received_of_le (h : datagram.length ≤ buf.length) :
    received buf datagram = datagram ++ buf.drop datagram.length := by
  rw [received, take_of_length_le h, patch, Nat.zero_add]
  rfl

theorem headers_socks5Header (upstream : SocketAddr) (rest : Bytes) :
    rsvFrag (socks5Header upstream ++ rest) = .ok false ∧
      headerLen (socks5Header upstream ++ rest) = .ok (.ok (socks5Header upstream).length) ∧
      4 ≤ (socks5Header upstream).length := by
  cases upstream with
  | v4 ip port => exact ⟨rfl, rfl, Nat.le_add_left 4 _⟩
  | v6 ip port flowinfo scopeId => exact ⟨rfl, rfl, Nat.le_add_left 4 _⟩

/-- **The relay's answers.** A payload comes back exactly when it is no longer than its header, and
`recv` stays in range exactly when the datagram is at most twice as long as its valid header. -/
theorem recv_relayed_iff (upstream : SocketAddr) (payload datagram : Bytes)
    (hf : (socks5Packet payload upstream).length ≤ 4096) :
    ((∃ buf, recv responseBuffer (socks5Packet payload upstream) = .ok (.ok payload.length, buf) ∧
        buf.take payload.length = payload) ↔ payload.length ≤ (socks5Header upstream).length) ∧
      ((∃ r, recv responseBuffer datagram = .ok r) ↔
        ∀ len, validHeader (received responseBuffer datagram) (min datagram.length 4096) =
          some len → min datagram.length 4096 ≤ 2 * len) := by
  have hl : responseBuffer.length = 4096 := length_replicate
  have hb : 5 ≤ responseBuffer.length := by omega
  constructor
  · have hp : (socks5Packet payload upstream).length =
        (socks5Header upstream).length + payload.length := length_append
    have hr : received responseBuffer (socks5Packet payload upstream) =
        socks5Header upstream ++ (payload ++
          responseBuffer.drop (socks5Packet payload upstream).length) := by
      rw [received_of_le (by omega), socks5Packet, append_assoc]
    obtain ⟨hrs, hh, hfo⟩ := headers_socks5Header upstream
      (payload ++ responseBuffer.drop (socks5Packet payload upstream).length)
    have hv : validHeader (received responseBuffer (socks5Packet payload upstream))
        (socks5Packet payload upstream).length = some (socks5Header upstream).length := by
      rw [hr, validHeader, hrs, hh]
      exact if_pos (by omega)
    rw [recv_of_valid hb (Nat.min_eq_left (by omega)) hv, hp, Nat.add_sub_cancel_left]
    constructor
    · rintro ⟨_, h, -⟩
      split_ifs at h with hlo
      omega
    · intro hle
      rw [if_neg (by omega)]
      refine ⟨_, rfl, ?_⟩
      rw [hr, between, take_length_add_append, drop_left, take_left, take_left]
  · rw [← hl]
    cases hv : validHeader (received responseBuffer datagram)
        (min datagram.length responseBuffer.length) with
    | none =>
      obtain ⟨e, he⟩ := recv_of_invalid hb hv
      exact iff_of_true ⟨_, he⟩ fun _ h => by cases h
    | some len =>
      rw [recv_of_valid hb rfl hv]
      constructor
      · rintro ⟨r, h⟩ len' hlen'
        cases hlen'
        split_ifs at h with hlo
        omega
      · intro h
        have hlen := h len rfl
        exact ⟨_, if_neg (by omega)⟩

/-- A query of nine bytes behind an IPv4 header. -/
theorem recv_relayed_short :
    ∃ buf, recv responseBuffer (socks5Packet [1, 2, 3, 4, 5, 6, 7, 8, 9] (.v4 0x08080808 53)) =
      .ok (.ok 9, buf) ∧ buf.take 9 = [1, 2, 3, 4, 5, 6, 7, 8, 9] :=
  (recv_relayed_iff (.v4 0x08080808 53) [1, 2, 3, 4, 5, 6, 7, 8, 9] [] (by decide)).1.2 (by decide)

/-- A DNS header alone, of twelve bytes, is too long for the header of an IPv4 upstream. -/
theorem recv_relayed_faults :
    recv responseBuffer (socks5Packet (replicate 12 1) (.v4 0x08080808 53)) =
      .error .outOfRange := by
  decide +kernel

end BalanSir.Dns
