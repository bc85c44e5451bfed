/-
# The addresses of the kernel's socket tables

`remote_ip_str` reads an address of `/proc/net/tcp`, words of the kernel's byte order.
-/

import BalanSir.Lib.Utf8
import BalanSir.Net.Addr
import Mathlib.Algebra.Group.Nat.Defs

namespace BalanSir.B4
namespace HostStack

open List

open Lib (Text)
open Net (IpAddr octet toDigit)

def fromStrRadix16 (text : Text) : Option ℕ :=
  let digits := if text.head? = some '+' then text.tail else text
  if digits = [] then none
  else
    (digits.mapM (toDigit 16)).bind fun ds =>
      let value := ds.foldl (fun n d => n * 16 + d) 0
      if value < 4294967296 then some value else none

def toLeBytes (v : ℕ) : List UInt8 :=
  [.ofNat (v % 256), .ofNat (v / 256 % 256), .ofNat (v / 65536 % 256), .ofNat (v / 16777216 % 256)]

def chunks8 (text : Text) : ℕ → List Text
  | 0 => []
  | count + 1 => text.take 8 :: chunks8 (text.drop 8) count

def remoteIpStr (field : Text) (ipv6 : Bool) : Option IpAddr := do
  let hex := field.takeWhile (· ≠ ':')
  if ipv6 then
    if Lib.byteLen hex ≠ 32 then none
    else
      let groups ← (chunks8 hex 4).mapM fun group => (fromStrRadix16 group).map toLeBytes
      some (.ofOctets16 groups.reverse.flatten)
  else if Lib.byteLen hex ≠ 8 then none
  else
    let b := toLeBytes (← fromStrRadix16 hex)
    some (.ofOctets (b.getD 0 0) (b.getD 1 0) (b.getD 2 0) (b.getD 3 0))

def hexDigits (n : ℕ) : ℕ → Text
  | 0 => []
  | width + 1 => hexDigits (n / 16) width ++ ["0123456789ABCDEF".toList.getD (n % 16) '0']

def nativeWord (w : BitVec 32) : ℕ :=
  octet w 0 + 256 * octet w 1 + 65536 * octet w 2 + 16777216 * octet w 3

def word (a : BitVec 128) (i : ℕ) : BitVec 32 := BitVec.ofNat 32 (a.toNat >>> (32 * (3 - i)))

def words : IpAddr → List (BitVec 32)
  | .v4 a => [a]
  | .v6 a => [word a 0, word a 1, word a 2, word a 3]

def kernelField (addr : IpAddr) (port : UInt16) : Text :=
  (words addr).flatMap (fun w => hexDigits (nativeWord w) 8) ++ ':' :: hexDigits port.toNat 4

theorem toDigit_digit (d : ℕ) :
    toDigit 16 ("0123456789ABCDEF".toList.getD (d % 16) '0') = some (d % 16) := by
  have hd : ∀ k : Fin 16, toDigit 16 ("0123456789ABCDEF".toList.getD k '0') = some k.val := by
    decide
  exact hd ⟨d % 16, Nat.mod_lt _ (by decide)⟩

theorem length_hexDigits (n width : ℕ) : (hexDigits n width).length = width := by
  induction width generalizing n with
  | zero => rfl
  | succ width ih => rw [hexDigits, length_append, ih, length_singleton]

theorem hexDigits_mem {n width : ℕ} {c : Char} (h : c ∈ hexDigits n width) :
    c.toNat < 128 ∧ c ≠ ':' ∧ c ≠ '+' := by
  induction width generalizing n with
  | zero => cases h
  | succ width ih =>
    rcases List.mem_append.1 h with h | h
    · exact ih h
    · have hd : ∀ k : Fin 16, ("0123456789ABCDEF".toList.getD k '0').toNat < 128 ∧
          "0123456789ABCDEF".toList.getD k '0' ≠ ':' ∧
          "0123456789ABCDEF".toList.getD k '0' ≠ '+' := by decide
      rw [List.mem_singleton.1 h]
      exact hd ⟨n % 16, Nat.mod_lt _ (by decide)⟩

theorem mapM_hexDigits (n width : ℕ) : ∃ ds, (hexDigits n width).mapM (toDigit 16) = some ds ∧
      ds.foldl (fun n d => n * 16 + d) 0 = n % 16 ^ width := by
  induction width generalizing n with
  | zero => exact ⟨[], rfl, (Nat.mod_one n).symm⟩
  | succ width ih =>
    obtain ⟨ds, hds, hv⟩ := ih (n / 16)
    refine ⟨ds ++ [n % 16], ?_, ?_⟩
    · rw [hexDigits, mapM_append, hds]
      rw [mapM_cons, toDigit_digit]
      rfl
    · rw [foldl_append, foldl_cons, foldl_nil, Nat.pow_succ, Nat.mul_comm (16 ^ width), Nat.mod_mul]
      omega

theorem fromStrRadix16_hexDigits {n : ℕ} (h : n < 4294967296) :
    fromStrRadix16 (hexDigits n 8) = some n := by
  obtain ⟨ds, hds, hv⟩ := mapM_hexDigits n 8
  have hne : hexDigits n 8 ≠ [] := ne_nil_of_length_pos (by rw [length_hexDigits]; decide)
  have hp : (hexDigits n 8).head? ≠ some '+' := fun he =>
    (hexDigits_mem (mem_of_head? he)).2.2 rfl
  have hpo : 16 ^ 8 = 4294967296 := rfl
  rw [fromStrRadix16, if_neg hp]
  rw [if_neg hne, hds, Option.bind_some, hv, hpo, Nat.mod_eq_of_lt h, if_pos h]

variable (w : BitVec 32)

theorem nativeWord_lt : nativeWord w < 4294967296 := by
  unfold nativeWord octet
  omega

def octets : List UInt8 :=
  [.ofNat (octet w 0), .ofNat (octet w 1), .ofNat (octet w 2), .ofNat (octet w 3)]

theorem toLeBytes_nativeWord : toLeBytes (nativeWord w) = octets w := by
  have hlt : ∀ i, octet w i < 256 := fun i => Nat.mod_lt _ (by decide)
  have hb : nativeWord w % 256 = octet w 0 ∧ nativeWord w / 256 % 256 = octet w 1 ∧
      nativeWord w / 65536 % 256 = octet w 2 ∧ nativeWord w / 16777216 % 256 = octet w 3 := by
    have h0 := hlt 0
    have h1 := hlt 1
    have h2 := hlt 2
    have h3 := hlt 3
    unfold nativeWord
    omega
  rw [toLeBytes, hb.1, hb.2.1, hb.2.2.1, hb.2.2.2, octets]

theorem toNat_octet (i : ℕ) : (UInt8.ofNat (octet w i)).toNat = octet w i :=
  UInt8.toNat_ofNat_of_lt' (Nat.mod_lt _ (by decide))

theorem foldl_octets (n : ℕ) (w : BitVec 32) :
    (octets w).foldl (fun n b => n * 256 + b.toNat) n = n * 4294967296 + w.toNat := by
  simp only [octets, foldl_cons, foldl_nil, toNat_octet]
  rw [← Net.toNat_eq_octets w]
  omega

theorem words_value (a : BitVec 128) :
    (((word a 0).toNat * 4294967296 + (word a 1).toNat) * 4294967296 + (word a 2).toNat) *
      4294967296 + (word a 3).toNat = a.toNat := by
  simp only [word, BitVec.toNat_ofNat]
  omega

theorem append_word_inj {x x' y y' : ℕ} (h : y < 2 ^ 32) (h' : y' < 2 ^ 32) :
    x * 4294967296 + y = x' * 4294967296 + y' ↔ x = x' ∧ y = y' := by omega

theorem read_words (ws : List (BitVec 32)) :
    (chunks8 (ws.flatMap fun w => hexDigits (nativeWord w) 8) ws.length).mapM
      (fun group => (fromStrRadix16 group).map toLeBytes) = some (ws.map octets) := by
  induction ws with
  | nil => rfl
  | cons w ws ih =>
    have hl := length_hexDigits (nativeWord w) 8
    rw [length_cons, chunks8, flatMap_cons, take_left' hl, drop_left' hl,
      mapM_cons, fromStrRadix16_hexDigits (nativeWord_lt w), ih, Option.map_some,
      toLeBytes_nativeWord]
    rfl

def isV6 : IpAddr → Bool
  | .v4 _ => false
  | .v6 _ => true

/-- **When the address of a socket is read:** exactly when its words in reverse are its words, as
of every IPv4 address. -/
theorem remoteIpStr_kernelField_iff (addr : IpAddr) (port : UInt16) :
    remoteIpStr (kernelField addr port) (isV6 addr) = some addr ↔
      (words addr).reverse = words addr := by
  have hm : ∀ c ∈ (words addr).flatMap (fun w => hexDigits (nativeWord w) 8),
      c.toNat < 128 ∧ c ≠ ':' ∧ c ≠ '+' := by
    intro c hc
    obtain ⟨w, -, hw⟩ := List.mem_flatMap.1 hc
    exact hexDigits_mem hw
  have hh : (kernelField addr port).takeWhile (· ≠ ':') =
      (words addr).flatMap fun w => hexDigits (nativeWord w) 8 := by
    rw [kernelField, takeWhile_append_of_pos fun c hc => decide_eq_true (hm c hc).2.1]
    exact append_nil _
  have hl : Lib.byteLen ((words addr).flatMap fun w => hexDigits (nativeWord w) 8) =
      8 * (words addr).length := by
    rw [Lib.byteLen_of_ascii fun c hc => (hm c hc).1, length_flatMap]
    simp only [length_hexDigits, map_const', sum_replicate_nat]
    exact Nat.mul_comm _ _
  unfold remoteIpStr
  rw [hh]
  dsimp only
  rw [hl]
  cases addr with
  | v4 a =>
    refine iff_of_true ?_ rfl
    have hwo : (words (.v4 a)).flatMap (fun w => hexDigits (nativeWord w) 8) =
        hexDigits (nativeWord a) 8 := append_nil _
    rw [hwo, fromStrRadix16_hexDigits (nativeWord_lt a)]
    show some (IpAddr.ofOctets ((toLeBytes (nativeWord a)).getD 0 0) _ _ _) = _
    rw [toLeBytes_nativeWord]
    simp only [octets, IpAddr.ofOctets, getD_cons_zero, getD_cons_succ, toNat_octet,
      Net.toNat_eq_octets]
    simp
  | v6 a =>
    have hre := read_words (words (.v6 a))
    have hr : IpAddr.ofOctets16 ((words (.v6 a)).map octets).reverse.flatten =
        .v6 (BitVec.ofNat 128 ((((word a 3).toNat * 4294967296 + (word a 2).toNat) * 4294967296 +
          (word a 1).toNat) * 4294967296 + (word a 0).toNat)) := by
      simp [IpAddr.ofOctets16, words, foldl_octets]
    show Option.bind ((chunks8 _ (words (.v6 a)).length).mapM _) _ = _ ↔ _
    rw [hre, Option.bind_some, hr]
    simp only [Option.some.injEq, IpAddr.v6.injEq, words, reverse_cons, reverse_nil, nil_append,
      cons_append, List.cons.injEq, ← BitVec.toNat_inj, BitVec.toNat_ofNat]
    rw [← words_value a]
    have h0 := (word a 0).isLt
    have h1 := (word a 1).isLt
    have h2 := (word a 2).isLt
    have h3 := (word a 3).isLt
    rw [Nat.mod_eq_of_lt (by omega), append_word_inj h0 h3, append_word_inj h1 h2,
      append_word_inj h2 h1]
    tauto

/-- The loopback address. -/
theorem remoteIpStr_loopback :
    remoteIpStr (kernelField (.v6 1) 443) true = some (.v6 0x1000000000000000000000000) := by
  decide +kernel

end HostStack
end BalanSir.B4
