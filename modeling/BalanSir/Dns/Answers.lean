/-
# What the forwarder learns from a response

`parse_answers`, `observe_response` and `ingest` of `dns_plane.rs`.
-/

import BalanSir.Daemon.DnsFlow
import BalanSir.Dns.Filter
import BalanSir.Lib.Checked

namespace BalanSir.Dns

open Lib List
open Daemon (DnsRegistry)
open Net (IpAddr)

def HostLabel (label : Text) : Prop :=
  label ≠ [] ∧ ∀ c ∈ label, hostChar c = true ∧ c ≠ '.' ∧ asciiLower c = c
  deriving Decidable

theorem toNat_lt_of_hostChar {c : Char} (h : hostChar c) : c.toNat < 128 :=
  not_le.1 fun hle => not_notAscii_of_hostChar h (.inr hle)

theorem length_encode {text : Text} (h : ∀ c ∈ text, c.toNat < 128) :
    (encode text).length = text.length := by
  have ho : ∀ c ∈ text, (String.utf8EncodeChar c).length = 1 := fun c hc => by
    rw [String.length_utf8EncodeChar]
    rw [Char.utf8Size_eq_one_iff]
    exact Nat.le_of_lt_succ (h c hc)
  rw [encode, length_flatMap, map_congr_left ho]
  simp

variable {labels : List Text}

theorem normalizeDomain_host (hne : labels ≠ []) (hh : ∀ label ∈ labels, HostLabel label)
    (hle : (['.'].intercalate labels).length ≤ maxNameLen) :
    normalizeDomain (['.'].intercalate labels) = some (['.'].intercalate labels) := by
  have hch : ∀ c ∈ ['.'].intercalate labels, hostChar c = true ∧ asciiLower c = c :=
    (forall_mem_intercalate (by decide) labels).2 fun label hl c hc =>
      ⟨((hh label hl).2 c hc).1, ((hh label hl).2 c hc).2.2⟩
  have hp : [] ∉ (['.'].intercalate labels).splitOn '.' := by
    rw [splitOn_intercalate '.' (fun label hl hd => ((hh label hl).2 _ hd).2.1 rfl) hne]
    exact fun hm => (hh [] hm).1 rfl
  rw [normalizeDomain_eq_some, trimEndMatches_eq_self hp]
  refine ⟨?_, ?_, ?_, fun c hc => (hch c hc).1, hp⟩
  · rw [toAsciiLowercase, map_congr_left fun c hc => (hch c hc).2, map_id']
  · intro hn
    rw [hn] at hp
    exact hp mem_cons_self
  · rwa [byteLen_of_ascii fun c hc => toNat_lt_of_hostChar (hch c hc).1]

theorem length_wire_encode (hh : ∀ label ∈ labels, HostLabel label) :
    (wire (labels.map encode)).length ≤ (['.'].intercalate labels).length + 1 := by
  induction labels with
  | nil => exact Nat.zero_le _
  | cons label labels ih =>
    rw [forall_mem_cons] at hh
    have ih := ih hh.2
    have hl := length_encode fun c hc => toNat_lt_of_hostChar (hh.1.2 c hc).1
    rw [map_cons, length_wire_cons, hl]
    by_cases hn : labels = []
    · subst hn
      rw [intercalate_singleton]
      exact Nat.le_of_eq (Nat.add_comm 1 _)
    · rw [intercalate_cons_of_ne_nil hn, length_append, length_append, length_singleton]
      omega

theorem decodeLoop_of_le {msg : List UInt8} {fuel : ℕ} (start : ℕ) (h : nameRounds ≤ fuel) :
    decodeLoop msg fuel { pos := start } = decodeLoop msg nameRounds { pos := start } := by
  induction fuel, h using Nat.le_induction with
  | base => rfl
  | succ fuel hle ih =>
    have hle' : NameState.rounds { pos := start } < fuel := hle
    rw [decodeLoop_succ msg fuel _ hle', ih]

/-- **Names are decoded through pointers.** A host name of at most 253 characters, with at most 64
pointers to distinct targets, is returned with the position behind the zero or the first pointer. On
any message the loop ends, since every round uses up a jump or a byte of the name, and goes on only
from positions within it. -/
theorem decodeName_encoded :
    (∀ (msg : List UInt8) (pos after : ℕ) (labels : List Text) (targets : List ℕ),
      labels ≠ [] → (∀ label ∈ labels, HostLabel label) →
      (['.'].intercalate labels).length ≤ 253 →
      Encoded msg pos (labels.map encode) targets after → targets.length ≤ 64 → targets.Nodup →
      decodeName msg pos = .ok (['.'].intercalate labels, after)) ∧
    ∀ (msg : List UInt8), (∀ start fuel, nameRounds ≤ fuel →
        decodeLoop msg fuel { pos := start } = decodeLoop msg nameRounds { pos := start }) ∧
      (∀ start, NameState.rounds { pos := start } < nameRounds) ∧
      ∀ st st', decodeRound msg st = .ok (.inl st') →
        st'.rounds < st.rounds ∧ st'.pos ≤ msg.length := by
  refine ⟨?_, fun msg => ⟨fun start fuel => decodeLoop_of_le start, fun _ => Nat.lt_succ_self _,
    fun _ _ => decodeRound_next⟩⟩
  intro msg pos after labels targets hne hh hle he hj hn
  have hw := length_wire_encode hh
  have hlo := decodeLoop_start he
    (List.forall_mem_map.2 fun label hl hni => (hh label hl).1 (encode_injective hni))
    (by unfold maxNameLen; omega) hj hn
  have ht : (labels.map encode).map decodeLossy = labels := by
    rw [map_map]
    exact (map_congr_left fun label _ => decodeLossy_encode label).trans (map_id _)
  rw [ht] at hlo
  unfold decodeName
  rw [hlo]
  have hno := normalizeDomain_host hne hh (by unfold maxNameLen; omega)
  simp only [bind, Except.bind, hno, pure, Except.pure]

/-- `b.a` at position 3, as a label and a pointer to the name `a` at position 0. -/
theorem decodeName_after_pointer :
    decodeName [1, 97, 0, 1, 98, 0xC0, 0] 3 = .ok ("b.a".toList, 7) := by
  refine decodeName_encoded.1 _ 3 7 ["b".toList, "a".toList] [0] (by decide) (by decide) (by decide)
    ?_ (by decide) (by decide)
  have hn : Encoded [1, 97, 0, 1, 98, 0xC0, 0] 0 [[97]] [] 3 := encoded_wire rfl (by decide)
  have hp : Encoded [1, 97, 0, 1, 98, 0xC0, 0] 5 [[97]] [0] 7 :=
    .pointer rfl rfl rfl rfl (by decide) hn
  exact .label rfl (by decide) hp

variable {msg : List UInt8} {answers : List Record} {qname : Text}

end BalanSir.Dns
