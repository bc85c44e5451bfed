/-
# The list of TCP options

`set_mss` and `strip_option` in terms of the list of options instead of their places.
-/

import BalanSir.B4.Options
import BalanSir.Lib.Items

namespace BalanSir.B4

open Lib List ItemFormat

inductive TcpOption
  | nop
  | option (kind : UInt8) (value : Bytes)
deriving DecidableEq

namespace TcpOption

def bytes : TcpOption → Bytes
  | nop => [1]
  | option kind value => kind :: UInt8.ofNat (value.length + 2) :: value

def Valid : TcpOption → Prop
  | nop => True
  | option kind value => kind ≠ 0 ∧ kind ≠ 1 ∧ value.length + 2 < 256

def kind : TcpOption → UInt8
  | nop => 1
  | option kind _ => kind

def next : Bytes → Option (TcpOption × Bytes)
  | [] => none
  | [k] => if k = 1 then some (nop, []) else none
  | k :: len :: more =>
    if k = 0 then none
    else if k = 1 then some (nop, len :: more)
    else if len.toNat < 2 ∨ more.length + 2 < len.toNat then none
    else some (option k (more.take (len.toNat - 2)), more.drop (len.toNat - 2))

theorem next_nop (more : Bytes) : next (1 :: more) = some (nop, more) := by
  cases more with
  | nil => rfl
  | cons len more => rw [next, if_neg (by decide), if_pos rfl]

theorem next_option {k len : UInt8} (hz : k ≠ 0) (hn : k ≠ 1) (more : Bytes) :
    next (k :: len :: more) =
      if len.toNat < 2 ∨ more.length + 2 < len.toNat then none
      else some (option k (more.take (len.toNat - 2)), more.drop (len.toNat - 2)) := by
  rw [next, if_neg hz, if_neg hn]

theorem next_eq_some {bs more : Bytes} {o : TcpOption} :
    next bs = some (o, more) ↔ o.Valid ∧ bs = o.bytes ++ more := by
  constructor
  · intro h
    match bs with
    | [] => cases h
    | [k] =>
      rw [next, Option.ite_none_right_eq_some] at h
      obtain ⟨rfl, heq⟩ := h
      cases heq
      exact ⟨trivial, rfl⟩
    | k :: len :: tail =>
      by_cases hn : k = 1
      · subst hn
        cases h
        exact ⟨trivial, rfl⟩
      by_cases hz : k = 0
      · rw [next, if_pos hz] at h
        cases h
      rw [next_option hz hn, Option.ite_none_left_eq_some] at h
      obtain ⟨hl, heq⟩ := h
      cases heq
      have hb := len.toNat_lt
      have hv : (tail.take (len.toNat - 2)).length + 2 = len.toNat := by
        rw [length_take]
        omega
      refine ⟨⟨hz, hn, by omega⟩, ?_⟩
      rw [bytes, hv, UInt8.ofNat_toNat, cons_append, cons_append, take_append_drop]
  · rintro ⟨hva, rfl⟩
    cases o with
    | nop => exact next_nop more
    | option k value =>
      obtain ⟨hz, hn, hl⟩ := hva
      have hb : (UInt8.ofNat (value.length + 2)).toNat = value.length + 2 := by
        rw [UInt8.toNat_ofNat', Nat.mod_eq_of_lt hl]
      rw [bytes, cons_append, cons_append, next_option hz hn, hb,
        length_append, if_neg (by omega), Nat.add_sub_cancel, take_left, drop_left]

section Places

variable {bs : Bytes} {p stop : ℕ}

theorem next_at_end (hp : stop ≤ p) : next (between bs p stop) = none := by
  rw [between_of_le hp, next]

theorem next_at_zero (hp : p < stop) (hs : stop ≤ bs.length) (hz : bs.getD p 0 = 0) :
    next (between bs p stop) = none := by
  rw [between_eq_cons hp hs, hz]
  cases between bs (p + 1) stop with
  | nil => rfl
  | cons len more => rw [next, if_pos rfl]

theorem next_at_nop (hp : p < stop) (hs : stop ≤ bs.length) (hn : bs.getD p 0 = 1) :
    next (between bs p stop) = some (nop, between bs (p + 1) stop) := by
  rw [between_eq_cons hp hs, hn, next_nop]

theorem next_at_broken (hp : p < stop) (hs : stop ≤ bs.length) (hz : bs.getD p 0 ≠ 0)
    (hn : bs.getD p 0 ≠ 1)
    (hle : (bs.getD (p + 1) 0).toNat < 2 ∨ stop < p + (bs.getD (p + 1) 0).toNat) :
    next (between bs p stop) = none := by
  rcases Nat.lt_or_ge (p + 1) stop with hm | hl
  · rw [between_eq_cons hp hs, between_eq_cons hm hs, next_option hz hn,
      length_between hs, if_pos (by omega)]
  · rw [between_eq_cons hp hs, show p + 1 = stop by omega, between_self, next, if_neg hn]

theorem next_at_option {len : ℕ} (hs : stop ≤ bs.length) (hz : bs.getD p 0 ≠ 0)
    (hn : bs.getD p 0 ≠ 1) (hl : (bs.getD (p + 1) 0).toNat = len) (htw : 2 ≤ len)
    (hf : p + len ≤ stop) : next (between bs p stop) =
      some (option (bs.getD p 0) (between bs (p + 2) (p + len)), between bs (p + len) stop) := by
  have ht : (between bs (p + 2) stop).take (len - 2) = between bs (p + 2) (p + len) := by
    rw [between, between, drop_take, drop_take, take_take,
      Nat.min_eq_left (by omega), show p + len - (p + 2) = len - 2 by omega]
  have hd : (between bs (p + 2) stop).drop (len - 2) = between bs (p + len) stop := by
    rw [between, between, drop_drop, show p + 2 + (len - 2) = p + len by omega]
  rw [between_eq_cons (by omega) hs, between_eq_cons (by omega) hs, next_option hz hn,
    hl, length_between hs, if_neg (by omega), ht, hd]

theorem bytes_option_at {len : ℕ} (hl : 2 ≤ len) (heq : (bs.getD (p + 1) 0).toNat = len)
    (h : p + len ≤ bs.length) :
    (option (bs.getD p 0) (between bs (p + 2) (p + len))).bytes = between bs p (p + len) := by
  have hv : (between bs (p + 2) (p + len)).length + 2 = len := by
    rw [length_between h]
    omega
  have hs : between bs p (p + len) =
      bs.getD p 0 :: bs.getD (p + 1) 0 :: between bs (p + 2) (p + len) := by
    rw [between_eq_cons (by omega) h, between_eq_cons (by omega) h]
  rw [bytes, hv, ← heq, UInt8.ofNat_toNat, heq, hs]

end Places

def format : ItemFormat TcpOption where
  encode := bytes
  Valid := Valid
  next := next
  next_eq_some := next_eq_some
  length_pos := by
    intro o _
    cases o with
    | nop => exact Nat.zero_lt_one
    | option kind value => exact Nat.zero_lt_succ _

theorem encode_format (o : TcpOption) : format.encode o = o.bytes := rfl

end TcpOption

namespace TcpPacket

variable {pkt : TcpPacket}

def optionItems (pkt : TcpPacket) : List TcpOption := TcpOption.format.items pkt.options

def optionRest (pkt : TcpPacket) : Bytes := TcpOption.format.rest pkt.options

theorem length_options (h : pkt.Coherent) : pkt.options.length = pkt.tcpHeaderLen - 20 := by
  have hb := h.bounds
  rw [options, length_between hb.2.2.2.2]
  omega

theorem drop_options (pkt : TcpPacket) (i : ℕ) : pkt.options.drop i =
      between pkt.raw (pkt.tcpOffset + 20 + i) pkt.stop := by
  rw [options, stop, between, between, drop_drop]

variable {i : ℕ}
  {σ τ β : Type} {visit : ℕ → σ → TcpOption → σ ⊕ β} {finish : ℕ → σ → β} {state : ℕ → σ → τ}

theorem turn_of_option {s : σ} (h : pkt.Coherent) {p len : ℕ} (hp : pkt.tcpOffset + 20 + i = p)
    (ho : pkt.OptionAt p len) : TcpOption.format.turn visit finish state pkt.options i s =
      match visit i s (.option (pkt.raw.getD p 0) (between pkt.raw (p + 2) (p + len))) with
      | .inl s => .inl (state (i + len) s)
      | .inr b => .inr b := by
  have hin : pkt.stop ≤ pkt.raw.length := h.bounds.2.2.2.2
  have hf := ho.fits
  have hn := TcpOption.next_at_option hin ho.zero ho.nop ho.length ho.two_le hf
  rw [← hp, ← drop_options, hp] at hn
  have hl : (TcpOption.format.encode (.option (pkt.raw.getD p 0)
      (between pkt.raw (p + 2) (p + len)))).length = len := by
    rw [TcpOption.encode_format, TcpOption.bytes_option_at ho.two_le ho.length (by omega),
      length_between (by omega), Nat.add_sub_cancel_left]
  refine (turn_of_some hn s).trans ?_
  cases visit i s (.option (pkt.raw.getD p 0) (between pkt.raw (p + 2) (p + len))) with
  | inl s' => exact congrArg (fun n => Sum.inl (state (i + n) s')) hl
  | inr b => rfl

theorem turn_of_none {s : σ}
    (hn : TcpOption.next (between pkt.raw (pkt.tcpOffset + 20 + i) pkt.stop) = none) :
    TcpOption.format.turn visit finish state pkt.options i s = .inr (finish i s) := by
  rw [← drop_options] at hn
  exact ItemFormat.turn_of_none hn s

theorem turn_of_nop {s : σ} (h : pkt.Coherent) (hlt : pkt.tcpOffset + 20 + i < pkt.stop)
    (hno : pkt.raw.getD (pkt.tcpOffset + 20 + i) 0 = 1) :
    TcpOption.format.turn visit finish state pkt.options i s =
      match visit i s .nop with
      | .inl s => .inl (state (i + 1) s)
      | .inr b => .inr b := by
  have hn := TcpOption.next_at_nop hlt h.bounds.2.2.2.2 hno
  rw [← drop_options] at hn
  exact turn_of_some hn s

def strippingAt (pkt : TcpPacket) (i : ℕ) (s : Bytes × Bool) : Stripping :=
  ⟨pkt.tcpOffset + 20 + i, s.1, s.2⟩

def stripVisit (kind : UInt8) (s : Bytes × Bool) (o : TcpOption) : Bytes × Bool :=
  if o = .nop ∨ o.kind ≠ kind then (s.1 ++ o.bytes, s.2) else (s.1, true)

variable {kind : UInt8}

theorem stripRound_turn (h : pkt.Coherent) {s : Bytes × Bool} {o : Stripping ⊕ (Bytes × Bool)}
    (ho : stripRound pkt kind (pkt.strippingAt i s) = .ok o) :
    o = TcpOption.format.turn (fun _ s o => .inl (stripVisit kind s o))
      (fun i s => (s.1 ++ pkt.options.drop i, s.2)) pkt.strippingAt pkt.options i s := by
  have hin : pkt.stop ≤ pkt.raw.length := h.bounds.2.2.2.2
  have hs := stripRound_step h kind (pkt.strippingAt i s)
  rw [ho] at hs
  cases hs with
  | atEnd he =>
    have hn := @TcpOption.next_at_end pkt.raw _ _ he
    have hni : pkt.options.drop i = [] := by
      rw [drop_options]
      exact between_of_le he
    rw [turn_of_none hn, hni, append_nil]
    rfl
  | endOfList hlt hz =>
    rw [turn_of_none (TcpOption.next_at_zero hlt hin hz), drop_options]
    rfl
  | nop hlt hno =>
    rw [turn_of_nop h hlt hno]
    rfl
  | broken hb hm =>
    rw [turn_of_none (TcpOption.next_at_broken hb.lt hin hb.zero hb.nop hb.length), drop_options]
    rfl
  | @cut len hop hk =>
    have ht : pkt.OptionAt (pkt.tcpOffset + 20 + i) len := hop
    rw [turn_of_option h rfl ht, stripVisit,
      if_neg (by rintro (⟨⟨⟩⟩ | hne); exact hne hk)]
    show Sum.inl (Stripping.mk (pkt.tcpOffset + 20 + i + len) s.1 true) = _
    rw [Nat.add_assoc]
    rfl
  | @keep len hop hk =>
    have ht : pkt.OptionAt (pkt.tcpOffset + 20 + i) len := hop
    have hf := ht.fits
    rw [turn_of_option h rfl ht, stripVisit, if_pos (.inr hk),
      TcpOption.bytes_option_at ht.two_le ht.length (by omega)]
    show Sum.inl (Stripping.mk (pkt.tcpOffset + 20 + i + len) (s.1 ++ between pkt.raw
      (pkt.tcpOffset + 20 + i) (pkt.tcpOffset + 20 + i + len)) s.2) = _
    rw [Nat.add_assoc _ i len]
    rfl

def withoutKind (pkt : TcpPacket) (kind : UInt8) : List TcpOption :=
  pkt.optionItems.filter (·.kind ≠ kind)

theorem foldl_stripVisit (hn : kind ≠ 1) (l : List TcpOption) (s : Bytes × Bool) :
    l.foldl (stripVisit kind) s = (s.1 ++ (l.filter (·.kind ≠ kind)).flatMap TcpOption.bytes,
        s.2 || l.any (·.kind = kind)) := by
  induction l generalizing s with
  | nil => simp
  | cons o l ih =>
    rw [foldl_cons, ih, stripVisit]
    by_cases hk : o.kind = kind
    · have hc : ¬(o = .nop ∨ o.kind ≠ kind) := by
        rintro (rfl | hne)
        · exact hn hk.symm
        · exact hne hk
      rw [if_neg hc]
      simp [hk]
    · simp [hk]

theorem stripRounds_eq (h : pkt.Coherent) (hn : kind ≠ 1) {n : ℕ} {r : Bytes × Bool}
    (hr : rounds (stripRound pkt kind) n ⟨pkt.tcpOffset + 20, [], false⟩ = .ok r) :
    r = ((pkt.withoutKind kind).flatMap TcpOption.bytes ++ pkt.optionRest,
      pkt.optionItems.any (·.kind = kind)) := by
  have hs := rounds_eq_scan (s := (([] : Bytes), false))
    (fun i s o _ ho => .inl (stripRound_turn h ho)) (Nat.zero_le _) hr
  rw [hs, drop_zero, scan_eq_foldl fun i s o => rfl, foldl_stripVisit hn, Nat.zero_add, drop_items]
  rfl

/-- Two packets agree in what `TcpPacket` gives access to but for the options. -/
structure SameFields (pkt again : TcpPacket) : Prop where
  srcIp : again.srcIp = pkt.srcIp
  dstIp : again.dstIp = pkt.dstIp
  srcPort : again.srcPort = pkt.srcPort
  dstPort : again.dstPort = pkt.dstPort
  tcpSeq : again.tcpSeq = pkt.tcpSeq
  tcpFlags : again.tcpFlags = pkt.tcpFlags
  tcpPayload : again.tcpPayload = pkt.tcpPayload

theorem SameFields.of_getD {again : TcpPacket} (h : pkt.Coherent) (h' : again.Coherent)
    (ho : again.tcpOffset = pkt.tcpOffset) (hp : again.payload = pkt.payload)
    (hg : ∀ j, 12 ≤ j → j ≠ pkt.tcpOffset + 12 → j < pkt.tcpOffset + 20 →
      again.raw.getD j 0 = pkt.raw.getD j 0) : SameFields pkt again := by
  have hb := h.bounds
  have hb' := h'.bounds
  have hw (j : ℕ) (hj : 12 ≤ j) (hj' : j + 1 < pkt.tcpOffset + 12) :
      wordAt again.raw j = wordAt pkt.raw j := by
    rw [wordAt, hg j hj (by omega) (by omega), hg (j + 1) (by omega) (by omega) (by omega), wordAt]
  have hl (j : ℕ) (hj : 12 ≤ j) (hj' : j + 3 < pkt.tcpOffset + 12) :
      u32At again.raw j = u32At pkt.raw j := by
    rw [u32At_of_lt (by omega), u32At_of_lt (by omega), hw j hj (by omega),
      hw (j + 2) (by omega) (by omega)]
  have hs (j : ℕ) (hj : 12 ≤ j) (hj' : j + 1 < pkt.tcpOffset + 12) :
      u16At again.raw j = u16At pkt.raw j := by
    rw [u16At_of_lt (by omega), u16At_of_lt (by omega), hw j hj hj']
  refine ⟨hl 12 (by omega) (by omega), hl 16 (by omega) (by omega), ?_, ?_, ?_, ?_, ?_⟩
  · rw [TcpPacket.srcPort, ho, hs _ (by omega) (by omega), TcpPacket.srcPort]
  · rw [TcpPacket.dstPort, ho, hs _ (by omega) (by omega), TcpPacket.dstPort]
  · rw [TcpPacket.tcpSeq, ho, hl _ (by omega) (by omega), TcpPacket.tcpSeq]
  · rw [tcpFlags_eq h, tcpFlags_eq h', flags, flags, ho,
      hg _ (by omega) (by omega) (by omega)]
  · rw [tcpPayload_eq h, tcpPayload_eq h', hp]

theorem options_ofRaw (h : pkt.Coherent) : (ofRaw pkt.raw).options = pkt.options := by
  rw [options, options, h.tcpOffset, h.tcpHeaderLen]
  rfl

theorem payload_ofRaw (h : pkt.Coherent) : (ofRaw pkt.raw).payload = pkt.payload := by
  rw [payload, payload, h.tcpOffset, h.tcpHeaderLen]
  rfl

theorem parse_rebuilt (h : pkt.Coherent) (hs : pkt.raw.length < 65536) {kept : Bytes}
    (hmo : kept.length % 4 = 0) (hl : 20 + kept.length ≤ pkt.tcpHeaderLen) :
    ∃ again, parse (pkt.rebuilt kept).raw = .ok (some again) ∧ SameFields pkt again ∧
      again.options = kept := by
  obtain ⟨hm, ho⟩ := rebuilt_mutates h hs hmo hl
  have hc := hm.coherent
  refine ⟨_, parse_of_isTcp hc.isTcp, .of_getD h (coherent_ofRaw hc.isTcp) ?_ ?_ ?_,
    (options_ofRaw hc).trans ho⟩
  · exact hc.tcpOffset.symm.trans hm.offset
  · exact (payload_ofRaw hc).trans hm.payload
  · intro j hj hd hlt
    exact getD_rebuilt kept h (.inr ⟨by omega, hd, hlt⟩)

/-- **What `strip_option` cuts out.** It has found the kind exactly if the options have it; the
packet parses again with the same fields and payload, its options without those of the kind, and
NOPs. -/
theorem stripOption_spec {raw : Bytes} {pkt : TcpPacket} (hparse : parse raw = .ok (some pkt))
    (htotal : pkt.ipTotalLen = pkt.raw.length) {kind : UInt8} (hnop : kind ≠ 1)
    {r : Bool × TcpPacket} (hr : pkt.stripOption kind = .ok r) :
    (r.1 = true ↔ ∃ o ∈ pkt.optionItems, o.kind = kind) ∧
      (r.1 = true → ∃ again, parse r.2.raw = .ok (some again) ∧ SameFields pkt again ∧
        ∃ n < 4, again.options = (pkt.withoutKind kind).flatMap TcpOption.bytes ++
          pkt.optionRest ++ List.replicate n 1) ∧ (r.1 = false → r.2 = pkt) := by
  obtain ⟨hra, rfl⟩ := parse_eq_some.1 hparse
  have h := coherent_ofRaw hra
  have hsi : (ofRaw raw).raw.length < 65536 := htotal ▸ wordAt_lt raw 2
  rw [stripOption, bind_eq_ok] at hr
  obtain ⟨⟨kept, changed⟩, hro, hr⟩ := hr
  have hs := ((stripRounds_runs h kind).of_ok hro).2
  obtain ⟨hk, hc⟩ := Prod.mk.inj (stripRounds_eq h hnop hro)
  have hi : changed = true ↔ ∃ o ∈ (ofRaw raw).optionItems, o.kind = kind := by
    rw [hc]
    simp
  cases changed with
  | false =>
    obtain rfl := Except.ok.inj hr
    exact ⟨hi, nofun, fun _ => rfl⟩
  | true =>
    have hm := length_padNops_mod kept
    have hl := length_padNops_le h (hs.1 rfl)
    dsimp only at hr
    rw [rebuild_eq h hm] at hr
    obtain rfl := Except.ok.inj hr
    obtain ⟨again, ha, hsa, ho⟩ := parse_rebuilt h hsi hm hl
    refine ⟨hi, fun _ => ⟨again, ha, hsa, (4 - kept.length % 4) % 4, ?_, ?_⟩, nofun⟩
    · omega
    · rw [ho, padNops, hk]

def synWith (options : Bytes) : Bytes :=
  [0x45, 0] ++ be16Bytes (40 + options.length) ++ [0, 0, 0, 0, 64, 6, 0, 0, 10, 0, 0, 1,
    10, 0, 0, 2, 0x30, 0x39, 0x01, 0xbb, 0, 0, 0, 7, 0, 0, 0, 0,
    UInt8.ofNat ((20 + options.length) / 4 * 16), 0x02, 0, 0, 0, 0, 0, 0] ++ options

/-- SACK-permitted between an MSS option and NOPs. -/
theorem synWith_sack_stripped :
    ∃ r, (ofRaw (synWith [2, 4, 5, 0xb4, 4, 2, 1, 1])).stripOption SACK_PERMITTED = .ok r ∧
      r.1 = true ∧ ∃ again, parse r.2.raw = .ok (some again) ∧
        SameFields (ofRaw (synWith [2, 4, 5, 0xb4, 4, 2, 1, 1])) again ∧
          ∃ n < 4, again.options = [2, 4, 5, 0xb4, 1, 1] ++ List.replicate n 1 := by
  have hp : parse (synWith [2, 4, 5, 0xb4, 4, 2, 1, 1]) =
      .ok (some (ofRaw (synWith [2, 4, 5, 0xb4, 4, 2, 1, 1]))) :=
    parse_of_isTcp (by decide +kernel)
  obtain ⟨r, hr, hf⟩ := exists_eq_ok (m := stripOption
    (ofRaw (synWith [2, 4, 5, 0xb4, 4, 2, 1, 1])) SACK_PERMITTED) (f := Prod.fst) (b := true)
    (by decide +kernel)
  obtain ⟨-, hc, -⟩ := stripOption_spec hp (by decide +kernel) (by decide) hr
  exact ⟨r, hr, hf, hc hf⟩

end TcpPacket

def TcpOption.isMss : TcpOption → Bool
  | nop => false
  | option kind value => kind = MSS && 2 ≤ value.length

variable {value : Bytes}

theorem TcpOption.isMss_option (h : 2 ≤ value.length) : (option MSS value).isMss := by
  rw [isMss, decide_eq_true h]
  rfl

theorem TcpOption.exists_of_isMss {o : TcpOption} (h : o.isMss) :
    ∃ value, o = option MSS value ∧ 2 ≤ value.length := by
  cases o with
  | nop => cases h
  | option kind value =>
    rw [isMss, Bool.and_eq_true, decide_eq_true_iff, decide_eq_true_iff] at h
    obtain ⟨rfl, hl⟩ := h
    exact ⟨value, rfl, hl⟩

namespace TcpPacket

variable {pkt : TcpPacket}

def withMss (pkt : TcpPacket) (mss : UInt16) (i : ℕ) : TcpPacket :=
  { pkt with raw := patch pkt.raw (pkt.tcpOffset + 20 + i) (be16Bytes mss.toNat) }

def mssVisit (pkt : TcpPacket) (mss : UInt16) (i : ℕ) (s : Unit) (o : TcpOption) :
    Unit ⊕ (Bool × TcpPacket) :=
  if o.isMss then .inr (true, pkt.withMss mss (i + 2)) else .inl s

theorem setMssRound_turn (h : pkt.Coherent) {mss : UInt16} {o : ℕ ⊕ (Bool × TcpPacket)}
    (ho : setMssRound pkt mss (pkt.tcpOffset + 20 + i) = .ok o) :
    o = TcpOption.format.turn (pkt.mssVisit mss) (fun _ _ => (false, pkt))
        (fun i _ => pkt.tcpOffset + 20 + i) pkt.options i () ∨
      o = .inr (TcpOption.format.scan (pkt.mssVisit mss) (fun _ _ => (false, pkt))
        (TcpOption.format.items (pkt.options.drop i)) i ()) := by
  have hin : pkt.stop ≤ pkt.raw.length := h.bounds.2.2.2.2
  have hs := setMssRound_step h mss (pkt.tcpOffset + 20 + i)
  rw [ho] at hs
  cases hs with
  | atEnd he =>
    -- in the last byte there is no room for an MSS option
    right
    rw [scan_of_forall]
    intro o hi i'
    have hsi := length_encode_le hi
    rw [drop_options, length_between hin] at hsi
    cases o with
    | nop => rfl
    | option kind value =>
      rw [TcpOption.encode_format, TcpOption.bytes, length_cons, length_cons] at hsi
      omega
  | endOfList hlt hz =>
    left
    rw [turn_of_none (TcpOption.next_at_zero (by omega) hin hz)]
  | nop hlt hn =>
    left
    rw [turn_of_nop h (by omega) hn]
    rfl
  | broken hb =>
    left
    rw [turn_of_none (TcpOption.next_at_broken hb.lt hin hb.zero hb.nop hb.length)]
  | @found len hop hk hl =>
    left
    have hf := hop.fits
    have hv : 2 ≤ (between pkt.raw (pkt.tcpOffset + 20 + i + 2)
        (pkt.tcpOffset + 20 + i + len)).length := by
      rw [length_between (by omega)]
      omega
    rw [turn_of_option h rfl hop, mssVisit, hk, if_pos (TcpOption.isMss_option hv),
      withMss, ← Nat.add_assoc]
  | @passed len hop hot =>
    left
    have hf := hop.fits
    have hv : (between pkt.raw (pkt.tcpOffset + 20 + i + 2)
        (pkt.tcpOffset + 20 + i + len)).length = len - 2 := by
      rw [length_between (by omega)]
      omega
    have hm : (TcpOption.option (pkt.raw.getD (pkt.tcpOffset + 20 + i) 0)
        (between pkt.raw (pkt.tcpOffset + 20 + i + 2)
          (pkt.tcpOffset + 20 + i + len))).isMss = false := by
      rw [TcpOption.isMss, ← Bool.not_eq_true, Bool.and_eq_true, decide_eq_true_iff,
        decide_eq_true_iff]
      exact fun hy => hot ⟨hy.1, by omega⟩
    rw [turn_of_option h rfl hop, mssVisit, hm]
    exact congrArg Sum.inl (Nat.add_assoc ..)

theorem setMss_eq_scan (h : pkt.Coherent) (mss : UInt16) :
    pkt.setMss mss = .ok (TcpOption.format.scan (pkt.mssVisit mss) (fun _ _ => (false, pkt))
      pkt.optionItems 0 ()) := by
  obtain ⟨r, hr, -⟩ := (setMss_runs h mss).2 id
  rw [hr]
  congr 1
  exact rounds_eq_scan (fun i _ o _ ho => setMssRound_turn h ho) (Nat.zero_le _) hr

variable {before after : List TcpOption}

theorem setMss_of_split (h : pkt.Coherent) (mss : UInt16)
    (hs : pkt.optionItems = before ++ .option MSS value :: after)
    (hb : ∀ o ∈ before, o.isMss = false) (hv : 2 ≤ value.length) : pkt.setMss mss =
      .ok (true, pkt.withMss mss ((before.flatMap TcpOption.bytes).length + 2)) := by
  have hm := TcpOption.isMss_option hv
  rw [setMss_eq_scan h, hs, scan_of_split]
  · intro o ho i
    rw [mssVisit, hb o ho]
    rfl
  · rw [mssVisit, if_pos hm, Nat.zero_add]
    rfl

theorem setMss_of_forall (h : pkt.Coherent) (mss : UInt16)
    (hn : ∀ o ∈ pkt.optionItems, o.isMss = false) : pkt.setMss mss = .ok (false, pkt) := by
  rw [setMss_eq_scan h, scan_of_forall]
  intro o ho i
  rw [mssVisit, hn o ho]
  rfl

theorem options_withMss (h : pkt.Coherent) (mss : UInt16) (hi : i + 2 ≤ pkt.options.length) :
    (pkt.withMss mss i).options = patch pkt.options i (be16Bytes mss.toNat) := by
  have hb := h.bounds
  have he : pkt.tcpOffset + 20 + i + (be16Bytes mss.toNat).length ≤
      pkt.tcpOffset + pkt.tcpHeaderLen := by
    rw [length_options h] at hi
    rw [length_be16Bytes]
    omega
  exact between_patch he hb.2.2.2.2

theorem room_of_split {kind : UInt8}
    (hs : pkt.optionItems = before ++ .option kind value :: after) :
    (before.flatMap TcpOption.bytes).length + 2 + value.length ≤ pkt.options.length := by
  have ha : pkt.optionItems.flatMap TcpOption.bytes ++ pkt.optionRest = pkt.options :=
    TcpOption.format.flatMap_items pkt.options
  rw [← ha, hs, flatMap_append, flatMap_cons, TcpOption.bytes]
  simp only [length_append, length_cons]
  omega

theorem optionItems_withMss (h : pkt.Coherent) (mss : UInt16)
    (hs : pkt.optionItems = before ++ .option MSS value :: after) (hva : 2 ≤ value.length) :
    ∃ value' after', 2 ≤ value'.length ∧
      (pkt.withMss mss ((before.flatMap TcpOption.bytes).length + 2)).optionItems =
        before ++ .option MSS value' :: after' := by
  obtain ⟨v₀, v₁, more, rfl⟩ : ∃ v₀ v₁ more, value = v₀ :: v₁ :: more := by
    match value with
    | v₀ :: v₁ :: more => exact ⟨v₀, v₁, more, rfl⟩
  have hv (o : TcpOption) (ho : o ∈ pkt.optionItems) : o.Valid :=
    valid_of_mem_items ho
  rw [hs] at hv
  -- up to the length byte, the two bytes that are overwritten, and what is behind them
  obtain ⟨front, hf⟩ : ∃ front, front = before.flatMap TcpOption.bytes ++
      [MSS, UInt8.ofNat ((v₀ :: v₁ :: more).length + 2)] := ⟨_, rfl⟩
  obtain ⟨back, hb⟩ : ∃ back, back = after.flatMap TcpOption.bytes ++ pkt.optionRest := ⟨_, rfl⟩
  have hop : pkt.options = front ++ ([v₀, v₁] ++ (more ++ back)) := by
    have ha : pkt.optionItems.flatMap TcpOption.bytes ++ pkt.optionRest = pkt.options :=
      TcpOption.format.flatMap_items pkt.options
    rw [← ha, hs, flatMap_append, flatMap_cons, TcpOption.bytes, hf, hb]
    simp only [append_assoc, cons_append, nil_append]
  have hp : (before.flatMap TcpOption.bytes).length + 2 = front.length := by
    rw [hf, length_append]
    rfl
  have hr : front.length + 2 ≤ pkt.options.length := by
    have := room_of_split hs
    omega
  refine ⟨be16Bytes mss.toNat ++ more, TcpOption.format.items back, ?_, ?_⟩
  · rw [length_append, length_be16Bytes]
    omega
  have hn : (pkt.withMss mss front.length).options =
      (before ++ [TcpOption.option MSS (be16Bytes mss.toNat ++ more)]).flatMap
        TcpOption.format.encode ++
        back := by
    have hol : [v₀, v₁].length = (be16Bytes mss.toNat).length := rfl
    rw [options_withMss h mss hr, hop, patch_append hol, hf, flatMap_append, flatMap_singleton]
    simp only [append_assoc]
    rfl
  rw [hp, optionItems, hn, items_append, append_assoc]
  · rfl
  · intro o ho
    rcases List.mem_append.1 ho with ho | ho
    · exact hv o (mem_append_left _ ho)
    · rw [mem_singleton] at ho
      rw [ho]
      exact hv (.option MSS (v₀ :: v₁ :: more)) (mem_append_right _ mem_cons_self)

theorem withMss_withMss (h : pkt.Coherent) (mss : UInt16) (hi : i + 2 ≤ pkt.options.length) :
    (pkt.withMss mss i).withMss mss i = pkt.withMss mss i := by
  have hb := h.bounds
  rw [length_options h] at hi
  have hin : pkt.tcpOffset + 20 + i + (be16Bytes mss.toNat).length ≤ pkt.raw.length := by
    rw [length_be16Bytes]
    omega
  exact congrArg (fun raw => { pkt with raw }) (patch_patch hin)

theorem parse_withMss {raw : Bytes} (hr : IsTcp raw) (mss : UInt16)
    (hi : i + 2 ≤ (ofRaw raw).options.length) :
    parse ((ofRaw raw).withMss mss i).raw = .ok (some ((ofRaw raw).withMss mss i)) := by
  have h := coherent_ofRaw hr
  have hb := h.bounds
  rw [length_options h] at hi
  have hk : Keeps (ofRaw raw) ((ofRaw raw).withMss mss i) := by
    refine .patch h ?_ ?_ <;> rw [length_be16Bytes] <;> omega
  have ht : wordAt ((ofRaw raw).withMss mss i).raw 2 = wordAt raw 2 :=
    wordAt_patch_of_lt (by omega) (by omega)
  have hc := hk.coherent
  rw [parse_of_isTcp hc.isTcp, ofRaw, ← hc.tcpOffset, ← hc.tcpHeaderLen, ht]
  rfl

/-- `set_mss` writes into the first MSS option with room for a value, and nowhere else. -/
structure WritesMss (pkt : TcpPacket) (mss : UInt16) (r : Bool × TcpPacket) : Prop where
  found : r.1 = true ↔ ∃ o ∈ pkt.optionItems, o.isMss = true
  written : ∀ before value after, pkt.optionItems = before ++ .option MSS value :: after →
    (∀ o ∈ before, o.isMss = false) → 2 ≤ value.length →
      r.2 = pkt.withMss mss ((before.flatMap TcpOption.bytes).length + 2)
  absent : r.1 = false → r.2 = pkt

/-- **What `set_mss` writes:** the value of the first MSS option of length 4 or more, and nothing
new when it is applied again. -/
theorem setMss_spec {raw : Bytes} {pkt : TcpPacket} (hparse : parse raw = .ok (some pkt))
    (mss : UInt16) : ∃ r, pkt.setMss mss = .ok r ∧ WritesMss pkt mss r ∧
      parse r.2.raw = .ok (some { pkt with raw := r.2.raw }) ∧ r.2.setMss mss = .ok r := by
  obtain ⟨hra, rfl⟩ := parse_eq_some.1 hparse
  have h := coherent_ofRaw hra
  cases hf : (ofRaw raw).optionItems.find? TcpOption.isMss with
  | none =>
    have hn (o : TcpOption) (ho : o ∈ (ofRaw raw).optionItems) : o.isMss = false :=
      Bool.not_eq_true _ ▸ List.find?_eq_none.1 hf o ho
    have hse := setMss_of_forall h mss hn
    refine ⟨_, hse, ⟨?_, ?_, fun _ => rfl⟩, hparse, hse⟩
    · refine ⟨nofun, ?_⟩
      rintro ⟨o, ho, hm⟩
      rw [hn o ho] at hm
      cases hm
    · intro before value after hs _ hv
      have hm := hn (.option MSS value) (by rw [hs]; simp)
      rw [TcpOption.isMss_option hv] at hm
      cases hm
  | some o =>
    obtain ⟨hm, before, after, hs, hb⟩ := List.find?_eq_some_iff_append.1 hf
    obtain ⟨value, rfl, hv⟩ := TcpOption.exists_of_isMss hm
    replace hb (o : TcpOption) (ho : o ∈ before) : o.isMss = false := by
      simpa using hb o ho
    have hr := room_of_split hs
    have hse := setMss_of_split h mss hs hb hv
    obtain ⟨value', after', hv', hs'⟩ := optionItems_withMss h mss hs hv
    have hc := ((setMss_runs h mss).of_ok hse).2.2.1.coherent
    have ha := setMss_of_split hc mss hs' hb hv'
    rw [withMss_withMss h mss (by omega)] at ha
    refine ⟨_, hse, ⟨?_, ?_, nofun⟩, parse_withMss hra mss (by omega), ha⟩
    · refine ⟨fun _ => ⟨_, ?_, hm⟩, fun _ => rfl⟩
      rw [hs]
      simp
    · intro before₁ value₁ after₁ hs₁ hb₁ hv₁
      have hse₁ := setMss_of_split h mss hs₁ hb₁ hv₁
      exact congrArg Prod.snd (Except.ok.inj (hse.symm.trans hse₁))

theorem synWith_mss_written :
    ∃ r, (ofRaw (synWith [1, 2, 4, 5, 0xb4, 1, 1, 0])).setMss 1200 = .ok r ∧
      WritesMss (ofRaw (synWith [1, 2, 4, 5, 0xb4, 1, 1, 0])) 1200 r ∧
      parse r.2.raw = .ok (some
        { ofRaw (synWith [1, 2, 4, 5, 0xb4, 1, 1, 0]) with raw := r.2.raw }) ∧
      r.2.setMss 1200 = .ok r :=
  setMss_spec
    (parse_of_isTcp (by decide +kernel : IsTcp (synWith [1, 2, 4, 5, 0xb4, 1, 1, 0]))) 1200

def FirstMssOnly (pkt : TcpPacket) (r : Bool × TcpPacket) : Prop :=
  ∀ before value after, pkt.optionItems = before ++ .option MSS value :: after →
    (∀ o ∈ before, o.kind ≠ MSS) → ∀ j, r.2.raw.getD j 0 ≠ pkt.raw.getD j 0 →
      pkt.tcpOffset + 20 + (before.flatMap TcpOption.bytes).length + 2 ≤ j ∧
        j < pkt.tcpOffset + 20 + (before.flatMap TcpOption.bytes).length + 2 + min 2 value.length

/-- A first MSS option of length 2 is passed over, and the next one is written. -/
theorem shortMss_passed_over : ∃ r, parse (synWith [2, 2, 2, 4, 5, 0xb4, 1, 1]) =
        .ok (some (ofRaw (synWith [2, 2, 2, 4, 5, 0xb4, 1, 1]))) ∧
      (ofRaw (synWith [2, 2, 2, 4, 5, 0xb4, 1, 1])).setMss 1200 = .ok r ∧
        ¬FirstMssOnly (ofRaw (synWith [2, 2, 2, 4, 5, 0xb4, 1, 1])) r := by
  have hr : IsTcp (synWith [2, 2, 2, 4, 5, 0xb4, 1, 1]) := by decide +kernel
  have hi : (ofRaw (synWith [2, 2, 2, 4, 5, 0xb4, 1, 1])).optionItems =
      [.option MSS []] ++ .option MSS [5, 0xb4] :: [.nop, .nop] := by decide +kernel
  have hs := setMss_of_split (coherent_ofRaw hr) 1200 hi (by decide) (by decide)
  refine ⟨_, parse_of_isTcp hr, hs, fun ho => ?_⟩
  have hp := ho [] [] [.option MSS [5, 0xb4], .nop, .nop] hi nofun 44 (by decide +kernel)
  exact absurd hp (by decide +kernel)

end TcpPacket

end BalanSir.B4
