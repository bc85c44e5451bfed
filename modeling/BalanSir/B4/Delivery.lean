/-
# The front of one stream

What `TcpReassembler::feed` returns for the segments of one stream, as they arrive.
-/

import BalanSir.B4.Flows

namespace BalanSir.B4

open Lib FeedCall TcpReassembler List

/-- A stream: its flow, the sequence number of its first byte, and its bytes. -/
structure Stream where
  key : FlowKey
  start : ℕ
  bytes : Bytes
deriving DecidableEq

/-- A stretch of the stream, or a call for another flow. -/
inductive Delivery
  | stretch (now first last : ℕ)
  | other (c : FeedCall)
deriving DecidableEq

namespace Stream

variable (s : Stream)

def seqAt (place : ℕ) : ℕ := (s.start + place) % 4294967296

def call : Delivery → FeedCall
  | .stretch now first last => ⟨now, s.key, s.seqAt first, (s.bytes.take last).drop first, false⟩
  | .other c => c

def received (n : ℕ) : Delivery → ℕ
  | .stretch _ _ last => max n last
  | .other _ => n

def deliver (d : Delivery) (x : ℕ × TcpReassembler) : ℕ × TcpReassembler :=
  (received x.1 d, (s.call d).after x.2)

/-- A stretch begins within what has arrived. -/
def Gapless (d : Delivery) (x : ℕ × TcpReassembler) : Prop :=
  match d with
  | .stretch _ first last => first ≤ x.1 ∧ first ≤ last ∧ last ≤ s.bytes.length
  | .other c => c.key ≠ s.key

instance (d : Delivery) (x : ℕ × TcpReassembler) : Decidable (s.Gapless d x) :=
  match d with
  | .stretch _ first last =>
    inferInstanceAs (Decidable (first ≤ x.1 ∧ first ≤ last ∧ last ≤ s.bytes.length))
  | .other c => inferInstanceAs (Decidable (c.key ≠ s.key))

/-- The flow is not evicted. -/
def Admitted (d : Delivery) (x : ℕ × TcpReassembler) : Prop :=
  match d with
  | .stretch now first last =>
    ((x.2.flows.lookup s.key).isSome → ((x.2.sweep now).flows.lookup s.key).isSome) ∧
      (first < last → ((x.2.sweep now).makeRoom now s.key).1 = true)
  | .other c => (x.2.flows.lookup s.key).isSome → ((c.after x.2).flows.lookup s.key).isSome

instance (d : Delivery) (x : ℕ × TcpReassembler) : Decidable (s.Admitted d x) :=
  match d with
  | .stretch _ _ _ => inferInstanceAs (Decidable ((_ → _) ∧ (_ → _ = true)))
  | .other _ => inferInstanceAs (Decidable (_ → _))

def Unwrapped (d : Delivery) (x : ℕ × TcpReassembler) : Prop :=
  match d with
  | .stretch _ first last => extractTlsSni (s.bytes.take x.1) = .ok none → first < x.1 →
      s.seqAt first < s.seqAt x.1 ∧ (x.1 < last → s.seqAt x.1 < s.seqAt last)
  | .other _ => True

instance (d : Delivery) (x : ℕ × TcpReassembler) : Decidable (s.Unwrapped d x) :=
  match d with
  | .stretch _ _ _ => inferInstanceAs (Decidable (_ = _ → _ < _ → _ < _ ∧ (_ < _ → _ < _)))
  | .other _ => isTrue trivial

def ReadsFront (d : Delivery) (x : ℕ × TcpReassembler) : Prop :=
  match d with
  | .stretch _ _ last =>
    x.1 < last → extractTlsSni (s.bytes.take last) = .ok ((s.call d).result x.2)
  | .other _ => True

instance (d : Delivery) (x : ℕ × TcpReassembler) : Decidable (s.ReadsFront d x) :=
  match d with
  | .stretch _ _ _ => inferInstanceAs (Decidable (_ < _ → _ = _))
  | .other _ => isTrue trivial

variable {s}

theorem length_stretch (first : ℕ) {last : ℕ} (hl : last ≤ s.bytes.length) :
    ((s.bytes.take last).drop first).length = last - first := by
  rw [length_drop, length_take, Nat.min_eq_left hl]

end Stream

theorem take_append_drop_take (bytes : Bytes) {n last : ℕ} (h : n ≤ last) :
    bytes.take n ++ (bytes.take last).drop n = bytes.take last := by
  have hf : bytes.take n = (bytes.take last).take n := by
    rw [take_take, Nat.min_eq_left h]
  rw [hf, take_append_drop]

/-- **A stretch that overlaps what was received** adds what is behind that. -/
theorem Flow.take_again {flow : Flow} {s : Stream} {n first last : ℕ}
    (hh : flow.Holds (s.bytes.take n) (s.seqAt n)) (hf : first < n) (hd : first < last)
    (hn : n ≤ s.bytes.length) (hla : last ≤ s.bytes.length) (hle : s.bytes.length ≤ 16384)
    (hw : extractTlsSni (s.bytes.take n) = .ok none →
      s.seqAt first < s.seqAt n ∧ (n < last → s.seqAt n < s.seqAt last)) :
    ∃ flow' result, flow.take 16384 (s.seqAt first) ((s.bytes.take last).drop first) =
        .ok (flow', result, false) ∧ (n < last → extractTlsSni (s.bytes.take last) = .ok result) ∧
      flow'.Holds (s.bytes.take (max n last)) (s.seqAt (max n last)) := by
  obtain ⟨baseSeq, buffer, decided, lastSeen⟩ := flow
  have hm : s.bytes.take n ++ (s.bytes.take (max n last)).drop n = s.bytes.take (max n last) :=
    take_append_drop_take _ (Nat.le_max_left ..)
  rcases hh with ⟨host, rfl, hho⟩ | ⟨rfl, rfl, hno, hne⟩
  · -- a decided flow answers from what it remembers
    have hs := (helloAt_of_sni hho).extractTlsSni_append ((s.bytes.take (max n last)).drop n)
    rw [hm, hho] at hs
    refine ⟨_, some host, rfl, fun hnew => ?_, .inl ⟨host, rfl, hs⟩⟩
    rwa [Nat.max_eq_right hnew.le] at hs
  · obtain ⟨hb, hbe⟩ := hw hno
    have hl : (s.bytes.take n).length = n := by rw [length_take, Nat.min_eq_left hn]
    have hse := s.length_stretch first hla
    rw [hl] at hne
    replace hne : (baseSeq + n) % 4294967296 = s.seqAt n := hne
    unfold Stream.seqAt at hb hbe hne ⊢
    unfold take
    dsimp only
    rw [if_neg (by rw [List.isEmpty_iff, ← length_eq_zero_iff]; omega), hl, hne,
      if_pos (by omega), hse]
    by_cases hnew : n < last
    · -- an overlap: the covered part is as long as the two places are apart
      have hco : (s.start + n) % 4294967296 - (s.start + first) % 4294967296 = n - first := by
        omega
      have ht : ((s.bytes.take last).drop first).drop (n - first) =
          (s.bytes.take last).drop n := by
        rw [drop_drop, Nat.add_sub_cancel' hf.le]
      rw [if_pos ⟨hb, by omega⟩, hco, ← hse, slice_to_end (by omega), ok_bind, ht,
        if_neg (by rw [length_drop, length_take]; omega),
        take_append_drop_take _ hnew.le, Nat.max_eq_right hnew.le]
      have hl' : (s.bytes.take last).length = last := by
        rw [length_take, Nat.min_eq_left hla]
      obtain ⟨flow', result, hc, hr, hh⟩ := classify_holds
        rfl (show Flow.buffer ⟨baseSeq, s.bytes.take last, none, lastSeen⟩ = s.bytes.take last from
          rfl) (show _ ≤ 16384 by omega)
        (show (baseSeq + (s.bytes.take last).length) % 4294967296 = (s.start + last) % 4294967296 by
          omega)
      exact ⟨flow', result, hc, fun _ => hr, hh⟩
    · -- nothing new: a pure duplicate
      rw [if_neg (by omega), if_pos hb, Nat.max_eq_left (by omega)]
      refine ⟨_, none, rfl, fun h => absurd h hnew, .inr ⟨rfl, rfl, hno, ?_⟩⟩
      rw [hl]
      exact hne

namespace Stream

variable {s : Stream} {n now first last : ℕ} {r : TcpReassembler}

/-- The reassembler has the front of the stream that was received. -/
structure Follows (s : Stream) (n : ℕ) (r : TcpReassembler) : Prop where
  received_le : n ≤ s.bytes.length
  maxBytes_eq : r.maxBytes = 16384
  tracks : r.Tracks s.key (s.bytes.take n) (s.seqAt n)

theorem Follows.empty (h : s.Follows n r)
    (hk : (r.flows.lookup s.key).isSome → ((r.sweep now).flows.lookup s.key).isSome)
    (hf : first ≤ n) (he : last ≤ first) :
    s.Follows (max n last) ((s.call (.stretch now first last)).after r) := by
  have hn : (s.call (.stretch now first last)).payload = [] :=
    drop_eq_nil_of_le ((length_take_le ..).trans he)
  rw [(of_nil hn).2, Nat.max_eq_left (he.trans hf)]
  exact ⟨h.received_le, (maxBytes_sweep ..).trans h.maxBytes_eq, h.tracks.sweep hk⟩

theorem Follows.inOrder (hle : s.bytes.length ≤ 16384) (hre : s.bytes.getD 0 0 = 0x16)
    (h : s.Follows n r) (hd : n < last) (hl : last ≤ s.bytes.length)
    (hk : (r.flows.lookup s.key).isSome → ((r.sweep now).flows.lookup s.key).isSome)
    (hro : ((r.sweep now).makeRoom now s.key).1) :
    s.Follows last ((s.call (.stretch now n last)).after r) ∧
      extractTlsSni (s.bytes.take last) = .ok ((s.call (.stretch now n last)).result r) := by
  have hm := take_append_drop_take s.bytes hd.le
  have hs := s.length_stretch n hl
  have hp : (s.bytes.take last).drop n ≠ [] := by
    rw [← length_pos_iff]
    omega
  have hfi : (s.bytes.take n ++ (s.bytes.take last).drop n).length ≤ r.maxBytes := by
    rw [hm, h.maxBytes_eq, length_take]
    omega
  have hg : grow (s.bytes.take n) false ((s.bytes.take last).drop n) = s.bytes.take last := by
    rw [grow_append, hm]
    -- the first stretch begins with the first byte
    intro hn
    obtain rfl : n = 0 := by
      rw [take_eq_nil_iff] at hn
      rcases hn with hz | hb
      · exact hz
      · rw [hb, length_nil] at hl
        omega
    rw [drop_zero, ← hre, getD_eq_getElem?_getD, getD_eq_getElem?_getD, getElem?_take_of_lt hd]
  obtain ⟨result, r', hf, hr, ht⟩ :=
    feed_tracks h.tracks hp hfi hk fun _ : false = false => hro
  rw [hg] at hr ht
  obtain ⟨hc, ha⟩ := eq_of_feed (c := s.call (.stretch now n last)) hf
  have hse : (s.seqAt n + ((s.bytes.take last).drop n).length) % 4294967296 = s.seqAt last := by
    unfold seqAt
    omega
  rw [hse] at ht
  rw [hc, ha]
  exact ⟨⟨hl, (maxBytes_feed hf).trans h.maxBytes_eq, ht⟩, hr⟩

theorem Follows.again (hle : s.bytes.length ≤ 16384) (h : s.Follows n r) (hfi : first < n)
    (hd : first < last) (hl : last ≤ s.bytes.length)
    (hk : (r.flows.lookup s.key).isSome → ((r.sweep now).flows.lookup s.key).isSome)
    (hw : extractTlsSni (s.bytes.take n) = .ok none →
      s.seqAt first < s.seqAt n ∧ (n < last → s.seqAt n < s.seqAt last)) :
    s.Follows (max n last) ((s.call (.stretch now first last)).after r) ∧ (n < last →
      extractTlsSni (s.bytes.take last) = .ok ((s.call (.stretch now first last)).result r)) := by
  have hr := h.received_le
  have hma : (r.sweep now).maxBytes = 16384 := (maxBytes_sweep ..).trans h.maxBytes_eq
  have hfe : (s.call (.stretch now first last)).Feeds := by
    refine ⟨List.length_pos_iff.1 ?_, rfl⟩
    rw [show (s.call (.stretch now first last)).payload.length = _ from
      s.length_stretch first hl]
    omega
  rcases h.tracks.sweep hk with ⟨hn, -⟩ | ⟨hfr, flow, hf, hh⟩
  · rw [← length_eq_zero_iff, length_take] at hn
    omega
  have hro : (r.sweep now).makeRoom now s.key = (true, r.sweep now) := by
    rw [makeRoom, if_pos (by rw [hf]; rfl)]
  obtain ⟨flow₁, result₁, dropFlow, ht, hre, ha⟩ := of_admitted hfe hro
  have hh' : Flow.Holds { flow with lastSeen := now } (s.bytes.take n) (s.seqAt n) := hh
  obtain ⟨flow', result, ht', hrea, hm⟩ :=
    Flow.take_again hh' hfi hd hr hl hle hw
  rw [flowIn, hma] at ht
  rw [show (r.sweep now).flows.lookup (s.call (.stretch now first last)).key = some flow from hf]
    at ht
  cases ht.symm.trans ht'
  refine ⟨⟨max_le hr hl, ?_, .inr ⟨?_, flow₁, lookup_admitted ha, hm⟩⟩, ?_⟩
  · rw [maxBytes_after, h.maxBytes_eq]
  · intro hn
    rw [← length_eq_zero_iff, length_take] at hn
    omega
  · rw [hre]
    exact hrea

variable {d : Delivery} {x : ℕ × TcpReassembler}

/-- **One step** returns what the front of the stream reads as. -/
theorem Follows.deliver (hle : s.bytes.length ≤ 16384) (hr : s.bytes.getD 0 0 = 0x16)
    (h : s.Follows x.1 x.2) (hg : s.Gapless d x) (ha : s.Admitted d x) (hw : s.Unwrapped d x) :
    s.Follows (s.deliver d x).1 (s.deliver d x).2 ∧ s.ReadsFront d x := by
  obtain ⟨n, r⟩ := x
  cases d with
  | other c =>
    have ht := feed_tracks_of_ne h.tracks (Ne.symm hg) (feed_eq c r) ha
    exact ⟨⟨h.received_le, (maxBytes_after c r).trans h.maxBytes_eq, ht⟩, trivial⟩
  | stretch now first last =>
    obtain ⟨hf, ho, hl⟩ := hg
    obtain ⟨hk, hro⟩ := ha
    rcases Nat.eq_or_lt_of_le ho with rfl | hd
    · exact ⟨h.empty hk hf le_rfl, fun hne => absurd hf (by omega)⟩
    rcases Nat.eq_or_lt_of_le hf with rfl | hb
    · obtain ⟨hfo, hre⟩ := h.inOrder hle hr hd hl hk (hro hd)
      refine ⟨?_, fun _ => hre⟩
      show s.Follows (max first last) _
      rw [Nat.max_eq_right hd.le]
      exact hfo
    · exact h.again hle hb hd hl hk fun hn => hw hn hb

end Stream

/-- **The front of a stream.** Where no stretch meets a wrap of the sequence numbers before the host
is known, each stretch with new bytes returns what the front received by then reads as. -/
theorem delivery_reads {s : Stream} {r : TcpReassembler} (hlen : s.bytes.length ≤ 16384)
    (hrecord : s.bytes.getD 0 0 = 0x16) (hmax : r.maxBytes = 16384)
    (hnew : r.flows.lookup s.key = none) {ds : List Delivery}
    (hgapless : Along s.deliver s.Gapless ds (0, r))
    (hadmitted : Along s.deliver s.Admitted ds (0, r))
    (hwrap : Along s.deliver s.Unwrapped ds (0, r)) :
    Along s.deliver s.ReadsFront ds (0, r) := by
  have ha := hgapless.and (hadmitted.and hwrap)
  refine Along.imp_invariant (I := fun x => s.Follows x.1 x.2) (fun d x h hd => ?_)
    (fun d x h hd => ?_) ⟨Nat.zero_le _, hmax, .inl ⟨rfl, hnew⟩⟩ ha
  · exact (h.deliver hlen hrecord hd.1 hd.2.1 hd.2.2).1
  · exact (h.deliver hlen hrecord hd.1 hd.2.1 hd.2.2).2

def helloStream (start : ℕ) : Stream where
  key := ⟨0x0a000001, 0x0a000002, 0x3039, 443⟩
  start := start
  bytes := smallHello.bytes

/-- In order over the wrap, again before it, and an overlap behind it. -/
theorem delivery_reads_hello :
    Along (helloStream 4294967286).deliver (helloStream 4294967286).ReadsFront
      [.stretch 0 0 5, .stretch 0 0 5, .stretch 0 5 30, .stretch 0 20 62] (0, .new) ∧
    extractTlsSni (smallHello.bytes.take 62) = .ok (some ['a']) :=
  ⟨delivery_reads (by decide +kernel) (by decide +kernel) rfl rfl (by decide +kernel)
    (by decide +kernel) (by decide +kernel), by decide +kernel⟩

/-- Over a wrap, an overlap counts as old and a retransmission as a gap: no host is found. -/
theorem delivery_wraps_lost :
    (Along (helloStream 4294967286).deliver
        (fun d x => (helloStream 4294967286).Gapless d x ∧ (helloStream 4294967286).Admitted d x)
        [.stretch 0 0 5, .stretch 0 3 62] (0, .new) ∧
      ¬Along (helloStream 4294967286).deliver (helloStream 4294967286).ReadsFront
        [.stretch 0 0 5, .stretch 0 3 62] (0, .new)) ∧ (Along (helloStream 4294967286).deliver
        (fun d x => (helloStream 4294967286).Gapless d x ∧ (helloStream 4294967286).Admitted d x)
        [.stretch 0 0 30, .stretch 0 0 30, .stretch 0 30 62] (0, .new) ∧
      ¬Along (helloStream 4294967286).deliver (helloStream 4294967286).ReadsFront
        [.stretch 0 0 30, .stretch 0 0 30, .stretch 0 30 62] (0, .new)) := by
  decide +kernel

end BalanSir.B4
