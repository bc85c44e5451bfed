/-
# Reassembly of the front of TCP streams

`reassembly.rs`: `TcpReassembler::feed` keeps the front of each flow until it has a host.
-/

import BalanSir.B4.Packet
import BalanSir.B4.Sni
import BalanSir.Lib.Table

namespace BalanSir.B4

open Lib AList

structure FlowKey where
  srcIp : ℕ
  dstIp : ℕ
  srcPort : ℕ
  dstPort : ℕ
deriving DecidableEq

def FlowKey.forPacket (pkt : TcpPacket) : Checked FlowKey := do
  let srcIp ← pkt.srcIp
  let dstIp ← pkt.dstIp
  let srcPort ← pkt.srcPort
  let dstPort ← pkt.dstPort
  return { srcIp, dstIp, srcPort, dstPort }

structure Flow where
  baseSeq : ℕ
  buffer : Bytes
  decided : Option Text
  lastSeen : ℕ
deriving DecidableEq

def Flow.new (baseSeq now : ℕ) : Flow := ⟨baseSeq, [], none, now⟩

structure TcpReassembler where
  flows : Table FlowKey Flow
  maxBytes : ℕ
  maxFlows : ℕ
  idleTimeout : ℕ
  sinceEvict : ℕ
  evictEvery : ℕ

namespace TcpReassembler

def new : TcpReassembler where
  flows := ∅
  maxBytes := 16 * 1024
  maxFlows := 4096
  idleTimeout := 30000000000
  sinceEvict := 0
  evictEvery := 256

def evictExpired (now : ℕ) (r : TcpReassembler) : TcpReassembler :=
  { r with flows := r.flows.retain fun _ f => now ≤ f.lastSeen + r.idleTimeout }

def sweep (now : ℕ) (r : TcpReassembler) : TcpReassembler :=
  let r := { r with sinceEvict := r.sinceEvict + 1 }
  if r.sinceEvict % r.evictEvery = 0 then evictExpired now r else r

def makeRoom (now : ℕ) (key : FlowKey) (r : TcpReassembler) : Bool × TcpReassembler :=
  if (r.flows.lookup key).isSome then (true, r)
  else
    let r := if r.maxFlows ≤ r.flows.size then evictExpired now r else r
    (r.flows.size < r.maxFlows, r)

end TcpReassembler

namespace Flow

def classify (maxBytes : ℕ) (flow : Flow) : Checked (Flow × Option Text × Bool) :=
  if maxBytes < flow.buffer.length then .ok (flow, none, true)
  else do
    match ← extractTlsSni flow.buffer with
    | some host => .ok ({ flow with buffer := [], decided := some host }, some host, false)
    | none => .ok (flow, flow.decided, false)

def take (maxBytes seq : ℕ) (payload : Bytes) (flow : Flow) :
    Checked (Flow × Option Text × Bool) :=
  match flow.decided with
  | some host => .ok (flow, some host, false)
  | none =>
    if flow.buffer.isEmpty then do
      let first ← byteAt payload 0
      if first ≠ 0x16 then .ok (flow, none, true)
      else classify maxBytes { flow with buffer := flow.buffer ++ payload }
    else
      let expected := (flow.baseSeq + flow.buffer.length) % 4294967296
      if seq ≠ expected then
        if seq < expected ∧ expected < (seq + payload.length) % 4294967296 then do
          -- a retransmission with new data behind it
          let newTail ← slice payload (expected - seq) payload.length
          if maxBytes - flow.buffer.length < newTail.length then .ok (flow, none, true)
          else classify maxBytes { flow with buffer := flow.buffer ++ newTail }
        else if seq < expected then .ok (flow, flow.decided, false)
        else .ok (flow, none, true)
      else if maxBytes - flow.buffer.length < payload.length then .ok (flow, none, true)
      else classify maxBytes { flow with buffer := flow.buffer ++ payload }

end Flow

namespace TcpReassembler

def feed (now : ℕ) (key : FlowKey) (seq : ℕ) (payload : Bytes) (finRst : Bool)
    (r : TcpReassembler) : Checked (Option Text × TcpReassembler) :=
  let r := sweep now r
  if payload.isEmpty then .ok (none, r)
  else if finRst then .ok (none, { r with flows := r.flows.erase key })
  else
    match makeRoom now key r with
    | (false, r) => .ok (none, r)
    | (true, r) => do
      let flow := (r.flows.lookup key).getD (Flow.new seq now)
      let (flow, result, dropFlow) ← Flow.take r.maxBytes seq payload { flow with lastSeen := now }
      return (result, { r with flows :=
        if dropFlow then r.flows.erase key else r.flows.insert key flow })

end TcpReassembler

def FlowKey.of (pkt : TcpPacket) : FlowKey where
  srcIp := wordAt pkt.raw 12 * 65536 + wordAt pkt.raw 14
  dstIp := wordAt pkt.raw 16 * 65536 + wordAt pkt.raw 18
  srcPort := wordAt pkt.raw pkt.tcpOffset
  dstPort := pkt.port

theorem FlowKey.forPacket_eq {pkt : TcpPacket} (h : pkt.Coherent) :
    FlowKey.forPacket pkt = .ok (FlowKey.of pkt) := by
  have hb := h.bounds
  have hs : pkt.srcIp = .ok (FlowKey.of pkt).srcIp := u32At_of_lt (by omega)
  have hd : pkt.dstIp = .ok (FlowKey.of pkt).dstIp := u32At_of_lt (by omega)
  have hp : pkt.srcPort = .ok (FlowKey.of pkt).srcPort := u16At_of_lt (by omega)
  rw [forPacket, hs, hd, hp, TcpPacket.dstPort_eq h]
  rfl

variable {maxBytes : ℕ} {flow : Flow} {payload : Bytes} {stream payload : Bytes}

theorem Flow.classify_eq (hl : flow.buffer.length ≤ maxBytes) {o : Option Text}
    (ho : extractTlsSni flow.buffer = .ok o) :
    flow.classify maxBytes = .ok (o.elim (flow, flow.decided, false) fun host =>
      ({ flow with buffer := [], decided := some host }, some host, false)) := by
  rw [classify, if_neg (by omega), ho]
  cases o with
  | some host => rfl
  | none => rfl

theorem Flow.classify_runs (maxBytes : ℕ) (flow : Flow) :
    Runs (flow.classify maxBytes) False fun _ => True := by
  by_cases hl : maxBytes < flow.buffer.length
  · rw [classify, if_pos hl]
    exact runs_ok trivial
  · obtain ⟨o, ho, -⟩ := (extractTlsSni_runs flow.buffer).2 id
    exact .of_eq_ok (classify_eq (by omega) ho) trivial

theorem Flow.take_runs (hd : payload ≠ []) (maxBytes seq : ℕ) (flow : Flow) :
    Runs (flow.take maxBytes seq payload) False fun _ => True := by
  have hp := List.length_pos_iff.2 hd
  unfold take
  cases flow.decided with
  | some host => exact runs_ok trivial
  | none =>
    dsimp only
    split_ifs with he hg ho
    · rw [byteAt_of_lt hp, ok_bind]
      split_ifs
      · exact runs_ok trivial
      · exact classify_runs ..
    · -- the part that is covered is shorter than the segment, also where the sum wraps
      rw [slice_to_end (by omega), ok_bind]
      split_ifs
      · exact runs_ok trivial
      · exact classify_runs ..
    · exact runs_ok trivial
    · exact runs_ok trivial
    · exact runs_ok trivial
    · exact classify_runs ..

namespace TcpReassembler

theorem feed_runs (now : ℕ) (key : FlowKey) (seq : ℕ) (payload : Bytes) (finRst : Bool)
    (r : TcpReassembler) :
    Runs (r.feed now key seq payload finRst) False fun x => payload = [] → x.1 = none := by
  unfold feed
  dsimp only
  split_ifs with he hf
  · exact runs_ok fun _ => rfl
  · exact runs_ok fun _ => rfl
  rw [List.isEmpty_iff] at he
  rcases makeRoom now key (sweep now r) with ⟨_ | _, r'⟩
  · exact runs_ok fun h => absurd h he
  · refine (Flow.take_runs he ..).then fun x _ => ?_
    exact runs_ok fun h => absurd h he

variable {r r' : TcpReassembler} {key key' : FlowKey} {now seq : ℕ} {payload : Bytes}
  {finRst : Bool}

theorem lookup_evictExpired (now : ℕ) (r : TcpReassembler) (key : FlowKey) :
    (r.evictExpired now).flows.lookup key = r.flows.lookup key ∨
      (r.evictExpired now).flows.lookup key = none := by
  show (r.flows.retain _).lookup key = _ ∨ (r.flows.retain _).lookup key = none
  rw [Table.lookup_retain]
  cases r.flows.lookup key with
  | none => exact .inl rfl
  | some f =>
    by_cases hk : now ≤ f.lastSeen + r.idleTimeout
    · exact .inl (by simp [hk])
    · exact .inr (by simp [Option.filter, hk])

theorem lookup_sweep (now : ℕ) (r : TcpReassembler) (key : FlowKey) :
    (r.sweep now).flows.lookup key = r.flows.lookup key ∨
      (r.sweep now).flows.lookup key = none := by
  unfold sweep
  dsimp only
  split_ifs
  · exact lookup_evictExpired now { r with sinceEvict := r.sinceEvict + 1 } key
  · exact .inl rfl

theorem lookup_makeRoom (now : ℕ) (key' : FlowKey) (r : TcpReassembler) (key : FlowKey) :
    (r.makeRoom now key').2.flows.lookup key = r.flows.lookup key ∨
      (r.makeRoom now key').2.flows.lookup key = none := by
  unfold makeRoom
  split_ifs
  · exact .inl rfl
  · exact lookup_evictExpired now r key
  · exact .inl rfl

variable {result : Option Text}

theorem feed_eq_ok (h : r.feed now key seq payload finRst = .ok (result, r')) :
    ∃ r₁, (r₁ = sweep now r ∨ r₁ = (makeRoom now key (sweep now r)).2) ∧
      (r' = r₁ ∨ r' = { r₁ with flows := r₁.flows.erase key } ∨
        ∃ flow, r' = { r₁ with flows := r₁.flows.insert key flow }) := by
  unfold feed at h
  dsimp only at h
  split_ifs at h with he hf
  · cases h
    exact ⟨_, .inl rfl, .inl rfl⟩
  · cases h
    exact ⟨_, .inl rfl, .inr (.inl rfl)⟩
  generalize makeRoom now key (sweep now r) = x at h ⊢
  obtain ⟨_ | _, r₁⟩ := x
  · cases h
    exact ⟨_, .inr rfl, .inl rfl⟩
  · obtain ⟨⟨flow, result', dropFlow⟩, -, hr⟩ := bind_eq_ok.1 h
    cases hr
    cases dropFlow with
    | true => exact ⟨r₁, .inr rfl, .inr (.inl rfl)⟩
    | false => exact ⟨r₁, .inr rfl, .inr (.inr ⟨flow, rfl⟩)⟩

theorem lookup_feed_of_ne (hne : key ≠ key')
    (h : r.feed now key' seq payload finRst = .ok (result, r')) :
    r'.flows.lookup key = r.flows.lookup key ∨ r'.flows.lookup key = none := by
  obtain ⟨r₁, hr₁, hr'⟩ := feed_eq_ok h
  have hs : r'.flows.lookup key = r₁.flows.lookup key := by
    rcases hr' with rfl | rfl | ⟨flow, rfl⟩
    · rfl
    · exact lookup_erase_ne hne
    · exact lookup_insert_ne hne
  rw [hs]
  rcases hr₁ with rfl | rfl
  · exact lookup_sweep now r key
  · rcases lookup_makeRoom now key' (sweep now r) key with hm | hm
    · rw [hm]
      exact lookup_sweep now r key
    · exact .inr hm

theorem maxBytes_sweep (now : ℕ) (r : TcpReassembler) : (r.sweep now).maxBytes = r.maxBytes := by
  unfold sweep
  dsimp only
  split_ifs <;> rfl

theorem maxBytes_makeRoom (now : ℕ) (key : FlowKey) (r : TcpReassembler) :
    (r.makeRoom now key).2.maxBytes = r.maxBytes := by
  unfold makeRoom
  split_ifs <;> rfl

theorem maxBytes_feed (h : r.feed now key seq payload finRst = .ok (result, r')) :
    r'.maxBytes = r.maxBytes := by
  obtain ⟨r₁, hr₁, hr'⟩ := feed_eq_ok h
  have hs : r'.maxBytes = r₁.maxBytes := by
    rcases hr' with rfl | rfl | ⟨flow, rfl⟩ <;> rfl
  rw [hs]
  rcases hr₁ with rfl | rfl
  · exact maxBytes_sweep now r
  · exact (maxBytes_makeRoom ..).trans (maxBytes_sweep now r)

end TcpReassembler

def Flow.Holds (flow : Flow) (stream : Bytes) (next : ℕ) : Prop :=
  (∃ host, flow.decided = some host ∧ extractTlsSni stream = .ok (some host)) ∨
    flow.decided = none ∧ flow.buffer = stream ∧ extractTlsSni stream = .ok none ∧
      (flow.baseSeq + stream.length) % 4294967296 = next

def grow (stream : Bytes) (finRst : Bool) (payload : Bytes) : Bytes :=
  if finRst then []
  else if stream = [] ∧ payload.getD 0 0 ≠ 0x16 then []
  else stream ++ payload

theorem grow_append (h : stream = [] → payload.getD 0 0 = 0x16) :
    grow stream false payload = stream ++ payload := by
  unfold grow
  rw [if_neg Bool.false_ne_true, if_neg fun hs => hs.2 (h hs.1)]

theorem Flow.classify_holds {stream : Bytes} {next : ℕ} (hd : flow.decided = none)
    (hb : flow.buffer = stream) (hl : stream.length ≤ maxBytes)
    (hn : (flow.baseSeq + stream.length) % 4294967296 = next) :
    ∃ flow' result, flow.classify maxBytes = .ok (flow', result, false) ∧
      extractTlsSni stream = .ok result ∧ flow'.Holds stream next := by
  subst hb
  obtain ⟨o, ho, -⟩ := (extractTlsSni_runs flow.buffer).2 id
  have hc := classify_eq hl ho
  cases o with
  | some host => exact ⟨_, _, hc, ho, .inl ⟨host, rfl, ho⟩⟩
  | none =>
    rw [hd] at hc
    exact ⟨_, _, hc, ho, .inr ⟨hd, rfl, ho, hn⟩⟩

theorem Flow.take_holds {seq : ℕ} (hho : flow.Holds stream seq)
    (hs : stream ≠ []) (hl : (stream ++ payload).length ≤ maxBytes) :
    ∃ flow' result, flow.take maxBytes seq payload = .ok (flow', result, false) ∧
      extractTlsSni (stream ++ payload) = .ok result ∧
      flow'.Holds (stream ++ payload) ((seq + payload.length) % 4294967296) := by
  unfold take
  rcases hho with ⟨host, hd, hh⟩ | ⟨hd, hb, hno, hn⟩
  · have hm := ((helloAt_of_sni hh).extractTlsSni_append payload).trans hh
    rw [hd]
    exact ⟨flow, some host, rfl, hm, .inl ⟨host, hd, hm⟩⟩
  · rw [List.length_append] at hl
    rw [hd]
    rw [hb, if_neg (by simpa using hs), hn, if_neg (by simp), if_neg (by omega)]
    refine classify_holds rfl rfl (by rwa [List.length_append]) ?_
    rw [List.length_append]
    show (flow.baseSeq + _) % 4294967296 = _
    omega

theorem Flow.take_new (seq now : ℕ) (hd : payload ≠ []) (hl : payload.length ≤ maxBytes) :
    (payload.getD 0 0 ≠ 0x16 →
      ∃ flow', (Flow.new seq now).take maxBytes seq payload = .ok (flow', none, true)) ∧
    (payload.getD 0 0 = 0x16 →
      ∃ flow' result, (Flow.new seq now).take maxBytes seq payload = .ok (flow', result, false) ∧
        extractTlsSni payload = .ok result ∧
        flow'.Holds payload ((seq + payload.length) % 4294967296)) := by
  have hf := byteAt_of_lt (List.length_pos_iff.2 hd)
  constructor
  · intro ho
    refine ⟨Flow.new seq now, ?_⟩
    show (byteAt payload 0 >>= _) = _
    rw [hf]
    exact if_pos ho
  · intro hr
    have hn : ({ Flow.new seq now with buffer := payload }.baseSeq + payload.length) %
        4294967296 = (seq + payload.length) % 4294967296 := rfl
    obtain ⟨flow', result, hc, hre⟩ := classify_holds rfl rfl hl hn
    refine ⟨flow', result, ?_, hre⟩
    show (byteAt payload 0 >>= _) = _
    rw [hf, ← hc]
    exact if_neg (not_not.2 hr)

namespace TcpReassembler

variable {r r' : TcpReassembler} {key key' : FlowKey} {now seq next : ℕ} {stream payload : Bytes}
  {finRst : Bool}

def Tracks (r : TcpReassembler) (key : FlowKey) (stream : Bytes) (next : ℕ) : Prop :=
  (stream = [] ∧ r.flows.lookup key = none) ∨
    stream ≠ [] ∧ ∃ flow, r.flows.lookup key = some flow ∧ flow.Holds stream next

theorem Tracks.of_lookup (ht : Tracks r key stream next)
    (hl : r'.flows.lookup key = r.flows.lookup key ∨ r'.flows.lookup key = none)
    (hk : (r.flows.lookup key).isSome → (r'.flows.lookup key).isSome) :
    Tracks r' key stream next := by
  rcases ht with ⟨hni, hn⟩ | ⟨hs, flow, hf, hh⟩
  · rw [hn, or_self] at hl
    exact .inl ⟨hni, hl⟩
  · rw [hf] at hl hk
    rcases hl with hl | hl
    · exact .inr ⟨hs, flow, hl, hh⟩
    · rw [hl] at hk
      exact absurd (hk rfl) Bool.false_ne_true

theorem Tracks.sweep (ht : Tracks r key stream next)
    (hk : (r.flows.lookup key).isSome → ((r.sweep now).flows.lookup key).isSome) :
    Tracks (r.sweep now) key stream next :=
  ht.of_lookup (lookup_sweep now r key) hk

theorem Tracks.makeRoom (htr : Tracks r key stream next) :
    Tracks (r.makeRoom now key).2 key stream next := by
  refine htr.of_lookup (lookup_makeRoom now key r key) fun ht => ?_
  rw [TcpReassembler.makeRoom, if_pos ht]
  exact ht

/-- **A data segment in order makes the stream longer, and the result is what that reads as.** -/
theorem feed_tracks (htr : Tracks r key stream seq) (hd : payload ≠ [])
    (hl : (stream ++ payload).length ≤ r.maxBytes)
    (hk : (r.flows.lookup key).isSome → ((r.sweep now).flows.lookup key).isSome)
    (hro : finRst = false → ((r.sweep now).makeRoom now key).1) :
    ∃ result r', r.feed now key seq payload finRst = .ok (result, r') ∧
      extractTlsSni (grow stream finRst payload) = .ok result ∧
      Tracks r' key (grow stream finRst payload) ((seq + payload.length) % 4294967296) := by
  have he : ¬payload.isEmpty := by rwa [List.isEmpty_iff]
  have htr' : Tracks (r.sweep now) key stream seq := htr.sweep hk
  unfold feed
  rw [if_neg he]
  cases finRst with
  | true =>
    exact ⟨none, _, rfl, extractTlsSni_nil, .inl ⟨rfl, lookup_erase ..⟩⟩
  | false =>
    have hro' := hro rfl
    have hma := (maxBytes_makeRoom now key _).trans (maxBytes_sweep now r)
    have ha : Tracks ((r.sweep now).makeRoom now key).2 key stream seq := htr'.makeRoom
    generalize (r.sweep now).makeRoom now key = x at hro' hma ha ⊢
    obtain ⟨room, r₁⟩ := x
    obtain rfl : room = true := hro'
    rw [← show r₁.maxBytes = r.maxBytes from hma] at hl
    show ∃ result r', (Flow.take .. >>= _) = _ ∧ _
    rcases ha with ⟨rfl, hn⟩ | ⟨hs, flow, hfl, hh⟩
    · rw [show r₁.flows.lookup key = none from hn]
      obtain ⟨ho, hre⟩ := Flow.take_new seq now hd hl
      by_cases hf : payload.getD 0 0 = 0x16
      · obtain ⟨flow', result, ht, hr, hh⟩ := hre hf
        rw [grow_append fun _ => hf]
        exact ⟨result, _, congrArg (· >>= _) ht, hr, .inr ⟨hd, flow', lookup_insert _, hh⟩⟩
      · obtain ⟨flow', ht⟩ := ho hf
        rw [grow, if_neg Bool.false_ne_true, if_pos ⟨rfl, hf⟩]
        exact ⟨none, _, congrArg (· >>= _) ht, extractTlsSni_nil, .inl ⟨rfl, lookup_erase ..⟩⟩
    · rw [show r₁.flows.lookup key = some flow from hfl]
      have hh' : Flow.Holds { flow with lastSeen := now } stream seq := hh
      obtain ⟨flow', result, ht, hr, hm⟩ := Flow.take_holds hh' hs hl
      rw [grow_append fun hni => absurd hni hs]
      exact ⟨result, _, congrArg (· >>= _) ht, hr,
        .inr ⟨by simp [hs], flow', lookup_insert _, hm⟩⟩

variable {result : Option Text}

theorem feed_tracks_of_ne (ht : Tracks r key stream next) (hne : key ≠ key')
    (h : r.feed now key' seq payload finRst = .ok (result, r'))
    (hk : (r.flows.lookup key).isSome → (r'.flows.lookup key).isSome) : Tracks r' key stream next :=
  ht.of_lookup (lookup_feed_of_ne hne h) hk

theorem feed_tracks_nil (ht : Tracks r key stream next)
    (h : r.feed now key' seq [] finRst = .ok (result, r'))
    (hk : (r.flows.lookup key).isSome → (r'.flows.lookup key).isSome) :
    Tracks r' key stream next := by
  cases h
  exact ht.sweep hk

end TcpReassembler

end BalanSir.B4
