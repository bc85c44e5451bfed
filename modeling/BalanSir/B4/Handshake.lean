/-
# The host of a ClientHello in several segments

A ClientHello is cut into segments, and the host is what `feed` returns for the last.
-/

import BalanSir.B4.Verdicts

namespace BalanSir.B4

open Lib List TcpReassembler

structure Segment where
  flags : UInt8
  seq : ℕ
  payload : Bytes

def Segment.of (tcp : TcpPacket) : Segment := ⟨tcp.flags, tcp.seq, tcp.payload⟩

def Segment.ack (seg : Segment) : Bool := seg.flags &&& 0x10 ≠ 0

theorem closing_eq_ack {flags : UInt8} (h : flags &&& 0x05 = 0) :
    flags &&& 0x11 = flags &&& 0x10 := by
  have ha : ∀ f : BitVec 8, f &&& 0x05 = 0 → f &&& 0x11 = f &&& 0x10 := by decide +kernel
  exact UInt8.eq_of_toBitVec_eq (ha flags.toBitVec (congrArg UInt8.toBitVec h))

def streamOf (segs : List Segment) : Bytes := segs.flatMap (·.payload)

theorem streamOf_append (segs segs' : List Segment) :
    streamOf (segs ++ segs') = streamOf segs ++ streamOf segs' := flatMap_append

theorem streamOf_singleton (seg : Segment) : streamOf [seg] = seg.payload :=
  flatMap_singleton ..

def InOrder (next : ℕ) : List Segment → Prop
  | [] => True
  | seg :: segs => seg.seq = next ∧ InOrder ((next + seg.payload.length) % 4294967296) segs

def fresh (segs : List Segment) : Bytes :=
  streamOf ((segs.rtakeWhile fun seg => !seg.ack).dropWhile
    fun seg => seg.payload.getD 0 0 ≠ 0x16)

theorem fresh_nil : fresh [] = [] := rfl

theorem fresh_concat (segs : List Segment) (seg : Segment) :
    fresh (segs ++ [seg]) = grow (fresh segs) seg.ack seg.payload := by
  unfold fresh
  cases ha : seg.ack with
  | true =>
    rw [rtakeWhile_concat_neg _ _ _ (by simp [ha])]
    rfl
  | false =>
    rw [rtakeWhile_concat_pos _ _ _ (by simp [ha]), dropWhile_append]
    generalize segs.rtakeWhile (fun seg => !seg.ack) = segs
    cases hr : segs.dropWhile fun seg => seg.payload.getD 0 0 ≠ 0x16 with
    | nil =>
      rw [if_pos isEmpty_nil]
      by_cases hf : seg.payload.getD 0 0 = 0x16
      · rw [grow_append fun _ => hf, dropWhile_cons_of_neg (by simpa using hf), streamOf_singleton]
        rfl
      · rw [grow, if_neg Bool.false_ne_true, if_pos ⟨rfl, hf⟩,
          dropWhile_cons_of_pos (by simpa using hf)]
        rfl
    | cons start rest =>
      have hs : start.payload.getD 0 0 = 0x16 := by
        have hh := head?_dropWhile_not
          (fun seg : Segment => decide (seg.payload.getD 0 0 ≠ 0x16)) segs
        rw [hr] at hh
        simpa using hh
      have hd : streamOf (start :: rest) ≠ [] := fun hn => by
        rw [streamOf, flatMap_cons, append_eq_nil_iff] at hn
        rw [hn.1] at hs
        cases hs
      rw [if_neg (by simp), grow_append fun hn => absurd hn hd, streamOf_append, streamOf_singleton]

theorem length_fresh_le (segs : List Segment) : (fresh segs).length ≤ (streamOf segs).length := by
  have hs := (dropWhile_suffix (l := segs.rtakeWhile fun seg => !seg.ack)
    fun seg => decide (seg.payload.getD 0 0 ≠ 0x16)).trans (rtakeWhile_suffix _ segs)
  obtain ⟨front, hf⟩ := hs
  have hl := congrArg (fun segs => (streamOf segs).length) hf
  rw [streamOf_append, length_append] at hl
  unfold fresh
  omega

variable {segs : List Segment}

theorem fresh_eq_of_no_ack (ha : ∀ seg ∈ segs, seg.ack = false)
    (hf : ∀ seg, segs.head? = some seg → seg.payload.getD 0 0 = 0x16) :
    fresh segs = streamOf segs := by
  have hal : segs.rtakeWhile (fun seg => !seg.ack) = segs :=
    List.rtakeWhile_eq_self_iff.2 fun seg hs => by rw [ha seg hs]; rfl
  rw [fresh, hal]
  cases segs with
  | nil => rfl
  | cons seg segs => rw [dropWhile_cons_of_neg (by simpa using hf seg rfl)]

/-- A data segment of the flow `key`, which is not evicted and has room. -/
structure Arrives (e : Engine) (key : FlowKey) (a : Arrival) (tcp : TcpPacket) (s : Loop) :
    Prop where
  brings : ∃ packet, a.Brings e packet tcp
  key_eq : FlowKey.of tcp = key
  data : tcp.payload ≠ []
  kept : (s.reassembler.flows.lookup key).isSome →
    ((s.reassembler.sweep a.now).flows.lookup key).isSome
  admitted : tcp.flags &&& 0x11 = 0 → ((s.reassembler.sweep a.now).makeRoom a.now key).1 = true

/-- The data segments `segs` of the flow `key` arrive, among other messages. -/
inductive Delivers (e : Engine) (key : FlowKey) :
    List Arrival → Loop → List Segment → Loop → Prop
  | nil (s : Loop) : Delivers e key [] s [] s
  | segment {a : Arrival} {tcp : TcpPacket} {s s₁ s' : Loop} {arrivals : List Arrival}
      {segs : List Segment} (harrives : Arrives e key a tcp s) (hhandle : handle e a s = .ok s₁)
      (hrest : Delivers e key arrivals s₁ segs s') :
      Delivers e key (a :: arrivals) s (.of tcp :: segs) s'
  | other {a : Arrival} {s s₁ s' : Loop} {arrivals : List Arrival} {segs : List Segment}
      (hother : ∀ packet tcp, a.Brings e packet tcp → FlowKey.of tcp ≠ key ∨ tcp.payload = [])
      (hhandle : handle e a s = .ok s₁)
      (hkept : (s.reassembler.flows.lookup key).isSome → (s₁.reassembler.flows.lookup key).isSome)
      (hrest : Delivers e key arrivals s₁ segs s') : Delivers e key (a :: arrivals) s segs s'

variable {arrivals : List Arrival} {e : Engine} {key : FlowKey} {hello : ClientHello}

theorem Delivers.loop {s s' : Loop}
    (h : Delivers e key arrivals s segs s') : interceptionLoop e arrivals s = .ok s' := by
  induction h with
  | nil s => rfl
  | segment ha hh hr ih =>
    rw [interceptionLoop, foldlM_cons, hh]
    exact ih
  | other ho hh hk hr ih =>
    rw [interceptionLoop, foldlM_cons, hh]
    exact ih

section Steps

variable {e : Engine} {key : FlowKey} {a : Arrival} {tcp : TcpPacket} {s s' : Loop}
  {done : List Segment}

theorem feed_of_inspect (h : tcp.Coherent) {now : ℕ} {r r' : TcpReassembler} {host : Option Text}
    (hi : inspect now tcp r = .ok (host, r')) :
    ∃ result, r.feed now (FlowKey.of tcp) tcp.seq tcp.payload (tcp.flags &&& 0x11 ≠ 0) =
      .ok (result, r') := by
  rw [inspect_eq h] at hi
  obtain ⟨⟨result, r₁⟩, hf, hr⟩ := bind_eq_ok.1 hi
  refine ⟨result, ?_⟩
  cases result with
  | some host' =>
    cases hr
    exact hf
  | none =>
    obtain ⟨host', -, hre⟩ := bind_eq_ok.1 hr
    cases hre
    exact hf

theorem Round.maxBytes (h : Round e a s s') : s'.reassembler.maxBytes = s.reassembler.maxBytes := by
  by_cases hb : ∃ packet tcp, a.Brings e packet tcp
  · obtain ⟨packet, tcp, ht⟩ := hb
    obtain ⟨host, v, hi, -⟩ := h.intercepted packet tcp ht
    obtain ⟨result, hf⟩ := feed_of_inspect ht.coherent.1 hi
    exact maxBytes_feed hf
  · rw [h.untouched fun packet tcp ht => hb ⟨packet, tcp, ht⟩]

theorem Round.tracks_of_other {stream : Bytes} {next : ℕ} (h : Round e a s s')
    (ho : ∀ packet tcp, a.Brings e packet tcp → FlowKey.of tcp ≠ key ∨ tcp.payload = [])
    (hk : (s.reassembler.flows.lookup key).isSome → (s'.reassembler.flows.lookup key).isSome)
    (ht : s.reassembler.Tracks key stream next) : s'.reassembler.Tracks key stream next := by
  by_cases hb : ∃ packet tcp, a.Brings e packet tcp
  · obtain ⟨packet, tcp, htc⟩ := hb
    obtain ⟨host, v, hi, -⟩ := h.intercepted packet tcp htc
    obtain ⟨result, hf⟩ := feed_of_inspect htc.coherent.1 hi
    rcases ho packet tcp htc with hne | he
    · exact feed_tracks_of_ne ht hne.symm hf hk
    · rw [he] at hf
      exact feed_tracks_nil ht hf hk
  · rw [h.untouched fun packet tcp htc => hb ⟨packet, tcp, htc⟩]
    exact ht

theorem Arrives.inspect (h : Arrives e key a tcp s)
    (hfl : tcp.flags &&& 0x05 = 0) (ht : s.reassembler.Tracks key (fresh done) tcp.seq)
    (hl : (streamOf (done ++ [.of tcp])).length ≤ s.reassembler.maxBytes) :
    ∃ result alone r', B4.inspect a.now tcp s.reassembler = .ok (result.or alone, r') ∧
      extractTlsSni (fresh (done ++ [.of tcp])) = .ok result ∧
      extractTlsSni tcp.payload = .ok alone ∧
      r'.Tracks key (fresh (done ++ [.of tcp])) ((tcp.seq + tcp.payload.length) % 4294967296) := by
  obtain ⟨packet, htc⟩ := h.brings
  have hl' : (fresh done ++ tcp.payload).length ≤ s.reassembler.maxBytes := by
    have hfr := length_fresh_le done
    rw [streamOf_append, length_append, streamOf_singleton] at hl
    rw [length_append]
    exact Nat.le_trans (Nat.add_le_add_right hfr _) hl
  have hac : decide (tcp.flags &&& 0x11 ≠ 0) = (Segment.of tcp).ack := by
    rw [closing_eq_ack hfl]
    rfl
  have hro : decide (tcp.flags &&& 0x11 ≠ 0) = false →
      ((s.reassembler.sweep a.now).makeRoom a.now key).1 = true := fun ho =>
    h.admitted (by simpa using ho)
  obtain ⟨result, r', hf, hr, ht'⟩ :=
    feed_tracks ht h.data hl' h.kept hro
  obtain ⟨alone, ha, -⟩ := (extractTlsSni_runs tcp.payload).2 id
  rw [hac] at hr ht'
  rw [← h.key_eq] at hf
  refine ⟨result, alone, r', ?_, by rw [fresh_concat]; exact hr, ha, by
    rw [fresh_concat]; exact ht'⟩
  rw [inspect_eq htc.coherent.1, hf]
  cases result with
  | some host => rfl
  | none =>
    rw [ha]
    rfl

/-- **Along a run** the reassembler holds `fresh` of the segments that have arrived. -/
theorem Delivers.tracks {more : List Segment} (h : Delivers e key arrivals s segs s')
    {next : ℕ} (ht : s.reassembler.Tracks key (fresh done) next)
    (ho : InOrder next (segs ++ more)) (hf : ∀ seg ∈ segs, seg.flags &&& 0x05 = 0)
    (hl : (streamOf (done ++ segs)).length ≤ s.reassembler.maxBytes) :
    s'.reassembler.maxBytes = s.reassembler.maxBytes ∧
      ∃ next', s'.reassembler.Tracks key (fresh (done ++ segs)) next' ∧ InOrder next' more := by
  induction h generalizing done next with
  | nil s =>
    rw [append_nil]
    exact ⟨rfl, next, ht, ho⟩
  | @segment a tcp s s₁ s' arrivals segs ha hh hre ih =>
    obtain ⟨packet, htc⟩ := ha.brings
    obtain ⟨rfl, ho'⟩ : tcp.seq = next ∧ _ := ho
    have hr := ((handle_runs e a s).of_ok hh).2
    have hl' : (streamOf (done ++ [.of tcp])).length ≤ s.reassembler.maxBytes := by
      rw [append_cons, streamOf_append, length_append] at hl
      omega
    obtain ⟨result, alone, r', hi, -, -, ht'⟩ :=
      ha.inspect (hf _ mem_cons_self) ht hl'
    obtain ⟨host, v, hi', -⟩ := hr.intercepted packet tcp htc
    obtain ⟨-, rfl⟩ := Prod.mk.inj (Except.ok.inj (hi.symm.trans hi'))
    rw [append_cons] at hl ⊢
    rw [← hr.maxBytes] at hl ⊢
    exact ih ht' ho' (fun seg hs => hf seg (mem_cons_of_mem _ hs)) hl
  | other hot hh hk hre ih =>
    have hr := ((handle_runs e _ _).of_ok hh).2
    rw [← hr.maxBytes] at hl ⊢
    exact ih (hr.tracks_of_other hot hk ht) ho hf hl

end Steps

def Reached (e : Engine) (s : Loop) : Prop := ∃ before, interceptionLoop e before .new = .ok s

theorem Reached.maxBytes {s : Loop} (h : Reached e s) : s.reassembler.maxBytes = 16384 := by
  obtain ⟨before, hl⟩ := h
  have hst : ∀ (done : List Arrival) (s : Loop) a, s.reassembler.maxBytes = 16384 →
      Runs (handle e a s) (a.Breaks e) fun s' => s'.reassembler.maxBytes = 16384 :=
    fun _ s a hs => (handle_runs e a s).imp Iff.rfl fun s' _ hr => hr.maxBytes.trans hs
  have hru : Runs (interceptionLoop e before .new) _ fun s => s.reassembler.maxBytes = 16384 :=
    Runs.foldlM hst before [] (show Loop.new.reassembler.maxBytes = 16384 from rfl)
  exact (hru.of_ok hl).2

theorem head_of_hello (hd : ∀ seg ∈ segs, seg.payload ≠ [])
    (hs : streamOf segs = hello.bytes) (seg : Segment) (hh : segs.head? = some seg) :
    seg.payload.getD 0 0 = 0x16 := by
  cases segs with
  | nil => cases hh
  | cons first segs =>
    cases hh
    have hf := hd seg mem_cons_self
    cases hp : seg.payload with
    | nil => exact absurd hp hf
    | cons b payload =>
      rw [streamOf, flatMap_cons, hp, ClientHello.bytes, cons_append, List.cons.injEq] at hs
      exact hs.1

theorem Delivers.data {s s' : Loop}
    (h : Delivers e key arrivals s segs s') : ∀ seg ∈ segs, seg.payload ≠ [] := by
  induction h with
  | nil s => exact nofun
  | segment ha hh hr ih =>
    rintro seg (_ | ⟨_, hs⟩)
    · exact ha.data
    · exact ih seg hs
  | other ho hh hk hr ih => exact ih

/-- **The host of a split ClientHello.** The segment that completes it has the server name for its
host exactly if no segment has ACK, or what follows the last ACK, or else the last segment, happens
to read as that name. -/
theorem split_hello_host_iff {arrivals : List Arrival} {s₀ s : Loop}
    {segs : List Segment} {a : Arrival} {tcp : TcpPacket} {next : ℕ}
    (hreached : Reached e s₀) (hnew : s₀.reassembler.flows.lookup key = none)
    (hdelivers : Delivers e key arrivals s₀ segs s) (hlast : Arrives e key a tcp s)
    (horder : InOrder next (segs ++ [.of tcp]))
    (hflags : ∀ seg ∈ segs ++ [.of tcp], seg.flags &&& 0x05 = 0)
    (hsplit : streamOf (segs ++ [.of tcp]) = hello.bytes) (hlen : hello.bytes.length ≤ 16384) :
    ∃ host s', handle e a s = .ok s' ∧
      inspect a.now tcp s.reassembler = .ok (host, s'.reassembler) ∧ (host = some hello.serverName ↔
        (∀ seg ∈ segs ++ [.of tcp], seg.flags &&& 0x10 = 0) ∨
          extractTlsSni (fresh (segs ++ [.of tcp])) = .ok (some hello.serverName) ∨
          extractTlsSni (fresh (segs ++ [.of tcp])) = .ok none ∧
            extractTlsSni tcp.payload = .ok (some hello.serverName)) := by
  have hm := hreached.maxBytes
  have hlen' : (streamOf ([] ++ segs)).length ≤ s₀.reassembler.maxBytes := by
    rw [← hsplit, streamOf_append, length_append] at hlen
    rw [nil_append]
    omega
  have hs : s₀.reassembler.Tracks key (fresh []) next := .inl ⟨fresh_nil, hnew⟩
  obtain ⟨hsa, next', ht, horder', -⟩ := hdelivers.tracks hs horder
    (fun seg hse => hflags seg (mem_append_left _ hse)) hlen'
  rw [nil_append, ← show tcp.seq = next' from horder'] at ht
  obtain ⟨result, alone, r', hi, hr, ha, -⟩ := hlast.inspect
    (hflags _ (mem_append_right _ mem_cons_self)) ht
    (by rw [hsplit, hsa, hm]; exact hlen)
  obtain ⟨packet, htc⟩ := hlast.brings
  obtain ⟨s', hh, hro⟩ := (handle_runs e a s).2 (htc.not_breaks hlast.data)
  obtain ⟨host, v, hi', -⟩ := hro.intercepted packet tcp htc
  obtain ⟨rfl, rfl⟩ := Prod.mk.inj (Except.ok.inj (hi.symm.trans hi'))
  refine ⟨_, s', hh, hi, ?_⟩
  have hd : ∀ seg ∈ segs ++ [Segment.of tcp], seg.payload ≠ [] := by
    intro seg hse
    rcases List.mem_append.1 hse with hse | hse
    · exact hdelivers.data seg hse
    · rw [List.mem_singleton.1 hse]
      exact hlast.data
  have hno : (∀ seg ∈ segs ++ [Segment.of tcp], seg.flags &&& 0x10 = 0) →
      result = some hello.serverName := by
    intro hn
    have hal := fresh_eq_of_no_ack (fun seg hse => by simp [Segment.ack, hn seg hse])
      (head_of_hello hd hsplit)
    rw [hal, hsplit, hello.extract (by omega)] at hr
    exact (Except.ok.inj hr).symm
  rw [hr, ha, Except.ok.injEq, Except.ok.injEq, Except.ok.injEq, Option.or_eq_some_iff]
  constructor
  · exact .inr
  · rintro (hn | hre)
    · exact .inl (hno hn)
    · exact hre

def partArrival (flags : UInt8) (seq : ℕ) (part : Bytes) : Arrival :=
  ⟨0, some (packetMessage 7 (dataPacket flags seq part)), [], true⟩

def partPacket (flags : UInt8) (seq : ℕ) (part : Bytes) : TcpPacket :=
  .ofRaw (dataPacket flags seq part)

def partKey : FlowKey := ⟨0x0a000001, 0x0a000002, 0x3039, 443⟩

/-- Two segments without ACK, numbered from 1. -/
theorem split_hello_host_without_ack : ∃ s host s',
    interceptionLoop plainEngine [partArrival 0x08 1 (smallHello.bytes.take 30)] .new = .ok s ∧
    handle plainEngine (partArrival 0x08 31 (smallHello.bytes.drop 30)) s = .ok s' ∧
    inspect 0 (partPacket 0x08 31 (smallHello.bytes.drop 30)) s.reassembler =
      .ok (host, s'.reassembler) ∧ host = some ['a'] := by
  have hf : Arrives plainEngine partKey (partArrival 0x08 1 (smallHello.bytes.take 30))
      (partPacket 0x08 1 (smallHello.bytes.take 30)) .new :=
    { brings := ⟨⟨7, none, none, some (dataPacket 0x08 1 (smallHello.bytes.take 30)), none⟩,
        by decide +kernel, _, rfl, by decide +kernel, by decide +kernel⟩
      key_eq := by decide +kernel
      data := by decide +kernel
      kept := fun ht => absurd ht (by decide +kernel)
      admitted := fun _ => by decide +kernel }
  obtain ⟨s, hs, hfl⟩ := exists_eq_ok (b := (true, true))
    (m := handle plainEngine (partArrival 0x08 1 (smallHello.bytes.take 30)) .new)
    (f := fun s => (((s.reassembler.sweep 0).flows.lookup partKey).isSome,
      ((s.reassembler.sweep 0).makeRoom 0 partKey).1)) (by decide +kernel)
  obtain ⟨ht, hr⟩ := Prod.mk.inj hfl
  have hl : Arrives plainEngine partKey (partArrival 0x08 31 (smallHello.bytes.drop 30))
      (partPacket 0x08 31 (smallHello.bytes.drop 30)) s :=
    { brings := ⟨⟨7, none, none, some (dataPacket 0x08 31 (smallHello.bytes.drop 30)), none⟩,
        by decide +kernel, _, rfl, by decide +kernel, by decide +kernel⟩
      key_eq := by decide +kernel
      data := by decide +kernel
      kept := fun _ => ht
      admitted := fun _ => hr }
  have hd := Delivers.segment hf hs (.nil s)
  have ho : InOrder 1 ([.of (partPacket 0x08 1 (smallHello.bytes.take 30))] ++
      [.of (partPacket 0x08 31 (smallHello.bytes.drop 30))]) :=
    ⟨by decide +kernel, by decide +kernel, trivial⟩
  have hsp : streamOf ([.of (partPacket 0x08 1 (smallHello.bytes.take 30))] ++
      [.of (partPacket 0x08 31 (smallHello.bytes.drop 30))]) = smallHello.bytes := by decide +kernel
  obtain ⟨host, s', hh, hi, hn⟩ := split_hello_host_iff ⟨[], rfl⟩ rfl hd hl
    ho (by decide +kernel) hsp (by decide +kernel)
  exact ⟨s, host, s', hd.loop, hh, hi, hn.2 (.inl (by decide +kernel))⟩

/-- The same two segments with PSH and ACK, as a client sends them: no host. -/
theorem split_hello_no_host :
    smallHello.bytes.take 30 ++ smallHello.bytes.drop 30 = smallHello.bytes ∧
    smallHello.bytes.length = 62 ∧ smallHello.serverName = ['a'] ∧ ∃ s r,
      interceptionLoop plainEngine [partArrival 0x18 1 (smallHello.bytes.take 30)] .new = .ok s ∧
      inspect 0 (partPacket 0x18 31 (smallHello.bytes.drop 30)) s.reassembler = .ok (none, r) := by
  obtain ⟨s, hs, hh⟩ := exists_eq_ok (b := some none)
    (m := interceptionLoop plainEngine [partArrival 0x18 1 (smallHello.bytes.take 30)] .new)
    (f := fun s => (inspect 0 (partPacket 0x18 31 (smallHello.bytes.drop 30))
      s.reassembler).toOption.map Prod.fst) (by decide +kernel)
  obtain ⟨⟨host, r⟩, hi, rfl : host = none⟩ := exists_eq_ok hh
  exact ⟨take_append_drop .., by decide +kernel, rfl, s, r, hs, hi⟩

end BalanSir.B4
