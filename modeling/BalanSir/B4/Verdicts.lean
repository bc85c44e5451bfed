/-
# Verdicts of the interception loop

The kernel holds each packet of the queue until `interception_loop` has sent a verdict with its id.
A round that panics ends the thread; a message that does not fit the buffer is skipped.
-/

import BalanSir.B4.Engine

namespace BalanSir.B4

open Lib

variable (arrivals : List Arrival)

def receivedIds : List ℕ :=
  arrivals.filterMap fun a => a.packet?.map (·.packetId)

theorem receivedIds_concat (a : Arrival) : receivedIds (arrivals ++ [a]) =
      receivedIds arrivals ++ (a.packet?.map (·.packetId)).toList := by
  cases h : a.packet? with
  | none => simp [receivedIds, h]
  | some packet => simp [receivedIds, h]

theorem interceptionLoop_runs (e : Engine) (arrivals : List Arrival) (s : Loop) :
    Runs (interceptionLoop e arrivals s) (∃ a ∈ arrivals, a.Breaks e) fun s' =>
      s'.sent.map (·.packetId) = s.sent.map (·.packetId) ++ receivedIds arrivals := by
  have hst : ∀ done s' a, s'.sent.map (·.packetId) = s.sent.map (·.packetId) ++ receivedIds done →
      Runs (handle e a s') (a.Breaks e) fun s'' => s''.sent.map (·.packetId) =
        s.sent.map (·.packetId) ++ receivedIds (done ++ [a]) := by
    intro done s' a hd
    refine (handle_runs e a s').imp Iff.rfl fun s'' _ hr => ?_
    rw [hr.answered, hd, receivedIds_concat, List.append_assoc]
  have hs : s.sent.map (·.packetId) = s.sent.map (·.packetId) ++ receivedIds [] := by
    rw [receivedIds, List.filterMap_nil, List.append_nil]
  exact Runs.foldlM hst arrivals [] hs

/-- The packet that the kernel has queued. -/
def Arrival.queued? (a : Arrival) : Option QueuedPacket := packetOf a.received

def queuedIds : List ℕ :=
  arrivals.filterMap fun a => a.queued?.map (·.packetId)

/-- The message of a packet is longer than what is read of it. -/
def Arrival.Cut (a : Arrival) : Prop :=
  a.queued?.isSome = true ∧ ∃ buf, a.received = some buf ∧ 65536 < messageLength buf

variable {a : Arrival} {packet : QueuedPacket} {tcp : TcpPacket}

theorem Arrival.packet?_of_cut (h : a.Cut) : a.packet? = none := by
  obtain ⟨hq, buf, hr, hl⟩ := h
  have hb : messageLength buf ≤ buf.length := by
    by_contra hlt
    rw [queued?, packetOf, hr, Option.map_some, parseNetfilterMessage_of_lt (by omega)] at hq
    cases hq
  rw [packet?, packetOf, read, hr, Option.map_some, Option.map_some,
    parseNetfilterMessage_take (by omega) (by omega), if_neg (by omega)]

theorem Arrival.packet?_of_not_cut (h : ¬a.Cut) : a.packet? = a.queued? := by
  cases hr : a.received with
  | none => simp [packet?, queued?, read, hr]
  | some buf =>
    by_cases hb : buf.length ≤ 65536
    · simp [packet?, queued?, read, hr, List.take_of_length_le hb]
    · by_cases hl : messageLength buf ≤ 65536
      · simp only [packet?, queued?, packetOf, read, hr, Option.map_some]
        rw [parseNetfilterMessage_take (by omega) (by omega), if_pos hl]
      · have hq : a.queued? = none := by
          simpa using fun hs => h ⟨hs, buf, hr, by omega⟩
        rw [hq, packet?, packetOf, read, hr, Option.map_some, Option.map_some,
          parseNetfilterMessage_take (by omega) (by omega), if_neg hl]

theorem receivedIds_sublist : (receivedIds arrivals).Sublist (queuedIds arrivals) := by
  induction arrivals with
  | nil => exact .slnil
  | cons a arrivals ih =>
    by_cases hc : a.Cut
    · have hr : receivedIds (a :: arrivals) = receivedIds arrivals := by
        simp [receivedIds, a.packet?_of_cut hc]
      rw [hr]
      exact ih.trans ((List.sublist_cons_self _ _).filterMap _)
    · have hp := a.packet?_of_not_cut hc
      simp only [receivedIds, queuedIds, List.filterMap_cons, hp] at ih ⊢
      cases a.queued? with
      | none => exact ih
      | some packet => exact ih.cons_cons _

theorem receivedIds_eq_queuedIds_iff :
    receivedIds arrivals = queuedIds arrivals ↔ ∀ a ∈ arrivals, ¬a.Cut := by
  induction arrivals with
  | nil => simp [receivedIds, queuedIds]
  | cons a arrivals ih =>
    rw [List.forall_mem_cons, ← ih]
    by_cases hc : a.Cut
    · obtain ⟨packet, hq⟩ := Option.isSome_iff_exists.1 hc.1
      have hl := (receivedIds_sublist arrivals).length_le
      refine iff_of_false (fun he => ?_) fun h => h.1 hc
      have hn := congrArg List.length he
      simp only [receivedIds, queuedIds, List.filterMap_cons, a.packet?_of_cut hc, hq,
        Option.map_none, Option.map_some, List.length_cons] at hl hn
      omega
    · have hp := a.packet?_of_not_cut hc
      simp only [receivedIds, queuedIds, List.filterMap_cons, hp, hc, not_false_eq_true, true_and]
      cases a.queued? with
      | none => rfl
      | some packet => exact List.cons_inj_right _

/-- **One verdict for each queued packet**, exactly when no message is longer than the buffer, nine
bytes of an IPv4 header, or a bare SYN whose options end in a kind while the catch-all profile
strips SACK. -/
theorem one_verdict_each_iff (e : Engine) (arrivals : List Arrival) (s : Loop) :
    (∃ s', interceptionLoop e arrivals s = .ok s' ∧
      s'.sent.map (·.packetId) = s.sent.map (·.packetId) ++ queuedIds arrivals) ↔
    ∀ a ∈ arrivals, ¬a.Breaks e ∧ ¬a.Cut := by
  obtain ⟨hba, hg⟩ := interceptionLoop_runs e arrivals s
  constructor
  · rintro ⟨s', hl, hs⟩
    have hb : ¬∃ a ∈ arrivals, a.Breaks e := fun h => by
      rw [hba h] at hl
      cases hl
    obtain ⟨s₁, hl₁, hs₁⟩ := hg hb
    cases hl.symm.trans hl₁
    rw [hs₁, List.append_cancel_left_eq, receivedIds_eq_queuedIds_iff] at hs
    exact fun a ha => ⟨fun h => hb ⟨a, ha, h⟩, hs a ha⟩
  · intro hal
    rw [← (receivedIds_eq_queuedIds_iff arrivals).2 fun a ha => (hal a ha).2]
    exact hg fun ⟨a, ha, hb⟩ => (hal a ha).1 hb

def plainEngine : Engine := ⟨⟨[]⟩, [443], [443], ⟨∅⟩⟩

/-- Nine bytes that begin as an IPv4 header: the protocol is the tenth. -/
theorem nine_bytes_end_thread :
    (Arrival.packet? ⟨0, some (packetMessage 7 [0x45, 0, 0, 9, 0, 0, 0, 0, 64]), [], true⟩).map
        (·.packetId) = some 7 ∧
      interceptionLoop plainEngine
        [⟨0, some (packetMessage 7 [0x45, 0, 0, 9, 0, 0, 0, 0, 64]), [], true⟩] .new =
        .error .outOfRange := by
  exact ⟨by decide +kernel, fault?_eq_some.1 (by decide +kernel)⟩

theorem Arrival.Brings.not_breaks {e : Engine}
    (ht : a.Brings e packet tcp) (hd : tcp.payload ≠ []) : ¬a.Breaks e := by
  obtain ⟨hpa, payload, hp, hpar, -⟩ := ht
  rintro ⟨packet', payload', hpa', hp', hb⟩
  cases hpa.symm.trans hpa'
  cases hp.symm.trans hp'
  rcases hb with hn | ⟨tcp', ht', hs⟩
  · obtain ⟨hi, -⟩ := parse_eq_some.1 hpar
    have hf := hi.fits
    have hih := hi.ihl_ge
    omega
  · cases hpar.symm.trans ht'.1
    exact hd hs.2.1.1

/-- **The payload of an intercepted packet** goes on whole exactly when the set does not split it:
neither `combo` nor `disorder`, or there is only one byte. -/
theorem payload_whole_iff {e : Engine} {s : Loop} {host : Text} {r : TcpReassembler} {set : B4Set}
    (htcp : a.Brings e packet tcp) (hhost : inspect a.now tcp s.reassembler = .ok (some host, r))
    (hset : a.sets.find? (fun set => setMatchesHost e.store set host) = some set) :
    ∃ s' v, handle e a s = .ok s' ∧ s'.sent = s.sent ++ [v] ∧ v.packetId = packet.packetId ∧
      (v.carries tcp.raw = tcp.payload ↔
        ¬((set.fragmentation.strategy = "combo" ∨ set.fragmentation.strategy = "disorder") ∧
          2 ≤ tcp.payload.length)) := by
  obtain ⟨hco, hsi⟩ := htcp.coherent
  have hd : tcp.payload ≠ [] := fun he => by
    cases ((inspect_runs hco a.now s.reassembler).of_ok hhost).2 he
  obtain ⟨s', hh, hr⟩ := (handle_runs e a s).2 (htcp.not_breaks hd)
  obtain ⟨host', v, hi, hs, hid, hc⟩ := hr.intercepted packet tcp htcp
  cases hhost.symm.trans hi
  refine ⟨s', v, hh, hs, hid, ?_⟩
  have hm := List.find?_some hset
  rw [show _ ↔ _ from hc host set rfl hset, Fragments, enabled_of_setMatchesHost hm,
    eq_self_iff_true, true_and]

def dataPacket (flags : UInt8) (seq : ℕ) (payload : Bytes) : Bytes :=
  [0x45, 0] ++ be16Bytes (40 + payload.length) ++
    [0, 0, 0x40, 0, 64, 6, 0, 0, 10, 0, 0, 1, 10, 0, 0, 2, 0x30, 0x39, 0x01, 0xbb] ++
    be32Bytes seq ++ [0, 0, 0, 0, 0x50, flags, 0xff, 0xff, 0, 0, 0, 0] ++ payload

def smallHello : ClientHello where
  recordMajor := 3
  recordMinor := 1
  legacyVersion := [3, 3]
  random := List.replicate 32 0
  sessionId := []
  cipherSuites := [0x13, 0x01]
  compressionMethods := [0]
  before := []
  otherNames := []
  serverName := ['a']
  moreNames := []
  after := []
  length_version := rfl
  length_random := rfl
  length_sessionId := by decide
  length_compressionMethods := by decide

def setFor (strategy : String) : B4Set where
  name := ['s']
  tcp := ⟨0, false⟩
  udp := ⟨"", ""⟩
  fragmentation := ⟨strategy, false, false⟩
  faking := ⟨false, "", 0⟩
  targets := ⟨[['a']], []⟩
  enabled := true

def helloArrival (strategy : String) : Arrival :=
  ⟨0, some (packetMessage 7 (dataPacket 0x18 1 smallHello.bytes)), [setFor strategy], true⟩

theorem payload_whole_none : ∃ s' v, handle plainEngine (helloArrival "none") .new = .ok s' ∧
    s'.sent = [v] ∧ v.carries (dataPacket 0x18 1 smallHello.bytes) = smallHello.bytes := by
  have hpa : (helloArrival "none").packet? =
      some ⟨7, none, none, some (dataPacket 0x18 1 smallHello.bytes), none⟩ := by decide +kernel
  have hpar : TcpPacket.parse (dataPacket 0x18 1 smallHello.bytes) =
      .ok (some (.ofRaw (dataPacket 0x18 1 smallHello.bytes))) := by decide +kernel
  have hpo : (TcpPacket.ofRaw (dataPacket 0x18 1 smallHello.bytes)).port ∈ plainEngine.ports := by
    decide +kernel
  have hp : (TcpPacket.ofRaw (dataPacket 0x18 1 smallHello.bytes)).payload =
      smallHello.bytes := by decide +kernel
  obtain ⟨⟨host, r⟩, hi, rfl : host = some ['a']⟩ := exists_eq_ok (b := some ['a'])
    (m := inspect 0 (.ofRaw (dataPacket 0x18 1 smallHello.bytes)) .new) (f := Prod.fst)
    (by decide +kernel)
  have hse : (helloArrival "none").sets.find?
      (fun set => setMatchesHost plainEngine.store set ['a']) = some (setFor "none") := by
    decide +kernel
  obtain ⟨s', v, hh, hs, -, hw⟩ := payload_whole_iff (s := .new)
    ⟨hpa, _, rfl, hpar, hpo⟩ hi hse
  rw [hp] at hw
  exact ⟨s', v, hh, hs, hw.2 (by decide +kernel)⟩

/-- With fragmentation `combo` the kernel gets the first half of the hello only. -/
theorem combo_loses_payload : carried (dataPacket 0x18 1 smallHello.bytes) = smallHello.bytes ∧
    ∃ s', handle plainEngine (helloArrival "combo") .new = .ok s' ∧
      s'.sent.map (fun v => v.carries (dataPacket 0x18 1 smallHello.bytes)) =
        [smallHello.bytes.take 31] ∧ smallHello.bytes.length = 62 := by
  obtain ⟨s', hh, hc⟩ := exists_eq_ok (b := [smallHello.bytes.take 31])
    (m := handle plainEngine (helloArrival "combo") .new)
    (f := fun s' => s'.sent.map fun v => v.carries (dataPacket 0x18 1 smallHello.bytes))
    (by decide +kernel)
  exact ⟨by decide +kernel, s', hh, hc, by decide +kernel⟩

end BalanSir.B4
