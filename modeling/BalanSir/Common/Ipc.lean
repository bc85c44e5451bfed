/-
# Messages between daemon and executor

Frames of a length and a message, sent and received over one socket with a limit.
-/

import BalanSir.Common.Message
import BalanSir.Lib.Run

namespace BalanSir.Common

open List

open Lib (Decoder leBytes ofLeBytes run)

def maxPayloadSize : ℕ := 65536

def checkIpcCompatibility (remoteVersion : UInt8) : Bool := remoteVersion == ipcVersion

/-- `Error`, the variants a connection over a reliable stream returns. -/
inductive IpcError where
  | serialization (message : String)
  | payloadTooLarge (size max : ℕ)
  | versionMismatch (remote loc : UInt8)
  deriving DecidableEq

section

variable [codec : MessageCodec]

def frame (bytes : List UInt8) : List UInt8 :=
  leBytes 4 (UInt32.ofNat bytes.length).toNat ++ bytes

def send (msg : IpcMessage) : Except IpcError (List UInt8) :=
  match codec.toAllocvec msg with
  | .error e => .error (.serialization e)
  | .ok bytes => .ok (frame bytes)

def accept (payload : List UInt8) : Except IpcError IpcMessage :=
  match codec.fromBytes payload with
  | .error e => .error (.serialization e)
  | .ok msg =>
    if checkIpcCompatibility msg.version then .ok msg
    else .error (.versionMismatch msg.version ipcVersion)

def recv : Decoder (Except IpcError IpcMessage) := do
  let lenBuf ← Decoder.take 4
  let len := ofLeBytes lenBuf
  if len > maxPayloadSize then return .error (.payloadTooLarge len maxPayloadSize)
  return accept (← Decoder.take len)

def IpcMessage.Fits (msg : IpcMessage) : Prop :=
  ∀ bytes, codec.toAllocvec msg = .ok bytes → bytes.length ≤ maxPayloadSize

instance (msg : IpcMessage) : Decidable msg.Fits :=
  match h : codec.toAllocvec msg with
  | .ok bytes => decidable_of_iff (bytes.length ≤ maxPayloadSize) (by simp [IpcMessage.Fits, h])
  | .error e => isTrue (by simp [IpcMessage.Fits, h])

theorem stable_recv : Decoder.Stable recv := by
  refine (Decoder.stable_take 4).bind fun lenBuf => ?_
  dsimp only
  split
  · exact Decoder.stable_pure _
  · exact (Decoder.stable_take _).bind fun payload => Decoder.stable_pure _

theorem recv_frame (bytes more : List UInt8) : recv (frame bytes ++ more) =
      if bytes.length % UInt32.size > maxPayloadSize then
        some (.error (.payloadTooLarge (bytes.length % UInt32.size) maxPayloadSize), bytes ++ more)
      else (Decoder.take (bytes.length % UInt32.size) (bytes ++ more)).map fun r =>
        (accept r.1, r.2) := by
  have hl : ofLeBytes (leBytes 4 (UInt32.ofNat bytes.length).toNat) =
      bytes.length % UInt32.size := by
    rw [Lib.ofLeBytes_leBytes, UInt32.toNat_ofNat']
    rw [Nat.shiftRight_eq_div_pow]
    exact Nat.div_eq_of_lt (UInt32.toNat_lt _)
  have ht := Decoder.reads_take (leBytes 4 (UInt32.ofNat bytes.length).toNat) (bytes ++ more)
  rw [Lib.length_leBytes] at ht
  rw [recv, Decoder.bind_apply, frame, append_assoc, ht, Option.bind_some, hl]
  split
  · rfl
  · rw [Option.map_eq_bind]
    rfl

variable {bytes : List UInt8}

theorem reads_recv (h : bytes.length ≤ maxPayloadSize) :
    Decoder.Reads recv (frame bytes) (accept bytes) := by
  intro more
  have hm : bytes.length % UInt32.size = bytes.length :=
    Nat.mod_eq_of_lt (Nat.lt_of_le_of_lt h (by decide))
  rw [recv_frame, hm, if_neg (by omega), Decoder.reads_take]
  rfl

variable {msg : IpcMessage} {payload : List UInt8}

theorem accept_roundTrip (hc : codec.Lawful) (he : codec.toAllocvec msg = .ok bytes)
    (hv : msg.version = ipcVersion) : accept bytes = .ok msg := by
  simp [accept, hc.roundTrip msg bytes he, checkIpcCompatibility, hv]

theorem accept_eq_ok (h : accept payload = .ok msg) : codec.fromBytes payload = .ok msg := by
  unfold accept at h
  split at h
  · cases h
  · rename_i msg' hd
    split at h
    · cases h
      exact hd
    · cases h

variable {rest : List UInt8}

theorem length_le_of_recv_frame (hc : codec.Lawful) {more : List UInt8}
    (he : codec.toAllocvec msg = .ok bytes)
    (h : recv (frame bytes ++ more) = some (.ok msg, rest)) : bytes.length ≤ maxPayloadSize := by
  rw [recv_frame] at h
  split at h
  · cases h
  · by_contra hl
    -- the length wrapped around: only a part of the message is decoded
    have hp : bytes.length % UInt32.size < bytes.length := by omega
    obtain ⟨r, hr, ha⟩ := Option.map_eq_some_iff.1 h
    have ht : r.1 = bytes.take (bytes.length % UInt32.size) := by
      rw [Decoder.take, if_pos (by rw [length_append]; omega)] at hr
      rw [← Option.some.inj hr, take_append_of_le_length (Nat.le_of_lt hp)]
    have hok : accept r.1 = .ok msg := congrArg Prod.fst ha
    exact hc.truncated msg bytes he _ hp (ht ▸ accept_eq_ok hok)

/-- A stream with what was sent into it, what is still in it and what was received. -/
structure Channel where
  stream : List UInt8 := []
  sent : List IpcMessage := []
  received : List (Except IpcError IpcMessage) := []
  deriving DecidableEq

inductive ChannelOp where
  | send (msg : IpcMessage)
  | recv
  deriving DecidableEq

def Channel.step (op : ChannelOp) (ch : Channel) : Channel :=
  match op with
  | .send msg =>
    match send msg with
    | .error _ => ch
    | .ok bytes => { ch with stream := ch.stream ++ bytes, sent := ch.sent ++ [msg] }
  | .recv =>
    match recv ch.stream with
    | none => ch
    | some (result, rest) => { ch with stream := rest, received := ch.received ++ [result] }

/-- What was received is the front of what was sent, and more receives deliver the rest. -/
structure Channel.Delivers (ch : Channel) : Prop where
  ordered : ch.received <+: ch.sent.map .ok
  complete : (run Channel.step (List.replicate ch.sent.length .recv) ch).received =
    ch.sent.map .ok

def frameOf (msg : IpcMessage) : List UInt8 := (send msg).toOption.getD []

/-- A message that `recv` gives back from its frame: it is of this version and its encoding is
within the limit. -/
structure IpcMessage.Readable (msg : IpcMessage) : Prop where
  encoded : ∃ bytes, codec.toAllocvec msg = .ok bytes ∧ bytes.length ≤ maxPayloadSize
  current : msg.version = ipcVersion

namespace Channel

/-- What was received and what is left is what reading all that was written gives. -/
structure Inv (ch : Channel) : Prop where
  read : (Decoder.times recv ch.received.length) (ch.sent.flatMap frameOf) =
    some (ch.received, ch.stream)
  encoded : ∀ msg ∈ ch.sent, ∃ bytes, codec.toAllocvec msg = .ok bytes

theorem inv_empty : Inv {} := ⟨rfl, fun _ h => nomatch h⟩

variable {ch : Channel}

theorem Inv.step (h : ch.Inv) (op : ChannelOp) : (ch.step op).Inv := by
  cases op with
  | send msg =>
    unfold Channel.step
    cases he : codec.toAllocvec msg with
    | error e =>
      simp only [send, he]
      exact h
    | ok bytes =>
      have hs : send msg = .ok (frame bytes) := by simp only [send, he]
      simp only [hs]
      constructor
      · have hf : frameOf msg = frame bytes := by simp [frameOf, hs, Except.toOption]
        rw [flatMap_append, flatMap_singleton, hf]
        exact stable_recv.times _ _ _ _ h.read _
      · intro m hm
        rcases List.mem_append.1 hm with ho | hl
        · exact h.encoded m ho
        · rw [List.mem_singleton.1 hl]
          exact ⟨bytes, he⟩
  | recv =>
    unfold Channel.step
    cases hr : recv ch.stream with
    | none => exact h
    | some r =>
      refine ⟨?_, h.encoded⟩
      rw [length_append]
      exact Decoder.times_concat h.read hr

theorem frameOf_eq (h : codec.toAllocvec msg = .ok bytes) : frameOf msg = frame bytes := by
  simp [frameOf, send, h, Except.toOption]

theorem reads_frameOf (hc : codec.Lawful) (h : msg.Readable) :
    Decoder.Reads recv (frameOf msg) (.ok msg) := by
  obtain ⟨bytes, hb, hl⟩ := h.encoded
  rw [frameOf_eq hb, ← accept_roundTrip hc hb h.current]
  exact reads_recv hl

theorem recv_nil : recv [] = none := rfl

theorem sent_run_recv (n : ℕ) (ch : Channel) :
    (run step (List.replicate n .recv) ch).sent = ch.sent := by
  refine Lib.run_frame (fun call hc ch => ?_) ch
  obtain rfl := eq_of_mem_replicate hc
  unfold step
  dsimp only
  split <;> rfl

theorem received_run_recv {rest : List IpcMessage}
    (hr : ∀ msg ∈ rest, Decoder.Reads recv (frameOf msg) (.ok msg)) (n : ℕ)
    (hs : ch.stream = rest.flatMap frameOf) :
    (run step (List.replicate n .recv) ch).received = ch.received ++ (rest.take n).map .ok := by
  induction n generalizing ch rest with
  | zero => simp [run]
  | succ n ih =>
    rw [replicate_succ, run]
    cases rest with
    | nil =>
      have hw : ch.step .recv = ch := by simp [step, hs, recv_nil]
      rw [hw, ih hr hs]
      simp
    | cons msg rest =>
      rw [forall_mem_cons] at hr
      have hf : recv ch.stream = some (.ok msg, rest.flatMap frameOf) := by
        rw [hs]
        exact hr.1 _
      have hst : ch.step .recv = { ch with
          stream := rest.flatMap frameOf, received := ch.received ++ [.ok msg] } := by
        simp [step, hf]
      rw [hst, ih hr.2 rfl]
      simp

theorem Inv.split (h : ch.Inv) (hr : ∀ msg ∈ ch.sent, Decoder.Reads recv (frameOf msg) (.ok msg)) :
    ch.received = (ch.sent.take ch.received.length).map .ok ∧
      ch.stream = (ch.sent.drop ch.received.length).flatMap frameOf := by
  generalize hn : ch.received.length = n at *
  have hl : n ≤ ch.sent.length := by
    by_contra hm
    obtain ⟨k, hk⟩ := Nat.exists_eq_add_of_lt (Nat.lt_of_not_le hm)
    -- after all that was sent the stream is empty, and `recv` waits
    have ha := Decoder.Reads.times ch.sent hr []
    have hno : (Decoder.times recv n) (ch.sent.flatMap frameOf) = none := by
      rw [append_nil] at ha
      simp [hk, Nat.add_assoc, Decoder.times_add, Decoder.times, Decoder.bind_apply, ha, recv_nil]
    have := h.read
    rw [hn, hno] at this
    cases this
  have hf := Decoder.Reads.times (ch.sent.take n)
    (fun msg hms => hr msg (mem_of_mem_take hms)) ((ch.sent.drop n).flatMap frameOf)
  rw [← flatMap_append, take_append_drop, length_take, Nat.min_eq_left hl] at hf
  have hb := h.read
  rw [hn, hf] at hb
  have := Option.some.inj hb
  exact ⟨(congrArg Prod.fst this).symm, (congrArg Prod.snd this).symm⟩

theorem Inv.delivers (h : ch.Inv)
    (hr : ∀ msg ∈ ch.sent, Decoder.Reads recv (frameOf msg) (.ok msg)) : ch.Delivers := by
  obtain ⟨hf, hs⟩ := h.split hr
  constructor
  · have ht := take_prefix ch.received.length ch.sent
    rw [hf]
    exact ht.map _
  · rw [received_run_recv (fun msg hm => hr msg (mem_of_mem_drop hm)) _ hs]
    have ha : (ch.sent.drop ch.received.length).take ch.sent.length =
        ch.sent.drop ch.received.length :=
      take_of_length_le (by rw [length_drop]; omega)
    nth_rewrite 1 [hf]
    rw [ha, ← map_append, take_append_drop]

theorem fits_of_times (hc : codec.Lawful) {msgs : List IpcMessage}
    (he : ∀ msg ∈ msgs, ∃ bytes, codec.toAllocvec msg = .ok bytes)
    (h : (Decoder.times recv msgs.length) (msgs.flatMap frameOf) = some (msgs.map .ok, rest)) :
    ∀ msg ∈ msgs, msg.Fits := by
  induction msgs with
  | nil => exact fun _ hm => nomatch hm
  | cons msg msgs ih =>
    rw [forall_mem_cons] at he
    obtain ⟨bytes, hb⟩ := he.1
    obtain ⟨mid, hf, hr⟩ := Decoder.times_cons h
    rw [flatMap_cons, frameOf_eq hb] at hf
    have hl := length_le_of_recv_frame hc hb hf
    -- the first frame is read whole
    rw [reads_recv hl] at hf
    obtain rfl : msgs.flatMap frameOf = mid := congrArg Prod.snd (Option.some.inj hf)
    rw [forall_mem_cons]
    refine ⟨fun bytes' hb' => ?_, ih he.2 hr⟩
    rw [hb] at hb'
    cases hb'
    exact hl

end Channel

/-- `IpcConnection`: the next id, what was written and what is not read yet. -/
structure IpcConnection where
  nextCorrelationId : UInt64 := 1
  written : List UInt8 := []
  incoming : List UInt8 := []
  deriving DecidableEq

def awaitResponse (correlationId : UInt64) : ℕ → Decoder (Except IpcError IpcMessage)
  | 0 => fun _ => none
  | fuel + 1 => do
    match ← recv with
    | .error e => return .error e
    | .ok response =>
      if response.correlationId = correlationId then return .ok response
      else awaitResponse correlationId fuel

def request (msgType : MsgType) (payload : List UInt8) (conn : IpcConnection) :
    Option (Except IpcError IpcMessage) × IpcConnection :=
  let correlationId := conn.nextCorrelationId
  let conn := { conn with nextCorrelationId := correlationId + 1 }
  match send (.new msgType correlationId payload) with
  | .error e => (some (.error e), conn)
  | .ok bytes =>
    let conn := { conn with written := conn.written ++ bytes }
    match awaitResponse correlationId (conn.incoming.length + 1) conn.incoming with
    | none => (none, conn)
    | some (result, rest) => (some result, { conn with incoming := rest })

def RequestsMatch : Prop :=
  ∀ msgType payload conn response conn',
    request msgType payload conn = (some (.ok response), conn') →
      ∃ msg bytes, send msg = .ok bytes ∧ conn'.written = conn.written ++ bytes ∧
        msg.correlationId = conn.nextCorrelationId ∧ response.correlationId = msg.correlationId

variable {response : IpcMessage} {bs : List UInt8} {others : List IpcMessage} {tail : List UInt8}

theorem correlationId_awaitResponse {correlationId : UInt64} {fuel : ℕ}
    (h : awaitResponse correlationId fuel bs = some (.ok response, rest)) :
    response.correlationId = correlationId := by
  induction fuel generalizing bs with
  | zero => cases h
  | succ fuel ih =>
    obtain ⟨⟨result, mid⟩, -, h⟩ := Option.bind_eq_some_iff.1 h
    dsimp only at h
    split at h
    · cases h
    · split at h
      · cases h
        assumption
      · exact ih h

theorem requestsMatch : RequestsMatch := by
  intro msgType payload conn response conn' h
  unfold request at h
  dsimp only at h
  split at h
  · cases h
  · rename_i bytes hs
    split at h
    · cases h
    · rename_i result rest ha
      cases h
      exact ⟨_, bytes, hs, rfl, rfl, correlationId_awaitResponse ha⟩

theorem length_of_recv {result : Except IpcError IpcMessage} (h : recv bs = some (result, rest)) :
    rest.length < bs.length := by
  obtain ⟨⟨lenBuf, mid⟩, hl, h⟩ := Option.bind_eq_some_iff.1 h
  have hf := Decoder.length_of_take hl
  dsimp only at h hf
  split at h
  · cases h
    omega
  · obtain ⟨⟨payload, rest'⟩, hp, h⟩ := Option.bind_eq_some_iff.1 h
    have hr := Decoder.length_of_take hp
    obtain rfl : rest' = rest := congrArg Prod.snd (Option.some.inj h)
    omega

theorem awaitResponse_fuel (correlationId : UInt64) {fuel : ℕ} (h : bs.length < fuel) (more : ℕ) :
    awaitResponse correlationId (fuel + more) bs = awaitResponse correlationId fuel bs := by
  induction fuel generalizing bs with
  | zero => omega
  | succ fuel ih =>
    rw [Nat.add_right_comm, awaitResponse, awaitResponse, Decoder.bind_apply, Decoder.bind_apply]
    cases hr : recv bs with
    | none => rfl
    | some r =>
      obtain ⟨result, mid⟩ := r
      have hl := length_of_recv hr
      cases result with
      | error e => rfl
      | ok response =>
        by_cases hid : response.correlationId = correlationId
        · simp only [Option.bind_some, hid, if_true]
        · simp only [Option.bind_some, hid]
          exact ih (by omega)

theorem awaitResponse_frames {id : UInt64}
    (ho : ∀ m ∈ others, Decoder.Reads recv (frameOf m) (.ok m) ∧ m.correlationId ≠ id)
    (hr : Decoder.Reads recv (frameOf response) (.ok response))
    (hid : response.correlationId = id) :
    let bs := others.flatMap frameOf ++ (frameOf response ++ tail)
    awaitResponse id (bs.length + 1) bs = some (.ok response, tail) := by
  induction others with
  | nil =>
    simp only [flatMap_nil, nil_append, awaitResponse, Decoder.bind_apply, hr tail,
      Option.bind_some, hid, if_true, Decoder.pure_apply]
  | cons m others ih =>
    obtain ⟨⟨hm, hne⟩, ho⟩ := forall_mem_cons.1 ho
    have hf := hm (others.flatMap frameOf ++ (frameOf response ++ tail))
    obtain ⟨more, hl⟩ := Nat.exists_eq_add_of_lt (length_of_recv hf)
    simp only [flatMap_cons, append_assoc]
    rw [hl, awaitResponse, Decoder.bind_apply, hf, Nat.add_right_comm]
    simp only [Option.bind_some, hne, if_false]
    rw [awaitResponse_fuel id (Nat.lt_succ_self _)]
    exact ih ho

/-- **A request waits for its own response**: the readable responses to other requests that come
before it are dropped, and what comes after it is left. -/
theorem request_skips (hc : codec.Lawful) {msgType : MsgType} {conn : IpcConnection}
    (hs : send (.new msgType conn.nextCorrelationId payload) = .ok bytes)
    (hin : conn.incoming = others.flatMap frameOf ++ (frameOf response ++ tail))
    (hother : ∀ m ∈ others, m.Readable ∧ m.correlationId ≠ conn.nextCorrelationId)
    (hread : response.Readable) (hid : response.correlationId = conn.nextCorrelationId) :
    request msgType payload conn = (some (.ok response),
      { nextCorrelationId := conn.nextCorrelationId + 1,
        written := conn.written ++ bytes,
        incoming := tail }) := by
  have ho (m : IpcMessage) (hm : m ∈ others) : Decoder.Reads recv (frameOf m) (.ok m) ∧
      m.correlationId ≠ conn.nextCorrelationId :=
    ⟨Channel.reads_frameOf hc (hother m hm).1, (hother m hm).2⟩
  have ha : awaitResponse conn.nextCorrelationId (conn.incoming.length + 1) conn.incoming =
      some (.ok response, tail) := by
    rw [hin]
    exact awaitResponse_frames ho (Channel.reads_frameOf hc hread) hid
  simp only [request, hs, ha]

/-- **The limit decides what arrives:** all messages sent with `Ok` are received in order, and
requests get their own responses only, exactly when every message encodes to at most
`MAX_PAYLOAD_SIZE` bytes. -/
theorem channel_delivers_iff (hcodec : codec.Lawful) (ops : List ChannelOp)
    (hver : ∀ msg ∈ (run Channel.step ops {}).sent, msg.version = ipcVersion) :
    (run Channel.step ops {}).Delivers ∧ RequestsMatch ↔
      ∀ msg ∈ (run Channel.step ops {}).sent, msg.Fits := by
  have hi : (run Channel.step ops {}).Inv :=
    Lib.run_invariant (fun op _ h => h.step op) ops Channel.inv_empty
  generalize run Channel.step ops {} = ch at hver hi ⊢
  constructor
  · rintro ⟨hd, -⟩
    have hl : (run Channel.step (List.replicate ch.sent.length .recv) ch).Inv :=
      Lib.run_invariant (fun op _ h => h.step op) _ hi
    have hr := hl.read
    rw [Channel.sent_run_recv, hd.complete, length_map] at hr
    exact Channel.fits_of_times hcodec hi.encoded hr
  · intro hf
    refine ⟨hi.delivers fun msg hm => ?_, requestsMatch⟩
    obtain ⟨bytes, he⟩ := hi.encoded msg hm
    exact Channel.reads_frameOf hcodec ⟨⟨bytes, he, hf msg hm bytes he⟩, hver msg hm⟩

end

def ping : List ChannelOp :=
  [.send (.new .healthCheck 1 []), .recv, .send (.new .responseData 1 [1, 2, 3]), .recv]

theorem ping_delivered : let ch := run (@Channel.step wireCodec) ping {}
    (∀ msg ∈ ch.sent, msg.version = ipcVersion) ∧ @Channel.Delivers wireCodec ch ∧
      ch.received = [.ok (.new .healthCheck 1 []), .ok (.new .responseData 1 [1, 2, 3])] := by
  have hv : ∀ msg ∈ (run (@Channel.step wireCodec) ping {}).sent, msg.version = ipcVersion := by
    decide +kernel
  have hf : ∀ msg ∈ (run (@Channel.step wireCodec) ping {}).sent,
      @IpcMessage.Fits wireCodec msg := by
    decide +kernel
  exact ⟨hv, ((@channel_delivers_iff wireCodec wireCodec_lawful ping hv).2 hf).1,
    by decide +kernel⟩

/-- The third request of a connection, with late responses to the first two before its own. -/
def thirdRequest : IpcConnection where
  nextCorrelationId := 3
  incoming := [.new .responseOk 1 [], .new .responseData 2 [7]].flatMap (@frameOf wireCodec) ++
    (@frameOf wireCodec (.new .responseData 3 [8, 9]) ++ [0, 0])

theorem thirdRequest_skips : (@request wireCodec .healthCheck [] thirdRequest).1 =
        some (.ok (.new .responseData 3 [8, 9])) ∧
      (@request wireCodec .healthCheck [] thirdRequest).2.incoming = [0, 0] := by
  let _ := wireCodec
  have ho : ∀ m ∈ [IpcMessage.new .responseOk 1 [], .new .responseData 2 [7]],
      m.Readable ∧ m.correlationId ≠ 3 := by
    rw [forall_mem_cons, forall_mem_singleton]
    exact ⟨⟨⟨⟨_, rfl, by decide⟩, rfl⟩, by decide⟩, ⟨⟨_, rfl, by decide⟩, rfl⟩, by decide⟩
  have hr : (IpcMessage.new .responseData 3 [8, 9]).Readable := ⟨⟨_, rfl, by decide⟩, rfl⟩
  have hs : send (.new .healthCheck thirdRequest.nextCorrelationId []) =
      .ok (frameOf (.new .healthCheck 3 [])) := rfl
  rw [request_skips wireCodec_lawful hs rfl ho hr rfl]
  exact ⟨rfl, rfl⟩

def dataResponse (payload : List UInt8) : IpcMessage := .new .responseData 1 payload

variable {payload : List UInt8}

theorem dataResponse_encoded (h : payload.length = 65536) :
    ∃ bytes, wireCodec.toAllocvec (dataResponse payload) = .ok bytes ∧ bytes.length = 65542 := by
  have he : Postcard.toAllocvec (dataResponse payload) =
      .ok (Postcard.ipcMessage (dataResponse payload)) := by
    rw [Postcard.toAllocvec, if_pos]
    show payload.length < UInt64.size
    rw [h]
    decide
  refine ⟨_, he, ?_⟩
  have hva : (Postcard.varint 65536).length = 3 := by decide
  have hv : (Postcard.varint (MsgType.all.idxOf .responseData)).length = 1 := by decide
  have hid : (Postcard.varint (1 : UInt64).toNat).length = 1 := by decide
  rw [Postcard.length_ipcMessage]
  show 1 + ((Postcard.varint (MsgType.all.idxOf .responseData)).length +
    ((Postcard.varint (1 : UInt64).toNat).length +
      ((Postcard.varint payload.length).length + payload.length))) = 65542
  rw [h, hva, hv, hid]

theorem dataResponse_not_delivered (h : payload.length = 65536) :
    let ch := run (@Channel.step wireCodec) [.send (dataResponse payload)] {}
    ch.sent = [dataResponse payload] ∧
      (run (@Channel.step wireCodec) [.recv] ch).received =
        [.error (.payloadTooLarge 65542 65536)] ∧
      ¬ @Channel.Delivers wireCodec ch := by
  obtain ⟨bytes, he, hl⟩ := dataResponse_encoded h
  have hs : run (@Channel.step wireCodec) [.send (dataResponse payload)] {} =
      { stream := frame bytes, sent := [dataResponse payload] } := by
    simp [run, Channel.step, send, he]
  have hre : @recv wireCodec (frame bytes) =
      some (.error (.payloadTooLarge 65542 65536), bytes) := by
    have := @recv_frame wireCodec bytes []
    rwa [append_nil, append_nil, hl] at this
  have hr : (run (@Channel.step wireCodec) [.recv]
      { stream := frame bytes, sent := [dataResponse payload] }).received =
        [.error (.payloadTooLarge 65542 65536)] := by
    simp [run, Channel.step, hre]
  rw [hs]
  refine ⟨rfl, hr, fun hd => ?_⟩
  have hc := @Channel.Delivers.complete wireCodec _ hd
  rw [length_singleton, replicate_one, hr] at hc
  cases hc

theorem zeros_not_delivered : let msg := dataResponse (List.replicate 65536 0)
    let ch := run (@Channel.step wireCodec) [.send msg] {}
    ch.sent = [msg] ∧
      (run (@Channel.step wireCodec) [.recv] ch).received =
        [.error (.payloadTooLarge 65542 65536)] ∧
      ¬ @Channel.Delivers wireCodec ch :=
  dataResponse_not_delivered length_replicate

end BalanSir.Common
