/-
# Messages of the packet queue

`parse_netfilter_message` reads the attributes of a netlink message.
-/

import BalanSir.Lib.Checked

namespace BalanSir.B4

open Lib List

def NFNL_SUBSYS_QUEUE : ℕ := 3
def NFPROTO_UNSPEC : UInt8 := 0
def NFNETLINK_V0 : UInt8 := 0
def NLM_F_REQUEST : ℕ := 1
def NFQNL_MSG_PACKET : ℕ := 0
def NFQA_PACKET_HDR : ℕ := 1
def NFQA_IFINDEX_INDEV : ℕ := 5
def NFQA_IFINDEX_OUTDEV : ℕ := 6
def NFQA_PAYLOAD : ℕ := 10
def NFQA_CAP_LEN : ℕ := 13
def NF_DROP : ℕ := 0
def NF_ACCEPT : ℕ := 1

structure QueuedPacket where
  packetId : ℕ
  indev : Option ℕ
  outdev : Option ℕ
  payload : Option Bytes
  capLen : Option ℕ
deriving DecidableEq

inductive NfMessage
  | packet (packet : QueuedPacket)
  | other
deriving DecidableEq

def align4 (n : ℕ) : ℕ := (n + 3) / 4 * 4

def QueuedPacket.record (packet : QueuedPacket) (ntype : ℕ) (data : Bytes) :
    Checked QueuedPacket :=
  if ntype = NFQA_PACKET_HDR ∧ 4 ≤ data.length then do
    let packetId ← u32At data 0
    return { packet with packetId }
  else if ntype = NFQA_IFINDEX_INDEV ∧ 4 ≤ data.length then do
    let index ← leU32At data 0
    return { packet with indev := some index }
  else if ntype = NFQA_IFINDEX_OUTDEV ∧ 4 ≤ data.length then do
    let index ← leU32At data 0
    return { packet with outdev := some index }
  else if ntype = NFQA_PAYLOAD then .ok { packet with payload := some data }
  else if ntype = NFQA_CAP_LEN ∧ 4 ≤ data.length then do
    let len ← leU32At data 0
    return { packet with capLen := some len }
  else .ok packet

def attributeRound (attrs : Bytes) (s : ℕ × QueuedPacket) :
    Checked ((ℕ × QueuedPacket) ⊕ QueuedPacket) :=
  let (pos, packet) := s
  if pos + 4 ≤ attrs.length then do
    let len ← leU16At attrs pos
    let ntype ← leU16At attrs (pos + 2)
    if len < 4 ∨ attrs.length < pos + len then .ok (.inr packet)
    else do
      let data ← slice attrs (pos + 4) (pos + len)
      let packet ← packet.record ntype data
      .ok (.inl (pos + align4 len, packet))
  else .ok (.inr packet)

def parseNetfilterMessage (buf : Bytes) : Checked NfMessage :=
  if buf.length < 16 then .ok .other else do
  let header ← slice buf 0 16
  let length ← leU32At header 0
  let msgType ← leU16At header 4
  if length < 16 ∨ buf.length < length then .ok .other else do
  let body ← slice buf 16 length
  if body.length < 4 then .ok .other else do
  -- the kind is the low byte of the type
  if msgType % 256 ≠ NFQNL_MSG_PACKET then .ok .other else do
  let attrs ← slice body 4 body.length
  let packet ← rounds (attributeRound attrs) (attrs.length + 1) (0, ⟨0, none, none, none, none⟩)
  return .packet packet

def pushNla (buf : Bytes) (nlaType : ℕ) (data : Bytes) : Bytes :=
  let buf := buf ++ le16Bytes (data.length + 4) ++ le16Bytes nlaType ++ data
  buf ++ List.replicate (align4 buf.length - buf.length) 0

def nfgenmsgType (subsys msgType : ℕ) : ℕ := subsys * 256 + msgType

def buildNetlinkMsg (msgType : ℕ) (attrs : Bytes) (queueNum : ℕ) : Bytes :=
  let payload := [NFPROTO_UNSPEC, NFNETLINK_V0] ++ be16Bytes queueNum ++ attrs
  le32Bytes (16 + payload.length) ++ le16Bytes (nfgenmsgType NFNL_SUBSYS_QUEUE msgType) ++
    le16Bytes NLM_F_REQUEST ++ le32Bytes 0 ++ le32Bytes 0 ++ payload

def packetMessage (packetId : ℕ) (payload : Bytes) : Bytes :=
  buildNetlinkMsg NFQNL_MSG_PACKET
    (pushNla (pushNla [] NFQA_PACKET_HDR (be32Bytes packetId)) NFQA_PAYLOAD payload) 0

def QueuedPacket.Small (packet : QueuedPacket) : Prop :=
  ∀ payload, packet.payload = some payload → payload.length < 65532

variable {packet : QueuedPacket}

theorem QueuedPacket.record_runs (hs : packet.Small) (ntype : ℕ)
    {data : Bytes} (hd : data.length < 65532) :
    Runs (packet.record ntype data) False QueuedPacket.Small := by
  unfold record
  split_ifs with hid hi ho hpa hc
  · rw [u32At_of_lt (by omega)]
    exact runs_ok hs
  · rw [leU32At_of_lt (by omega)]
    exact runs_ok hs
  · rw [leU32At_of_lt (by omega)]
    exact runs_ok hs
  · refine runs_ok fun payload hp => ?_
    cases hp
    exact hd
  · rw [leU32At_of_lt (by omega)]
    exact runs_ok hs
  · exact runs_ok hs

theorem attributeRound_ok (attrs : Bytes) {s : ℕ × QueuedPacket} (hs : s.2.Small) :
    RoundOk (fun s => s.2.Small) (fun s => attrs.length - s.1) (fun _ => False)
      QueuedPacket.Small s (attributeRound attrs s) := by
  obtain ⟨pos, packet⟩ := s
  unfold attributeRound
  dsimp only
  by_cases hm : pos + 4 ≤ attrs.length
  · rw [if_pos hm, leU16At_of_lt (by omega), ok_bind, leU16At_of_lt (by omega), ok_bind]
    have hl := leWordAt_lt attrs pos
    by_cases hb : leWordAt attrs pos < 4 ∨ attrs.length < pos + leWordAt attrs pos
    · rw [if_pos hb]
      exact ⟨id, hs⟩
    rw [if_neg hb, slice_of_le (by omega) (by omega), ok_bind]
    have hd : (between attrs (pos + 4) (pos + leWordAt attrs pos)).length < 65532 := by
      rw [length_between (by omega)]
      omega
    obtain ⟨packet', hr, hs'⟩ :=
      (QueuedPacket.record_runs hs (leWordAt attrs (pos + 2)) hd).2 id
    rw [hr]
    refine ⟨hs', ?_, Iff.rfl⟩
    show attrs.length - (pos + align4 (leWordAt attrs pos)) < attrs.length - pos
    unfold align4
    omega
  · rw [if_neg hm]
    exact ⟨id, hs⟩

/-- **Every message is read in range.** -/
theorem parseNetfilterMessage_runs (buf : Bytes) :
    Runs (parseNetfilterMessage buf) False fun msg => ∀ packet, msg = .packet packet →
      packet.Small := by
  have ho : ∀ packet, NfMessage.other = .packet packet → packet.Small := nofun
  unfold parseNetfilterMessage
  by_cases hsh : buf.length < 16
  · rw [if_pos hsh]
    exact runs_ok ho
  have hh : (between buf 0 16).length = 16 := length_between (by omega)
  rw [if_neg hsh, slice_of_le (by omega) (by omega), ok_bind, leU32At_of_lt (by omega), ok_bind,
    leU16At_of_lt (by omega), ok_bind]
  generalize leWordAt (between buf 0 16) (0 + 2) * 65536 + leWordAt (between buf 0 16) 0 = length
  by_cases hl : length < 16 ∨ buf.length < length
  · rw [if_pos hl]
    exact runs_ok ho
  rw [if_neg hl, slice_of_le (by omega) (by omega), ok_bind]
  by_cases hb : (between buf 16 length).length < 4
  · rw [if_pos hb]
    exact runs_ok ho
  rw [if_neg hb]
  by_cases hk : leWordAt (between buf 0 16) 4 % 256 ≠ NFQNL_MSG_PACKET
  · rw [if_pos hk]
    exact runs_ok ho
  rw [if_neg hk, slice_to_end (by omega)]
  have he : (⟨0, none, none, none, none⟩ : QueuedPacket).Small := nofun
  refine (Runs.rounds _ _ (fun s hs => attributeRound_ok _ hs) he
    (by omega)).then fun packet hsm => runs_ok fun packet' heq => ?_
  cases heq
  exact hsm

/-- The length that the netlink header of a message gives. -/
def messageLength (buf : Bytes) : ℕ :=
  leWordAt (between buf 0 16) 2 * 65536 + leWordAt (between buf 0 16) 0

variable {buf : Bytes}

theorem parseNetfilterMessage_of_lt (h : buf.length < messageLength buf) :
    parseNetfilterMessage buf = .ok .other := by
  unfold parseNetfilterMessage
  by_cases hs : buf.length < 16
  · rw [if_pos hs]
  have hh : (between buf 0 16).length = 16 := length_between (by omega)
  rw [if_neg hs, slice_of_le (by omega) (by omega), ok_bind, leU32At_of_lt (by omega), ok_bind,
    leU16At_of_lt (by omega), ok_bind, if_pos (.inr h)]

/-- **A message that is cut off** behind its declared length is read as before, and before it as no
packet. -/
theorem parseNetfilterMessage_take {n : ℕ} (hn : 16 ≤ n) (hb : n ≤ buf.length) :
    parseNetfilterMessage (buf.take n) =
      if messageLength buf ≤ n then parseNetfilterMessage buf else .ok .other := by
  have hh : (between buf 0 16).length = 16 := length_between (by omega)
  unfold parseNetfilterMessage
  rw [length_take, Nat.min_eq_left hb, if_neg (show ¬n < 16 by omega),
    if_neg (show ¬buf.length < 16 by omega), slice_take hn hb, slice_of_le (by omega) (by omega)]
  simp only [ok_bind, leU32At_of_lt (show 0 + 3 < (between buf 0 16).length by omega),
    leU16At_of_lt (show 4 + 1 < (between buf 0 16).length by omega)]
  rw [show leWordAt (between buf 0 16) (0 + 2) * 65536 + leWordAt (between buf 0 16) 0 =
    messageLength buf from rfl]
  by_cases hl : messageLength buf ≤ n
  · rw [if_pos hl, slice_take hl hb]
    refine if_congr (or_congr_right ?_) rfl rfl
    exact iff_of_false (by omega) (by omega)
  · rw [if_neg hl, if_pos (.inr (by omega))]

abbrev Attribute := ℕ × Bytes

def pushAll (attrs : List Attribute) : Bytes := attrs.foldl (fun buf a => pushNla buf a.1 a.2) []

def nlaBytes (a : Attribute) : Bytes :=
  le16Bytes (a.2.length + 4) ++ (le16Bytes a.1 ++ (a.2 ++
    List.replicate (align4 (a.2.length + 4) - (a.2.length + 4)) 0))

theorem length_nlaBytes (a : Attribute) : (nlaBytes a).length = align4 (a.2.length + 4) := by
  have ha : a.2.length + 4 ≤ align4 (a.2.length + 4) := by
    unfold align4
    omega
  simp only [nlaBytes, length_append, length_replicate]
  show 2 + (2 + (a.2.length + _)) = _
  omega

theorem pushNla_eq (hb : buf.length % 4 = 0) (a : Attribute) :
    pushNla buf a.1 a.2 = buf ++ nlaBytes a := by
  have hl : (buf ++ le16Bytes (a.2.length + 4) ++ le16Bytes a.1 ++ a.2).length =
      buf.length + (a.2.length + 4) := by
    simp only [length_append]
    show buf.length + 2 + 2 + a.2.length = _
    omega
  have hp : align4 (buf.length + (a.2.length + 4)) - (buf.length + (a.2.length + 4)) =
      align4 (a.2.length + 4) - (a.2.length + 4) := by
    unfold align4
    omega
  unfold pushNla
  dsimp only
  rw [hl, hp, nlaBytes]
  simp only [append_assoc]

variable (attrs : List Attribute)

theorem foldl_pushNla (hb : buf.length % 4 = 0) :
    attrs.foldl (fun buf a => pushNla buf a.1 a.2) buf = buf ++ attrs.flatMap nlaBytes := by
  induction attrs generalizing buf with
  | nil => simp
  | cons a attrs ih =>
    have hn : (buf ++ nlaBytes a).length % 4 = 0 := by
      rw [length_append, length_nlaBytes, align4]
      omega
    rw [foldl_cons, pushNla_eq hb, ih hn, flatMap_cons, append_assoc]

theorem pushAll_eq : pushAll attrs = attrs.flatMap nlaBytes :=
  foldl_pushNla attrs rfl

theorem length_le_length_pushAll : attrs.length ≤ (pushAll attrs).length := by
  rw [pushAll_eq]
  induction attrs with
  | nil => exact Nat.le_refl 0
  | cons a attrs ih =>
    rw [flatMap_cons, length_append, length_nlaBytes, align4, length_cons]
    omega

theorem attributeRounds_eq {bytes : Bytes} (ha : ∀ a ∈ attrs, a.1 < 65536 ∧ a.2.length ≤ 65531)
    {pos n : ℕ} (hat : FromOn bytes pos (attrs.flatMap nlaBytes))
    (hn : attrs.length < n) : rounds (attributeRound bytes) n (pos, packet) =
      attrs.foldlM (fun packet a => packet.record a.1 a.2) packet := by
  induction attrs generalizing pos n packet with
  | nil =>
    obtain ⟨n, rfl⟩ := Nat.exists_eq_succ_of_ne_zero (Nat.ne_zero_of_lt hn)
    have he := hat.length
    rw [flatMap_nil, length_nil] at he
    refine rounds_end ?_ n
    exact if_neg (by omega)
  | cons a attrs ih =>
    obtain ⟨n, rfl⟩ := Nat.exists_eq_succ_of_ne_zero (Nat.ne_zero_of_lt hn)
    obtain ⟨hk, hd⟩ := ha a mem_cons_self
    have hal : FromOn bytes pos (nlaBytes a ++ attrs.flatMap nlaBytes) := hat
    have hne := hal.skip
    rw [length_nlaBytes] at hne
    have hf : FromOn bytes pos (le16Bytes (a.2.length + 4) ++ (le16Bytes a.1 ++ (a.2 ++
        (List.replicate (align4 (a.2.length + 4) - (a.2.length + 4)) 0 ++
          attrs.flatMap nlaBytes)))) := by
      simpa only [flatMap_cons, nlaBytes, append_assoc] using hat
    have hs : FromOn bytes (pos + 2) _ := hf.skip
    have ht : FromOn bytes (pos + 4) _ := hs.skip
    have hto := ht.length
    rw [length_append] at hto
    have hsl : slice bytes (pos + 4) (pos + (a.2.length + 4)) = .ok a.2 := by
      rw [show pos + (a.2.length + 4) = pos + 4 + a.2.length by omega]
      exact ht.slice
    have hr : attributeRound bytes (pos, packet) =
        packet.record a.1 a.2 >>= fun packet =>
          .ok (.inl (pos + align4 (a.2.length + 4), packet)) := by
      rw [attributeRound, if_pos (by omega), hf.leU16At, ok_bind,
        Nat.mod_eq_of_lt (by omega), hs.leU16At, ok_bind, Nat.mod_eq_of_lt hk,
        if_neg (by omega), hsl, ok_bind]
    rw [foldlM_cons, rounds, hr]
    cases packet.record a.1 a.2 with
    | error e => rfl
    | ok packet' =>
      exact ih (fun b hb => ha b (mem_cons_of_mem a hb)) hne
        (Nat.lt_of_succ_lt_succ hn)

def headerId (data : Bytes) : ℕ := wordAt data 0 * 65536 + wordAt data 2

theorem headerId_be32Bytes {id : ℕ} (hid : id < 4294967296) (more : Bytes) :
    headerId (be32Bytes id ++ more) = id := by
  have hh : FromOn (be32Bytes id ++ more) 0 (be16Bytes (id / 65536) ++ (be16Bytes id ++ more)) :=
    fromOn_zero _
  have hl : FromOn (be32Bytes id ++ more) 2 (be16Bytes id ++ more) := hh.skip
  have hw : wordAt (be32Bytes id ++ more) 2 = id % 65536 := by
    have hf : FromOn (be32Bytes id ++ more) 2
      (UInt8.ofNat (id / 256) :: UInt8.ofNat id :: more) := hl
    rw [wordAt, hf.getD, hf.tail.getD, be16_be16Bytes]
  rw [headerId, hh.wordAt (by omega)]
  omega

theorem QueuedPacket.record_spec (packet : QueuedPacket) (a : Attribute) :
    ∃ packet', packet.record a.1 a.2 = .ok packet' ∧
      packet'.payload = (if a.1 = NFQA_PAYLOAD then some a.2 else packet.payload) ∧
      packet'.packetId =
        (if a.1 = NFQA_PACKET_HDR ∧ 4 ≤ a.2.length then headerId a.2 else packet.packetId) := by
  obtain ⟨ntype, data⟩ := a
  unfold record
  dsimp only
  by_cases hid : ntype = NFQA_PACKET_HDR ∧ 4 ≤ data.length
  · have ho : ntype ≠ NFQA_PAYLOAD := by
      rw [hid.1]
      decide
    rw [if_pos hid, u32At_of_lt (by omega)]
    exact ⟨_, rfl, (if_neg ho).symm, (if_pos hid).symm⟩
  by_cases hp : ntype = NFQA_PAYLOAD
  · subst hp
    exact ⟨_, rfl, rfl, rfl⟩
  split_ifs with hi hou hc
  · rw [leU32At_of_lt (by omega)]
    exact ⟨_, rfl, rfl, rfl⟩
  · rw [leU32At_of_lt (by omega)]
    exact ⟨_, rfl, rfl, rfl⟩
  · rw [leU32At_of_lt (by omega)]
    exact ⟨_, rfl, rfl, rfl⟩
  · exact ⟨_, rfl, rfl, rfl⟩

theorem recordAll_spec (packet : QueuedPacket) :
    ∃ packet', attrs.foldlM (fun packet a => packet.record a.1 a.2) packet = .ok packet' ∧
      packet'.payload =
        (attrs.filter (·.1 = NFQA_PAYLOAD)).foldl (fun _ a => some a.2) packet.payload ∧
      packet'.packetId = (attrs.filter fun a => a.1 = NFQA_PACKET_HDR ∧ 4 ≤ a.2.length).foldl
          (fun _ a => headerId a.2) packet.packetId := by
  induction attrs generalizing packet with
  | nil => exact ⟨packet, rfl, rfl, rfl⟩
  | cons a attrs ih =>
    obtain ⟨packet₁, hr, hp, hid⟩ := packet.record_spec a
    obtain ⟨packet', hre, hp', hid'⟩ := ih packet₁
    refine ⟨packet', ?_, ?_, ?_⟩
    · rw [foldlM_cons, hr, ok_bind, hre]
    · rw [hp', hp, filter_cons]
      by_cases hk : a.1 = NFQA_PAYLOAD
      · rw [if_pos hk, if_pos (decide_eq_true hk), foldl_cons]
      · rw [if_neg hk, if_neg (by simpa using hk)]
    · rw [hid', hid, filter_cons]
      by_cases hk : a.1 = NFQA_PACKET_HDR ∧ 4 ≤ a.2.length
      · rw [if_pos hk, if_pos (decide_eq_true hk), foldl_cons]
      · rw [if_neg hk, if_neg (by simpa using hk)]

theorem parseNetfilterMessage_build {attrs : List Attribute} (queueNum : ℕ)
    (ha : ∀ a ∈ attrs, a.1 < 65536 ∧ a.2.length ≤ 65531)
    (hl : (buildNetlinkMsg NFQNL_MSG_PACKET (pushAll attrs) queueNum).length < 4294967296) :
    parseNetfilterMessage (buildNetlinkMsg NFQNL_MSG_PACKET (pushAll attrs) queueNum) =
      attrs.foldlM (fun packet a => packet.record a.1 a.2) ⟨0, none, none, none, none⟩ >>=
        fun packet => .ok (.packet packet) := by
  -- the netlink header of 16 bytes, and what it counts
  obtain ⟨body, hb⟩ : ∃ body, body =
      [NFPROTO_UNSPEC, NFNETLINK_V0] ++ be16Bytes queueNum ++ pushAll attrs := ⟨_, rfl⟩
  obtain ⟨head, hh⟩ : ∃ head, head = le32Bytes (16 + body.length) ++
      (le16Bytes (nfgenmsgType NFNL_SUBSYS_QUEUE NFQNL_MSG_PACKET) ++
        (le16Bytes NLM_F_REQUEST ++ (le32Bytes 0 ++ le32Bytes 0))) := ⟨_, rfl⟩
  have hm : buildNetlinkMsg NFQNL_MSG_PACKET (pushAll attrs) queueNum = head ++ body := by
    rw [hh, hb, buildNetlinkMsg]
    simp only [append_assoc]
  have hh16 : head.length = 16 := by
    rw [hh]
    rfl
  have hb4 : body.length = 4 + (pushAll attrs).length := by
    rw [hb, length_append]
    rfl
  rw [hm, length_append, hh16] at hl
  rw [hm]
  have hat : FromOn (head ++ body) 0 (head ++ body) := fromOn_zero _
  have hsli := hat.slice
  have hr := hat.skip
  rw [hh16] at hsli hr
  have hhe : FromOn head 0 _ := ⟨Nat.zero_le _, hh⟩
  have hty : FromOn head 4 _ := hhe.skip
  have ht : (head ++ body).length = 16 + body.length := by rw [length_append, hh16]
  have hsl : slice (head ++ body) 16 (16 + body.length) = .ok body := by
    rw [← ht, slice_to_end (by omega), hr.2]
  have hs : slice body 4 body.length = .ok (pushAll attrs) := by
    rw [slice_to_end (by omega), hb]
    rfl
  have hc := length_le_length_pushAll attrs
  rw [parseNetfilterMessage, if_neg (by omega), hsli, ok_bind, hhe.leU32At hl, ok_bind, hty.leU16At,
    ok_bind, if_neg (by omega), hsl, ok_bind, if_neg (by omega), hs, ok_bind,
    attributeRounds_eq attrs ha (by rw [← pushAll_eq]; exact fromOn_zero _) (by omega)]
  rfl

/-- **A message that is built is read back**, whatever stands around its packet header and payload;
and no bytes make the parser read out of range or go on for ever. -/
theorem packet_read_back {attrs : List Attribute} {queueNum id : ℕ} {more payload : Bytes}
    (hattrs : ∀ a ∈ attrs, a.1 < 65536 ∧ a.2.length ≤ 65531)
    (hlen : (buildNetlinkMsg NFQNL_MSG_PACKET (pushAll attrs) queueNum).length < 4294967296)
    (hid : id < 4294967296)
    (hheader : attrs.filter (·.1 = NFQA_PACKET_HDR) = [(NFQA_PACKET_HDR, be32Bytes id ++ more)])
    (hpayload : attrs.filter (·.1 = NFQA_PAYLOAD) = [(NFQA_PAYLOAD, payload)]) :
    (∃ packet, parseNetfilterMessage
        (buildNetlinkMsg NFQNL_MSG_PACKET (pushAll attrs) queueNum) = .ok (.packet packet) ∧
      packet.packetId = id ∧ packet.payload = some payload) ∧
    ∀ buf, ∃ msg, parseNetfilterMessage buf = .ok msg := by
  constructor
  · obtain ⟨packet, ha, hp, hpa⟩ :=
      recordAll_spec attrs ⟨0, none, none, none, none⟩
    have hl : (attrs.filter fun a => a.1 = NFQA_PACKET_HDR ∧ 4 ≤ a.2.length) =
        [(NFQA_PACKET_HDR, be32Bytes id ++ more)] := by
      have hfo : 4 ≤ (be32Bytes id ++ more).length := by
        rw [length_append, length_be32Bytes]
        omega
      have hk : [(NFQA_PACKET_HDR, be32Bytes id ++ more)].filter (fun a => 4 ≤ a.2.length) =
          [(NFQA_PACKET_HDR, be32Bytes id ++ more)] :=
        filter_cons_of_pos (decide_eq_true hfo)
      have hf := congrArg (List.filter fun a => 4 ≤ a.2.length) hheader
      rw [filter_filter, hk] at hf
      rw [← hf]
      refine filter_congr fun a _ => ?_
      rw [Bool.and_comm, Bool.decide_and]
    rw [hpayload] at hp
    rw [hl] at hpa
    refine ⟨packet, ?_, ?_, hp⟩
    · rw [parseNetfilterMessage_build queueNum hattrs hlen, ha, ok_bind]
    · exact hpa.trans (headerId_be32Bytes hid more)
  · intro buf
    obtain ⟨msg, hm, -⟩ := (parseNetfilterMessage_runs buf).2 not_false
    exact ⟨msg, hm⟩

theorem packet_read_back_sample : (∃ packet, parseNetfilterMessage (buildNetlinkMsg NFQNL_MSG_PACKET
        (pushAll [(NFQA_IFINDEX_INDEV, [3, 0, 0, 0]), (NFQA_PAYLOAD, [1, 2, 3]),
          (NFQA_PACKET_HDR, be32Bytes 7 ++ [8, 0, 1])]) 200) = .ok (.packet packet) ∧
      packet.packetId = 7 ∧ packet.payload = some [1, 2, 3]) ∧
    ∀ buf, ∃ msg, parseNetfilterMessage buf = .ok msg :=
  packet_read_back (by decide) (by decide +kernel) (by decide)
    (rfl : _ = [(NFQA_PACKET_HDR, be32Bytes 7 ++ [8, 0, 1])]) (by decide)

end BalanSir.B4
