/-
# The interception loop

`interception_loop`: a queued packet is parsed, mutated by the set of its host, and answered.
-/

import BalanSir.B4.Geosite
import BalanSir.B4.NfQueue
import BalanSir.B4.Reassembly

namespace BalanSir.B4

open Lib TcpPacket Option

structure Engine where
  config : EngineConfig
  ports : List ℕ
  udpPorts : List ℕ
  store : GeositeStore

structure B4Stats where
  packetsSeen : ℕ
  tlsPackets : ℕ
  mutated : ℕ
  dropped : ℕ
  accepted : ℕ
  errors : ℕ
deriving DecidableEq

/-- The arguments of a call of `NfQueue::verdict`. -/
structure Verdict where
  packetId : ℕ
  verdict : ℕ
  payload : Option Bytes
deriving DecidableEq

/-- The state of the loop: what it keeps, and the verdicts it has sent. -/
structure Loop where
  reassembler : TcpReassembler
  stats : B4Stats
  sent : List Verdict

def Loop.new : Loop := ⟨.new, ⟨0, 0, 0, 0, 0, 0⟩, []⟩

/-- What a round finds: the message that the kernel sends, `none` on an error of the socket. -/
structure Arrival where
  now : ℕ
  received : Option Bytes
  sets : List B4Set
  sendOk : Bool

/-- What `recv_packet` has room for: 65536 bytes, and the rest of a longer message is lost. -/
def Arrival.read (a : Arrival) : Option Bytes := a.received.map (·.take 65536)

namespace Loop

def count (f : B4Stats → B4Stats) (s : Loop) : Loop := { s with stats := f s.stats }

def countPacket : Loop → Loop := count fun t => { t with packetsSeen := t.packetsSeen + 1 }

def countTls : Loop → Loop := count fun t => { t with tlsPackets := t.tlsPackets + 1 }

def countMutated : Loop → Loop := count fun t => { t with mutated := t.mutated + 1 }

def countDropped : Loop → Loop := count fun t => { t with dropped := t.dropped + 1 }

def countAccepted : Loop → Loop := count fun t => { t with accepted := t.accepted + 1 }

def countError : Loop → Loop := count fun t => { t with errors := t.errors + 1 }

def send (v : Verdict) (s : Loop) : Loop := { s with sent := s.sent ++ [v] }

def verdict (sendOk : Bool) (v : Verdict) (s : Loop) : Loop :=
  if sendOk then s.send v else (s.send v).countError

def accept (sendOk : Bool) (packetId : ℕ) (s : Loop) : Loop :=
  s.countAccepted.verdict sendOk ⟨packetId, NF_ACCEPT, none⟩

end Loop

def versionIs (payload : Bytes) (len : ℕ) (version : UInt8) : Checked Bool :=
  if len ≤ payload.length then do
    let first ← byteAt payload 0
    return first >>> 4 = version
  else return false

def protocolOf (payload : Bytes) : Checked UInt8 := do
  let v4 ← versionIs payload 9 4
  if v4 then byteAt payload 9
  else do
    let v6 ← versionIs payload 8 6
    if v6 then byteAt payload 7 else return 0

def handleUdpPacket (e : Engine) (a : Arrival) (packetId : ℕ) (payload : Bytes) (s : Loop) :
    Checked Loop := do
  match ← UdpPacket.parse payload with
  | none => return s.countAccepted.send ⟨packetId, NF_ACCEPT, none⟩
  | some udp => do
    let port ← udp.dstPort
    if port ∉ e.udpPorts then return s.countAccepted.send ⟨packetId, NF_ACCEPT, none⟩
    else do
      let interested := a.sets.any fun set =>
        set.enabled && set.udp.mode = "fake" && set.udp.dportFilter = ""
      let s := if interested then s.countMutated else s
      return s.countAccepted.send ⟨packetId, NF_ACCEPT, none⟩

def inspect (now : ℕ) (tcp : TcpPacket) (r : TcpReassembler) :
    Checked (Option Text × TcpReassembler) := do
  let payload ← tcp.tcpPayload
  let key ← FlowKey.forPacket tcp
  let seq ← tcp.tcpSeq
  let flags ← tcp.tcpFlags
  let (reassembled, r) ← r.feed now key seq payload (flags &&& 0x11 ≠ 0)
  match reassembled with
  | some host => return (some host, r)
  | none => do
    let host ← extractTlsSni payload
    return (host, r)

def applySetToTcp (set : B4Set) (a : Arrival) (packetId : ℕ) (tcp : TcpPacket) (s : Loop) :
    Checked (Option Loop) := do
  match ← fragmentFor set tcp with
  | some (frag1, _) =>
    return some (s.countMutated.verdict a.sendOk ⟨packetId, NF_ACCEPT, some frag1⟩)
  | none => do
    let flags ← tcp.tcpFlags
    let payload ← tcp.tcpPayload
    match ← applyTcp set tcp (flags &&& 0x02 ≠ 0) (0 < payload.length) with
    | .mutated bytes =>
      return some (s.countMutated.verdict a.sendOk ⟨packetId, NF_ACCEPT, some bytes⟩)
    | .drop => return some (s.countDropped.send ⟨packetId, NF_DROP, none⟩)
    | _ => return none

def profileOf (e : Engine) (tcp : TcpPacket) (host : Option Text) : Checked (Option Profile) :=
  match host.bind e.config.profileFor with
  | some profile => .ok (some profile)
  | none => do
    let flags ← tcp.tcpFlags
    if flags &&& 0x02 ≠ 0 then return e.config.catchAll else return none

def handleIntercepted (e : Engine) (a : Arrival) (packetId : ℕ) (tcp : TcpPacket) (s : Loop) :
    Checked Loop := do
  let (host, reassembler) ← inspect a.now tcp s.reassembler
  let s := { s with reassembler }
  let s := if host.isSome then s.countTls else s
  match host.bind fun h => a.sets.find? fun set => setMatchesHost e.store set h with
  | some set => do
    match ← applySetToTcp set a packetId tcp s with
    | some s => return s
    | none => return s.accept a.sendOk packetId
  | none => do
    match ← profileOf e tcp host with
    | none => return s.accept a.sendOk packetId
    | some profile => do
      match ← applyProfile profile.strategies tcp with
      | some bytes =>
        return s.countMutated.verdict a.sendOk ⟨packetId, NF_ACCEPT, some bytes⟩
      | none => return s.accept a.sendOk packetId

def handleTcpPacket (e : Engine) (a : Arrival) (packetId : ℕ) (payload : Bytes) (s : Loop) :
    Checked Loop := do
  match ← TcpPacket.parse payload with
  | none => return s.accept a.sendOk packetId
  | some tcp => do
    let port ← tcp.dstPort
    if port ∉ e.ports then return s.accept a.sendOk packetId
    else handleIntercepted e a packetId tcp s

def handlePacket (e : Engine) (a : Arrival) (packet : QueuedPacket) (s : Loop) : Checked Loop :=
  match packet.payload with
  | none => return s.accept a.sendOk packet.packetId
  | some payload => do
    let proto ← protocolOf payload
    if proto = 17 then handleUdpPacket e a packet.packetId payload s
    else handleTcpPacket e a packet.packetId payload s

def handle (e : Engine) (a : Arrival) (s : Loop) : Checked Loop :=
  match a.read with
  | none => return s.countError
  | some buf => do
    match ← parseNetfilterMessage buf with
    | .other => return s.countError
    | .packet packet => handlePacket e a packet s.countPacket

def interceptionLoop (e : Engine) (arrivals : List Arrival) (s : Loop) : Checked Loop :=
  arrivals.foldlM (fun s a => handle e a s) s

def Answers (s s' : Loop) (v : Verdict) : Prop :=
  s'.sent = s.sent ++ [v] ∧ s'.reassembler = s.reassembler

theorem answers_verdict (sendOk : Bool) (v : Verdict) (s : Loop) :
    Answers s (s.verdict sendOk v) v := by
  cases sendOk with
  | true => exact ⟨rfl, rfl⟩
  | false => exact ⟨rfl, rfl⟩

theorem answers_accept (sendOk : Bool) (packetId : ℕ) (s : Loop) :
    Answers s (s.accept sendOk packetId) ⟨packetId, NF_ACCEPT, none⟩ :=
  answers_verdict sendOk _ s.countAccepted

def carried (raw : Bytes) : Bytes :=
  match TcpPacket.parse raw with
  | .ok (some tcp) => tcp.payload
  | _ => []

def Verdict.carries (v : Verdict) (raw : Bytes) : Bytes :=
  if v.verdict = NF_ACCEPT then carried (v.payload.getD raw) else []

variable {tcp : TcpPacket}

theorem carried_eq {raw : Bytes} (h : TcpPacket.parse raw = .ok (some tcp)) :
    carried raw = tcp.payload := by
  rw [carried, h]

theorem carried_raw (h : tcp.Coherent) : carried tcp.raw = tcp.payload := by
  rw [carried_eq (parse_of_isTcp h.isTcp), TcpPacket.payload, TcpPacket.payload, h.tcpOffset,
    h.tcpHeaderLen]
  rfl

theorem versionIs_eq (payload : Bytes) {len : ℕ} (hl : 0 < len) (version : UInt8) :
    versionIs payload len version =
      .ok (decide (len ≤ payload.length ∧ payload.getD 0 0 >>> 4 = version)) := by
  unfold versionIs
  by_cases hle : len ≤ payload.length
  · rw [byteAt_of_lt (by omega)]
    simp [hle]
  · simp [hle]

theorem protocolOf_runs (payload : Bytes) :
    Runs (protocolOf payload) (payload.length = 9 ∧ payload.getD 0 0 >>> 4 = 4) fun proto =>
      IsTcp payload → proto = 6 := by
  unfold protocolOf
  rw [versionIs_eq payload (by omega), ok_bind]
  by_cases hv4 : 9 ≤ payload.length ∧ payload.getD 0 0 >>> 4 = 4
  · rw [if_pos (decide_eq_true hv4)]
    by_cases hl : payload.length = 9
    · rw [byteAt_of_le (by omega)]
      exact ⟨fun _ => rfl, fun hb => absurd ⟨hl, hv4.2⟩ hb⟩
    · rw [byteAt_of_lt (by omega)]
      exact (runs_ok fun ht => ht.proto).imp (by simp [hl]) fun _ _ hp => hp
  · have hb : ¬(payload.length = 9 ∧ payload.getD 0 0 >>> 4 = 4) := fun h =>
      hv4 ⟨by omega, h.2⟩
    have ht : ¬IsTcp payload := fun h => by
      have hf := h.fits
      have hi := h.ihl_ge
      exact hv4 ⟨by omega, h.version⟩
    rw [if_neg (by simpa using hv4), versionIs_eq payload (by omega), ok_bind]
    split_ifs with hv6
    · have hv6' := of_decide_eq_true hv6
      rw [byteAt_of_lt (by omega)]
      exact (runs_ok fun h => absurd h ht).imp (by simp only [hb]) fun _ _ hp => hp
    · exact (runs_ok fun h => absurd h ht).imp (by simp only [hb]) fun _ _ hp => hp

theorem handleUdpPacket_runs (e : Engine) (a : Arrival) (packetId : ℕ) (payload : Bytes)
    (s : Loop) : Runs (handleUdpPacket e a packetId payload s) False fun s' =>
      Answers s s' ⟨packetId, NF_ACCEPT, none⟩ := by
  refine (UdpPacket.parse_runs payload).then fun o ho => ?_
  cases o with
  | none => exact runs_ok ⟨rfl, rfl⟩
  | some udp =>
    have hp := ho udp rfl
    show Runs (udp.dstPort >>= _) False _
    rw [UdpPacket.dstPort, u16At_of_lt (by omega), ok_bind]
    dsimp only
    split_ifs
    · exact runs_ok ⟨rfl, rfl⟩
    · exact runs_ok ⟨rfl, rfl⟩
    · exact runs_ok ⟨rfl, rfl⟩

section Tcp

variable {tcp : TcpPacket}

theorem inspect_eq (h : tcp.Coherent) (now : ℕ) (r : TcpReassembler) : inspect now tcp r = (do
      let (reassembled, r) ←
        r.feed now (FlowKey.of tcp) tcp.seq tcp.payload (tcp.flags &&& 0x11 ≠ 0)
      match reassembled with
      | some host => return (some host, r)
      | none => do
        let host ← extractTlsSni tcp.payload
        return (host, r)) := by
  rw [inspect, tcpPayload_eq h, ok_bind, FlowKey.forPacket_eq h, ok_bind,
    tcpSeq_eq h, ok_bind, tcpFlags_eq h, ok_bind]

theorem inspect_runs (h : tcp.Coherent) (now : ℕ) (r : TcpReassembler) :
    Runs (inspect now tcp r) False fun x => tcp.payload = [] → x.1 = none := by
  rw [inspect_eq h]
  refine (TcpReassembler.feed_runs ..).then ?_
  rintro ⟨reassembled, r'⟩ hf
  cases reassembled with
  | some host => exact runs_ok hf
  | none =>
    refine (extractTlsSni_runs tcp.payload).then fun host hh => runs_ok fun he => ?_
    exact Classical.not_not.1 fun hs => (hh hs).1 he

def Conserves (set : B4Set) (tcp : TcpPacket) (v : Verdict) : Prop :=
  v.carries tcp.raw = tcp.payload ↔ ¬Fragments set tcp

theorem conserves_of_fragment {set : B4Set} {packetId : ℕ} {frag : Bytes} {first : TcpPacket}
    (hf : Fragments set tcp) {n : ℕ} (hn : n < tcp.payload.length)
    (hp : TcpPacket.parse frag = .ok (some first)) (hfi : first.payload = tcp.payload.take n) :
    Conserves set tcp ⟨packetId, NF_ACCEPT, some frag⟩ := by
  refine iff_of_false (fun ha => ?_) (not_not.2 hf)
  have hc : carried frag = tcp.payload := ha
  rw [carried_eq hp, hfi] at hc
  have hl := congrArg List.length hc
  rw [List.length_take] at hl
  omega

theorem applySetToTcp_runs (h : tcp.Coherent) (hs : tcp.raw.length < 65536)
    (hd : tcp.payload ≠ []) (set : B4Set) (a : Arrival) (packetId : ℕ) (s : Loop) :
    Runs (applySetToTcp set a packetId tcp s) False fun o =>
      (o = none → ¬Fragments set tcp) ∧ ∀ s', o = some s' → ∃ v, Answers s s' v ∧
        v.packetId = packetId ∧ Conserves set tcp v := by
  refine (fragmentFor_runs h hs set).then ?_
  rintro o ⟨hno, hso⟩
  cases o with
  | some frags =>
    obtain ⟨frag1, frag2⟩ := frags
    obtain ⟨n, hn, first, hp, hfi⟩ := hso frag1 frag2 rfl
    have hf : Fragments set tcp := Classical.not_not.1 fun hnot => nomatch hno.2 hnot
    refine runs_ok ⟨nofun, ?_⟩
    rintro _ ⟨⟩
    exact ⟨_, answers_verdict a.sendOk _ s.countMutated, rfl, conserves_of_fragment hf hn hp hfi⟩
  | none =>
    have hw := hno.1 rfl
    rw [tcpFlags_eq h, tcpPayload_eq h]
    have hse := (applyTcp_runs h hs set (tcp.flags &&& 0x02 ≠ 0) (0 < tcp.payload.length)).imp
      (iff_of_false (fun hb => hd hb.2.2.2.1) id) fun _ _ ho => ho
    refine hse.then ?_
    rintro o (rfl | ⟨bytes, rfl, hr⟩)
    · exact runs_ok ⟨fun _ => hw, nofun⟩
    · refine runs_ok ⟨nofun, ?_⟩
      rintro _ ⟨⟩
      refine ⟨_, answers_verdict a.sendOk _ s.countMutated, rfl, iff_of_true ?_ hw⟩
      obtain ⟨again, hp, hpa⟩ := hr.payload
      exact (carried_eq hp).trans hpa

def StripsDangling (e : Engine) (tcp : TcpPacket) : Prop :=
  tcp.flags &&& 0x02 ≠ 0 ∧ Dangling tcp ∧
    ∃ profile, e.config.catchAll = some profile ∧ .stripSack ∈ profile.strategies

theorem profileOf_eq (h : tcp.Coherent) (e : Engine) (host : Option Text) :
    profileOf e tcp host = .ok ((host.bind e.config.profileFor).or
      (if tcp.flags &&& 0x02 ≠ 0 then e.config.catchAll else none)) := by
  unfold profileOf
  cases host.bind e.config.profileFor with
  | some profile => rfl
  | none =>
    rw [tcpFlags_eq h, ok_bind]
    split_ifs <;> rfl

theorem profilePath_runs (h : tcp.Coherent) (hsi : tcp.raw.length < 65536) (a : Arrival)
    (packetId : ℕ) (s : Loop) (profile : Option Profile) : Runs (match profile with
      | none => return s.accept a.sendOk packetId
      | some profile => do
        match ← applyProfile profile.strategies tcp with
        | some bytes =>
          return s.countMutated.verdict a.sendOk ⟨packetId, NF_ACCEPT, some bytes⟩
        | none => return s.accept a.sendOk packetId)
      ((∃ p, profile = some p ∧ .stripSack ∈ p.strategies) ∧ Dangling tcp) fun s' =>
        ∃ v, Answers s s' v ∧ v.packetId = packetId := by
  cases profile with
  | none =>
    exact (runs_ok ⟨_, answers_accept a.sendOk packetId s, rfl⟩).imp (by simp) fun _ _ hs => hs
  | some profile =>
    refine ((applyProfile_runs h hsi profile.strategies).finish fun o _ _ => ?_).imp (by simp)
      fun _ _ hs => hs
    cases o with
    | none => exact runs_ok ⟨_, answers_accept a.sendOk packetId s, rfl⟩
    | some bytes => exact runs_ok ⟨_, answers_verdict a.sendOk _ s.countMutated, rfl⟩

def TcpRound (e : Engine) (a : Arrival) (packetId : ℕ) (tcp : TcpPacket) (s s' : Loop) : Prop :=
  ∃ host v, inspect a.now tcp s.reassembler = .ok (host, s'.reassembler) ∧
    s'.sent = s.sent ++ [v] ∧ v.packetId = packetId ∧
    ∀ h set, host = some h → a.sets.find? (fun set => setMatchesHost e.store set h) = some set →
      Conserves set tcp v

theorem handleIntercepted_runs (h : tcp.Coherent) (hsi : tcp.raw.length < 65536) (e : Engine)
    (a : Arrival) (packetId : ℕ) (s : Loop) :
    Runs (handleIntercepted e a packetId tcp s) (StripsDangling e tcp)
      (TcpRound e a packetId tcp s) := by
  obtain ⟨⟨host, r'⟩, hi, hh⟩ := (inspect_runs h a.now s.reassembler).2 id
  rw [handleIntercepted, hi, ok_bind]
  dsimp only
  -- what the round does from here on starts at a loop with the new reassembler
  have hro : ∀ s₁ : Loop, s₁.sent = s.sent → s₁.reassembler = r' → ∀ s' v,
      Answers s₁ s' v → v.packetId = packetId →
      (∀ h set, host = some h → a.sets.find? (fun set => setMatchesHost e.store set h) = some set →
        Conserves set tcp v) → TcpRound e a packetId tcp s s' := by
    rintro s₁ hse hr s' v ⟨hse', hr'⟩ hid hset
    exact ⟨host, v, by rw [hi, hr', hr], by rw [hse', hse], hid, hset⟩
  generalize hs₁ : (if host.isSome = true then Loop.countTls { s with reassembler := r' } else
    { s with reassembler := r' }) = s₁
  have hse : s₁.sent = s.sent := by
    rw [← hs₁]
    split_ifs <;> rfl
  have hr : s₁.reassembler = r' := by
    rw [← hs₁]
    split_ifs <;> rfl
  have hro := hro s₁ hse hr
  cases hset : host.bind fun h => a.sets.find? fun set => setMatchesHost e.store set h with
  | some set =>
    obtain ⟨name, rfl, hf⟩ := Option.bind_eq_some_iff.1 hset
    have hdat : tcp.payload ≠ [] := fun he => nomatch hh he
    refine ((applySetToTcp_runs h hsi hdat set a packetId s₁).then ?_).imp
      (iff_of_false id fun hb => hdat hb.2.1.1) fun _ _ hs => hs
    rintro o ⟨hn, hso⟩
    have hfi : ∀ v, Conserves set tcp v → ∀ h set', some name = some h →
        a.sets.find? (fun set => setMatchesHost e.store set h) = some set' →
        Conserves set' tcp v := by
      rintro v hv _ set' ⟨⟩ hf'
      rw [hf] at hf'
      cases hf'
      exact hv
    cases o with
    | some s' =>
      obtain ⟨v, ha, hid, hv⟩ := hso s' rfl
      exact runs_ok (hro s' v ha hid (hfi v hv))
    | none =>
      refine runs_ok (hro _ _ (answers_accept a.sendOk packetId s₁) rfl (hfi _ ?_))
      exact iff_of_true (carried_raw h) (hn rfl)
  | none =>
    rw [profileOf_eq h]
    refine (profilePath_runs h hsi a packetId s₁ _).imp ?_ ?_
    · cases host with
      | some name =>
        have hda : ¬Dangling tcp := fun hd => nomatch hh hd.1
        exact iff_of_false (fun hb => hda hb.2) fun hb => hda hb.2.1
      | none =>
        rw [StripsDangling]
        split_ifs with hsy
        · tauto
        · simp [hsy]
    · rintro s' - ⟨v, ha, hid⟩
      refine hro s' v ha hid ?_
      rintro name set rfl hf
      rw [bind_some, hf] at hset
      cases hset

end Tcp

def Intercepts (e : Engine) (payload : Bytes) (tcp : TcpPacket) : Prop :=
  TcpPacket.parse payload = .ok (some tcp) ∧ tcp.port ∈ e.ports

def Breaks (e : Engine) (payload : Bytes) : Prop :=
  (payload.length = 9 ∧ payload.getD 0 0 >>> 4 = 4) ∨
    ∃ tcp, Intercepts e payload tcp ∧ StripsDangling e tcp

/-- One verdict, and the reassembler sees the packet if it is intercepted. -/
structure PayloadRound (e : Engine) (a : Arrival) (packetId : ℕ) (payload : Bytes) (s s' : Loop) :
    Prop where
  answered : ∃ v, s'.sent = s.sent ++ [v] ∧ v.packetId = packetId
  intercepted : ∀ tcp, Intercepts e payload tcp → TcpRound e a packetId tcp s s'
  untouched : (∀ tcp, ¬Intercepts e payload tcp) → s'.reassembler = s.reassembler

variable {e : Engine} {a : Arrival} {packetId : ℕ} {payload : Bytes} {s s' : Loop}
  {packet : QueuedPacket}

theorem PayloadRound.of_answers {v : Verdict} (h : Answers s s' v) (hid : v.packetId = packetId)
    (hp : ∀ tcp, ¬Intercepts e payload tcp) : PayloadRound e a packetId payload s s' :=
  ⟨⟨v, h.1, hid⟩, fun tcp ht => absurd ht (hp tcp), fun _ => h.2⟩

theorem PayloadRound.of_tcpRound (h : TcpRound e a packetId tcp s s')
    (ht : Intercepts e payload tcp) : PayloadRound e a packetId payload s s' := by
  obtain ⟨host, v, -, hs, hid, -⟩ := id h
  refine ⟨⟨v, hs, hid⟩, fun tcp' ht' => ?_, fun hn => absurd ht (hn tcp)⟩
  cases ht.1.symm.trans ht'.1
  exact h

theorem not_intercepts (h : ¬IsTcp payload) (tcp : TcpPacket) : ¬Intercepts e payload tcp :=
  fun ht => h (parse_eq_some.1 ht.1).1

theorem handleTcpPacket_runs (hsi : payload.length < 65536) (e : Engine) (a : Arrival)
    (packetId : ℕ) (s : Loop) : Runs (handleTcpPacket e a packetId payload s)
      (∃ tcp, Intercepts e payload tcp ∧ StripsDangling e tcp)
      (PayloadRound e a packetId payload s) := by
  have ha : (∀ tcp, ¬Intercepts e payload tcp) →
      Runs (.ok (s.accept a.sendOk packetId))
        (∃ tcp, Intercepts e payload tcp ∧ StripsDangling e tcp)
        (PayloadRound e a packetId payload s) := by
    intro hpa
    refine (runs_ok (.of_answers (answers_accept ..) rfl hpa)).imp ?_ fun _ _ hs => hs
    exact iff_of_false id fun ⟨tcp, htc, _⟩ => hpa tcp htc
  unfold handleTcpPacket
  by_cases htc : IsTcp payload
  · have hc := coherent_ofRaw htc
    have hp := parse_of_isTcp htc
    rw [hp, ok_bind]
    dsimp only
    rw [dstPort_eq hc, ok_bind]
    by_cases hpo : (TcpPacket.ofRaw payload).port ∈ e.ports
    · rw [if_neg (not_not.2 hpo)]
      have ht : Intercepts e payload (.ofRaw payload) := ⟨hp, hpo⟩
      refine (handleIntercepted_runs hc hsi e a packetId s).imp ?_ fun s' _ hs =>
        .of_tcpRound hs ht
      refine ⟨fun hb => ⟨_, ht, hb⟩, ?_⟩
      rintro ⟨tcp, ⟨hp', -⟩, hb⟩
      cases hp.symm.trans hp'
      exact hb
    · rw [if_pos hpo]
      refine ha ?_
      rintro tcp ⟨hp', hpo'⟩
      cases hp.symm.trans hp'
      exact hpo hpo'
  · rw [parse_of_not_isTcp htc]
    exact ha (not_intercepts htc)

/-- **A packet** is answered by one verdict, unless its payload breaks the thread. -/
theorem handlePacket_runs (hsm : packet.Small) (e : Engine) (a : Arrival) (s : Loop) :
    Runs (handlePacket e a packet s) (∃ payload, packet.payload = some payload ∧ Breaks e payload)
      fun s' => (∃ v, s'.sent = s.sent ++ [v] ∧ v.packetId = packet.packetId) ∧
        (packet.payload = none → s'.reassembler = s.reassembler) ∧
        ∀ payload, packet.payload = some payload →
          PayloadRound e a packet.packetId payload s s' := by
  unfold handlePacket
  cases hpa : packet.payload with
  | none =>
    have ha := answers_accept a.sendOk packet.packetId s
    exact (runs_ok ⟨⟨_, ha.1, rfl⟩, fun _ => ha.2, nofun⟩).imp (by simp)
      fun _ _ hs => hs
  | some payload =>
    have hsi := hsm payload hpa
    have hre : ∀ proto : UInt8, (IsTcp payload → proto = 6) →
        Runs (if proto = 17 then handleUdpPacket e a packet.packetId payload s
          else handleTcpPacket e a packet.packetId payload s)
          (∃ tcp, Intercepts e payload tcp ∧ StripsDangling e tcp)
          (PayloadRound e a packet.packetId payload s) := by
      intro proto hp
      split_ifs with hu
      · have hn : ¬IsTcp payload := fun ht => by
          rw [hp ht] at hu
          exact absurd hu (by decide)
        refine (handleUdpPacket_runs e a packet.packetId payload s).imp ?_ fun s' _ hs =>
          .of_answers hs rfl (not_intercepts hn)
        exact iff_of_false id fun ⟨tcp, ht, _⟩ => not_intercepts hn tcp ht
      · exact handleTcpPacket_runs (by omega) e a packet.packetId s
    refine ((protocolOf_runs payload).bind fun proto _ hp => hre proto hp).imp ?_ ?_
    · simp only [Option.some.injEq, exists_eq_left']
      unfold Breaks
      tauto
    · rintro s' - hr
      refine ⟨hr.answered, nofun, ?_⟩
      rintro _ ⟨⟩
      exact hr

def packetOf (buf : Option Bytes) : Option QueuedPacket :=
  match buf.map parseNetfilterMessage with
  | some (.ok (.packet packet)) => some packet
  | _ => none

/-- The packet that the loop reads. -/
def Arrival.packet? (a : Arrival) : Option QueuedPacket := packetOf a.read

def Arrival.Brings (a : Arrival) (e : Engine) (packet : QueuedPacket) (tcp : TcpPacket) : Prop :=
  a.packet? = some packet ∧ ∃ payload, packet.payload = some payload ∧ Intercepts e payload tcp

theorem Arrival.small (h : a.packet? = some packet) : packet.Small := by
  unfold Arrival.packet? packetOf at h
  split at h
  · case h_1 packet' hm =>
      cases h
      obtain ⟨buf, -, hp⟩ := Option.map_eq_some_iff.1 hm
      exact ((parseNetfilterMessage_runs buf).of_ok hp).2 packet rfl
  · cases h

theorem Arrival.Brings.coherent
    (h : a.Brings e packet tcp) : tcp.Coherent ∧ tcp.raw.length < 65536 := by
  obtain ⟨hpa, payload, hp, hpar, -⟩ := h
  obtain ⟨ht, rfl⟩ := parse_eq_some.1 hpar
  have hs := Arrival.small hpa payload hp
  exact ⟨coherent_ofRaw ht, Nat.lt_trans hs (by omega)⟩

/-- What a round does. -/
structure Round (e : Engine) (a : Arrival) (s s' : Loop) : Prop where
  answered : s'.sent.map (·.packetId) =
    s.sent.map (·.packetId) ++ (a.packet?.map (·.packetId)).toList
  intercepted : ∀ packet tcp, a.Brings e packet tcp → TcpRound e a packet.packetId tcp s s'
  untouched : (∀ packet tcp, ¬a.Brings e packet tcp) → s'.reassembler = s.reassembler

def Arrival.Breaks (a : Arrival) (e : Engine) : Prop :=
  ∃ packet payload, a.packet? = some packet ∧ packet.payload = some payload ∧ B4.Breaks e payload

theorem round_of_not_packet (h : a.packet? = none) : Round e a s s.countError := by
  refine ⟨?_, fun packet tcp hb => ?_, fun _ => rfl⟩
  · rw [h, map_none, toList_none, List.append_nil]
    rfl
  · rw [Arrival.Brings, h] at hb
    cases hb.1

/-- **One round of the loop**: a packet is answered once and with its own id, and the reassembler
sees the intercepted TCP packets. -/
theorem handle_runs (e : Engine) (a : Arrival) (s : Loop) :
    Runs (handle e a s) (a.Breaks e) (Round e a s) := by
  have hsk : a.packet? = none → Runs (.ok s.countError) (a.Breaks e) (Round e a s) := by
    intro hn
    refine (runs_ok (round_of_not_packet hn)).imp (iff_of_false id ?_) fun _ _ hs => hs
    rintro ⟨packet, payload, hpa, -⟩
    rw [hn] at hpa
    cases hpa
  unfold handle
  cases hr : a.read with
  | none => exact hsk (by rw [Arrival.packet?, hr]; rfl)
  | some buf =>
    obtain ⟨msg, hpar, hsm⟩ := (parseNetfilterMessage_runs buf).2 id
    dsimp only
    rw [hpar]
    cases msg with
    | other => exact hsk (by rw [Arrival.packet?, packetOf, hr, map_some, hpar])
    | packet packet =>
      have hpa : a.packet? = some packet := by
        rw [Arrival.packet?, packetOf, hr, map_some, hpar]
      refine (handlePacket_runs (hsm packet rfl) e a s.countPacket).imp ?_ ?_
      · rw [Arrival.Breaks, hpa]
        simp
      · rintro s' - ⟨⟨v, hse, hid⟩, hm, hpay⟩
        refine ⟨?_, ?_, ?_⟩
        · rw [hse, hpa, List.map_append, map_some, ← hid]
          rfl
        · rintro _ tcp ⟨hpa', payload, hp, ht⟩
          cases hpa.symm.trans hpa'
          exact (hpay payload hp).intercepted tcp ht
        · intro hn
          cases hp : packet.payload with
          | none => exact hm hp
          | some payload =>
            exact (hpay payload hp).untouched fun tcp ht =>
              hn packet tcp ⟨hpa, payload, hp, ht⟩

end BalanSir.B4
