/-
# Names in DNS messages

`parse_header`, `decode_name` and `query_name` of `dns_plane.rs`.
-/

import BalanSir.Lib.Utf8

namespace BalanSir.Dns

open Lib List

def maxNameLen : ℕ := 255

def maxPointerJumps : ℕ := 64

inductive DnsError where
  | tooShort
  | badLabel
  | nameTooLong
  | pointerLoop
  | pointerOutOfRange
  | notAResponse
  | tooManyRecords
  deriving DecidableEq

def hostChar (c : Char) : Bool := isAsciiAlphanumeric c || c == '-' || c == '.'

def normalizeDomain (name : Text) : Option Text :=
  let s := toAsciiLowercase (trimEndMatches '.' name)
  if s = [] ∨ byteLen s > maxNameLen then none
  else if ¬s.all hostChar then none
  else if (s.splitOn '.').any (· = []) then none
  else some s

structure Header where
  qr : Bool
  tc : Bool
  rcode : ℕ
  qdcount : ℕ
  ancount : ℕ
  deriving DecidableEq

def u16At (msg : List UInt8) (i : ℕ) : ℕ :=
  (msg.getD i 0).toNat * 256 + (msg.getD (i + 1) 0).toNat

def parseHeader (msg : List UInt8) : Option Header :=
  if msg.length < 12 then none
  else
    let flags := u16At msg 2
    some { qr := flags.testBit 15, tc := flags.testBit 9, rcode := flags % 16,
           qdcount := u16At msg 4, ancount := u16At msg 6 }

structure NameState where
  pos : ℕ
  out : Text := []
  after : Option ℕ := none
  jumps : ℕ := 0
  visited : List ℕ := []
  total : ℕ := 0
  deriving DecidableEq

def pushLabel (out : Text) (label : List UInt8) : Text :=
  (if out = [] then [] else out ++ ['.']) ++ decodeLossy label

def decodeRound (msg : List UInt8) (st : NameState) :
    Except DnsError (NameState ⊕ (Text × ℕ)) :=
  match msg[st.pos]? with
  | none => .error .tooShort
  | some len =>
    if len = 0 then .ok (.inr (st.out, st.after.getD (st.pos + 1)))
    else if len &&& 0xC0 = 0xC0 then
      match msg[st.pos + 1]? with
      | none => .error .tooShort
      | some low =>
        let target := (len &&& 0x3F).toNat * 256 + low.toNat
        if maxPointerJumps < st.jumps + 1 then .error .pointerLoop
        else if msg.length ≤ target ∨ target ∈ st.visited then .error .pointerOutOfRange
        else
          .ok (.inl { st with
            pos := target
            after := some (st.after.getD (st.pos + 2))
            jumps := st.jumps + 1
            visited := st.visited ++ [target] })
    else if len ≤ 63 then
      let stop := st.pos + 1 + len.toNat
      if msg.length < stop then .error .tooShort
      else if maxNameLen < st.total + 1 + len.toNat then .error .nameTooLong
      else
        .ok (.inl { st with
          pos := stop
          out := pushLabel st.out ((msg.drop (st.pos + 1)).take len.toNat)
          total := st.total + 1 + len.toNat })
    else .error .badLabel

/-- The loop of `decode_name`. It has no bound of its own: `decodeRound_next` says why the rounds
that `decodeName` gives it are enough, so that the first case is never reached from there. -/
def decodeLoop (msg : List UInt8) : ℕ → NameState → Except DnsError (Text × ℕ)
  | 0, _ => .error .pointerLoop
  | fuel + 1, st =>
    match decodeRound msg st with
    | .error e => .error e
    | .ok (.inr result) => .ok result
    | .ok (.inl st) => decodeLoop msg fuel st

def nameRounds : ℕ := maxNameLen + maxPointerJumps + 1

def decodeName (msg : List UInt8) (start : ℕ) : Except DnsError (Text × ℕ) := do
  let (out, after) ← decodeLoop msg nameRounds { pos := start }
  match normalizeDomain out with
  | none => throw .badLabel
  | some name => return (name, after)

def queryName (msg : List UInt8) : Option Text := do
  let hdr ← parseHeader msg
  if hdr.qr ∨ hdr.qdcount = 0 then none
  else
    let (name, pos) ← (decodeName msg 12).toOption
    if msg.length < pos + 4 then none else some name

/-- What the rounds use up: every label adds to the length, and every pointer is a jump. -/
def NameState.rounds (st : NameState) : ℕ :=
  (maxNameLen - st.total) + (maxPointerJumps - st.jumps)

variable {msg : List UInt8} {st : NameState}

theorem decodeRound_next {st' : NameState} (h : decodeRound msg st = .ok (.inl st')) :
    st'.rounds < st.rounds ∧ st'.pos ≤ msg.length := by
  unfold decodeRound at h
  unfold NameState.rounds
  split at h
  · cases h
  · next len _ =>
      by_cases hz : len = 0
      · rw [if_pos hz] at h
        cases h
      rw [if_neg hz] at h
      by_cases hp : len &&& 0xC0 = 0xC0
      · rw [if_pos hp] at h
        split at h
        · cases h
        · dsimp only at h
          split_ifs at h with _ hr
          cases h
          dsimp only
          omega
      · dsimp only at h
        split_ifs at h
        cases h
        dsimp only
        omega

/-- **The fuel does not run out:** one round more changes nothing. -/
theorem decodeLoop_succ (msg : List UInt8) (fuel : ℕ) (st : NameState) (h : st.rounds < fuel) :
    decodeLoop msg (fuel + 1) st = decodeLoop msg fuel st := by
  induction fuel generalizing st with
  | zero => omega
  | succ fuel ih =>
    rw [decodeLoop, decodeLoop]
    cases hr : decodeRound msg st with
    | error e => rfl
    | ok next =>
      cases next with
      | inr result => rfl
      | inl st' =>
        have hlt := (decodeRound_next hr).1
        exact ih st' (by omega)

def wire (labels : List (List UInt8)) : List UInt8 :=
  labels.flatMap fun label => UInt8.ofNat label.length :: label

/-- A header that counts a question, its name, type and class, and anything behind. -/
structure DnsQuery where
  header : List UInt8
  labels : List (List UInt8)
  question : List UInt8
  rest : List UInt8
  header_length : header.length = 12
  isQuery : (u16At header 2).testBit 15 = false
  qdcount_ne : u16At header 4 ≠ 0
  label_length : ∀ label ∈ labels, 1 ≤ label.length ∧ label.length ≤ 63
  name_length : (wire labels).length + 1 ≤ maxNameLen
  question_length : question.length = 4

def DnsQuery.bytes (q : DnsQuery) : List UInt8 :=
  q.header ++ (wire q.labels ++ 0 :: (q.question ++ q.rest))

theorem decodeRound_label {label tail : List UInt8}
    (hd : msg.drop st.pos = UInt8.ofNat label.length :: (label ++ tail))
    (hlen : 1 ≤ label.length ∧ label.length ≤ 63) (ht : st.total + 1 + label.length ≤ maxNameLen) :
    decodeRound msg st = .ok (.inl { st with
      pos := st.pos + 1 + label.length
      out := pushLabel st.out label
      total := st.total + 1 + label.length }) := by
  have hh : msg[st.pos]? = some (UInt8.ofNat label.length) := by
    rw [← head?_drop, hd, head?_cons]
  have hb : msg.drop (st.pos + 1) = label ++ tail := by
    rw [← tail_drop, hd, tail_cons]
  have hc : (UInt8.ofNat label.length).toNat = label.length :=
    UInt8.toNat_ofNat_of_lt' (hlen.2.trans_lt (by decide))
  have hm : st.pos + 1 + label.length ≤ msg.length := by
    have hl := congrArg List.length hd
    rw [length_drop, length_cons, length_append] at hl
    omega
  -- the length byte is neither the end nor a pointer
  have hz : UInt8.ofNat label.length ≠ 0 := by
    intro he
    have hn := congrArg UInt8.toNat he
    rw [UInt8.toNat_zero] at hn
    omega
  have hp : UInt8.ofNat label.length &&& 0xC0 ≠ 0xC0 := by
    intro he
    have ha := congrArg UInt8.toNat he
    rw [UInt8.toNat_and, hc] at ha
    have hle : label.length &&& (192 : UInt8).toNat ≤ label.length := Nat.and_le_left
    have : (192 : UInt8).toNat = 192 := rfl
    omega
  have hle : UInt8.ofNat label.length ≤ 63 := by
    rw [UInt8.le_iff_toNat_le, hc]
    exact hlen.2
  unfold decodeRound
  rw [hh]
  dsimp only
  rw [if_neg hz, if_neg hp, if_pos hle, hc, if_neg (by omega), if_neg (by omega), hb, take_left]

def pushLabels (out : Text) (labels : List (List UInt8)) : Text := labels.foldl pushLabel out

/-- The labels stand at a position, up to a zero or a pointer to the others, one of `targets`. -/
inductive Encoded (msg : List UInt8) : ℕ → List (List UInt8) → List ℕ → ℕ → Prop
  | zero {pos : ℕ} (hat : msg[pos]? = some 0) : Encoded msg pos [] [] (pos + 1)
  | label {pos after : ℕ} {label tail : List UInt8} {labels : List (List UInt8)} {targets : List ℕ}
      (hat : msg.drop pos = UInt8.ofNat label.length :: (label ++ tail))
      (hlen : 1 ≤ label.length ∧ label.length ≤ 63)
      (rest : Encoded msg (pos + 1 + label.length) labels targets after) :
      Encoded msg pos (label :: labels) targets after
  | pointer {pos target after : ℕ} {high low : UInt8} {labels : List (List UInt8)}
      {targets : List ℕ} (hat : msg[pos]? = some high) (hnext : msg[pos + 1]? = some low)
      (hhigh : high &&& 0xC0 = 0xC0) (htarget : target = (high &&& 0x3F).toNat * 256 + low.toNat)
      (hlt : target < msg.length) (rest : Encoded msg target labels targets after) :
      Encoded msg pos labels (target :: targets) (pos + 2)

variable {labels : List (List UInt8)} {targets : List ℕ}

theorem length_wire_cons (label : List UInt8) (labels : List (List UInt8)) :
    (wire (label :: labels)).length = 1 + label.length + (wire labels).length := by
  rw [wire, flatMap_cons, ← wire, length_append, length_cons]
  omega

theorem decodeLoop_encoded {pos after fuel : ℕ}
    (h : Encoded msg pos labels targets after) (hp : st.pos = pos)
    (ht : st.total + (wire labels).length ≤ maxNameLen)
    (hj : st.jumps + targets.length ≤ maxPointerJumps) (hn : (st.visited ++ targets).Nodup)
    (hf : labels.length + targets.length < fuel) :
    decodeLoop msg fuel st = .ok (pushLabels st.out labels, st.after.getD after) := by
  obtain ⟨fuel, rfl⟩ := Nat.exists_eq_succ_of_ne_zero (Nat.ne_zero_of_lt hf)
  induction h generalizing st fuel with
  | zero hat =>
    have hr : decodeRound msg st = .ok (.inr (st.out, st.after.getD (st.pos + 1))) := by
      unfold decodeRound
      rw [hp, hat]
      rfl
    rw [decodeLoop, hr, hp]
    rfl
  | @label _ _ label _ labels targets hat hl _ ih =>
    rw [length_wire_cons] at ht
    rw [length_cons] at hf
    obtain ⟨fuel, rfl⟩ : ∃ n, fuel = n + 1 := ⟨fuel - 1, by omega⟩
    rw [← hp] at hat
    rw [decodeLoop, decodeRound_label hat hl (by omega)]
    refine ih ?_ ?_ ?_ ?_ fuel ?_
    · exact congrArg (· + 1 + label.length) hp
    · dsimp only
      omega
    · exact hj
    · exact hn
    · omega
  | @pointer _ target after high _ _ targets hat hne hh hta hlt _ ih =>
    rw [length_cons] at hj hf
    obtain ⟨fuel, rfl⟩ : ∃ n, fuel = n + 1 := ⟨fuel - 1, by omega⟩
    have hz : high ≠ 0 := by
      rintro rfl
      exact absurd hh (by decide)
    have hfr : target ∉ st.visited := fun hm =>
      (List.nodup_append.1 hn).2.2 target hm target mem_cons_self rfl
    have hr : decodeRound msg st = .ok (.inl { st with
        pos := target
        after := some (st.after.getD (st.pos + 2))
        jumps := st.jumps + 1
        visited := st.visited ++ [target] }) := by
      unfold decodeRound
      rw [hp, hat, hne]
      dsimp only
      rw [if_neg hz, if_pos hh, ← hta, if_neg (by omega), if_neg (not_or.2 ⟨not_le.2 hlt, hfr⟩)]
    rw [decodeLoop, hr]
    rw [hp]
    refine ih ?_ ?_ ?_ ?_ fuel ?_
    · rfl
    · exact ht
    · dsimp only
      omega
    · rwa [append_assoc]
    · omega

theorem encoded_wire {pos : ℕ} {tail : List UInt8} (hd : msg.drop pos = wire labels ++ 0 :: tail)
    (hl : ∀ label ∈ labels, 1 ≤ label.length ∧ label.length ≤ 63) :
    Encoded msg pos labels [] (pos + (wire labels).length + 1) := by
  induction labels generalizing pos with
  | nil =>
    refine .zero ?_
    rw [← head?_drop, hd]
    rfl
  | cons label labels ih =>
    rw [forall_mem_cons] at hl
    have hw : wire (label :: labels) = UInt8.ofNat label.length :: (label ++ wire labels) := rfl
    rw [hw, cons_append, append_assoc] at hd
    have hn : msg.drop (pos + 1 + label.length) = wire labels ++ 0 :: tail := by
      rw [Nat.add_assoc, ← drop_drop, hd, Nat.add_comm 1, drop_succ_cons, drop_left]
    have ha : pos + (wire (label :: labels)).length + 1 =
        pos + 1 + label.length + (wire labels).length + 1 := by
      rw [length_wire_cons]
      omega
    rw [ha]
    exact .label hd hl.1 (ih hn hl.2)

def DnsQuery.text (q : DnsQuery) : Text := ['.'].intercalate (q.labels.map decodeLossy)

theorem pushLabels_eq {out : Text} (ho : out ≠ []) (labels : List (List UInt8)) :
    pushLabels out labels = ['.'].intercalate (out :: labels.map decodeLossy) := by
  induction labels generalizing out with
  | nil => simp [pushLabels]
  | cons label labels ih =>
    have hp : pushLabel out label = out ++ '.' :: decodeLossy label := by
      rw [pushLabel, if_neg ho, append_assoc, singleton_append]
    rw [pushLabels, foldl_cons, ← pushLabels, hp, ih (by simp), map_cons]
    cases labels.map decodeLossy with
    | nil => simp [List.intercalate]
    | cons text texts => simp [List.intercalate]

theorem pushLabels_nil (h : ∀ label ∈ labels, label ≠ []) :
    pushLabels [] labels = ['.'].intercalate (labels.map decodeLossy) := by
  cases labels with
  | nil => rfl
  | cons label labels =>
    have hp : pushLabel [] label = decodeLossy label := rfl
    rw [pushLabels, foldl_cons, ← pushLabels, hp,
      pushLabels_eq (decodeLossy_ne_nil (h label mem_cons_self)), map_cons]

theorem length_le_wire : labels.length ≤ (wire labels).length := by
  induction labels with
  | nil => exact Nat.le_refl 0
  | cons label labels ih =>
    rw [length_wire_cons, length_cons]
    omega

theorem decodeLoop_start {pos after : ℕ}
    (h : Encoded msg pos labels targets after) (hne : ∀ label ∈ labels, label ≠ [])
    (hna : (wire labels).length ≤ maxNameLen) (hj : targets.length ≤ maxPointerJumps)
    (hn : targets.Nodup) : decodeLoop msg nameRounds { pos } =
      .ok (['.'].intercalate (labels.map decodeLossy), after) := by
  have hc : labels.length ≤ (wire labels).length := length_le_wire
  rw [← pushLabels_nil hne]
  refine decodeLoop_encoded h ?_ ?_ ?_ ?_ ?_
  · rfl
  · rwa [Nat.zero_add]
  · rwa [Nat.zero_add]
  · exact hn
  · rw [nameRounds]
    omega

theorem u16At_append {header : List UInt8} {i : ℕ} (h : i + 1 < header.length)
    (rest : List UInt8) : u16At (header ++ rest) i = u16At header i := by
  unfold u16At
  rw [getD_eq_getElem?_getD, getD_eq_getElem?_getD, getElem?_append_left (by omega),
    getElem?_append_left h, ← getD_eq_getElem?_getD, ← getD_eq_getElem?_getD]

variable (q : DnsQuery)

theorem DnsQuery.parseHeader_bytes :
    ∃ hdr, parseHeader q.bytes = some hdr ∧ hdr.qr = false ∧ hdr.qdcount ≠ 0 := by
  have hl : ¬q.bytes.length < 12 := by
    rw [bytes, length_append, q.header_length]
    omega
  refine ⟨_, if_neg hl, ?_, ?_⟩
  · rw [bytes, u16At_append (by rw [q.header_length]; omega)]
    exact q.isQuery
  · dsimp only
    rw [bytes, u16At_append (by rw [q.header_length]; omega)]
    exact q.qdcount_ne

theorem DnsQuery.decodeName_bytes : (decodeName q.bytes 12).toOption =
      (normalizeDomain q.text).map fun name => (name, 12 + (wire q.labels).length + 1) := by
  have hd : q.bytes.drop 12 = wire q.labels ++ 0 :: (q.question ++ q.rest) := by
    rw [bytes, ← q.header_length, drop_left]
  have hlo : decodeLoop q.bytes nameRounds { pos := 12 } =
      .ok (q.text, 12 + (wire q.labels).length + 1) :=
    decodeLoop_start (encoded_wire hd q.label_length)
      (fun label hl => ne_nil_of_length_pos (q.label_length label hl).1)
      ((Nat.le_succ _).trans q.name_length) (Nat.zero_le _) nodup_nil
  unfold decodeName
  rw [hlo]
  show (match normalizeDomain q.text with
    | none => Except.error DnsError.badLabel
    | some name => Except.ok (name, 12 + (wire q.labels).length + 1)).toOption = _
  cases normalizeDomain q.text with
  | none => rfl
  | some name => rfl

/-- **What is read off a well-formed query** is its name, if that is a host name. -/
theorem DnsQuery.queryName_bytes : queryName q.bytes = normalizeDomain q.text := by
  obtain ⟨hdr, hp, hqr, hqd⟩ := q.parseHeader_bytes
  have hl : ¬q.bytes.length < 12 + (wire q.labels).length + 1 + 4 := by
    rw [bytes, length_append, length_append, length_cons, length_append,
      q.header_length, q.question_length]
    omega
  have hq : ¬(hdr.qr = true ∨ hdr.qdcount = 0) := by
    rw [hqr]
    exact fun h => h.elim Bool.false_ne_true hqd
  unfold queryName
  rw [hp, Option.bind_eq_bind, Option.bind_some, if_neg hq, q.decodeName_bytes]
  cases normalizeDomain q.text with
  | none => rfl
  | some name => exact if_neg hl

end BalanSir.Dns
