/-
# What is read off a ClientHello

`extract_tls_sni` on whole, cut and malformed messages.
-/

import BalanSir.B4.Tls
import BalanSir.Lib.Items

namespace BalanSir.B4

open Lib ItemFormat List Option

def SERVER_NAME : Bytes := [0, 0]

def HOST_NAME : Bytes := [0]

def firstHost (list : Bytes) : Option Bytes :=
  (((tlv 1).items list).find? (·.tag = HOST_NAME)).map Tagged.data

def firstServerName (exts : Bytes) : Option Bytes :=
  (((tlv 2).items exts).find? (·.tag = SERVER_NAME)).map Tagged.data

def declaredList (data : Bytes) : Bytes := between data 2 (2 + wordAt data 0)

def extensionsAt (body : Bytes) : ℕ :=
  let suites := 2 + 32 + 1 + (body.getD (2 + 32) 0).toNat
  let methods := suites + 2 + wordAt body suites
  methods + 1 + (body.getD methods 0).toNat

def extensionBlock (body : Bytes) : Option Bytes :=
  let off := extensionsAt body
  if off + 2 + wordAt body off ≤ body.length then
    some (between body (off + 2) (off + 2 + wordAt body off))
  else none

def serverName (data : Bytes) : Option Text :=
  if 2 + wordAt data 0 ≤ data.length then (firstHost (data.drop 2)).bind decodeUtf8 else none

def helloBody (payload : Bytes) : Bytes := between payload 9 (9 + hsLen payload)

instance (payload : Bytes) : Decidable (HelloAt payload) :=
  decidable_of_iff' _ (helloAt_iff payload)

def serverNameData (payload : Bytes) : Option Bytes :=
  if HelloAt payload then (extensionBlock (helloBody payload)).bind firstServerName else none

theorem sniRound_turn {list : Bytes} {off : ℕ} (hof : off ≤ list.length) :
    sniRound list off = .ok ((tlv 1).turn
      (fun _ s e => if e.tag = HOST_NAME then .inr (decodeUtf8 e.data) else .inl s)
      (fun _ _ => none) (fun i (_ : Unit) => i) list off ()) := by
  unfold sniRound
  by_cases hm : off + 3 ≤ list.length
  · rw [if_pos hm, byteAt_of_lt (by omega), ok_bind, u16At_of_lt (by omega), ok_bind]
    by_cases hl : list.length < off + 3 + wordAt list (off + 1)
    · rw [if_pos hl, turn_tlv_of_lt (by omega)]
    have ht : between list off (off + 1) = [list.getD off 0] := by
      rw [between_eq_cons (by omega) (by omega), between_self]
    rw [if_neg hl, turn_tlv_of_le (by omega), ht]
    by_cases hh : list.getD off 0 = 0
    · rw [if_pos hh, slice_of_le (by omega) (by omega), ok_bind, hh,
        if_pos (show ([0] : Bytes) = HOST_NAME from rfl)]
    · have ho : ([list.getD off 0] : Bytes) ≠ HOST_NAME :=
        fun heq => hh (List.cons.inj heq).1
      rw [if_neg hh, if_neg ho]
  · rw [if_neg hm, turn_tlv_of_lt (by omega)]

theorem parseSniList_eq (data : Bytes) : parseSniList data = .ok (serverName data) := by
  unfold parseSniList
  by_cases hs : data.length < 2
  · rw [if_pos hs, serverName, if_neg (by omega)]
  rw [if_neg hs, u16At_of_lt (by omega), ok_bind, slice_to_end (by omega), ok_bind]
  by_cases hf : 2 + wordAt data 0 ≤ data.length
  · have hsc := rounds_of_turn (s := ())
      (fun i _ (hi : i ≤ (data.drop 2).length) => sniRound_turn hi) (Nat.zero_le _)
      (Nat.lt_succ_self ((data.drop 2).length))
    rw [if_neg (by rw [length_drop]; omega), hsc, drop_zero, scan_find, serverName, if_pos hf,
      firstHost]
    cases ((tlv 1).items (data.drop 2)).find? (·.tag = HOST_NAME) with
    | none => rfl
    | some e => rfl
  · rw [if_pos (by rw [length_drop]; omega), serverName, if_neg hf]

theorem be16_eq_zero {hi lo : UInt8} : be16 hi lo = 0 ↔ [hi, lo] = SERVER_NAME := by
  constructor
  · intro h
    rw [be16] at h
    have hhi : hi = 0 := UInt8.toNat_inj.1 (by rw [UInt8.toNat_zero]; omega)
    have hlo : lo = 0 := UInt8.toNat_inj.1 (by rw [UInt8.toNat_zero]; omega)
    rw [hhi, hlo, SERVER_NAME]
  · intro h
    cases h
    rfl

theorem extensionRound_turn {exts : Bytes} {e : ℕ} (he : e ≤ exts.length) :
    extensionRound exts e = .ok ((tlv 2).turn
      (fun _ s e => if e.tag = SERVER_NAME then .inr (serverName e.data) else .inl s)
      (fun _ _ => none) (fun i (_ : Unit) => i) exts e ()) := by
  unfold extensionRound
  by_cases hm : e + 4 ≤ exts.length
  · rw [if_pos hm, u16At_of_lt (by omega), ok_bind, u16At_of_lt (by omega), ok_bind]
    by_cases hl : exts.length < e + 4 + wordAt exts (e + 2)
    · rw [if_pos hl, turn_tlv_of_lt (by omega)]
    have ht : between exts e (e + 2) = [exts.getD e 0, exts.getD (e + 1) 0] := by
      rw [between_eq_cons (by omega) (by omega), between_eq_cons (by omega) (by omega),
        between_self]
    rw [if_neg hl, turn_tlv_of_le (by omega), ht]
    by_cases hn : wordAt exts e = 0
    · rw [if_pos hn, slice_of_le (by omega) (by omega), ok_bind, parseSniList_eq, ok_bind,
        if_pos (be16_eq_zero.1 hn)]
    · rw [if_neg hn, if_neg fun hk => hn (be16_eq_zero.2 hk)]
  · rw [if_neg hm, turn_tlv_of_lt (by omega)]

theorem extensionRounds_eq (exts : Bytes) : rounds (extensionRound exts) (exts.length + 1) 0 =
      .ok ((firstServerName exts).bind serverName) := by
  have hs := rounds_of_turn (s := ())
    (fun i _ (hi : i ≤ exts.length) => extensionRound_turn hi) (Nat.zero_le _)
    (Nat.lt_succ_self exts.length)
  rw [hs, drop_zero, scan_find, firstServerName]
  cases ((tlv 2).items exts).find? (·.tag = SERVER_NAME) with
  | none => rfl
  | some e => rfl

theorem clientHelloSni_eq (body : Bytes) : clientHelloSni body =
      .ok ((extensionBlock body).bind fun exts => (firstServerName exts).bind serverName) := by
  unfold clientHelloSni extensionBlock extensionsAt
  dsimp only
  by_cases hb : body.length < 2 + 32 + 1
  · rw [if_pos hb, if_neg (by omega)]
    rfl
  rw [if_neg hb, byteAt_of_lt (by omega), ok_bind]
  generalize 2 + 32 + 1 + (body.getD (2 + 32) 0).toNat = suites
  by_cases hs : body.length < suites + 2
  · rw [if_pos hs, if_neg (by omega)]
    rfl
  rw [if_neg hs, u16At_of_lt (by omega), ok_bind]
  generalize suites + 2 + wordAt body suites = methods
  by_cases hm : body.length < methods + 1
  · rw [if_pos hm, if_neg (by omega)]
    rfl
  rw [if_neg hm, byteAt_of_lt (by omega), ok_bind]
  generalize methods + 1 + (body.getD methods 0).toNat = off
  by_cases ho : body.length < off + 2
  · rw [if_pos ho, if_neg (by omega)]
    rfl
  rw [if_neg ho, u16At_of_lt (by omega), ok_bind]
  by_cases he : body.length < off + 2 + wordAt body off
  · rw [if_pos he, if_neg (by omega)]
    rfl
  rw [if_neg he, slice_of_le (by omega) (by omega), if_pos (by omega)]
  exact extensionRounds_eq _

/-- **What `extract_tls_sni` reads.** -/
theorem extractTlsSni_eq (payload : Bytes) :
    extractTlsSni payload = .ok ((serverNameData payload).bind serverName) := by
  by_cases h : HelloAt payload
  · rw [extractTlsSni_of_helloAt h, serverNameData, if_pos h, clientHelloSni_eq, helloBody,
      bind_assoc]
  · rw [extractTlsSni_of_not_helloAt h, serverNameData, if_neg h]
    rfl

/-- **`extract_tls_sni` never reads out of range.** -/
theorem extractTlsSni_runs (payload : Bytes) : Runs (extractTlsSni payload) False fun o =>
      o ≠ none → payload ≠ [] ∧ payload.getD 0 0 = 0x16 := by
  by_cases h : HelloAt payload
  · rw [extractTlsSni_eq]
    refine runs_ok fun _ => ⟨?_, h.kind⟩
    rintro rfl
    exact absurd h.kind (by decide)
  · rw [extractTlsSni_of_not_helloAt h]
    exact runs_ok fun hne => absurd rfl hne

theorem extensionBlock_of_parts {version random sid suites methods block body : Bytes}
    (hv : version.length = 2) (hr : random.length = 32) (hsi : sid.length < 256)
    (hs : suites.length < 65536) (hm : methods.length < 256) (hb : block.length < 65536)
    (hbo : body = version ++ random ++ (UInt8.ofNat sid.length :: (sid ++
      (be16Bytes suites.length ++ (suites ++ (UInt8.ofNat methods.length :: (methods ++
        (be16Bytes block.length ++ block)))))))) : extensionBlock body = some block := by
  have hsi' : (UInt8.ofNat sid.length).toNat = sid.length := by
    rw [UInt8.toNat_ofNat', Nat.mod_eq_of_lt hsi]
  have hm' : (UInt8.ofNat methods.length).toNat = methods.length := by
    rw [UInt8.toNat_ofNat', Nat.mod_eq_of_lt hm]
  -- the places in the body, one field after the other
  have h₀ : FromOn body 0 _ := ⟨Nat.zero_le _, hbo⟩
  have h₁ := h₀.skip_to (j := 2 + 32) (by rw [length_append]; omega)
  have h₂ := h₁.tail.skip
  have h₃ := (h₂.skip_to (j := 2 + 32 + 1 + sid.length + 2) rfl).skip
  have h₄ := h₃.tail.skip
  have h₅ := h₄.skip_to (j := 2 + 32 + 1 + sid.length + 2 + suites.length + 1 +
    methods.length + 2) rfl
  have ho : extensionsAt body = 2 + 32 + 1 + sid.length + 2 + suites.length + 1 +
      methods.length := by
    unfold extensionsAt
    dsimp only
    rw [h₁.getD, hsi', h₂.wordAt hs, h₃.getD, hm']
  have ht := h₅.length
  unfold extensionBlock
  dsimp only
  rw [ho, h₄.wordAt hb, if_pos (by omega), ht, between_to_end, h₅.2]

variable {before : List Tagged}

theorem firstServerName_of_parts {data : Bytes}
    (hb : ∀ ext ∈ before, (tlv 2).Valid ext ∧ ext.tag ≠ SERVER_NAME)
    (hd : data.length < 65536) (after : Bytes) : firstServerName (before.flatMap (tlv 2).encode ++
      ((tlv 2).encode ⟨SERVER_NAME, data⟩ ++ after)) = some data := by
  have hv : (tlv 2).Valid ⟨SERVER_NAME, data⟩ := ⟨rfl, hd⟩
  rw [firstServerName, find_items_append (fun ext he => (hb ext he).1)
    (fun ext he => decide_eq_false (hb ext he).2) hv (decide_eq_true rfl)]
  rfl

theorem firstHost_of_parts {name : Bytes}
    (hb : ∀ other ∈ before, (tlv 1).Valid other ∧ other.tag ≠ HOST_NAME)
    (hn : name.length < 65536) (after : Bytes) :
    firstHost (before.flatMap (tlv 1).encode ++ ((tlv 1).encode ⟨HOST_NAME, name⟩ ++ after)) =
      some name := by
  have hv : (tlv 1).Valid ⟨HOST_NAME, name⟩ := ⟨rfl, hn⟩
  rw [firstHost, find_items_append (fun other ho => (hb other ho).1)
    (fun other ho => decide_eq_false (hb other ho).2) hv (decide_eq_true rfl)]
  rfl

theorem serverName_of_list {list : Bytes} (hl : list.length < 65536) :
    serverName (be16Bytes list.length ++ list) = (firstHost list).bind decodeUtf8 := by
  have hat := fromOn_zero (be16Bytes list.length ++ list)
  rw [serverName, hat.wordAt hl, if_pos (by rw [length_append, length_be16Bytes])]
  rfl

theorem serverNameData_of_parts {version body following payload : Bytes} {n : ℕ}
    (hv : version.length = 2) (hb : 4 + body.length ≤ n) (hn : n < 65536)
    (hp : payload = 0x16 :: (version ++ (be16Bytes n ++
      (0x01 :: UInt8.ofNat (body.length / 65536) ::
        (be16Bytes body.length ++ (body ++ following)))))) :
    serverNameData payload = (extensionBlock body).bind firstServerName := by
  have h₀ : FromOn payload 0 _ := ⟨Nat.zero_le _, hp⟩
  have h₃ := h₀.tail.skip_to (j := 3) (by omega)
  have h₅ := h₃.skip_to rfl
  have h₆ : FromOn payload 6 _ := h₅.tail
  have h₇ : FromOn payload 7 _ := h₆.tail
  have h₉ := h₇.skip_to (j := 9) rfl
  have ht := h₉.length
  rw [length_append] at ht
  have hhi : (UInt8.ofNat (body.length / 65536)).toNat = 0 := by
    rw [Nat.div_eq_of_lt (by omega)]
    rfl
  have hhs : hsLen payload = body.length := by
    have hw : wordAt payload 7 = body.length := h₇.wordAt (by omega)
    rw [hsLen, h₆.getD, hhi, Nat.zero_add]
    exact hw
  have hr : recLen payload = n := h₃.wordAt hn
  have hh : HelloAt payload := ⟨h₀.getD, h₅.getD, by omega, by omega⟩
  have hs := h₉.slice
  rw [slice_of_le (by omega) (by omega)] at hs
  rw [serverNameData, if_pos hh, helloBody, hhs, Except.ok.inj hs]

def Extension.item (ext : Extension) : Tagged := ⟨be16Bytes ext.kind, ext.data⟩

def OtherName.item (name : OtherName) : Tagged := ⟨[name.nameType], name.data⟩

theorem flatMap_extension_bytes (exts : List Extension) :
    exts.flatMap Extension.bytes = (exts.map Extension.item).flatMap (tlv 2).encode := by
  rw [flatMap_map]
  rfl

theorem flatMap_name_bytes (names : List OtherName) :
    names.flatMap OtherName.bytes = (names.map OtherName.item).flatMap (tlv 1).encode := by
  rw [flatMap_map]
  rfl

theorem Extension.item_tag_ne (ext : Extension) : ext.item.tag ≠ SERVER_NAME := by
  intro h
  have hz := be16_eq_zero.2 h
  rw [be16_be16Bytes, Nat.mod_eq_of_lt ext.kind_lt] at hz
  exact ext.kind_pos hz

theorem OtherName.item_tag_ne (name : OtherName) : name.item.tag ≠ HOST_NAME :=
  fun h => name.not_host (List.cons.inj h).1

namespace ClientHello

theorem serverName_sniData (hello : ClientHello) (hl : hello.names.length < 65536) :
    B4.serverName hello.sniData = some hello.serverName := by
  have hn : hello.names = (hello.otherNames.map OtherName.item).flatMap (tlv 1).encode ++
      ((tlv 1).encode ⟨HOST_NAME, encode hello.serverName⟩ ++ hello.moreNames) := by
    rw [← flatMap_name_bytes]
    rfl
  have hl' := hl
  rw [hn, tlv_encode] at hl'
  simp only [length_append] at hl'
  rw [sniData, serverName_of_list hl, hn, firstHost_of_parts ?_ (by omega),
    bind_some, decodeUtf8_encode]
  intro other ho
  refine ⟨tlv_valid_of_mem ?_ (by omega) ho, ?_⟩
  · simp [OtherName.item]
  · obtain ⟨name, -, rfl⟩ := List.mem_map.1 ho
    exact name.item_tag_ne

theorem firstServerName_extensions (hello : ClientHello) (hl : hello.extensions.length < 65536) :
    firstServerName hello.extensions = some hello.sniData := by
  have he : hello.extensions = (hello.before.map Extension.item).flatMap (tlv 2).encode ++
      ((tlv 2).encode ⟨SERVER_NAME, hello.sniData⟩ ++ hello.after) := by
    rw [← flatMap_extension_bytes]
    rfl
  have hl' := hl
  rw [he, tlv_encode] at hl'
  simp only [length_append] at hl'
  rw [he, firstServerName_of_parts ?_ (by omega)]
  intro ext hex
  refine ⟨tlv_valid_of_mem ?_ (by omega) hex, ?_⟩
  · simp [Extension.item]
  · obtain ⟨ext, -, rfl⟩ := List.mem_map.1 hex
    exact ext.item_tag_ne

/-- **A ClientHello is read:** the server name, off its record. -/
theorem extract (hello : ClientHello) (hl : hello.bytes.length ≤ 65540) :
    extractTlsSni hello.bytes = .ok (some hello.serverName) := by
  have hby : hello.bytes.length = 9 + hello.body.length := by
    simp only [bytes, length_cons, length_append, length_be16Bytes]
    omega
  have hbo : hello.body.length = 2 + 32 + 1 + hello.sessionId.length + 2 +
      hello.cipherSuites.length + 1 + hello.compressionMethods.length + 2 +
        hello.extensions.length := by
    rw [body]
    simp only [length_append, length_cons, length_be16Bytes, hello.length_version,
      hello.length_random]
    omega
  have hn : hello.names.length ≤ hello.extensions.length := by
    rw [extensions, sniData]
    simp only [length_append]
    omega
  have hp : hello.bytes = 0x16 :: ([hello.recordMajor, hello.recordMinor] ++
      (be16Bytes (4 + hello.body.length) ++ (0x01 :: UInt8.ofNat (hello.body.length / 65536) ::
        (be16Bytes hello.body.length ++ (hello.body ++ []))))) := by
    rw [append_nil]
    rfl
  have hf := serverNameData_of_parts rfl (Nat.le_refl _) (by omega) hp
  have hb := extensionBlock_of_parts hello.length_version hello.length_random
    hello.length_sessionId (by omega) hello.length_compressionMethods (by omega)
    (rfl : hello.body = _)
  rw [extractTlsSni_eq, hf, hb, bind_some,
    hello.firstServerName_extensions (by omega), bind_some,
    hello.serverName_sniData (by omega)]

end ClientHello

variable {host : Text} {payload : Bytes}

/-- **A name that is read stays.** All that is read lies inside the handshake message that
arrived. -/
theorem sni_stays {p : Bytes} (h : extractTlsSni p = .ok (some host)) (q : Bytes) :
    extractTlsSni (p ++ q) = .ok (some host) := by
  have hh := helloAt_of_sni h
  rw [hh.extractTlsSni_append, h]

structure HelloMessage where
  recordVersion : Bytes
  legacyVersion : Bytes
  random : Bytes
  sessionId : Bytes
  cipherSuites : Bytes
  compressionMethods : Bytes
  extensions : List Tagged
  /-- What else the record holds. -/
  following : Bytes

namespace HelloMessage

def block (hello : HelloMessage) : Bytes := hello.extensions.flatMap (tlv 2).encode

def body (hello : HelloMessage) : Bytes :=
  hello.legacyVersion ++ hello.random ++
    (UInt8.ofNat hello.sessionId.length :: (hello.sessionId ++
    (be16Bytes hello.cipherSuites.length ++ (hello.cipherSuites ++
    (UInt8.ofNat hello.compressionMethods.length :: (hello.compressionMethods ++
    (be16Bytes hello.block.length ++ hello.block)))))))

def bytes (hello : HelloMessage) : Bytes :=
  0x16 :: (hello.recordVersion ++ (be16Bytes (4 + hello.body.length + hello.following.length) ++
    (0x01 :: UInt8.ofNat (hello.body.length / 65536) ::
      (be16Bytes hello.body.length ++ (hello.body ++ hello.following)))))

/-- Every length fits its field, and no kind of extension occurs twice. -/
structure WellFormed (hello : HelloMessage) : Prop where
  recordVersion : hello.recordVersion.length = 2
  legacyVersion : hello.legacyVersion.length = 2
  random : hello.random.length = 32
  sessionId : hello.sessionId.length < 256
  compressionMethods : hello.compressionMethods.length < 256
  kinds : ∀ ext ∈ hello.extensions, ext.tag.length = 2
  nodup : (hello.extensions.map Tagged.tag).Nodup
  record : 4 + hello.body.length + hello.following.length < 65536

def sniData (names : List Tagged) : Bytes :=
  be16Bytes (names.flatMap (tlv 1).encode).length ++ names.flatMap (tlv 1).encode

theorem serverName_sniData {names : List Tagged} {host : Text}
    (hl : (names.flatMap (tlv 1).encode).length < 65536)
    (ht : ∀ name ∈ names, name.tag.length = 1) (hn : (names.map Tagged.tag).Nodup)
    (hh : ⟨HOST_NAME, encode host⟩ ∈ names) : serverName (sniData names) = some host := by
  have hv {name : Tagged} (hna : name ∈ names) := tlv_valid_of_mem ht hl hna
  rw [sniData, serverName_of_list hl]
  obtain ⟨before, after, rfl⟩ := append_of_mem hh
  rw [flatMap_append, flatMap_cons, firstHost_of_parts, bind_some, decodeUtf8_encode]
  · intro other ho
    exact ⟨hv (mem_append_left _ ho), tag_ne_of_nodup hn ho⟩
  · exact (hv hh).2

variable {hello : HelloMessage}

theorem firstServerName_block (h : hello.WellFormed) {data : Bytes}
    (hl : hello.block.length < 65536) (hs : ⟨SERVER_NAME, data⟩ ∈ hello.extensions) :
    firstServerName hello.block = some data := by
  have hv {ext : Tagged} (he : ext ∈ hello.extensions) :=
    tlv_valid_of_mem h.kinds hl he
  have hn := h.nodup
  obtain ⟨before, after, heq⟩ := append_of_mem hs
  rw [heq] at hn
  rw [block, heq, flatMap_append, flatMap_cons, firstServerName_of_parts]
  · intro ext he
    refine ⟨hv ?_, tag_ne_of_nodup hn he⟩
    rw [heq]
    exact mem_append_left _ he
  · exact (hv hs).2

/-- **Every well-formed ClientHello is read**, whatever stands around its `server_name` extension.
-/
theorem host_read (h : hello.WellFormed) (names : List Tagged)
    (hsni : ⟨SERVER_NAME, sniData names⟩ ∈ hello.extensions)
    (htypes : ∀ name ∈ names, name.tag.length = 1) (hnodup : (names.map Tagged.tag).Nodup)
    {host : Text} (hhost : ⟨HOST_NAME, encode host⟩ ∈ names) :
    extractTlsSni hello.bytes = .ok (some host) := by
  have hr := h.record
  have hp : hello.body.length = 2 + 32 + 1 + hello.sessionId.length + 2 +
      hello.cipherSuites.length + 1 + hello.compressionMethods.length + 2 +
        hello.block.length := by
    rw [body]
    simp only [length_append, length_cons, length_be16Bytes, h.legacyVersion, h.random]
    omega
  have hb := extensionBlock_of_parts h.legacyVersion h.random h.sessionId (by omega)
    h.compressionMethods (by omega) (rfl : hello.body = _)
  have he := firstServerName_block h (by omega) hsni
  have hd : (sniData names).length < 65536 :=
    (tlv_valid_of_mem h.kinds (by rw [← block]; omega) hsni).2
  rw [sniData, length_append] at hd
  have hf := serverNameData_of_parts h.recordVersion (by omega) hr
    (rfl : hello.bytes = _)
  rw [extractTlsSni_eq, hf, hb, bind_some, he, bind_some,
    serverName_sniData (by omega) htypes hnodup hhost]

end HelloMessage

def sampleHello : HelloMessage where
  recordVersion := [3, 1]
  legacyVersion := [3, 3]
  random := List.replicate 32 7
  sessionId := [1, 2, 3]
  cipherSuites := [0x13, 0x01]
  compressionMethods := [0]
  extensions :=
    [⟨[0, 10], [0, 2, 0, 29]⟩,
      ⟨SERVER_NAME, HelloMessage.sniData [⟨[5], [9]⟩, ⟨HOST_NAME, encode "ab.c".toList⟩]⟩,
      ⟨[0, 23], []⟩]
  following := []

theorem sampleHello_wellFormed : sampleHello.WellFormed where
  recordVersion := rfl
  legacyVersion := rfl
  random := rfl
  sessionId := by decide
  compressionMethods := by decide
  kinds := by decide
  nodup := by decide
  record := by decide +kernel

theorem sampleHello_host_read : extractTlsSni sampleHello.bytes = .ok (some "ab.c".toList) :=
  HelloMessage.host_read sampleHello_wellFormed [⟨[5], [9]⟩, ⟨HOST_NAME, encode "ab.c".toList⟩]
    (mem_cons_of_mem _ mem_cons_self) (by decide) (by decide)
    (mem_cons_of_mem _ mem_cons_self)

theorem sampleHello_stays : extractTlsSni sampleHello.bytes = .ok (some "ab.c".toList) ∧
      extractTlsSni (sampleHello.bytes ++ [0x17, 3, 3]) = .ok (some "ab.c".toList) := by
  have h : extractTlsSni sampleHello.bytes = .ok (some "ab.c".toList) := by
    decide +kernel
  exact ⟨h, sni_stays h [0x17, 3, 3]⟩

theorem firstHost_append {list name : Bytes} (h : firstHost list = some name) (more : Bytes) :
    firstHost (list ++ more) = some name := by
  rw [firstHost, map_eq_some_iff] at h
  obtain ⟨e, he, hn⟩ := h
  rw [firstHost, items_prefix, find?_append, he]
  exact congrArg some hn

def NameInside (payload : Bytes) (host : Text) : Prop :=
  ∃ exts data, HelloAt payload ∧ extensionBlock (helloBody payload) = some exts ∧
    firstServerName exts = some data ∧ 2 + wordAt data 0 ≤ data.length ∧
    firstHost (declaredList data) = some (encode host)

def ListsHost (payload : Bytes) : Prop :=
  ∃ data ∈ serverNameData payload, firstHost (declaredList data) ≠ none
  deriving Decidable

theorem drop_eq_declaredList_append {data : Bytes} (h : 2 + wordAt data 0 ≤ data.length) :
    data.drop 2 = declaredList data ++ data.drop (2 + wordAt data 0) := by
  rw [declaredList, ← between_to_end, ← between_to_end, between_append (Nat.le_add_right ..) h]

theorem NameInside.listsHost (h : NameInside payload host) : ListsHost payload := by
  obtain ⟨exts, data, hh, hb, he, -, hho⟩ := h
  refine ⟨data, ?_, ?_⟩
  · rw [serverNameData, if_pos hh, hb]
    exact he
  · rw [hho]
    exact some_ne_none _

/-- **Which names lie inside.** The name lies inside all declared lengths exactly when the declared
list has a host name; otherwise it was read from behind the list. -/
theorem sni_inside_iff (h : extractTlsSni payload = .ok (some host)) :
    NameInside payload host ↔ ListsHost payload := by
  rw [extractTlsSni_eq] at h
  obtain ⟨data, hd, hn⟩ := Option.bind_eq_some_iff.1 (Except.ok.inj h)
  constructor
  · exact NameInside.listsHost
  · rintro ⟨data', hd', hho⟩
    obtain rfl : data = data' := Option.some.inj (hd.symm.trans hd')
    rw [serverNameData] at hd
    split_ifs at hd with hh
    obtain ⟨exts, hb, he⟩ := Option.bind_eq_some_iff.1 hd
    rw [serverName] at hn
    split_ifs at hn with hf
    obtain ⟨name, hl⟩ := Option.ne_none_iff_exists'.1 hho
    refine ⟨exts, data, hh, hb, he, hf, ?_⟩
    -- the walk over the whole data meets the same host name first
    rw [drop_eq_declaredList_append hf, firstHost_append hl] at hn
    rw [hl, encode_of_decodeUtf8 hn]

/-- The sample, whose list of names fills the extension, has its host name inside. -/
theorem sampleHello_inside :
    ListsHost sampleHello.bytes ∧ NameInside sampleHello.bytes "ab.c".toList := by
  have h : extractTlsSni sampleHello.bytes = .ok (some "ab.c".toList) := by
    decide +kernel
  have hl : ListsHost sampleHello.bytes := by decide +kernel
  exact ⟨hl, (sni_inside_iff h).2 hl⟩

def strayHello : HelloMessage :=
  { sampleHello with
    extensions :=
      [⟨SERVER_NAME, be16Bytes 0 ++ (tlv 1).encode ⟨HOST_NAME, encode "ab.c".toList⟩⟩] }

/-- The name behind the declared list is read. -/
theorem strayHello_outside : extractTlsSni strayHello.bytes = .ok (some "ab.c".toList) ∧
      ¬NameInside strayHello.bytes "ab.c".toList := by
  have h : extractTlsSni strayHello.bytes = .ok (some "ab.c".toList) := by
    decide +kernel
  refine ⟨h, fun hi => ?_⟩
  have hl : ¬ListsHost strayHello.bytes := by decide +kernel
  exact hl hi.listsHost

end BalanSir.B4
