/-
# Writing a URI and reading it back

A writer of URIs, which `parse` undoes.
-/

import BalanSir.Lib.Split
import BalanSir.Net.AddrText
import BalanSir.Vpn.UriText

namespace BalanSir.Vpn

open Lib List

def isReserved (c : Char) : Bool := c ∈ ":/?#[]@!$&'()*+,;=".toList

variable (b : UInt8)

def isUnreserved : Bool :=
  isAsciiAlphanumeric (asciiChar b) || asciiChar b ∈ "-._~".toList

def hexByte (n : UInt8) : UInt8 := if n < 10 then 0x30 + n else 0x37 + n

def percentEncodeByte : List UInt8 :=
  if isUnreserved b then [b] else [0x25, hexByte (b >>> 4), hexByte (b &&& 0xF)]

def percentEncode (s : Text) : Text := ((encode s).flatMap percentEncodeByte).map asciiChar

theorem forall_mem_percentEncodeByte :
    ∀ b, ∀ x ∈ percentEncodeByte b, x < 0x80 ∧ isReserved (asciiChar x) = false := by
  have ha : ∀ b, (percentEncodeByte b).all fun x => x < 0x80 && !isReserved (asciiChar x) :=
    forall_byte (by decide +kernel)
  intro b x hx
  simpa using all_eq_true.1 (ha b) x hx

theorem hexVal_hexByte :
    ∃ hi lo, hexVal (hexByte (b >>> 4)) = some hi ∧ hexVal (hexByte (b &&& 0xF)) = some lo ∧
      (hi <<< 4) ||| lo = b := by
  have ha : ∀ b : UInt8, hexVal (hexByte (b >>> 4)) = some (b >>> 4) ∧
      hexVal (hexByte (b &&& 0xF)) = some (b &&& 0xF) ∧ ((b >>> 4) <<< 4) ||| (b &&& 0xF) = b :=
    forall_byte (by decide +kernel)
  exact ⟨_, _, ha b⟩

theorem percentDecodeBytes_cons {b : UInt8} (h : b ≠ 0x25) (rest : List UInt8) :
    percentDecodeBytes (b :: rest) = b :: percentDecodeBytes rest := by
  rw [percentDecodeBytes.eq_def]
  dsimp only
  split
  · rw [if_neg h]
  · rfl
  · rfl

theorem percentDecodeBytes_percentEncodeByte (rest : List UInt8) :
    percentDecodeBytes (percentEncodeByte b ++ rest) = b :: percentDecodeBytes rest := by
  unfold percentEncodeByte
  split_ifs with hk
  · have hp : b ≠ 0x25 := by
      rintro rfl
      exact absurd hk (by decide)
    exact percentDecodeBytes_cons hp rest
  · obtain ⟨hi, lo, hhi, hlo, hb⟩ := hexVal_hexByte b
    rw [cons_append, cons_append, singleton_append, percentDecodeBytes.eq_def]
    dsimp only
    rw [if_pos rfl, hhi, hlo]
    dsimp only
    rw [hb]

variable {c : Char} {query : List (Text × Text)}

theorem notReserved_of_mem_percentEncode {s : Text} (h : c ∈ percentEncode s) :
    isReserved c = false := by
  obtain ⟨x, hx, rfl⟩ := List.mem_map.1 h
  obtain ⟨b, -, hb⟩ := List.mem_flatMap.1 hx
  exact (forall_mem_percentEncodeByte b x hb).2

theorem notMem_percentEncode (hc : isReserved c) (s : Text) : c ∉ percentEncode s := by
  intro hm
  rw [notReserved_of_mem_percentEncode hm] at hc
  cases hc

/-- **Percent-encoding is undone** by `percent_decode`. -/
theorem percentDecode_percentEncode (s : Text) : percentDecode (percentEncode s) = s := by
  have ha : ∀ x ∈ (encode s).flatMap percentEncodeByte, x < 0x80 := by
    intro x hx
    obtain ⟨b, -, hb⟩ := List.mem_flatMap.1 hx
    exact (forall_mem_percentEncodeByte b x hb).1
  have hby : ∀ bytes, percentDecodeBytes (bytes.flatMap percentEncodeByte) = bytes := by
    intro bytes
    induction bytes with
    | nil => rfl
    | cons b bytes ih => rw [flatMap_cons, percentDecodeBytes_percentEncodeByte, ih]
  rw [percentDecode, percentEncode, encode_ascii ha, hby, decodeLossy_encode]

def portText (port : Option UInt16) : Text := port.elim [] fun p => ':' :: Nat.toDigits 10 p.toNat

def queryText (query : List (Text × Text)) : Option Text :=
  if query = [] then none
  else some (['&'].intercalate (query.map fun pair => pair.1 ++ '=' :: percentEncode pair.2))

def ParsedUri.render (uri : ParsedUri) : Text :=
  uriText uri.scheme (percentEncode uri.userinfo ++ '@' :: (hostText uri.host ++ portText uri.port))
    (queryText uri.query) (uri.fragment.map percentEncode)

/-- A scheme, a host without delimiters or an IPv6 address, and plain keys. -/
structure ParsedUri.Writable (uri : ParsedUri) : Prop where
  scheme_ne_nil : uri.scheme ≠ []
  scheme_chars : uri.scheme.all isSchemeChar
  host_ne_nil : uri.host ≠ []
  host_chars : (∀ c ∈ uri.host, isReserved c = false) ∨
    ∃ a, Net.IpAddr.ofText (String.ofList uri.host) = some (.v6 a)
  key_chars : ∀ pair ∈ uri.query, ∀ c ∈ pair.1, isReserved c = false

theorem parsePort_toDigits (port : UInt16) :
    parsePort (Nat.toDigits 10 port.toNat) = some port := by
  rw [parsePort, parseUnsigned_toDigits port.toNat_lt, Option.map_some, UInt16.ofNat_toNat]

theorem hostPort_text {host : Text} (hne : host ≠ []) (ho : '[' ∉ host) (hc : ']' ∉ host)
    (port : Option UInt16) : HostPort (hostText host ++ portText port) host port := by
  cases port with
  | some p => exact hostPort_hostText hne ho hc (parsePort_toDigits p)
  | none =>
    rw [portText, Option.elim_none, append_nil]
    unfold hostText
    split_ifs with hco
    · exact .bracketed hc
    · exact .bare hne (not_startsWith_of_notMem ho) hco

theorem parseQuery_queryText (h : ∀ pair ∈ query, ∀ c ∈ pair.1, isReserved c = false) :
    (queryText query).elim [] parseQuery = query := by
  have hn : ∀ {c : Char}, isReserved c → ∀ pair ∈ query, c ∉ pair.1 := by
    intro c hc pair hp hm
    rw [h pair hp c hm] at hc
    cases hc
  unfold queryText
  split_ifs with hni
  · exact hni.symm
  · let texts := query.map fun pair => pair.1 ++ '=' :: percentEncode pair.2
    have hte : texts ≠ [] := mt List.map_eq_nil_iff.1 hni
    have ha : ∀ text ∈ texts, '&' ∉ text := by
      intro text ht
      obtain ⟨pair, hp, rfl⟩ := List.mem_map.1 ht
      simp only [mem_append, mem_cons, not_or]
      exact ⟨hn (by decide) pair hp, by decide, notMem_percentEncode (by decide) _⟩
    have hf : texts.filter (· ≠ []) = texts := by
      refine List.filter_eq_self.2 fun text ht => ?_
      obtain ⟨pair, -, rfl⟩ := List.mem_map.1 ht
      simp
    have hj : ['&'].intercalate texts ≠ [] := by
      intro he
      have hs := splitOn_intercalate '&' ha hte
      rw [he] at hs
      rw [← hs] at hf
      cases hf
    show parseQuery (['&'].intercalate texts) = query
    rw [parseQuery, if_neg hj, splitOn_intercalate '&' ha hte, hf, map_map]
    refine (map_congr_left fun pair hp => ?_).trans (map_id query)
    rw [Function.comp_apply, splitOnceAt_append (hn (by decide) pair hp)]
    dsimp only
    rw [percentDecode_percentEncode]
    rfl

theorem hash_notMem_queryText
    (h : ∀ pair ∈ query, ∀ c ∈ pair.1, isReserved c = false) : ∀ q ∈ queryText query, '#' ∉ q := by
  intro q hq
  unfold queryText at hq
  split_ifs at hq
  · cases hq
  · obtain rfl := Option.some.inj hq
    have ha : ∀ c ∈ ['&'].intercalate
        (query.map fun pair => pair.1 ++ '=' :: percentEncode pair.2), c ≠ '#' := by
      rw [forall_mem_intercalate (by decide)]
      intro text ht
      obtain ⟨pair, hp, rfl⟩ := List.mem_map.1 ht
      rintro c hc rfl
      rcases List.mem_append.1 hc with hk | hv
      · exact absurd (h pair hp _ hk) (by decide)
      · rcases List.mem_cons.1 hv with heq | hv
        · exact absurd heq (by decide)
        · exact notMem_percentEncode (by decide) _ hv
    exact fun hm => ha _ hm rfl

variable {uri : ParsedUri}

theorem ParsedUri.Writable.notMem_host (h : uri.Writable)
    (hc : isReserved c) (had : Net.isAddressChar c = false) : c ∉ uri.host := by
  intro hm
  rcases h.host_chars with hn | ⟨a, ha⟩
  · rw [hn c hm] at hc
    cases hc
  · have hs : (Net.IpAddr.ofText (String.ofList uri.host)).isSome := by
      rw [ha]
      rfl
    rw [(Net.text_of_ofText hs).2 c hm] at had
    cases had

theorem mem_of_mem_portText {port : Option UInt16} (h : c ∈ portText port) :
    c = ':' ∨ c.isDigit := by
  cases port with
  | none => exact absurd h not_mem_nil
  | some p =>
    exact (List.mem_cons.1 h).imp_right fun hm =>
      Nat.isDigit_of_mem_toDigits (by decide) (by decide) hm

theorem ParsedUri.Writable.notMem_authority (h : uri.Writable) (hc : c = '?' ∨ c = '#') :
    c ∉ percentEncode uri.userinfo ++ '@' :: (hostText uri.host ++ portText uri.port) := by
  have hr : isReserved c := by rcases hc with rfl | rfl <;> decide
  have ha : Net.isAddressChar c = false := by rcases hc with rfl | rfl <;> decide
  have ho : c ≠ '@' ∧ c ≠ '[' ∧ c ≠ ']' ∧ c ≠ ':' ∧ ¬c.isDigit := by
    rcases hc with rfl | rfl <;> decide
  simp only [mem_append, mem_cons, not_or]
  refine ⟨notMem_percentEncode hr _, ho.1, fun hh => ?_, fun hp => ?_⟩
  · rcases mem_of_mem_hostText hh with heq | hm | heq
    · exact ho.2.1 heq
    · exact h.notMem_host hr ha hm
    · exact ho.2.2.1 heq
  · rcases mem_of_mem_portText hp with heq | hd
    · exact ho.2.2.2.1 heq
    · exact ho.2.2.2.2 hd

/-- **Round trip:** components are parsed from what is written of them, the scheme in lower case. -/
theorem parse_render (h : uri.Writable) (hlen : byteLen uri.render ≤ 4096) :
    parse uri.render = some { uri with scheme := toAsciiLowercase uri.scheme } := by
  have hd : Delimited uri.scheme
      (percentEncode uri.userinfo ++ '@' :: (hostText uri.host ++ portText uri.port))
      (queryText uri.query) :=
    ⟨h.scheme_ne_nil, h.scheme_chars, h.notMem_authority (.inl rfl), h.notMem_authority (.inr rfl),
      hash_notMem_queryText h.key_chars⟩
  have hf : (uri.fragment.map percentEncode).map percentDecode = uri.fragment := by
    cases uri.fragment with
    | none => rfl
    | some f => exact congrArg some (percentDecode_percentEncode f)
  have hh : HostPort (hostText uri.host ++ portText uri.port) uri.host uri.port :=
    hostPort_text h.host_ne_nil (h.notMem_host (by decide) (by decide))
      (h.notMem_host (by decide) (by decide)) uri.port
  rw [ParsedUri.render, parse_uriText hd _ hlen, parseQuery_queryText h.key_chars,
    hf, parseAuthority_eq_some_iff,
    splitUserinfo_append (notMem_percentEncode (by decide) _), percentDecode_percentEncode]
  exact ⟨hh, h.host_ne_nil, rfl, rfl, rfl, rfl⟩

def sampleUri : ParsedUri where
  scheme := "VLESS".toList
  userinfo := "a@b".toList
  host := "::1".toList
  port := some 443
  query := [("path".toList, "/?x&y".toList), ("sni".toList, [])]
  fragment := some "100%".toList

theorem parse_render_sampleUri : sampleUri.render =
      "VLESS://a%40b@[::1]:443?path=%2F%3Fx%26y&sni=#100%25".toList ∧
    parse sampleUri.render = some { sampleUri with scheme := "vless".toList } :=
  ⟨by decide +kernel, parse_render
    ⟨by decide, by decide, by decide, .inr ⟨1, by decide +kernel⟩, by decide⟩ (by decide +kernel)⟩

/-- No URI is without a scheme or without a host. -/
theorem parse_render_empty : parse (ParsedUri.render ⟨[], [], "a".toList, none, [], none⟩) = none ∧
      parse (ParsedUri.render ⟨"a".toList, [], [], none, [], none⟩) = none := by
  decide +kernel

end BalanSir.Vpn
