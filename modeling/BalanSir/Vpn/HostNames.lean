/-
# Hosts of a VLESS line

`valid_host` against the host names and addresses.
-/

import BalanSir.Lib.Split
import BalanSir.Net.AddrText
import BalanSir.Vpn.Subscription
import BalanSir.Vpn.UriText

namespace BalanSir.Vpn

open Lib List

variable {source : Text} {sourceTsMs : ℤ}

def IsIp (host : Text) : Prop := (Net.IpAddr.ofText (String.ofList host)).isSome
  deriving Decidable

/-- A label: 1 to 63 letters, digits or inner hyphens. -/
@[mk_iff label_def]
structure Label (l : Text) : Prop where
  length_pos : 1 ≤ l.length
  length_le : l.length ≤ 63
  chars : ∀ c ∈ l, isAsciiAlphanumeric c ∨ c = '-'
  head : l.head? ≠ some '-'
  last : l.getLast? ≠ some '-'

instance (l : Text) : Decidable (Label l) := decidable_of_iff' _ (label_def l)

def HostName (host : Text) : Prop := host.length ≤ 253 ∧ ∀ l ∈ host.splitOn '.', Label l
  deriving Decidable

def HostLiteral (host : Text) : Prop := IsIp host ∨ HostName host
  deriving Decidable

def LooseName (host : Text) : Prop :=
  host.length ≤ 253 ∧ (host.splitOn '.').filter (· ≠ []) ≠ [] ∧
    ((host.splitOn '.').filter (· ≠ [])).length ≤ 4 ∧
    ∀ l ∈ (host.splitOn '.').filter (· ≠ []), Label l
  deriving Decidable

def isHostChar (c : Char) : Bool := isAsciiAlphanumeric c || c ∈ ".:-".toList

variable {c : Char}

theorem lt_of_isHostChar (h : isHostChar c) : c.toNat < 128 := by
  rw [isHostChar, isAsciiAlphanumeric, Bool.or_eq_true, Bool.or_eq_true, Bool.or_eq_true,
    Bool.and_eq_true, Bool.and_eq_true, Bool.and_eq_true] at h
  simp only [decide_eq_true_eq] at h
  rcases h with ((⟨-, h⟩ | ⟨-, h⟩) | ⟨-, h⟩) | h
  · exact Nat.lt_of_le_of_lt h (by decide)
  · exact Nat.lt_of_le_of_lt h (by decide)
  · exact Nat.lt_of_le_of_lt h (by decide)
  · have ha : ∀ d ∈ ".:-".toList, d.toNat < 128 := by decide
    exact ha c h

theorem isWhitespace_of_isHostChar (h : isHostChar c) : isWhitespace c = false :=
  forall_ascii (p := fun c => isHostChar c → isWhitespace c = false) (by decide) c
    (lt_of_isHostChar h) h

theorem isHostChar_of_isAddressChar (h : Net.isAddressChar c) : isHostChar c := by
  rw [Net.isAddressChar, Bool.or_eq_true, Bool.or_eq_true, beq_iff_eq, beq_iff_eq] at h
  rcases h with (hdi | rfl) | rfl
  · obtain ⟨d, hd⟩ := Option.isSome_iff_exists.1 hdi
    obtain ⟨hd, -⟩ := Option.filter_eq_some_iff.1 hd
    split_ifs at hd with h₁ h₂ h₃
    · simp [isHostChar, isAsciiAlphanumeric, h₁]
    · simp [isHostChar, isAsciiAlphanumeric, h₂]
    · simp [isHostChar, isAsciiAlphanumeric, h₃]
  · decide
  · decide

variable {host : Text} {l : Text} {p₀ : VpnProfile}

theorem isHostChar_of_isIp (h : IsIp host) : ∀ c ∈ host, isHostChar c :=
  fun c hc => isHostChar_of_isAddressChar ((Net.text_of_ofText h).2 c hc)

def isNameChar (c : Char) : Bool := isAsciiAlphanumeric c || c == '.' || c == '-'

theorem isHostChar_of_isNameChar (h : isNameChar c) : isHostChar c := by
  rw [isNameChar, Bool.or_eq_true, Bool.or_eq_true, beq_iff_eq, beq_iff_eq] at h
  rcases h with (ha | rfl) | rfl
  · simp [isHostChar, ha]
  · decide
  · decide

theorem isNameChar_asciiLower (c : Char) : isNameChar (asciiLower c) = isNameChar c := by
  have heq : ∀ d, isAsciiAlphanumeric d = false → (asciiLower c == d) = (c == d) := by
    intro d hd
    rw [Bool.eq_iff_iff, beq_iff_eq, beq_iff_eq, asciiLower_eq_iff hd]
  rw [isNameChar, isNameChar, isAsciiAlphanumeric_asciiLower, heq '.' (by decide),
    heq '-' (by decide)]

theorem isNameChar_of_labels (h : ∀ l ∈ host.splitOn '.', l ≠ [] → Label l) :
    ∀ c ∈ host, isNameChar c := by
  have hal : ∀ c ∈ ['.'].intercalate (host.splitOn '.'), isNameChar c := by
    rw [forall_mem_intercalate (by decide)]
    intro l hl c hc
    rcases (h l hl (ne_nil_of_mem hc)).chars c hc with ha | rfl
    · simp [isNameChar, ha]
    · decide
  rwa [intercalate_splitOn] at hal

theorem chars_of_mem_splitOn (h : ∀ c ∈ host, isNameChar c) (hl : l ∈ host.splitOn '.') :
    ∀ c ∈ l, isAsciiAlphanumeric c ∨ c = '-' := by
  intro c hc
  have hch := h c (mem_of_mem_splitOn hl hc)
  rw [isNameChar, Bool.or_eq_true, Bool.or_eq_true, beq_iff_eq, beq_iff_eq] at hch
  rcases hch with (ha | rfl) | hh
  · exact .inl ha
  · exact absurd hc (notMem_of_mem_splitOn hl)
  · exact .inr hh

theorem LooseName.label (h : LooseName host) (hl : l ∈ host.splitOn '.') (hne : l ≠ []) :
    Label l := h.2.2.2 l (List.mem_filter.2 ⟨hl, by simpa using hne⟩)

theorem LooseName.isNameChar (h : LooseName host) : ∀ c ∈ host, isNameChar c :=
  isNameChar_of_labels fun _ hl hne => h.label hl hne

theorem trim_of_isHostChar (h : ∀ c ∈ host, isHostChar c) : trim host = host :=
  trim_of_no_blank fun c hc => isWhitespace_of_isHostChar (h c hc)

theorem byteLen_of_isHostChar (h : ∀ c ∈ host, isHostChar c) : byteLen host = host.length :=
  byteLen_of_ascii fun c hc => lt_of_isHostChar (h c hc)

theorem label_iff (hne : l ≠ []) (hch : ∀ c ∈ l, isAsciiAlphanumeric c ∨ c = '-') :
    (byteLen (toAsciiLowercase l) ≤ 63 && !startsWith (toAsciiLowercase l) ['-'] &&
      (toAsciiLowercase l).getLast? != some '-') ↔ Label l := by
  have hb : byteLen (toAsciiLowercase l) = l.length := by
    rw [byteLen_of_isHostChar, toAsciiLowercase, length_map]
    intro d hd
    obtain ⟨c, hc, rfl⟩ := List.mem_map.1 hd
    refine isHostChar_of_isNameChar ?_
    rw [isNameChar_asciiLower]
    rcases hch c hc with ha | rfl
    · simp [isNameChar, ha]
    · decide
  have hh : startsWith (toAsciiLowercase l) ['-'] = true ↔ l.head? = some '-' := by
    obtain ⟨c, rest, rfl⟩ := exists_cons_of_ne_nil hne
    have hc : asciiLower c = '-' ↔ c = '-' := asciiLower_eq_iff (by decide)
    rw [head?_cons, Option.some.injEq, ← hc]
    simp [startsWith, toAsciiLowercase, eq_comm (a := '-')]
  have hla : (toAsciiLowercase l).getLast? = some '-' ↔ l.getLast? = some '-' := by
    rw [toAsciiLowercase, getLast?_map, Option.map_eq_some_iff]
    constructor
    · rintro ⟨c, hl, hc⟩
      rw [hl, (asciiLower_eq_iff (by decide)).1 hc]
    · intro hl
      exact ⟨'-', hl, by decide⟩
  rw [Bool.and_eq_true, Bool.and_eq_true, decide_eq_true_eq, bne_iff_ne, Bool.not_eq_true',
    ← Bool.not_eq_true, hb, hh, ne_eq, hla]
  constructor
  · rintro ⟨⟨hle, hh⟩, hla⟩
    exact ⟨List.length_pos_iff.2 hne, hle, hch, hh, hla⟩
  · intro h
    exact ⟨⟨h.length_le, h.head⟩, h.last⟩

theorem splitOn_toAsciiLowercase (host : Text) :
    ((toAsciiLowercase host).splitOn '.').filter (· ≠ []) =
      ((host.splitOn '.').filter (· ≠ [])).map toAsciiLowercase := by
  have hd : ∀ c ∈ host, asciiLower c = asciiLower '.' → c = '.' := fun c _ h =>
    (asciiLower_eq_iff (by decide)).1 h
  have hs : (host.map asciiLower).splitOn '.' = (host.splitOn '.').map (·.map asciiLower) :=
    splitOn_map hd
  rw [toAsciiLowercase, hs, filter_map]
  refine congrArg _ (filter_congr fun l _ => ?_)
  simp

theorem isIp_size (h : IsIp host) : ¬(host = [] ∨ byteLen host > 253) := by
  rintro (rfl | hl)
  · exact absurd h (by decide)
  · have hle := (Net.text_of_ofText h).1
    rw [byteLen_of_isHostChar (isHostChar_of_isIp h)] at hl
    omega

theorem LooseName.size (h : LooseName host) : ¬(host = [] ∨ byteLen host > 253) := by
  rintro (rfl | hl)
  · exact h.2.1 rfl
  · have hle := h.1
    rw [byteLen_of_isHostChar fun c hc => isHostChar_of_isNameChar (h.isNameChar c hc)] at hl
    omega

theorem any_not_isNameChar (h : Text) :
    ((toAsciiLowercase h).any fun c => !isAsciiAlphanumeric c && c != '.' && c != '-') ↔
      ¬∀ c ∈ h, isNameChar c := by
  have hc : ∀ c, (!isAsciiAlphanumeric c && c != '.' && c != '-') = !isNameChar c := by
    intro c
    rw [isNameChar, Bool.not_or, Bool.not_or]
    rfl
  simp only [hc, toAsciiLowercase, any_map, Function.comp_def, isNameChar_asciiLower]
  simp

theorem nameTest_iff {h : Text} (hs : byteLen h ≤ 253) :
    (if (toAsciiLowercase h).any fun c => !isAsciiAlphanumeric c && c != '.' && c != '-' then false
      else if ((toAsciiLowercase h).splitOn '.').filter (· ≠ []) = [] ∨
        (((toAsciiLowercase h).splitOn '.').filter (· ≠ [])).length > 4 then false
      else (((toAsciiLowercase h).splitOn '.').filter (· ≠ [])).all fun l =>
        byteLen l ≤ 63 && !startsWith l ['-'] && l.getLast? != some '-') ↔ LooseName h := by
  by_cases hch : ∀ c ∈ h, isNameChar c
  · have hle : h.length ≤ 253 := by
      rwa [← byteLen_of_isHostChar fun c hc => isHostChar_of_isNameChar (hch c hc)]
    have hla : ∀ l ∈ (h.splitOn '.').filter (· ≠ []),
        (byteLen (toAsciiLowercase l) ≤ 63 && !startsWith (toAsciiLowercase l) ['-'] &&
          (toAsciiLowercase l).getLast? != some '-') = true ↔ Label l := by
      intro l hl
      obtain ⟨hl, hne⟩ := List.mem_filter.1 hl
      exact label_iff (of_decide_eq_true hne) (chars_of_mem_splitOn hch hl)
    rw [if_neg (fun hb => (any_not_isNameChar h).1 hb hch), splitOn_toAsciiLowercase]
    split_ifs with hco
    · rw [map_eq_nil_iff, length_map] at hco
      refine iff_of_false not_false fun hlo => ?_
      exact hco.elim hlo.2.1 (Nat.not_lt.2 hlo.2.2.1)
    · rw [map_eq_nil_iff, length_map] at hco
      obtain ⟨hn, hf⟩ := not_or.1 hco
      rw [all_map, all_eq_true]
      constructor
      · intro ha
        exact ⟨hle, hn, Nat.not_lt.1 hf, fun l hl => (hla l hl).1 (ha l hl)⟩
      · intro hlo l hl
        exact (hla l hl).2 (hlo.2.2.2 l hl)
  · rw [if_pos ((any_not_isNameChar h).2 hch)]
    exact iff_of_false Bool.false_ne_true fun hlo => hch hlo.isNameChar

/-- **What `valid_host` accepts:** trimmed, an IP address or one to four labels, empty ones aside.
-/
theorem validHost_iff (host : Text) :
    validHost host ↔ IsIp (trim host) ∨ LooseName (trim host) := by
  unfold validHost
  by_cases hs : trim host = [] ∨ byteLen (trim host) > 253
  · rw [if_pos hs]
    refine iff_of_false Bool.false_ne_true ?_
    rintro (hip | hl)
    · exact isIp_size hip hs
    · exact hl.size hs
  · rw [if_neg hs]
    by_cases hip : (Net.IpAddr.ofText (String.ofList (trim host))).isSome
    · rw [if_pos hip]
      exact iff_of_true rfl (.inl hip)
    · have hn : ¬IsIp (trim host) := hip
      rw [if_neg hip, or_iff_right hn]
      exact nameTest_iff (Nat.not_lt.1 (not_or.1 hs).2)

theorem HostName.isNameChar (h : HostName host) : ∀ c ∈ host, isNameChar c :=
  isNameChar_of_labels fun l hl _ => h.2 l hl

theorem HostName.nil_notMem (h : HostName host) : [] ∉ host.splitOn '.' :=
  fun hm => absurd (h.2 [] hm).length_pos (by decide)

theorem filter_splitOn (h : [] ∉ host.splitOn '.') :
    (host.splitOn '.').filter (· ≠ []) = host.splitOn '.' := by
  refine List.filter_eq_self.2 fun l hl => ?_
  rw [decide_eq_true_eq]
  rintro rfl
  exact h hl

theorem LooseName.hostName (h : LooseName host) (hn : [] ∉ host.splitOn '.') : HostName host := by
  have hl := h.2.2.2
  rw [filter_splitOn hn] at hl
  exact ⟨h.1, hl⟩

theorem HostName.looseName (h : HostName host) (hf : (host.splitOn '.').length ≤ 4) :
    LooseName host := by
  rw [LooseName, filter_splitOn h.nil_notMem]
  exact ⟨h.1, splitOn_ne_nil _ _, hf, h.2⟩

theorem LooseName.length_le (h : LooseName host) (hn : [] ∉ host.splitOn '.') :
    (host.splitOn '.').length ≤ 4 := by
  have hf := h.2.2.1
  rwa [filter_splitOn hn] at hf

/-- Blanks around it, empty labels, or more than four labels. -/
def Deviates (host : Text) : Prop :=
  (trim host ≠ host ∧ (IsIp (trim host) ∨ LooseName (trim host))) ∨
    (¬IsIp host ∧ LooseName host ∧ [] ∈ host.splitOn '.') ∨
    (¬IsIp host ∧ HostName host ∧ 4 < (host.splitOn '.').length)
  deriving Decidable

theorem trim_of_isNameChar (h : ∀ c ∈ host, isNameChar c) : trim host = host :=
  trim_of_isHostChar fun c hc => isHostChar_of_isNameChar (h c hc)

theorem validHost_right_iff (host : Text) :
    (validHost host ↔ HostLiteral host) ↔ ¬Deviates host := by
  rw [validHost_iff]
  unfold Deviates HostLiteral
  by_cases ht : trim host = host
  · rw [ht]
    by_cases hip : IsIp host
    · simp [hip]
    · by_cases hni : [] ∈ host.splitOn '.'
      · have hn : ¬HostName host := fun h => h.nil_notMem hni
        simp [hip, hni, hn]
      · have hl : LooseName host ↔ HostName host ∧ (host.splitOn '.').length ≤ 4 :=
          ⟨fun h => ⟨h.hostName hni, h.length_le hni⟩, fun h => h.1.looseName h.2⟩
        simp [hip, hni, hl]
  · -- neither an address nor a name has blanks around it
    have hip : ¬IsIp host := fun h => ht (trim_of_isHostChar (isHostChar_of_isIp h))
    have hn : ¬HostName host := fun h => ht (trim_of_isNameChar h.isNameChar)
    have hl : ¬LooseName host := fun h => ht (trim_of_isNameChar h.isNameChar)
    simp [ht, hip, hn, hl]

structure HostLine where
  scheme : Text
  user : Text
  port : Text
  query : Option Text
  fragment : Option Text
  vless : toAsciiLowercase scheme = "vless".toList
  user_delimited : '@' ∉ user ∧ '?' ∉ user ∧ '#' ∉ user
  port_delimited : '?' ∉ port ∧ '#' ∉ port
  query_delimited : ∀ q ∈ query, '#' ∉ q

namespace HostLine

variable (l : HostLine)

def text (host : Text) : Text :=
  uriText l.scheme (l.user ++ '@' :: (hostText host ++ ':' :: l.port)) l.query l.fragment

theorem scheme_ne_nil : l.scheme ≠ [] := by
  intro hn
  have hv := l.vless
  rw [hn] at hv
  cases hv

theorem scheme_chars : l.scheme.all isSchemeChar := by
  refine List.all_eq_true.2 fun c hc => ?_
  have hm : asciiLower c ∈ "vless".toList := l.vless ▸ mem_map_of_mem hc
  have hal : ∀ d ∈ "vless".toList, isAsciiAlphanumeric d := by decide
  have ha := hal _ hm
  rw [isAsciiAlphanumeric_asciiLower] at ha
  simp [isSchemeChar, ha]

theorem delimited (hq : '?' ∉ host) (hh : '#' ∉ host) :
    Delimited l.scheme (l.user ++ '@' :: (hostText host ++ ':' :: l.port)) l.query := by
  have hn : ∀ c, c ∉ l.user → c ∉ host → c ∉ l.port → c ≠ '@' → c ≠ '[' → c ≠ ']' → c ≠ ':' →
      c ∉ l.user ++ '@' :: (hostText host ++ ':' :: l.port) := by
    intro c hu hho hp hat ho hc hco
    simp only [mem_append, mem_cons, not_or]
    refine ⟨hu, hat, fun hm => ?_, hco, hp⟩
    rcases mem_of_mem_hostText hm with heq | hm | heq
    · exact ho heq
    · exact hho hm
    · exact hc heq
  exact ⟨l.scheme_ne_nil, l.scheme_chars,
    hn '?' l.user_delimited.2.1 hq l.port_delimited.1 (by decide) (by decide) (by decide)
      (by decide),
    hn '#' l.user_delimited.2.2 hh l.port_delimited.2 (by decide) (by decide) (by decide)
      (by decide), l.query_delimited⟩

end HostLine

theorem parsePort_of_hostPort {p : Text} {port : Option UInt16}
    (h : HostPort ('a' :: ':' :: p) host port) : ∃ q, port = some q ∧ parsePort p = some q := by
  generalize ht : 'a' :: ':' :: p = text at h
  cases h with
  | bracketed _ => cases ht
  | bracketedPort _ _ => cases ht
  | bare _ _ hc =>
    rw [← ht] at hc
    exact absurd (mem_cons_of_mem _ mem_cons_self) hc
  | @barePort _ p' q _ _ hc hp =>
    have hs : splitOnceAt ':' ('a' :: ':' :: p) = some (host, p') := by
      rw [ht, splitOnceAt_append hc]
    have hs' : splitOnceAt ':' ('a' :: ':' :: p) = some (['a'], p) :=
      splitOnceAt_append (show ':' ∉ ['a'] by decide) p
    rw [hs, Option.some.injEq, Prod.mk.injEq] at hs'
    exact ⟨q, rfl, hs'.2 ▸ hp⟩

theorem chars_of_validHost (h : validHost host) : ∀ c ∈ host, isWhitespace c ∨ isHostChar c := by
  intro c hc
  cases hb : isWhitespace c with
  | true => exact .inl rfl
  | false =>
    right
    have hm := mem_trim hc hb
    rcases (validHost_iff host).1 h with hip | hl
    · exact isHostChar_of_isIp hip c hm
    · exact isHostChar_of_isNameChar (hl.isNameChar c hm)

theorem HostLine.parse_text (l : HostLine) {uri : ParsedUri} (h : parse (l.text ['a']) = some uri)
    (hho : validHost host) (hl : byteLen (l.text host) ≤ 4096) :
    parse (l.text host) = some { uri with host := host } := by
  have hn : ∀ c, isWhitespace c = false → isHostChar c = false → c ∉ host := by
    intro c hb hch hm
    rcases chars_of_validHost hho c hm with hc | hc
    · rw [hb] at hc
      cases hc
    · rw [hch] at hc
      cases hc
  have hne : host ≠ [] := by
    rintro rfl
    exact absurd hho (by decide)
  obtain ⟨-, -, -, -, -, -, hl₀⟩ := exists_of_parse h
  have hd := l.delimited (hn '?' (by decide) (by decide))
    (hn '#' (by decide) (by decide))
  have hd₀ : Delimited l.scheme (l.user ++ '@' :: (hostText ['a'] ++ ':' :: l.port))
      l.query := l.delimited (by decide) (by decide)
  rw [HostLine.text, parse_uriText hd₀ _ hl₀, parseAuthority_eq_some_iff,
    splitUserinfo_append l.user_delimited.1] at h
  rw [HostLine.text, parse_uriText hd _ hl, parseAuthority_eq_some_iff,
    splitUserinfo_append l.user_delimited.1]
  obtain ⟨hpo, -, hs, hu, hqu, hf⟩ := h
  obtain ⟨q, hq, hp⟩ := parsePort_of_hostPort hpo
  refine ⟨?_, hne, hs, hu, hqu, hf⟩
  have hh := hostPort_hostText hne (hn '[' (by decide) (by decide))
    (hn ']' (by decide) (by decide)) hp
  rwa [← hq] at hh

/-- **A line is accepted with a host** exactly when the host is valid. -/
theorem accepted_iff_validHost (l : HostLine) {line line₀ : Text}
    (hl₀ : trim line₀ = l.text ['a']) (hv : parseLine line₀ source sourceTsMs = .ok p₀)
    (hl : trim line = l.text host) (hle : byteLen (l.text host) ≤ 4096) :
    (∃ p, parseLine line source sourceTsMs = .ok p ∧ p.server = host) ↔ validHost host := by
  constructor
  · rintro ⟨p, hp, rfl⟩
    obtain ⟨uri, protocol, port, transport, security, pins, hc, rfl⟩ :=
      parseLine_eq_ok_iff.1 hp
    exact hc.host
  · intro hh
    obtain ⟨uri, protocol, port, transport, security, pins, hc, -⟩ :=
      parseLine_eq_ok_iff.1 hv
    have hpa := hc.parse_eq
    rw [hl₀] at hpa
    have hco := hc.counts
    refine ⟨_, parseLine_eq_ok_iff.2 ⟨{ uri with host := host }, protocol, port, transport,
      security, pins, ⟨?_, ?_, hc.protocol_eq, hh, hc.port_eq, hc.credential,
      hc.transport_eq, hc.security_eq, hc.sni_of_security, hc.pins_eq⟩, rfl⟩, rfl⟩
    · -- both lines start with the scheme
      rw [hl₀, HostLine.text, uriText, append_assoc, startsWith_append l.scheme_ne_nil] at hco
      rw [hl, HostLine.text, uriText, append_assoc, startsWith_append l.scheme_ne_nil]
      rintro (hn | hha)
      · exact l.scheme_ne_nil (List.append_eq_nil_iff.1 hn).1
      · exact hco (.inr hha)
    · rw [hl]
      exact l.parse_text hpa hh hle

/-- **The hosts of a VLESS line.** An otherwise valid line is accepted with a host exactly when that
is an IP address or a host name, but for the hosts that `valid_host` is wrong about. -/
theorem host_accepted_iff (l : HostLine) (source : Text) (sourceTsMs : ℤ)
    {line line₀ host : Text} (hline₀ : trim line₀ = l.text ['a'])
    (hvalid : parseLine line₀ source sourceTsMs = .ok p₀) (hline : trim line = l.text host)
    (hlen : byteLen (l.text host) ≤ 4096) :
    ((∃ p, parseLine line source sourceTsMs = .ok p ∧ p.server = host) ↔ HostLiteral host) ↔
      ¬Deviates host := by
  rw [accepted_iff_validHost l hline₀ hvalid hline hlen, validHost_right_iff]

def sampleLine : HostLine where
  scheme := "vless".toList
  user := "12345678".toList
  port := "1".toList
  query := none
  fragment := none
  vless := by decide
  user_delimited := by decide
  port_delimited := by decide
  query_delimited := fun q hq => by cases hq

theorem host_accepted_iff_example :
    ∃ p, parseLine (sampleLine.text "www.example.com".toList) [] 0 = .ok p ∧
      p.server = "www.example.com".toList := by
  obtain ⟨p₀, hp₀⟩ := Option.isSome_iff_exists.1
    (show (parsed [] 0 (sampleLine.text ['a'])).isSome by decide +kernel)
  have hl : trim (sampleLine.text "www.example.com".toList) =
      sampleLine.text "www.example.com".toList := by decide +kernel
  exact ((host_accepted_iff sampleLine [] 0 (by decide +kernel) (parsed_eq_some_iff.1 hp₀) hl
    (by decide +kernel)).2 (by decide +kernel)).2 (by decide +kernel)

/-- Five labels are refused; an empty label and blanks around a name are accepted and stored. -/
theorem hosts_deviate : HostLiteral "a.b.c.d.e".toList ∧
      (parseLine (sampleLine.text "a.b.c.d.e".toList) [] 0).toOption = none ∧
      ¬HostLiteral "a..b".toList ∧
      (parseLine (sampleLine.text "a..b".toList) [] 0).toOption.map VpnProfile.server =
        some "a..b".toList ∧
      ¬HostLiteral " a ".toList ∧
      (parseLine (sampleLine.text " a ".toList) [] 0).toOption.map VpnProfile.server =
        some " a ".toList := by
  decide +kernel

end BalanSir.Vpn
