/-
# Texts of URIs

The texts that `parse` accepts, part by part.
-/

import BalanSir.Vpn.Uri

namespace BalanSir.Vpn

open Lib Option List

def isSchemeChar (c : Char) : Bool := isAsciiAlphanumeric c || c == '-'

def splitFragment (rest : Text) : Text × Option Text :=
  match splitOnceAt '#' rest with
  | some (b, f) => (b, some (percentDecode f))
  | none => (rest, none)

def splitQuery (beforeFrag : Text) : Text × List (Text × Text) :=
  match splitOnceAt '?' beforeFrag with
  | some (b, q) => (b, parseQuery q)
  | none => (beforeFrag, [])

def splitUserinfo (authority : Text) : Text × Text :=
  match splitOnceAt '@' authority with
  | some (u, h) => (percentDecode u, h)
  | none => ([], authority)

def parseAuthority (scheme authority : Text) (query : List (Text × Text))
    (fragment : Option Text) : Option ParsedUri :=
  (splitHostPort (splitUserinfo authority).2).bind fun hp =>
    if hp.1 = [] then none
    else some {
      scheme := toAsciiLowercase scheme
      userinfo := (splitUserinfo authority).1
      host := hp.1
      port := hp.2
      query
      fragment }

theorem parse_eq (uri : Text) : parse uri =
      if byteLen uri > 4096 ∨ uri = [] then none
      else (splitOnce "://".toList uri).bind fun sr =>
        if sr.1 = [] ∨ ¬sr.1.all isSchemeChar then none
        else parseAuthority sr.1 (splitQuery (splitFragment sr.2).1).1
          (splitQuery (splitFragment sr.2).1).2 (splitFragment sr.2).2 := rfl

def uriText (scheme authority : Text) (query fragment : Option Text) : Text :=
  scheme ++ "://".toList ++ (authority ++ query.elim [] ('?' :: ·) ++ fragment.elim [] ('#' :: ·))

/-- What the splits ask for: a scheme, and no delimiter before its place. -/
structure Delimited (scheme authority : Text) (query : Option Text) : Prop where
  scheme_ne_nil : scheme ≠ []
  scheme_chars : scheme.all isSchemeChar
  no_question : '?' ∉ authority
  no_hash : '#' ∉ authority
  no_hash_query : ∀ q ∈ query, '#' ∉ q

variable {scheme : Text}

theorem colon_notMem_of_scheme (h : scheme.all isSchemeChar) : ':' ∉ scheme :=
  fun hm => absurd (List.all_eq_true.1 h ':' hm) (by decide)

theorem splitFragment_append {text : Text} (h : '#' ∉ text) (fragment : Option Text) :
    splitFragment (text ++ fragment.elim [] ('#' :: ·)) = (text, fragment.map percentDecode) := by
  cases fragment with
  | none => simp [splitFragment, splitOnceAt_of_notMem h]
  | some f => simp [splitFragment, splitOnceAt_append h]

variable {authority : Text} {query : Option Text} {u : ParsedUri}

theorem splitQuery_append (h : '?' ∉ authority) (query : Option Text) :
    splitQuery (authority ++ query.elim [] ('?' :: ·)) = (authority, query.elim [] parseQuery) := by
  cases query with
  | none => simp [splitQuery, splitOnceAt_of_notMem h]
  | some q => simp [splitQuery, splitOnceAt_append h]

theorem splitUserinfo_of_notMem (h : '@' ∉ authority) :
    splitUserinfo authority = ([], authority) := by
  rw [splitUserinfo, splitOnceAt_of_notMem h]

theorem splitUserinfo_append {user : Text} (h : '@' ∉ user) (hostport : Text) :
    splitUserinfo (user ++ '@' :: hostport) = (percentDecode user, hostport) := by
  rw [splitUserinfo, splitOnceAt_append h]

/-- **What is parsed of a text out of four parts.** -/
theorem parse_uriText (h : Delimited scheme authority query)
    (fragment : Option Text) (hl : byteLen (uriText scheme authority query fragment) ≤ 4096) :
    parse (uriText scheme authority query fragment) =
      parseAuthority scheme authority (query.elim [] parseQuery) (fragment.map percentDecode) := by
  have hne : uriText scheme authority query fragment ≠ [] := by simp [uriText]
  have hs : splitOnce "://".toList (uriText scheme authority query fragment) =
      some (scheme, authority ++ query.elim [] ('?' :: ·) ++ fragment.elim [] ('#' :: ·)) :=
    splitOnce_append (colon_notMem_of_scheme h.scheme_chars) _ _
  have hh : '#' ∉ authority ++ query.elim [] ('?' :: ·) := by
    have hq := h.no_hash_query
    cases query with
    | none => simpa using h.no_hash
    | some q => simpa [h.no_hash] using hq
  rw [parse_eq, if_neg (not_or.2 ⟨Nat.not_lt.2 hl, hne⟩), hs, bind_some,
    if_neg (not_or.2 ⟨h.scheme_ne_nil, not_not.2 h.scheme_chars⟩), splitFragment_append hh,
    splitQuery_append h.no_question]

theorem exists_fragment (rest : Text) :
    ∃ before fragment, rest = before ++ Option.elim fragment [] ('#' :: ·) ∧ '#' ∉ before := by
  cases h : splitOnceAt '#' rest with
  | none => exact ⟨rest, none, by simp, notMem_of_splitOnceAt_eq_none h⟩
  | some p => exact ⟨p.1, some p.2, eq_of_splitOnceAt h, notMem_of_splitOnceAt h⟩

theorem exists_query (beforeFrag : Text) :
    ∃ authority query, beforeFrag = authority ++ Option.elim query [] ('?' :: ·) ∧
      '?' ∉ authority := by
  cases h : splitOnceAt '?' beforeFrag with
  | none => exact ⟨beforeFrag, none, by simp, notMem_of_splitOnceAt_eq_none h⟩
  | some p => exact ⟨p.1, some p.2, eq_of_splitOnceAt h, notMem_of_splitOnceAt h⟩

theorem exists_of_parse {uri : Text} (h : parse uri = some u) :
    ∃ scheme authority query fragment, Delimited scheme authority query ∧
      uri = uriText scheme authority query fragment ∧ byteLen uri ≤ 4096 := by
  rw [parse_eq] at h
  split_ifs at h with hl
  obtain ⟨⟨scheme, rest⟩, hsp, h⟩ := Option.bind_eq_some_iff.1 h
  split_ifs at h with hs
  obtain ⟨hne, hc⟩ := not_or.1 hs
  obtain ⟨before, fragment, rfl, hh⟩ := exists_fragment rest
  obtain ⟨authority, query, rfl, hqu⟩ := exists_query before
  obtain ⟨hh, hh'⟩ := not_or.1 (mt List.mem_append.2 hh)
  refine ⟨scheme, authority, query, fragment, ⟨hne, not_not.1 hc, hqu, hh, ?_⟩,
    eq_of_splitOnce hsp, Nat.not_lt.1 (not_or.1 hl).1⟩
  intro q hq
  rw [hq] at hh'
  exact fun hm => hh' (mem_cons_of_mem _ hm)

theorem parsePort_of_mem {c : Char} (hp : c ≠ '+') (hdi : ¬('0' ≤ c ∧ c ≤ '9')) {text : Text}
    (h : c ∈ text) : parsePort text = none := by
  have hd : ¬(if startsWith text ['+'] then text.drop 1 else text).all
      (fun c => '0' ≤ c && c ≤ '9') := by
    intro ha
    have hm : c ∈ if startsWith text ['+'] then text.drop 1 else text := by
      split_ifs with hs
      · obtain ⟨rest, rfl⟩ := List.isPrefixOf_iff_prefix.1 hs
        exact (List.mem_append.1 h).resolve_left (mt List.mem_singleton.1 hp)
      · exact h
    have hc := List.all_eq_true.1 ha c hm
    rw [Bool.and_eq_true, decide_eq_true_eq, decide_eq_true_eq] at hc
    exact hdi hc
  rw [parsePort, parseUnsigned]
  rw [if_pos (.inr hd), map_none]

/-- In brackets up to the first `]`, or without a colon in the host. -/
inductive HostPort : Text → Text → Option UInt16 → Prop
  | bracketed {host : Text} (hclose : ']' ∉ host) : HostPort ('[' :: (host ++ [']'])) host none
  | bracketedPort {host p : Text} {port : UInt16} (hclose : ']' ∉ host)
      (hport : parsePort p = some port) :
      HostPort ('[' :: (host ++ ']' :: ':' :: p)) host (some port)
  | bare {host : Text} (hne : host ≠ []) (hopen : ¬startsWith host ['[']) (hcolon : ':' ∉ host) :
      HostPort host host none
  | barePort {host p : Text} {port : UInt16} (hne : host ≠ []) (hopen : ¬startsWith host ['['])
      (hcolon : ':' ∉ host) (hport : parsePort p = some port) :
      HostPort (host ++ ':' :: p) host (some port)

variable {hostport : Text} {port : Option UInt16} {host : Text}

theorem hostPort_of_splitHostPort (h : splitHostPort hostport = some (host, port)) :
    HostPort hostport host port := by
  unfold splitHostPort at h
  split_ifs at h with hn ho
  · obtain ⟨rest, rfl⟩ := List.isPrefixOf_iff_prefix.1 ho
    simp only [singleton_append, drop_one, tail_cons, bind, bind_eq_some_iff] at h
    obtain ⟨⟨inside, tail⟩, hs, h⟩ := h
    have hcl := notMem_of_splitOnceAt hs
    rw [eq_of_splitOnceAt hs]
    split_ifs at h with hc ht
    · obtain ⟨p, rfl⟩ := List.isPrefixOf_iff_prefix.1 hc
      obtain ⟨port', hp, h⟩ := Option.bind_eq_some_iff.1 h
      cases h
      exact .bracketedPort hcl hp
    · subst ht
      cases h
      exact .bracketed hcl
  · split at h
    · next h' p hs =>
        split_ifs at h with hpa hc
        obtain ⟨hne, -⟩ := not_or.1 hpa
        obtain ⟨port', hp, h⟩ := Option.bind_eq_some_iff.1 h
        cases h
        rw [eq_of_rsplitOnceAt hs, startsWith_append hne] at ho
        rw [eq_of_rsplitOnceAt hs]
        exact .barePort hne ho hc hp
    · next hs =>
        cases h
        exact .bare hn ho (notMem_of_rsplitOnceAt_eq_none hs)

theorem splitHostPort_bracket {inside : Text} (hc : ']' ∉ inside) (tail : Text) :
    splitHostPort ('[' :: (inside ++ ']' :: tail)) =
      if startsWith tail [':'] then (parsePort (tail.drop 1)).map fun port => (inside, some port)
      else if tail = [] then some (inside, none)
      else none := by
  have ho : startsWith ('[' :: (inside ++ ']' :: tail)) ['['] = true := rfl
  have hs : splitOnceAt ']' (('[' :: (inside ++ ']' :: tail)).drop 1) = some (inside, tail) :=
    splitOnceAt_append hc tail
  rw [splitHostPort, if_neg (cons_ne_nil _ _), hs]
  dsimp only [bind, bind_some]
  split_ifs
  · cases parsePort (tail.drop 1) with
    | none => rfl
    | some port => rfl
  · rfl
  · rfl

theorem splitHostPort_of_hostPort (h : HostPort hostport host port) :
    splitHostPort hostport = some (host, port) := by
  cases h with
  | bracketed hcl =>
    rw [splitHostPort_bracket hcl]
    rfl
  | @bracketedPort _ p _ hcl hpo =>
    have hc : startsWith (':' :: p) [':'] = true := rfl
    have hd : (':' :: p).drop 1 = p := rfl
    rw [splitHostPort_bracket hcl, if_pos hc, hd, hpo, map_some]
  | bare hne ho hc =>
    rw [splitHostPort, if_neg hne, if_neg ho, rsplitOnceAt_of_notMem hc]
  | @barePort _ p _ hne ho hc hpo =>
    have hc' : ':' ∉ p := fun hm => by
      rw [parsePort_of_mem (by decide) (by decide) hm] at hpo
      cases hpo
    have hp : p ≠ [] := by
      rintro rfl
      cases hpo
    have hn : host ++ ':' :: p ≠ [] := by simp
    have ho' : ¬startsWith (host ++ ':' :: p) ['['] := by
      rwa [startsWith_append hne]
    rw [splitHostPort, if_neg hn, if_neg ho', rsplitOnceAt_append host hc']
    dsimp only
    rw [if_neg (not_or.2 ⟨hne, hp⟩), if_neg hc, hpo]
    rfl

/-- **`split_host_port`** reads exactly these texts. -/
theorem splitHostPort_eq_some_iff :
    splitHostPort hostport = some (host, port) ↔ HostPort hostport host port :=
  ⟨hostPort_of_splitHostPort, splitHostPort_of_hostPort⟩

theorem parseAuthority_eq_some_iff {query : List (Text × Text)} {fragment : Option Text}
    {u : ParsedUri} : parseAuthority scheme authority query fragment = some u ↔
      HostPort (splitUserinfo authority).2 u.host u.port ∧ u.host ≠ [] ∧
        u.scheme = toAsciiLowercase scheme ∧ u.userinfo = (splitUserinfo authority).1 ∧
        u.query = query ∧ u.fragment = fragment := by
  unfold parseAuthority
  rw [bind_eq_some_iff]
  constructor
  · rintro ⟨⟨host, port⟩, hsp, h⟩
    split_ifs at h with hne
    cases h
    exact ⟨splitHostPort_eq_some_iff.1 hsp, hne, rfl, rfl, rfl, rfl⟩
  · rintro ⟨hh, hne, hs, hu, hq, hf⟩
    refine ⟨(u.host, u.port), splitHostPort_eq_some_iff.2 hh, ?_⟩
    rw [if_neg hne, ← hs, ← hu, ← hq, ← hf]

def hostText (host : Text) : Text := if ':' ∈ host then '[' :: (host ++ [']']) else host

theorem mem_of_mem_hostText {c : Char} (h : c ∈ hostText host) : c = '[' ∨ c ∈ host ∨ c = ']' := by
  unfold hostText at h
  split_ifs at h
  · simpa using h
  · exact .inr (.inl h)

theorem hostPort_hostText {p : Text} {port : UInt16} (hne : host ≠ [])
    (ho : '[' ∉ host) (hc : ']' ∉ host) (hp : parsePort p = some port) :
    HostPort (hostText host ++ ':' :: p) host (some port) := by
  unfold hostText
  split_ifs with hco
  · simpa using HostPort.bracketedPort hc hp
  · exact .barePort hne (not_startsWith_of_notMem ho) hco hp

def beforeTail (c : Char) : Bool := c ≠ '?' && c ≠ '#'

def insertPath (uri path : Text) : Text :=
  uri.takeWhile beforeTail ++ path ++ uri.dropWhile beforeTail

theorem span_beforeTail {front tail : Text} (hf : ∀ c ∈ front, beforeTail c)
    (ht : ∀ c ∈ tail.head?, beforeTail c = false) :
    (front ++ tail).takeWhile beforeTail = front ∧ (front ++ tail).dropWhile beforeTail = tail := by
  rw [takeWhile_append_of_pos hf, dropWhile_append_of_pos hf]
  cases tail with
  | nil => exact ⟨append_nil _, rfl⟩
  | cons c tail =>
    have hc : ¬beforeTail c := by simp [ht c rfl]
    rw [takeWhile_cons_of_neg hc, dropWhile_cons_of_neg hc]
    exact ⟨append_nil _, rfl⟩

theorem insertPath_uriText (h : Delimited scheme authority query)
    (fragment : Option Text) (path : Text) :
    insertPath (uriText scheme authority query fragment) path =
      uriText scheme (authority ++ path) query fragment := by
  have hs : ∀ c ∈ scheme, beforeTail c := by
    intro c hc
    have hch := List.all_eq_true.1 h.scheme_chars c hc
    rw [beforeTail, Bool.and_eq_true, decide_eq_true_eq, decide_eq_true_eq]
    constructor
    · rintro rfl
      exact absurd hch (by decide)
    · rintro rfl
      exact absurd hch (by decide)
  have ha : ∀ c ∈ authority, beforeTail c := by
    intro c hc
    rw [beforeTail, Bool.and_eq_true, decide_eq_true_eq, decide_eq_true_eq]
    exact ⟨fun he => h.no_question (he ▸ hc), fun he => h.no_hash (he ▸ hc)⟩
  have hf : ∀ c ∈ scheme ++ "://".toList ++ authority, beforeTail c := by
    simp only [forall_mem_append]
    exact ⟨⟨hs, by decide⟩, ha⟩
  have ht : ∀ c ∈ (query.elim [] ('?' :: ·) ++ fragment.elim [] ('#' :: ·) : Text).head?,
      beforeTail c = false := by
    intro c hc
    cases query with
    | none =>
      cases fragment with
      | none => cases hc
      | some f =>
        cases hc
        rfl
    | some q =>
      cases hc
      rfl
  have hte : uriText scheme authority query fragment =
      (scheme ++ "://".toList ++ authority) ++
        (query.elim [] ('?' :: ·) ++ fragment.elim [] ('#' :: ·)) := by
    simp only [uriText, append_assoc]
  obtain ⟨hta, hd⟩ := span_beforeTail hf ht
  rw [insertPath, hte, hta, hd]
  simp only [uriText, append_assoc]

theorem not_hostPort_path {path : Text} (h : HostPort hostport host port)
    (hpa : startsWith path ['/']) : ¬HostPort (hostport ++ path) host port := by
  obtain ⟨rest, rfl⟩ := List.isPrefixOf_iff_prefix.1 hpa
  have hs : ∀ p, parsePort (p ++ (['/'] ++ rest)) = none := fun p =>
    parsePort_of_mem (by decide) (by decide) (mem_append_right p mem_cons_self)
  intro h'
  generalize ht : hostport ++ (['/'] ++ rest) = text at h'
  cases h with
  | bracketed hc =>
    cases h' with
    | bracketed _ => simp at ht
    | bare _ ho _ => exact ho (ht ▸ rfl)
  | @bracketedPort _ p _ hc hpo =>
    cases h' with
    | @bracketedPort _ p' _ _ hpo' =>
      have hp : p' = p ++ (['/'] ++ rest) := by simpa using ht.symm
      rw [hp, hs] at hpo'
      cases hpo'
    | barePort hne ho _ _ =>
      rw [← startsWith_append hne, ← ht] at ho
      exact ho rfl
  | bare hne ho hco =>
    cases h' with
    | bracketed _ =>
      rw [← startsWith_append hne, ht] at ho
      exact ho rfl
    | bare _ _ _ => simp at ht
  | @barePort _ p _ hne ho hco hpo =>
    cases h' with
    | bracketedPort _ _ =>
      rw [append_assoc] at ht
      rw [← startsWith_append hne, ht] at ho
      exact ho rfl
    | @barePort _ p' _ _ _ _ hpo' =>
      have hp : p' = p ++ (['/'] ++ rest) := by simpa using ht.symm
      rw [hp, hs] at hpo'
      cases hpo'

theorem HostPort.ne_nil (h : HostPort hostport host port) : hostport ≠ [] := by
  cases h with
  | bracketed _ => exact cons_ne_nil _ _
  | bracketedPort _ _ => exact cons_ne_nil _ _
  | bare hne _ _ => exact hne
  | barePort _ _ _ _ => simp

theorem percentDecodeBytes_ne_nil {bytes : List UInt8} (h : bytes ≠ []) :
    percentDecodeBytes bytes ≠ [] := by
  obtain ⟨b, rest, rfl⟩ := exists_cons_of_ne_nil h
  rw [percentDecodeBytes.eq_def]
  dsimp only
  split
  · split_ifs
    · split
      · exact cons_ne_nil _ _
      · exact cons_ne_nil _ _
    · exact cons_ne_nil _ _
  · exact cons_ne_nil _ _
  · exact cons_ne_nil _ _

theorem percentDecode_ne_nil {s : Text} (h : s ≠ []) : percentDecode s ≠ [] := by
  have hb : encode s ≠ [] := fun he => h (encode_injective he)
  exact decodeLossy_ne_nil (percentDecodeBytes_ne_nil hb)

/-- **A path is never left out:** no accepted URI is accepted with a path and the same components.
-/
theorem parse_insertPath_ne {uri path : Text} (h : parse uri = some u)
    (hpath : startsWith path ['/']) (hquestion : '?' ∉ path) (hhash : '#' ∉ path)
    (hlen : byteLen (insertPath uri path) ≤ 4096) : parse (insertPath uri path) ≠ some u := by
  intro h'
  obtain ⟨scheme, authority, query, fragment, hd, rfl, hur⟩ := exists_of_parse h
  have hd' : Delimited scheme (authority ++ path) query :=
    { hd with
      no_question := fun hm => (List.mem_append.1 hm).elim hd.no_question hquestion
      no_hash := fun hm => (List.mem_append.1 hm).elim hd.no_hash hhash }
  rw [insertPath_uriText hd] at h' hlen
  rw [parse_uriText hd _ hur, parseAuthority_eq_some_iff] at h
  rw [parse_uriText hd' _ hlen, parseAuthority_eq_some_iff] at h'
  obtain ⟨hh, -, -, hu, -⟩ := h
  obtain ⟨hh', -, -, hu', -⟩ := h'
  by_cases hat : '@' ∈ authority
  · obtain ⟨user, hostport, rfl, hn⟩ := eq_append_cons_of_mem hat
    rw [splitUserinfo_append hn] at hh
    rw [append_assoc, cons_append, splitUserinfo_append hn] at hh'
    exact not_hostPort_path hh hpath hh'
  · rw [splitUserinfo_of_notMem hat] at hh hu
    by_cases hat' : '@' ∈ path
    · -- what was the host is in the userinfo now
      obtain ⟨user, hostport, rfl, hn⟩ := eq_append_cons_of_mem hat'
      have hn' : '@' ∉ authority ++ user := fun hm => (List.mem_append.1 hm).elim hat hn
      rw [← append_assoc, splitUserinfo_append hn', hu] at hu'
      exact percentDecode_ne_nil (append_ne_nil_of_left_ne_nil hh.ne_nil _) hu'.symm
    · have hn : '@' ∉ authority ++ path := fun hm => (List.mem_append.1 hm).elim hat hat'
      rw [splitUserinfo_of_notMem hn] at hh'
      exact not_hostPort_path hh hpath hh'

/-- A host with a port, and the path `/ws`. -/
theorem parse_insertPath_ne_port : parse "vless://12345678@a:1?type=ws".toList ≠ none ∧
      parse (insertPath "vless://12345678@a:1?type=ws".toList "/ws".toList) ≠
        parse "vless://12345678@a:1?type=ws".toList := by
  obtain ⟨u, hu⟩ := Option.isSome_iff_exists.1
    (show (parse "vless://12345678@a:1?type=ws".toList).isSome by decide +kernel)
  rw [hu]
  exact ⟨some_ne_none u,
    parse_insertPath_ne hu (by decide) (by decide) (by decide) (by decide +kernel)⟩

/-- Behind a port, the path makes the URI malformed; without a port, it is in the host. -/
theorem path_in_host : (parse "vless://12345678@a:1?type=ws".toList).isSome ∧
      parse (insertPath "vless://12345678@a:1?type=ws".toList "/ws".toList) = none ∧
      (parse "vless://12345678@a?type=ws".toList).map ParsedUri.host = some "a".toList ∧
      (parse (insertPath "vless://12345678@a?type=ws".toList "/ws".toList)).map ParsedUri.host =
        some "a/ws".toList := by
  decide +kernel

end BalanSir.Vpn
