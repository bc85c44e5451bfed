/-
# One HTTP request, read in pieces

`handle_connection` of the UPnP server reads until it finds the end of the header, and then the rest
of the declared body. The reads are a list of chunks, and the request is what they add up to.
-/

import BalanSir.Daemon.NetworkConfig
import BalanSir.Lib.Utf8

namespace BalanSir.Upnp

open Lib List Daemon.Roles

def position (needle : Bytes) : Bytes → Option ℕ
  | [] => if needle = [] then some 0 else none
  | b :: rest =>
    if needle.isPrefixOf (b :: rest) then some 0 else (position needle rest).map (· + 1)

def crlfcrlf : Bytes := [13, 10, 13, 10]

def lflf : Bytes := [10, 10]

def findHeaderEnd (buf : Bytes) : Option ℕ := (position crlfcrlf buf).or (position lflf buf)

/-- How a connection ends: without an answer, refused, or with a call of `dispatch`. -/
inductive Served
  | closed
  | badRequest
  | dispatched (method path body : Text)
deriving DecidableEq

def readHeader (buf : Bytes) : List Bytes → Served ⊕ (ℕ × Bytes × List Bytes)
  | [] => if buf.length < 16 * 1024 then .inl .closed else .inl .badRequest
  | chunk :: reads =>
    if buf.length < 16 * 1024 then
      match findHeaderEnd (buf ++ chunk) with
      | some pos => .inr (pos, buf ++ chunk, reads)
      | none => readHeader (buf ++ chunk) reads
    else .inl .badRequest

def readBody (contentLength : ℕ) (body : Bytes) : List Bytes → Bytes
  | [] => body
  | chunk :: reads =>
    if body.length < contentLength then readBody contentLength (body ++ chunk) reads else body

def requestLine (line : Text) : Text × Text :=
  ((splitWhitespace line).getD 0 [], (splitWhitespace line).getD 1 ['/'])

def contentLength (lines : List Text) : ℕ :=
  ((lines.filterMap fun l =>
    stripPrefix (toAsciiLowercase (trim l)) "content-length:".toList).findSome? fun v =>
      parseUnsigned 18446744073709551616 (trim v)).getD 0

def handleConnection (reads : List Bytes) : Checked Served :=
  match readHeader [] reads with
  | .inl served => .ok served
  | .inr (headerEnd, buf, reads) => do
    let header ← slice buf 0 headerEnd
    match lines (decodeLossy header) with
    | [] => .ok .closed
    | line :: rest => do
      let (method, path) := requestLine line
      let contentLength := contentLength rest
      let body ← slice buf (headerEnd + 4) buf.length
      let body := readBody contentLength body reads
      let body ← slice body 0 (min contentLength body.length)
      .ok (.dispatched method path (decodeLossy body))

/-- A header with a terminator, of which no part is one before its end, and its declared body. -/
structure Request where
  line : Text
  rest : List Text
  head : Bytes
  lineFeeds : Bool
  body : Bytes
  lines_head : lines (decodeLossy head) = line :: rest
  declared : contentLength rest = body.length
  short : (head ++ if lineFeeds then lflf else crlfcrlf).length < 16 * 1024
  first : ∀ terminator ∈ [crlfcrlf, lflf],
    ¬terminator <:+: (head ++ if lineFeeds then lflf else crlfcrlf).dropLast

namespace Request

variable (r : Request)

def header : Bytes := r.head ++ if r.lineFeeds then lflf else crlfcrlf

def SplitInto (reads : List Bytes) : Prop :=
  (∀ chunk ∈ reads, chunk ≠ [] ∧ chunk.length ≤ 4096) ∧ reads.flatten = r.header ++ r.body

def asked : Served :=
  .dispatched (requestLine r.line).1 (requestLine r.line).2 (decodeLossy r.body)

end Request

variable {needle text : Bytes}

theorem position_eq_none (h : ¬needle <:+: text) : position needle text = none := by
  induction text with
  | nil =>
    refine if_neg ?_
    rintro rfl
    exact h nil_infix
  | cons b text ih =>
    have hs : ¬needle.isPrefixOf (b :: text) := by
      intro hs
      have hp := isPrefixOf_iff_prefix.1 hs
      exact h hp.isInfix
    rw [position, if_neg hs, ih fun hin => h (infix_cons hin), Option.map_none]

theorem position_first (hne : needle ≠ []) (front back : Bytes)
    (h : ¬needle <:+: (front ++ needle).dropLast) :
    position needle (front ++ needle ++ back) = some front.length := by
  induction front with
  | nil =>
    obtain ⟨b, rest, rfl⟩ := exists_cons_of_ne_nil hne
    have hs : (b :: rest).isPrefixOf (b :: (rest ++ back)) :=
      isPrefixOf_iff_prefix.2 (prefix_append (b :: rest) back)
    rw [nil_append, cons_append, position, if_pos hs]
    rfl
  | cons b front ih =>
    have ht : front ++ needle ≠ [] := append_ne_nil_of_right_ne_nil front hne
    have hs : ¬needle.isPrefixOf (b :: (front ++ needle ++ back)) := by
      intro hs
      have hp := isPrefixOf_iff_prefix.1 hs
      have hd := dropLast_prefix (b :: (front ++ needle))
      refine h (prefix_of_prefix_length_le hp (hd.trans (prefix_append _ back)) ?_).isInfix
      rw [length_dropLast, length_cons, length_append]
      omega
    rw [cons_append, dropLast_cons_of_ne_nil ht] at h
    rw [cons_append, cons_append, position, if_neg hs, ih fun hin => h (infix_cons hin)]
    rfl

variable {r : Request} {buf : Bytes} {reads : List Bytes}

theorem findHeaderEnd_of_short (hb : buf <+: r.header) (hl : buf.length < r.header.length) :
    findHeaderEnd buf = none := by
  have hi : buf <:+: r.header.dropLast := by
    have hd := dropLast_prefix r.header
    refine (prefix_of_prefix_length_le hb hd ?_).isInfix
    rw [length_dropLast]
    omega
  have hn (terminator : Bytes) (h : terminator ∈ [crlfcrlf, lflf]) :
      position terminator buf = none :=
    position_eq_none fun hin => r.first terminator h (hin.trans hi)
  rw [findHeaderEnd, hn crlfcrlf mem_cons_self, hn lflf (mem_cons_of_mem _ mem_cons_self)]
  rfl

theorem findHeaderEnd_crlf (h : r.lineFeeds = false) (back : Bytes) :
    findHeaderEnd (r.header ++ back) = some r.head.length := by
  have hf := r.first crlfcrlf mem_cons_self
  rw [h] at hf
  rw [Request.header, h]
  exact congrArg (Option.or · _) (position_first (by decide) r.head back hf)

theorem findHeaderEnd_lf (h : r.lineFeeds) : findHeaderEnd r.header = some r.head.length := by
  have hf := r.first lflf (mem_cons_of_mem _ mem_cons_self)
  have hc := r.first crlfcrlf mem_cons_self
  rw [h, if_pos rfl] at hf hc
  have hn : ¬crlfcrlf <:+: r.head ++ lflf := by
    intro hin
    have hl : r.head ++ lflf = (r.head ++ [10]) ++ [10] := by simp [lflf]
    rw [hl] at hin hc
    rw [dropLast_concat] at hc
    obtain he | hin := infix_concat_iff.1 hin
    · rw [← hl] at he
      exact absurd (suffix_of_suffix_length_le (suffix_append r.head lflf) he (by decide))
        (by decide)
    · exact hc hin
  rw [Request.header, h]
  refine (congrArg (Option.or · _) (position_eq_none hn)).trans ?_
  have hfo := position_first (by decide) r.head [] hf
  rwa [append_nil] at hfo

/-- Reading on until the header is there, in any pieces. -/
theorem readHeader_crlf (h : r.lineFeeds = false)
    (hf : buf ++ reads.flatten = r.header ++ r.body) (hle : buf.length < r.header.length) :
    ∃ got rest, readHeader buf reads = .inr (r.head.length, r.header ++ got, rest) ∧
      got ++ rest.flatten = r.body := by
  have hs : r.header.length < 16 * 1024 := r.short
  induction reads generalizing buf with
  | nil =>
    have hl := congrArg length hf
    rw [flatten_nil, append_nil, length_append] at hl
    omega
  | cons chunk reads ih =>
    rw [flatten_cons, ← append_assoc] at hf
    rw [readHeader, if_pos (by omega)]
    by_cases hm : (buf ++ chunk).length < r.header.length
    · have hi : buf ++ chunk <+: r.header :=
        prefix_of_prefix_length_le ⟨_, hf⟩ (prefix_append _ _) (Nat.le_of_lt hm)
      rw [findHeaderEnd_of_short hi hm]
      exact ih hf hm
    · obtain ⟨got, hg⟩ : r.header <+: buf ++ chunk :=
        prefix_of_prefix_length_le (prefix_append _ _) ⟨_, hf⟩ (Nat.not_lt.1 hm)
      rw [← hg, append_assoc] at hf
      rw [← hg, findHeaderEnd_crlf h]
      exact ⟨got, reads, rfl, append_cancel_left hf⟩

/-- Reading byte by byte stops right behind the line feeds. -/
theorem readHeader_lf (h : r.lineFeeds) {todo : Bytes} (hf : buf ++ todo = r.header)
    (ht : todo ≠ []) (reads : List Bytes) :
    readHeader buf (todo.map ([·]) ++ reads) = .inr (r.head.length, r.header, reads) := by
  have hs : r.header.length < 16 * 1024 := r.short
  induction todo generalizing buf with
  | nil => exact absurd rfl ht
  | cons b todo ih =>
    have hle := congrArg length hf
    rw [length_append, length_cons] at hle
    rw [append_cons] at hf
    rw [map_cons, cons_append, readHeader, if_pos (by omega)]
    by_cases hl : todo = []
    · rw [hl, append_nil] at hf
      rw [hf, findHeaderEnd_lf h, hl]
      rfl
    · have hp := length_pos_of_ne_nil hl
      rw [findHeaderEnd_of_short ⟨todo, hf⟩ (by rw [length_append, length_singleton]; omega)]
      exact ih hf hl

theorem readBody_eq {body got : Bytes} (hf : got ++ reads.flatten = body) :
    readBody body.length got reads = body := by
  induction reads generalizing got with
  | nil => rwa [flatten_nil, append_nil] at hf
  | cons chunk reads ih =>
    rw [readBody]
    split_ifs with hl
    · rw [flatten_cons, ← append_assoc] at hf
      exact ih hf
    · have hi : got <+: body := ⟨_, hf⟩
      exact hi.eq_of_length (Nat.le_antisymm hi.length_le (Nat.not_lt.1 hl))

theorem splitInto_bytes (r : Request) : r.SplitInto (r.header.map ([·]) ++ r.body.map ([·])) := by
  rw [← map_append]
  refine ⟨fun chunk hc => ?_, flatMap_singleton' _⟩
  obtain ⟨b, -, rfl⟩ := List.mem_map.1 hc
  exact ⟨cons_ne_nil b [], Nat.le_add_left 1 4095⟩

theorem handleConnection_lf (h : r.lineFeeds) :
    handleConnection (r.header.map ([·]) ++ r.body.map ([·])) = .error .outOfRange := by
  have hh : r.header = r.head ++ lflf := by rw [Request.header, h, if_pos rfl]
  have hl : r.header.length = r.head.length + 2 := by
    rw [hh, length_append]
    rfl
  have hne : r.header ≠ [] := by
    rw [hh]
    simp [lflf]
  have hb : between r.header 0 r.head.length = r.head := by
    exact take_left
  unfold handleConnection
  rw [readHeader_lf h (nil_append r.header) hne]
  dsimp only
  rw [slice_of_le (Nat.zero_le _) (by omega), ok_bind, hb, r.lines_head]
  rw [slice, if_neg (by omega)]
  rfl

theorem handleConnection_crlf (h : r.lineFeeds = false)
    (hf : reads.flatten = r.header ++ r.body) : handleConnection reads = .ok r.asked := by
  have hh : r.header = r.head ++ crlfcrlf := by rw [Request.header, h]; rfl
  have hl : r.header.length = r.head.length + 4 := by
    rw [hh, length_append]
    rfl
  have he : ([] : Bytes).length < r.header.length := by
    rw [hl]
    exact Nat.succ_pos _
  obtain ⟨got, rest, hre, hb⟩ := readHeader_crlf h hf he
  have hhe : between (r.header ++ got) 0 r.head.length = r.head := by
    rw [hh, append_assoc]
    exact take_left
  have hd : (r.header ++ got).drop (r.head.length + 4) = got := by
    rw [← hl]
    exact drop_left
  have hbu : r.head.length + 4 ≤ (r.header ++ got).length := by
    rw [length_append, hl]
    exact Nat.le_add_right _ _
  unfold handleConnection
  rw [hre]
  dsimp only
  rw [slice_of_le (Nat.zero_le _) (by omega), ok_bind, hhe, r.lines_head]
  dsimp only
  rw [slice_to_end hbu, ok_bind, hd, r.declared, readBody_eq hb, Nat.min_self,
    slice_to_end (Nat.zero_le _)]
  rfl

/-- **A request in any pieces.** It is dispatched as it was sent, however it is read, exactly when
its header ends in carriage returns and line feeds. -/
theorem handleConnection_splits_iff (r : Request) :
    (∀ reads, r.SplitInto reads → handleConnection reads = .ok r.asked) ↔
      r.lineFeeds = false := by
  constructor
  · intro ha
    rw [← Bool.not_eq_true]
    intro h
    have hr := ha _ (splitInto_bytes r)
    rw [handleConnection_lf h] at hr
    cases hr
  · exact fun h reads hs => handleConnection_crlf h hs.2

/-- A request with a body, behind either terminator. -/
def postRequest (lineFeeds : Bool) : Request where
  line := "POST /ctl HTTP/1.1".toList
  rest := ["Content-Length: 5".toList]
  head := "POST /ctl HTTP/1.1\r\nContent-Length: 5".toUTF8.toList
  lineFeeds := lineFeeds
  body := "hello".toUTF8.toList
  lines_head := by decide +kernel
  declared := by decide +kernel
  short := by cases lineFeeds <;> decide +kernel
  first := by cases lineFeeds <;> decide +kernel

/-- The terminator and the body are both read in two pieces. -/
theorem handleConnection_postRequest :
    handleConnection (["POST /ctl HTTP/1.1\r\nContent-Length: 5\r\n\r", "\nhe", "llo"].map
        (·.toUTF8.toList)) =
      .ok (.dispatched "POST".toList "/ctl".toList "hello".toList) ∧
    ¬∀ reads, (postRequest true).SplitInto reads →
      handleConnection reads = .ok (postRequest true).asked := by
  refine ⟨?_, (handleConnection_splits_iff (postRequest true)).not.2 nofun⟩
  rw [(handleConnection_splits_iff (postRequest false)).2 rfl _
    ⟨by decide +kernel, by decide +kernel⟩]
  decide +kernel

theorem lineFeeds_fault :
    fault? (handleConnection ["GET /rootDesc.xml HTTP/1.0\n\n".toUTF8.toList]) =
      some .outOfRange := by
  decide +kernel

end BalanSir.Upnp
