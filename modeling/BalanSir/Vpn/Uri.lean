/-
# URIs of VPN configurations

`uri.rs`: `parse` and its parts.
-/

import BalanSir.Lib.Utf8

namespace BalanSir.Vpn

open Lib

structure ParsedUri where
  scheme : Text
  userinfo : Text
  host : Text
  port : Option UInt16
  query : List (Text × Text)
  fragment : Option Text
  deriving DecidableEq

def ParsedUri.get (uri : ParsedUri) (key : String) : Option Text :=
  (uri.query.find? fun p => p.1 == key.toList).map Prod.snd

def hexVal (b : UInt8) : Option UInt8 :=
  if 0x30 ≤ b ∧ b ≤ 0x39 then some (b - 0x30)
  else if 0x61 ≤ b ∧ b ≤ 0x66 then some (b - 0x61 + 10)
  else if 0x41 ≤ b ∧ b ≤ 0x46 then some (b - 0x41 + 10)
  else none

def percentDecodeBytes : List UInt8 → List UInt8
  | [] => []
  | b :: rest =>
    match rest with
    | h :: l :: rest' =>
      if b = 0x25 then
        match hexVal h, hexVal l with
        | some hi, some lo => ((hi <<< 4) ||| lo) :: percentDecodeBytes rest'
        | _, _ => b :: percentDecodeBytes (h :: l :: rest')
      else b :: percentDecodeBytes (h :: l :: rest')
    | [h] => b :: percentDecodeBytes [h]
    | [] => [b]

def percentDecode (s : Text) : Text := decodeLossy (percentDecodeBytes (encode s))

def parseQuery (q : Text) : List (Text × Text) :=
  if q = [] then []
  else ((q.splitOn '&').filter (· ≠ [])).map fun pair =>
    match splitOnceAt '=' pair with
    | some (k, v) => (k, percentDecode v)
    | none => (pair, [])

def parsePort (text : Text) : Option UInt16 := (parseUnsigned 65536 text).map UInt16.ofNat

/-- A colon without a number behind it is refused. -/
def splitHostPort (hostport : Text) : Option (Text × Option UInt16) :=
  if hostport = [] then none
  else if startsWith hostport ['['] then do
    -- `[ipv6]` or `[ipv6]:port`
    let (host, tail) ← splitOnceAt ']' (hostport.drop 1)
    if startsWith tail [':'] then
      let port ← parsePort (tail.drop 1)
      return (host, some port)
    else if tail = [] then return (host, none)
    else none
  else
    match rsplitOnceAt ':' hostport with
    | some (h, p) => do
      if h = [] ∨ p = [] then none
      else if ':' ∈ h then none
      else
        let port ← parsePort p
        return (h, some port)
    | none => some (hostport, none)

/-- `parse`, in the order of its checks. -/
def parse (uri : Text) : Option ParsedUri := do
  if byteLen uri > 4096 ∨ uri = [] then none
  else
    let (scheme, rest) ← splitOnce "://".toList uri
    if scheme = [] ∨ ¬scheme.all (fun c => isAsciiAlphanumeric c || c == '-') then none
    else
      let (beforeFrag, fragment) := match splitOnceAt '#' rest with
        | some (b, f) => (b, some (percentDecode f))
        | none => (rest, none)
      let (beforeQuery, query) := match splitOnceAt '?' beforeFrag with
        | some (b, q) => (b, parseQuery q)
        | none => (beforeFrag, [])
      let (userinfo, hostport) := match splitOnceAt '@' beforeQuery with
        | some (u, h) => (percentDecode u, h)
        | none => ([], beforeQuery)
      let (host, port) ← splitHostPort hostport
      if host = [] then none
      else return { scheme := toAsciiLowercase scheme, userinfo, host, port, query, fragment }

end BalanSir.Vpn
