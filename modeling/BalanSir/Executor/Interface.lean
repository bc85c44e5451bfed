/-
# Cloning and restoring the MAC of an interface

`NetlinkInterfaceBackend`: `set_mac` keeps the address before it for `restore_mac`.
-/

import BalanSir.Lib.Table
import BalanSir.Net.Mac

namespace BalanSir.Executor

open Lib Net

/-- A link as netlink dumps it. -/
structure Link where
  index : ℕ
  address : List UInt8
  permAddress : Option (List UInt8)
  deriving DecidableEq

/-- The links by name, and the file with the MACs before the last clones. -/
structure MacHost where
  links : Table Text Link
  macState : Option (Table Text Text)

structure InterfaceResult where
  ok : Bool
  detail : Text
  hardwareMac : Option Text
  currentMac : Option Text
  previousMac : Option Text
  deriving DecidableEq

namespace MacHost

variable (interface : Text) (host : MacHost)

/-- `IFLA_PERM_ADDRESS`, if it has six bytes. -/
def permanentMac : Option Text :=
  (host.links.lookup interface).bind fun link => link.permAddress.bind formatMac

def currentMac : Option Text :=
  (host.links.lookup interface).bind fun link => formatMac link.address

def findIndex : Except Text ℕ :=
  match host.links.lookup interface with
  | some link => .ok link.index
  | none => .error ("interface ".toList ++ interface ++ " not found".toList)

/-- What the netlink request does when it is accepted. -/
def setAddress (bytes : List UInt8) : MacHost :=
  match host.links.lookup interface with
  | some link =>
    { host with links := host.links.insert interface { link with address := bytes } }
  | none => host

/-- `remember_previous_mac`: only the last MAC of an interface is kept. -/
def rememberPreviousMac (mac : Text) : MacHost :=
  { host with macState := some ((host.macState.getD ∅).insert interface mac) }

def rememberedPreviousMac : Option Text :=
  host.macState.bind fun map => map.lookup interface

def forgetPreviousMac : MacHost :=
  if (host.rememberedPreviousMac interface).isSome then
    { host with macState := host.macState.map fun map => map.erase interface }
  else host

/-- `set_mac`; `accepted` is how the netlink request ends. -/
def setMac (mac : Text) (accepted : Except Text Unit) : Except Text (InterfaceResult × MacHost) :=
  match validateMac mac with
  | none => .error ("invalid MAC address: ".toList ++ mac)
  | some mac =>
    match host.findIndex interface with
    | .error e => .error e
    | .ok _ =>
      match accepted with
      | .error e => .error ("set MAC ".toList ++ interface ++ ": ".toList ++ e)
      | .ok () =>
        let cloned := host.setAddress interface (macBytes mac)
        .ok ({ ok := true
               detail := "MAC cloned to ".toList ++ mac
               hardwareMac := host.permanentMac interface
               currentMac := some mac
               previousMac := host.currentMac interface },
          match host.currentMac interface with
          | some previous => cloned.rememberPreviousMac interface previous
          | none => cloned)

/-- `restore_mac`: the permanent MAC, else the remembered one, which is then kept. -/
def restoreMac (accepted : Except Text Unit) : Except Text (InterfaceResult × MacHost) :=
  match (host.permanentMac interface).or (host.rememberedPreviousMac interface) with
  | none =>
    .error ("no permanent hardware MAC".toList ++ " available for ".toList ++ interface)
  | some target =>
    match host.findIndex interface with
    | .error e => .error e
    | .ok _ =>
      match accepted with
      | .error e => .error ("restore MAC ".toList ++ interface ++ ": ".toList ++ e)
      | .ok () =>
        let restored := host.setAddress interface (macBytes target)
        .ok ({ ok := true
               detail := "MAC restored to factory ".toList ++ target
               hardwareMac := host.permanentMac interface
               currentMac := some target
               previousMac := none },
          if (host.permanentMac interface).isSome then restored.forgetPreviousMac interface
          else restored)

/-- Clones to one MAC after the other, until one fails. -/
def clones : List Text → MacHost → Except Text MacHost
  | [], host => .ok host
  | mac :: macs, host =>
    match host.setMac interface mac (.ok ()) with
    | .error e => .error e
    | .ok (_, host) => clones macs host

/-- An interface without a permanent MAC and with an address of six bytes. -/
structure Clonable (address : List UInt8) : Prop where
  noPermanent : host.permanentMac interface = none
  length_eq : address.length = 6
  lookup_eq : ∃ link, host.links.lookup interface = some link ∧ link.address = address

variable {interface host} {host' : MacHost} {address : List UInt8}
  {bytes : List UInt8} {result : InterfaceResult}

theorem Clonable.currentMac (h : host.Clonable interface address) :
    host.currentMac interface = some (macText address) := by
  obtain ⟨link, hl, rfl⟩ := h.lookup_eq
  rw [MacHost.currentMac, hl, Option.bind_some, formatMac, if_neg (not_not.2 h.length_eq)]

theorem Clonable.findIndex (h : host.Clonable interface address) :
    ∃ index, host.findIndex interface = .ok index := by
  obtain ⟨link, hl, -⟩ := h.lookup_eq
  exact ⟨link.index, by rw [MacHost.findIndex, hl]⟩

theorem Clonable.setAddress (h : host.Clonable interface address)
    (hb : bytes.length = 6) : (host.setAddress interface bytes).Clonable interface bytes := by
  obtain ⟨link, hl, -⟩ := h.lookup_eq
  have hp := h.noPermanent
  rw [permanentMac, hl] at hp
  have hs : (host.setAddress interface bytes).links.lookup interface =
      some { link with address := bytes } := by
    rw [MacHost.setAddress, hl]
    exact AList.lookup_insert _
  refine ⟨?_, hb, _, hs, rfl⟩
  rw [permanentMac, hs]
  exact hp

/-- **One clone**: the new address is in force and the one before is remembered. -/
theorem Clonable.of_setMac (h : host.Clonable interface address) {mac : Text}
    (hs : host.setMac interface mac (.ok ()) = .ok (result, host')) :
    (∃ bytes, host'.Clonable interface bytes) ∧
      host'.rememberedPreviousMac interface = some (macText address) := by
  unfold setMac at hs
  cases hm : validateMac mac with
  | none =>
    rw [hm] at hs
    cases hs
  | some canonical =>
    obtain ⟨index, hi⟩ := h.findIndex
    rw [hm] at hs
    rw [hi, h.currentMac] at hs
    cases hs
    obtain ⟨bytes, hb, rfl⟩ := exists_of_validateMac hm
    rw [macBytes_macText (List.ne_nil_of_length_eq_add_one hb)]
    obtain ⟨hp, hl, hli⟩ := h.setAddress hb
    exact ⟨⟨bytes, hp, hl, hli⟩, AList.lookup_insert _⟩

theorem Clonable.of_clones {macs : List Text} (h : host.Clonable interface address)
    (hc : clones interface macs host = .ok host') :
    ∃ address', host'.Clonable interface address' := by
  induction macs generalizing host address with
  | nil =>
    cases hc
    exact ⟨address, h⟩
  | cons mac macs ih =>
    unfold clones at hc
    cases hs : host.setMac interface mac (.ok ()) with
    | error e =>
      rw [hs] at hc
      cases hc
    | ok x =>
      rw [hs] at hc
      obtain ⟨⟨bytes, hb⟩, -⟩ := h.of_setMac hs
      exact ih hb hc

theorem Clonable.restoreMac (h : host.Clonable interface address)
    (hb : bytes.length = 6) (hr : host.rememberedPreviousMac interface = some (macText bytes)) :
    ∃ result host', host.restoreMac interface (.ok ()) = .ok (result, host') ∧
      host'.currentMac interface = some (macText bytes) := by
  obtain ⟨index, hi⟩ := h.findIndex
  have hre := (h.setAddress hb).currentMac
  unfold MacHost.restoreMac
  rw [h.noPermanent, hr, Option.none_or]
  dsimp only
  rw [hi, macBytes_macText (List.ne_nil_of_length_eq_add_one hb)]
  exact ⟨_, _, rfl, hre⟩

/-- **Restoring undoes the last clone** on an interface without a permanent MAC, after any
successful clones. -/
theorem restore_undoes_last_clone {before : List Text} {mac : Text} {host₀ host₁ : MacHost}
    (h : host.Clonable interface address) (hbefore : clones interface before host = .ok host₀)
    (hlast : host₀.setMac interface mac (.ok ()) = .ok (result, host₁)) :
    ∃ result' host₂, host₁.restoreMac interface (.ok ()) = .ok (result', host₂) ∧
      host₂.currentMac interface = host₀.currentMac interface ∧
      (host₀.currentMac interface).isSome := by
  obtain ⟨address₀, h₀⟩ := h.of_clones hbefore
  obtain ⟨⟨bytes, h₁⟩, hr⟩ := h₀.of_setMac hlast
  obtain ⟨result', host₂, hre, hc⟩ := h₁.restoreMac h₀.length_eq hr
  refine ⟨result', host₂, hre, ?_, ?_⟩
  · rw [hc, h₀.currentMac]
  · rw [h₀.currentMac]
    rfl

end MacHost

/-- A virtual interface: it has no permanent MAC. -/
def virtualHost : MacHost where
  links := AList.singleton "wan0".toList ⟨2, [2, 0, 0, 0, 0, 1], none⟩
  macState := none

/-- Three clones and a restore. -/
theorem restore_after_clones : ∃ host₀ result host₁ result' host₂,
    MacHost.clones "wan0".toList ["02:00:00:00:00:02".toList, "02:00:00:00:00:03".toList]
      virtualHost = .ok host₀ ∧
    host₀.setMac "wan0".toList "02:00:00:00:00:04".toList (.ok ()) = .ok (result, host₁) ∧
    host₁.restoreMac "wan0".toList (.ok ()) = .ok (result', host₂) ∧
    host₂.currentMac "wan0".toList = some "02:00:00:00:00:03".toList := by
  have hc : virtualHost.Clonable "wan0".toList [2, 0, 0, 0, 0, 1] :=
    ⟨rfl, rfl, _, rfl, rfl⟩
  have hm : ∃ host₀ result host₁, MacHost.clones "wan0".toList
      ["02:00:00:00:00:02".toList, "02:00:00:00:00:03".toList] virtualHost = .ok host₀ ∧
      host₀.setMac "wan0".toList "02:00:00:00:00:04".toList (.ok ()) = .ok (result, host₁) ∧
      host₀.currentMac "wan0".toList = some "02:00:00:00:00:03".toList :=
    ⟨_, _, _, rfl, rfl, by decide +kernel⟩
  obtain ⟨host₀, result, host₁, hb, hl, hm⟩ := hm
  obtain ⟨result', host₂, hr, hcu, -⟩ := MacHost.restore_undoes_last_clone hc hb hl
  exact ⟨host₀, result, host₁, result', host₂, hb, hl, hr, hcu.trans hm⟩

/-- Two clones and a restore: the interface is left with the MAC of the first clone. -/
theorem restore_keeps_first_clone : ∃ host₁ result host₂,
    MacHost.clones "wan0".toList ["02:00:00:00:00:02".toList, "02:00:00:00:00:03".toList]
      virtualHost = .ok host₁ ∧ host₁.restoreMac "wan0".toList (.ok ()) = .ok (result, host₂) ∧
    host₂.currentMac "wan0".toList = some "02:00:00:00:00:02".toList ∧
    virtualHost.currentMac "wan0".toList = some "02:00:00:00:00:01".toList :=
  ⟨_, _, _, rfl, rfl, by decide +kernel, by decide +kernel⟩

end BalanSir.Executor
