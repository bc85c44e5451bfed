/-
# The table of port mappings

`UpnpManager`: the SOAP actions, the leases and the clean-up.
-/

import BalanSir.Common.Types
import BalanSir.Lib.Run
import BalanSir.Lib.Table
import BalanSir.Upnp.Soap

namespace BalanSir.Upnp

open Common (UpnpOp)
open Lib (Text Table)
open Net (IpAddr Cidr)

structure PortMapping where
  externalPort : UInt16
  proto : String
  internalIp : IpAddr
  internalPort : UInt16
  expiresAt : Option ℕ
  deriving DecidableEq

inductive Reply where
  | notFound
  | deviceDescription (ip : IpAddr) (port : UInt16)
  | soapResponse (action : String)
  | externalIp (ip : IpAddr)
  | entry (mapping : PortMapping)
  | soapError (code : UInt16) (desc : String)
  deriving DecidableEq

structure UpnpManager where
  executor : Bool
  ip : IpAddr
  lanSubnet : Text
  wanInterface : String
  controlPort : UInt16
  deriving DecidableEq

/-- The table, and the calls spawned and not yet carried out, the oldest first. -/
structure State where
  mappings : Table (UInt16 × String) PortMapping := ∅
  spawned : List UpnpOp := []

namespace UpnpManager

variable (m : UpnpManager)

def spawn (op : UpnpOp) (s : State) : State :=
  if m.executor then { s with spawned := s.spawned ++ [op] } else s

def addOp (mapping : PortMapping) : UpnpOp :=
  .addPortMapping mapping.externalPort mapping.proto mapping.internalIp.toText
    mapping.internalPort m.wanInterface

def applyMapping (mapping : PortMapping) (s : State) : State := m.spawn (m.addOp mapping) s

def deleteMapping (externalPort : UInt16) (proto : String) (s : State) : State :=
  m.spawn (.removePortMapping externalPort proto m.wanInterface)
    { s with mappings := s.mappings.erase (externalPort, proto) }

def soapDeletePortMapping (body : Text) (s : State) : Reply × State :=
  (.soapResponse "DeletePortMappingResponse",
    m.deleteMapping (parseU16 body "NewExternalPort".toList) (protoOf body) s)

def enterMapping (mapping : PortMapping) (s : State) : Reply × State :=
  let s := m.applyMapping mapping s
  (.soapResponse "AddPortMappingResponse",
    { s with mappings := s.mappings.insert (mapping.externalPort, mapping.proto) mapping })

def soapAddPortMapping (now : ℕ) (body : Text) (s : State) : Reply × State :=
  let externalPort := parseU16 body "NewExternalPort".toList
  let internalPort := parseU16 body "NewInternalPort".toList
  let internalIp := extractTag body "NewInternalClient".toList
  let proto := protoOf body
  let lease := (parseU32 body "NewLeaseDuration".toList).getD 0
  let enabled := (parseU32 body "NewEnabled".toList).getD 1
  if externalPort = 0 ∨ internalPort = 0 then (.soapError 402 "Invalid Args", s)
  else if proto ≠ "tcp" ∧ proto ≠ "udp" then (.soapError 402 "Invalid Args", s)
  -- not enabled: a delete request
  else if enabled = 0 then m.soapDeletePortMapping body s
  else
    match IpAddr.ofText (String.ofList internalIp) with
    | none => (.soapError 402 "Invalid Args", s)
    | some ip =>
      if !isPrivateUnicast ip then (.soapError 606 "Action not authorized", s)
      else if !isLanPeer m.lanSubnet ip then (.soapError 606 "Action not authorized", s)
      else
        let expiresAt := if lease = 0 then none else some (now + lease.toNat * 1000000000)
        m.enterMapping ⟨externalPort, proto, ip, internalPort, expiresAt⟩ s

def soapGetSpecific (body : Text) (s : State) : Reply :=
  match s.mappings.lookup (parseU16 body "NewExternalPort".toList, protoOf body) with
  | some mapping => .entry mapping
  | none => .soapError 714 "NoSuchEntryInArray"

def handleSoap (now : ℕ) (body : Text) (s : State) : Reply × State :=
  let action := String.ofList (actionOf body)
  if action = "AddPortMapping" then m.soapAddPortMapping now body s
  else if action = "DeletePortMapping" then m.soapDeletePortMapping body s
  else if action = "GetExternalIPAddress" then (.externalIp m.ip, s)
  else if action = "GetSpecificPortMappingEntry" then (soapGetSpecific body s, s)
  else (.soapError 401 "Invalid Action", s)

def dispatch (now : ℕ) (method path : String) (body : Text) (s : State) : Reply × State :=
  if method = "GET" ∧ path = "/rootDesc.xml" then (.deviceDescription m.ip m.controlPort, s)
  else if method = "POST" ∧ path = "/upnp/control/WANIPConnection" then m.handleSoap now body s
  else (.notFound, s)

def expired (now : ℕ) (s : State) : List (UInt16 × String) :=
  (s.mappings.entries.filter fun e => e.2.expiresAt.any (· ≤ now)).map (·.1)

def expire (now : ℕ) (s : State) : State :=
  (expired now s).foldl (fun s key => m.deleteMapping key.1 key.2 s) s

inductive Event where
  | request (now : ℕ) (method path : String) (body : Text)
  | sweep (now : ℕ)
  deriving DecidableEq

def handle : Event → State → State
  | .request now method path body, s => (m.dispatch now method path body s).2
  | .sweep now, s => m.expire now s

/-- A change of the table and the call that goes with it. -/
inductive Change where
  | enter (mapping : PortMapping)
  | drop (externalPort : UInt16) (proto : String)
  deriving DecidableEq

def make : Change → State → State
  | .enter mapping, s => (m.enterMapping mapping s).2
  | .drop externalPort proto, s => m.deleteMapping externalPort proto s

/-- The mapping has passed the checks of `soap_add_port_mapping`. -/
structure Admitted (mapping : PortMapping) : Prop where
  externalPort_ne : mapping.externalPort ≠ 0
  internalPort_ne : mapping.internalPort ≠ 0
  proto_eq : mapping.proto = "tcp" ∨ mapping.proto = "udp"
  privateUnicast : isPrivateUnicast mapping.internalIp = true
  lanPeer : isLanPeer m.lanSubnet mapping.internalIp = true

def Allowed : Change → Prop
  | .enter mapping => m.Admitted mapping
  | .drop _ proto => proto.toLower = proto

variable {m} {mapping : PortMapping}

theorem Admitted.exists_v4 (h : m.Admitted mapping) : ∃ a, mapping.internalIp = .v4 a := by
  cases hip : mapping.internalIp with
  | v4 a => exact ⟨a, rfl⟩
  | v6 a =>
    have hl := h.lanPeer
    rw [hip] at hl
    exact absurd hl Bool.false_ne_true

variable (m) in
def Changed : State → State → Prop :=
  Relation.ReflTransGen fun s s' => ∃ c, m.Allowed c ∧ s' = m.make c s

theorem Changed.one {c : Change} (h : m.Allowed c) (s : State) : m.Changed s (m.make c s) :=
  .single ⟨c, h, rfl⟩

variable {s : State} {net : BitVec 32} {length : UInt8}

theorem Changed.invariant {I : State → Prop} (hI : ∀ c s, m.Allowed c → I s → I (m.make c s))
    {s' : State} (h : m.Changed s s') (hs : I s) : I s' := by
  induction h with
  | refl => exact hs
  | tail _ hl ih =>
    obtain ⟨c, hc, rfl⟩ := hl
    exact hI c _ hc ih

theorem changed_soapDeletePortMapping (body : Text) (s : State) :
    m.Changed s (m.soapDeletePortMapping body s).2 :=
  Changed.one (c := .drop _ _) (toLower_protoOf body) s

theorem changed_soapAddPortMapping (now : ℕ) (body : Text) (s : State) :
    m.Changed s (m.soapAddPortMapping now body s).2 := by
  unfold soapAddPortMapping
  dsimp only
  split
  · exact .refl
  next hp =>
  split
  · exact .refl
  next hpr =>
  split
  · exact changed_soapDeletePortMapping body s
  split
  · exact .refl
  split
  · exact .refl
  next hpri =>
  split
  · exact .refl
  next hl =>
  rw [not_or] at hp
  rw [not_and_or, not_ne_iff, not_ne_iff] at hpr
  rw [Bool.not_eq_true, Bool.not_eq_false'] at hpri hl
  exact Changed.one (c := .enter _) ⟨hp.1, hp.2, hpr, hpri, hl⟩ s

theorem changed_dispatch (now : ℕ) (method path : String) (body : Text) (s : State) :
    m.Changed s (m.dispatch now method path body s).2 := by
  unfold dispatch handleSoap
  dsimp only
  split_ifs
  case pos => exact .refl
  · exact changed_soapAddPortMapping now body s
  · exact changed_soapDeletePortMapping body s
  all_goals exact .refl

@[simp] theorem mappings_spawn (op : UpnpOp) (s : State) :
    (m.spawn op s).mappings = s.mappings := by
  unfold spawn
  split <;> rfl

theorem mappings_make_enter (mapping : PortMapping) (s : State) :
    (m.make (.enter mapping) s).mappings =
      s.mappings.insert (mapping.externalPort, mapping.proto) mapping := by
  simp [make, enterMapping, applyMapping]

theorem mappings_make_drop (externalPort : UInt16) (proto : String) (s : State) :
    (m.make (.drop externalPort proto) s).mappings = s.mappings.erase (externalPort, proto) := by
  simp [make, deleteMapping]

variable (m) in
def TableAdmitted (s : State) : Prop :=
  ∀ key mapping, s.mappings.lookup key = some mapping →
    key = (mapping.externalPort, mapping.proto) ∧ m.Admitted mapping

theorem tableAdmitted_init : m.TableAdmitted {} := fun _ _ h => absurd h (by simp)

theorem TableAdmitted.make (h : m.TableAdmitted s) {c : Change} (hc : m.Allowed c) :
    m.TableAdmitted (m.make c s) := by
  intro key mapping hl
  cases c with
  | enter entered =>
    rw [mappings_make_enter] at hl
    by_cases hk : key = (entered.externalPort, entered.proto)
    · rw [hk, AList.lookup_insert] at hl
      obtain rfl := Option.some.inj hl
      exact ⟨hk, hc⟩
    · rw [AList.lookup_insert_ne hk] at hl
      exact h key mapping hl
  | drop externalPort proto =>
    rw [mappings_make_drop] at hl
    by_cases hk : key = (externalPort, proto)
    · rw [hk] at hl
      exact absurd hl (by simp)
    · rw [AList.lookup_erase_ne hk] at hl
      exact h key mapping hl

theorem Admitted.toLower_proto (h : m.Admitted mapping) :
    mapping.proto.toLower = mapping.proto := by
  rcases h.proto_eq with hp | hp <;> rw [hp] <;> decide +kernel

theorem toLower_of_mem_expired (hs : m.TableAdmitted s) {now : ℕ} {key : UInt16 × String}
    (hk : key ∈ expired now s) : key.2.toLower = key.2 := by
  obtain ⟨⟨key, mapping⟩, he, rfl⟩ := List.mem_map.1 hk
  have hm := (List.mem_filter.1 he).1
  obtain ⟨rfl, ha⟩ := hs key mapping (AList.mem_lookup_iff.2 hm)
  exact ha.toLower_proto

theorem changed_expire (now : ℕ) (hs : m.TableAdmitted s) : m.Changed s (m.expire now s) := by
  have hk : ∀ key ∈ expired now s, key.2.toLower = key.2 := fun _ =>
    toLower_of_mem_expired hs
  unfold expire
  clear hs
  revert hk
  generalize expired now s = keys
  induction keys generalizing s with
  | nil => exact fun _ => .refl
  | cons key keys ih =>
    intro hk
    have hf : m.Changed s (m.make (.drop key.1 key.2) s) :=
      Changed.one (c := .drop _ _) (hk key List.mem_cons_self) s
    exact hf.trans (ih fun key' hm => hk key' (List.mem_cons_of_mem _ hm))

/-- **An event makes allowed changes only.** -/
theorem changed_handle (e : Event) (hs : m.TableAdmitted s) : m.Changed s (m.handle e s) := by
  cases e with
  | request now method path body => exact changed_dispatch now method path body s
  | sweep now => exact changed_expire now hs

theorem TableAdmitted.handle (hs : m.TableAdmitted s) (e : Event) :
    m.TableAdmitted (m.handle e s) :=
  (changed_handle e hs).invariant (fun _ _ hc h => h.make hc) hs

/-- What an entry of the table has to be, for a LAN of addresses. -/
structure WellFormed (lan : Cidr) (key : UInt16 × String) (mapping : PortMapping) : Prop where
  proto : mapping.proto = "tcp" ∨ mapping.proto = "udp"
  externalPort : mapping.externalPort ≠ 0
  internalPort : mapping.internalPort ≠ 0
  key : key = (mapping.externalPort, mapping.proto)
  target : ∃ a, mapping.internalIp = .v4 a ∧ (∃ range ∈ privateRanges, range.contains (.v4 a)) ∧
    lan.contains (.v4 a)

theorem Admitted.wellFormed (h : m.Admitted mapping)
    (hs : parseCidr m.lanSubnet = some (net, length)) (hl : length.toNat ≤ 32) :
    WellFormed ⟨.v4 net, length.toNat⟩ (mapping.externalPort, mapping.proto) mapping where
  proto := h.proto_eq
  externalPort := h.externalPort_ne
  internalPort := h.internalPort_ne
  key := rfl
  target := by
    obtain ⟨a, ha⟩ := h.exists_v4
    have hp := h.privateUnicast
    have hla := h.lanPeer
    rw [ha, isPrivateUnicast_v4, List.any_eq_true] at hp
    rw [ha, isLanPeer_eq hs hl] at hla
    exact ⟨a, ha, hp, hla⟩

theorem tableAdmitted_run (events : List Event) : m.TableAdmitted (Lib.run m.handle events {}) :=
  Lib.run_invariant (fun e _ hs => hs.handle e) events tableAdmitted_init

/-- **Every entry of the table is well formed:** under its own port and protocol, and to a private
IPv4 address of the LAN. -/
theorem table_wellFormed
    (hsubnet : parseCidr m.lanSubnet = some (net, length)) (hlength : length.toNat ≤ 32)
    (events : List Event) {key : UInt16 × String} {mapping : PortMapping}
    (hlookup : (Lib.run m.handle events {}).mappings.lookup key = some mapping) :
    WellFormed ⟨.v4 net, length.toNat⟩ key mapping := by
  obtain ⟨rfl, ha⟩ := tableAdmitted_run events key mapping hlookup
  exact ha.wellFormed hsubnet hlength

def homeManager : UpnpManager :=
  ⟨true, .ofOctets 192 168 3 2, "192.168.3.0/24".toList, "eth0", 3721⟩

def addWeb (client : String) : Event :=
  .request 0 "POST" "/upnp/control/WANIPConnection" (addBody client)

theorem table_wellFormed_web : WellFormed ⟨.ofOctets 192 168 3 0, 24⟩ (8080, "tcp")
      ⟨8080, "tcp", .ofOctets 192 168 3 10, 80, none⟩ :=
  @table_wellFormed homeManager 0xC0A80300 24 (by decide +kernel) (by decide)
    [addWeb "192.168.3.10"] _ _ (by decide +kernel)

end UpnpManager
end BalanSir.Upnp
