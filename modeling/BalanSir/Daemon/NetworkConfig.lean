/-
# Gateway port roles

`resolve_roles` and `validate` of `network_config.rs`: a role is given by a matcher on what an
interface is, by a name, or by the default route. What a matcher asks for is said a second time,
without the code's own filter, and compared with what it accepts.
-/

import BalanSir.Lib.Checked
import BalanSir.Net.Mac

namespace BalanSir.Daemon
namespace Roles

open Lib Net List

/-- What the functions below read of an `InterfaceInfo`. -/
structure InterfaceInfo where
  name : Text
  kind : Option Text := none
  mac : Option Text := none
  hardwareMac : Option Text := none
  linkUp : Bool := false
  driver : Option Text := none
  vendorId : Option Text := none
  productId : Option Text := none
  deriving DecidableEq

structure IfaceMatcher where
  name : Option Text := none
  mac : Option Text := none
  driver : Option Text := none
  usb : Option Text := none
  deriving DecidableEq

/-- `RoleResolveError`, and for `NoMatch` which of its two reasons. -/
inductive RoleResolveError where
  | noCriteria
  | noMatch (described : Text)
  | ambiguous (candidates : List Text)
  deriving DecidableEq

def trimHexMarks : Text → Text
  | '0' :: 'x' :: rest => trimHexMarks rest
  | text => text

def norm (text : Text) : Text := toAsciiLowercase (trimHexMarks text)

namespace IfaceMatcher

def isEmpty (m : IfaceMatcher) : Bool :=
  m.name.isNone && m.mac.isNone && m.driver.isNone && m.usb.isNone

def describe (m : IfaceMatcher) : Text :=
  List.intercalate [','] ((m.name.map ("name=".toList ++ ·)).toList ++
    (m.mac.map ("mac=".toList ++ ·)).toList ++ (m.driver.map ("driver=".toList ++ ·)).toList ++
    (m.usb.map ("usb=".toList ++ ·)).toList)

def usbMatches (usb : Text) (i : InterfaceInfo) : Bool :=
  let (wvid, wpid) := (splitOnceAt ':' usb).getD (usb, [])
  norm wvid == (i.vendorId.map norm).getD [] &&
    (wpid.isEmpty || norm wpid == (i.productId.map norm).getD [])

def accepts (m : IfaceMatcher) (i : InterfaceInfo) : Bool :=
  if m.name.any fun name => i.name ≠ name then false
  else if m.mac.any fun mac =>
      i.mac ≠ some (toAsciiLowercase mac) && i.hardwareMac ≠ some (toAsciiLowercase mac) then false
  else if m.driver.any fun driver => i.driver ≠ some driver then false
  else if m.usb.any fun usb => !usbMatches (toAsciiLowercase usb) i then false
  else true

def resolve (m : IfaceMatcher) (interfaces : List InterfaceInfo) :
    Except RoleResolveError Text :=
  if m.isEmpty then .error .noCriteria
  else match interfaces.filter m.accepts with
    | [] => .error (.noMatch m.describe)
    | [i] => .ok i.name
    | matched => .error (.ambiguous (matched.map (·.name)))

end IfaceMatcher

/-- `NetworkConfig`, without what only the cloning reads. -/
structure NetworkConfig where
  wanInterface : Option Text := none
  lanInterface : Option Text := none
  wanMatch : Option IfaceMatcher := none
  lanMatch : Option IfaceMatcher := none
  wanMac : Option Text := none
  lanSubnet : Text := "192.168.3.0/24".toList
  deriving DecidableEq

def isEthernetLike (i : InterfaceInfo) : Bool :=
  match i.kind with
  | none => true
  | some kind => kind == "ether".toList || kind == "eth".toList || kind.isEmpty

def splitWhitespace (text : Text) : List Text :=
  (text.splitOnP isWhitespace).filter fun word => !word.isEmpty

def defaultRouteOf (line : Text) : Option (Option Text) :=
  match splitWhitespace line with
  | iface :: destination :: _ :: flags :: _ =>
    match fromHex 4294967296 flags with
    | none => some none
    | some flags =>
      if destination = "00000000".toList ∧ flags &&& 3 = 3 then some (some iface) else none
  | _ => none

def defaultRouteInterface (procNetRoute : Option Text) : Option Text :=
  procNetRoute.bind fun content => (((lines content).drop 1).findSome? defaultRouteOf).join

def byDefaultRoute (eth : List InterfaceInfo) (route : Option Text) :
    Option (Option (Text × Text)) :=
  match route with
  | none => none
  | some wan =>
    match eth.find? (·.name = wan) with
    | none => none
    | some wanInfo =>
      let others := eth.filter (·.name ≠ wan)
      if wanInfo.linkUp then
        match others.filter (·.linkUp), others with
        | [lan], _ => some (some (wan, lan.name))
        | _, [lan] => some (some (wan, lan.name))
        | _, _ => some none
      else none

def autoAssignRoles (procNetRoute : Option Text) (interfaces : List InterfaceInfo) :
    Option (Text × Text) :=
  let eth := interfaces.filter fun i => isEthernetLike i && i.name ≠ "lo".toList
  if eth.length < 2 then none
  else match byDefaultRoute eth (defaultRouteInterface procNetRoute) with
    | some decided => decided
    | none =>
      match eth.filter (·.linkUp) with
      | [up] =>
        match eth.filter (·.name ≠ up.name) with
        | [lan] => some (up.name, lan.name)
        | _ => none
      | _ => none

/-- Why `resolve_roles` or `validate` refuses a configuration. -/
inductive ConfigError where
  | wanMatch (described : Text) (e : RoleResolveError)
  | lanMatch (described : Text) (e : RoleResolveError)
  | collide (name : Text)
  | autoAmbiguous
  | incomplete (wan lan : Option Text)
  | sameInterface (name : Text)
  | doesNotExist (role name : Text)
  | notEthernet (role name : Text) (kind : Option Text)
  | invalidWanMac (mac : Text)
  | invalidLanSubnet (subnet : Text)
  deriving DecidableEq

def byMatcher (wrap : Text → RoleResolveError → ConfigError) (matcher : Option IfaceMatcher)
    (interfaces : List InterfaceInfo) : Except ConfigError (Option Text) :=
  match matcher with
  | none => .ok none
  | some m =>
    match m.resolve interfaces with
    | .ok name => .ok (some name)
    | .error e => .error (wrap m.describe e)

def resolveRoles (procNetRoute : Option Text) (config : NetworkConfig)
    (interfaces : List InterfaceInfo) : Except ConfigError (Text × Text) := do
  let wan ← byMatcher .wanMatch config.wanMatch interfaces
  let lan ← byMatcher .lanMatch config.lanMatch interfaces
  match wan.or config.wanInterface, lan.or config.lanInterface with
  | some w, some l => if w = l then .error (.collide w) else .ok (w, l)
  | none, none =>
    match autoAssignRoles procNetRoute interfaces with
    | some roles => .ok roles
    | none => .error .autoAmbiguous
  | wan, lan => .error (.incomplete wan lan)

def parseCidr (cidr : Text) : Option IpAddr :=
  IpAddr.ofText (String.ofList (((rsplitOnceAt '/' (trim cidr)).map (·.1)).getD cidr))

def checkRole (interfaces : List InterfaceInfo) (role : String) (name : Text) :
    Except ConfigError Unit :=
  match interfaces.find? (·.name = name) with
  | none => .error (.doesNotExist role.toList name)
  | some info =>
    if isEthernetLike info then .ok () else .error (.notEthernet role.toList name info.kind)

def validate (procNetRoute : Option Text) (config : NetworkConfig)
    (interfaces : List InterfaceInfo) : Except ConfigError Unit :=
  if config.wanInterface.isNone && config.lanInterface.isNone && config.wanMatch.isNone &&
      config.lanMatch.isNone then .ok ()
  else do
    let (wan, lan) ← resolveRoles procNetRoute config interfaces
    if wan = lan then throw (.sameInterface wan)
    checkRole interfaces "wan" wan
    checkRole interfaces "lan" lan
    if let some mac := config.wanMac then
      if (validateMac mac).isNone then throw (.invalidWanMac mac)
    if (parseCidr config.lanSubnet).isNone then throw (.invalidLanSubnet config.lanSubnet)

namespace IfaceMatcher

variable {m : IfaceMatcher} {i : InterfaceInfo} {interfaces interfaces' : List InterfaceInfo}
  {name : Text}

/-- The text is marks `0x` and then digits that begin with none. -/
def HexText (text digits : Text) : Prop :=
  (∃ n, text = (replicate n ['0', 'x']).flatten ++ digits) ∧ ¬['0', 'x'] <+: digits

/-- Two texts of one id: their digits are the same up to case. -/
def SameId (a b : Text) : Prop :=
  ∃ d d', HexText a d ∧ HexText b d' ∧ toAsciiLowercase d = toAsciiLowercase d'

/-- The criterion is `vid` or `vid:pid`. -/
def UsbParts (usb vid pid : Text) : Prop :=
  ':' ∉ vid ∧ (usb = vid ++ ':' :: pid ∨ usb = vid ∧ pid = [])

/-- The interface has the vendor id and, where the criterion gives one, the product id. -/
def HasUsbId (usb : Text) (i : InterfaceInfo) : Prop :=
  ∃ vid pid, UsbParts (toAsciiLowercase usb) vid pid ∧
    (∃ vendor, i.vendorId = some vendor ∧ SameId vid vendor) ∧
    (pid ≠ [] → ∃ product, i.productId = some product ∧ SameId pid product)

/-- The criterion gives no digits for an id that the interface does not have. -/
def LacksUsbId (usb : Text) (i : InterfaceInfo) : Prop :=
  ∃ vid pid, UsbParts (toAsciiLowercase usb) vid pid ∧
    (HexText vid [] ∧ i.vendorId = none ∨ pid ≠ [] ∧ HexText pid [] ∧ i.productId = none)

/-- The interface meets every criterion that is set. -/
structure Satisfies (m : IfaceMatcher) (i : InterfaceInfo) : Prop where
  name : ∀ name, m.name = some name → i.name = name
  mac : ∀ mac, m.mac = some mac →
    i.mac = some (toAsciiLowercase mac) ∨ i.hardwareMac = some (toAsciiLowercase mac)
  driver : ∀ driver, m.driver = some driver → i.driver = some driver
  usb : ∀ usb, m.usb = some usb → HasUsbId usb i

theorem hexText_iff {text digits : Text} : HexText text digits ↔ trimHexMarks text = digits := by
  constructor
  · rintro ⟨⟨n, rfl⟩, hd⟩
    induction n with
    | zero =>
      rw [replicate_zero, flatten_nil, nil_append, trimHexMarks]
      rintro rest rfl
      exact hd (prefix_append _ _)
    | succ n ih => simpa [replicate_succ, trimHexMarks] using ih
  · rintro rfl
    induction text using trimHexMarks.induct with
    | case1 rest ih =>
      obtain ⟨⟨n, hn⟩, hd⟩ := ih
      refine ⟨⟨n + 1, ?_⟩, by rwa [trimHexMarks]⟩
      simpa [replicate_succ, trimHexMarks] using hn
    | case2 text hno =>
      have ht : trimHexMarks text = text := by
        rw [trimHexMarks]
        exact hno
      rw [ht]
      refine ⟨⟨0, rfl⟩, ?_⟩
      rintro ⟨rest, rfl⟩
      exact hno rest rfl

theorem sameId_iff {a b : Text} : SameId a b ↔ norm a = norm b := by
  simp [SameId, hexText_iff, norm]

theorem hexText_nil_iff {text : Text} : HexText text [] ↔ norm text = [] := by
  simp [hexText_iff, norm, toAsciiLowercase]

variable {usb vid pid : Text}

theorem usbParts_iff :
    UsbParts usb vid pid ↔ (splitOnceAt ':' usb).getD (usb, []) = (vid, pid) := by
  constructor
  · rintro ⟨hv, rfl | ⟨rfl, rfl⟩⟩
    · rw [splitOnceAt_append hv, Option.getD_some]
    · rw [splitOnceAt_of_notMem hv, Option.getD_none]
  · intro h
    cases hs : splitOnceAt ':' usb with
    | none =>
      rw [hs] at h
      cases h
      exact ⟨notMem_of_splitOnceAt_eq_none hs, .inr ⟨rfl, rfl⟩⟩
    | some parts =>
      rw [hs] at h
      cases h
      exact ⟨notMem_of_splitOnceAt hs, .inl (eq_of_splitOnceAt hs)⟩

theorem lacksUsbId_iff
    (h : (splitOnceAt ':' (toAsciiLowercase usb)).getD (toAsciiLowercase usb, []) = (vid, pid)) :
    LacksUsbId usb i ↔
      norm vid = [] ∧ i.vendorId = none ∨ pid ≠ [] ∧ norm pid = [] ∧ i.productId = none := by
  simp [LacksUsbId, usbParts_iff, hexText_nil_iff, h]

theorem hasUsbId_iff {usb : Text} :
    HasUsbId usb i ↔ usbMatches (toAsciiLowercase usb) i = true ∧ ¬LacksUsbId usb i := by
  rcases h : (splitOnceAt ':' (toAsciiLowercase usb)).getD (toAsciiLowercase usb, []) with
    ⟨vid, pid⟩
  simp only [HasUsbId, usbMatches, usbParts_iff, sameId_iff, lacksUsbId_iff h, h]
  cases i.vendorId <;> cases i.productId <;> by_cases hp : pid = [] <;> simp +contextual [hp]

theorem any_eq_false_iff {o : Option Text} {p : Text → Bool} :
    ¬o.any p ↔ ∀ x, o = some x → p x = false := by
  cases o with
  | none => simp
  | some x => simp

theorem accepts_iff : m.accepts i ↔ (∀ name, m.name = some name → i.name = name) ∧
    (∀ mac, m.mac = some mac →
      i.mac = some (toAsciiLowercase mac) ∨ i.hardwareMac = some (toAsciiLowercase mac)) ∧
    (∀ driver, m.driver = some driver → i.driver = some driver) ∧
    ∀ usb, m.usb = some usb → usbMatches (toAsciiLowercase usb) i = true := by
  unfold accepts
  split_ifs with hn hm hd hu
  · refine iff_of_false not_false fun h => any_eq_false_iff.2 (fun x hx => ?_) hn
    simp [h.1 x hx]
  · refine iff_of_false not_false fun h => any_eq_false_iff.2 (fun x hx => ?_) hm
    rcases h.2.1 x hx with hm | hm <;> simp [hm]
  · refine iff_of_false not_false fun h => any_eq_false_iff.2 (fun x hx => ?_) hd
    simp [h.2.2.1 x hx]
  · refine iff_of_false not_false fun h => any_eq_false_iff.2 (fun x hx => ?_) hu
    simp [h.2.2.2 x hx]
  · rw [any_eq_false_iff] at hn hm hd hu
    refine iff_of_true rfl ⟨fun x hx => ?_, fun x hx => ?_, fun x hx => ?_, fun x hx => ?_⟩
    · simpa using hn x hx
    · simpa [or_iff_not_imp_left] using hm x hx
    · simpa using hd x hx
    · simpa using hu x hx

/-- **What the filter of `resolve` lets through**: the interfaces that meet the matcher, and those
that lack a USB id for which the criterion gives no digits. -/
theorem satisfies_iff : m.Satisfies i ↔
    m.accepts i = true ∧ ∀ usb, m.usb = some usb → ¬LacksUsbId usb i := by
  rw [accepts_iff]
  constructor
  · rintro ⟨hn, hm, hd, hu⟩
    exact ⟨⟨hn, hm, hd, fun usb h => (hasUsbId_iff.1 (hu usb h)).1⟩,
      fun usb h => (hasUsbId_iff.1 (hu usb h)).2⟩
  · rintro ⟨⟨hn, hm, hd, hu⟩, hl⟩
    exact ⟨hn, hm, hd, fun usb h => hasUsbId_iff.2 ⟨hu usb h, hl usb h⟩⟩

/-- No listed interface passes the filter for want of a USB id. -/
def UsbNamed (m : IfaceMatcher) (interfaces : List InterfaceInfo) : Prop :=
  ∀ i ∈ interfaces, m.accepts i = true → ∀ usb, m.usb = some usb → ¬LacksUsbId usb i

def Selects (m : IfaceMatcher) (interfaces : List InterfaceInfo) (name : Text) : Prop :=
  ∃ i ∈ interfaces, i.name = name ∧ m.Satisfies i ∧ ∀ j ∈ interfaces, m.Satisfies j → j = i

theorem resolve_eq_ok : m.resolve interfaces = .ok name ↔
    m.isEmpty = false ∧ ∃ i, interfaces.filter m.accepts = [i] ∧ i.name = name := by
  unfold resolve
  cases m.isEmpty with
  | true => simp
  | false =>
    rcases interfaces.filter m.accepts with _ | ⟨i, _ | ⟨j, rest⟩⟩
    · simp
    · simp
    · simp

theorem selects_iff_usbNamed (h : m.resolve interfaces = .ok name) :
    m.Selects interfaces name ↔ m.UsbNamed interfaces := by
  obtain ⟨-, i, hf, rfl⟩ := resolve_eq_ok.1 h
  have hm : ∀ j, j ∈ interfaces ∧ m.accepts j = true ↔ j = i := by
    intro j
    rw [← mem_filter, hf, mem_singleton]
  constructor
  · rintro ⟨j, hj, -, hs, -⟩ k hk hak
    have hij := (hm j).1 ⟨hj, (satisfies_iff.1 hs).1⟩
    rw [(hm k).1 ⟨hk, hak⟩, ← hij]
    exact (satisfies_iff.1 hs).2
  · intro hu
    obtain ⟨hi, ha⟩ := (hm i).2 rfl
    refine ⟨i, hi, rfl, satisfies_iff.2 ⟨ha, hu i hi ha⟩, fun j hj hs => ?_⟩
    exact (hm j).1 ⟨hj, (satisfies_iff.1 hs).1⟩

theorem resolve_perm (hp : interfaces'.Perm interfaces) (h : m.resolve interfaces = .ok name) :
    m.resolve interfaces' = .ok name := by
  obtain ⟨hc, i, hf, hn⟩ := resolve_eq_ok.1 h
  have hf' := hp.filter m.accepts
  rw [hf, perm_singleton] at hf'
  exact resolve_eq_ok.2 ⟨hc, i, hf', hn⟩

end IfaceMatcher

def InterfaceInfo.rename (f : Text → Text) (i : InterfaceInfo) : InterfaceInfo :=
  { i with name := f i.name }

variable {interfaces : List InterfaceInfo}

theorem IfaceMatcher.resolve_rename {m : IfaceMatcher}
    {name : Text} (f : Text → Text) (hn : m.name = none) (h : m.resolve interfaces = .ok name) :
    m.resolve (interfaces.map (·.rename f)) = .ok (f name) := by
  obtain ⟨hc, i, hf, rfl⟩ := resolve_eq_ok.1 h
  have ha : m.accepts ∘ InterfaceInfo.rename f = m.accepts := by
    funext j
    rw [Function.comp_apply, accepts, accepts, hn]
    rfl
  refine resolve_eq_ok.2 ⟨hc, i.rename f, ?_, rfl⟩
  rw [filter_map, ha, hf]
  rfl

section Resolution

variable {config : NetworkConfig} {interfaces interfaces' : List InterfaceInfo}
  {procNetRoute : Option Text} {wan lan : Text}

def HasRole (config : NetworkConfig) : Prop :=
  config.wanInterface.isSome ∨ config.lanInterface.isSome ∨ config.wanMatch.isSome ∨
    config.lanMatch.isSome
  deriving Decidable

def NoNames (config : NetworkConfig) : Prop :=
  config.wanInterface = none ∧ config.lanInterface = none ∧
    (∀ m, config.wanMatch = some m → m.name = none) ∧
    ∀ m, config.lanMatch = some m → m.name = none

def RoleIs (matcher : Option IfaceMatcher) (given : Option Text) (interfaces : List InterfaceInfo)
    (name : Text) : Prop :=
  match matcher with
  | some m => m.resolve interfaces = .ok name
  | none => given = some name

variable {matcher : Option IfaceMatcher}
  {wrap : Text → RoleResolveError → ConfigError} {found : Option Text}

theorem byMatcher_eq_ok
    (h : byMatcher wrap matcher interfaces = .ok found) (given : Option Text) (name : Text) :
    found.or given = some name ↔ RoleIs matcher given interfaces name := by
  cases matcher with
  | none =>
    cases h
    rfl
  | some m =>
    unfold byMatcher at h
    show _ ↔ m.resolve interfaces = .ok name
    cases hr : m.resolve interfaces with
    | error e =>
      simp only [hr] at h
      cases h
    | ok name' =>
      simp only [hr] at h
      cases h
      rw [Option.some_or, Option.some_inj, Except.ok.injEq]

variable {given : Option Text} {name : Text}

theorem byMatcher_of_roleIs (wrap : Text → RoleResolveError → ConfigError)
    (h : RoleIs matcher given interfaces name) :
    ∃ found, byMatcher wrap matcher interfaces = .ok found ∧ found.or given = some name := by
  cases matcher with
  | none => exact ⟨none, rfl, h⟩
  | some m =>
    refine ⟨some name, ?_, rfl⟩
    unfold byMatcher
    simp only [show m.resolve interfaces = .ok name from h]

theorem eq_none_of_byMatcher
    (h : byMatcher wrap matcher interfaces = .ok found) (hn : found.or given = none) :
    matcher = none ∧ given = none := by
  obtain ⟨rfl, rfl⟩ := Option.or_eq_none_iff.1 hn
  cases matcher with
  | none => exact ⟨rfl, rfl⟩
  | some m =>
    unfold byMatcher at h
    cases hr : m.resolve interfaces with
    | error e =>
      simp only [hr] at h
      cases h
    | ok name =>
      simp only [hr] at h
      cases h

/-- **With a role configured nothing is detected.** -/
theorem resolveRoles_of_hasRole (hr : HasRole config) :
    resolveRoles procNetRoute config interfaces = .ok (wan, lan) ↔
      RoleIs config.wanMatch config.wanInterface interfaces wan ∧
        RoleIs config.lanMatch config.lanInterface interfaces lan ∧ wan ≠ lan := by
  constructor
  · intro h
    obtain ⟨foundWan, hf, h⟩ := bind_eq_ok.1 h
    obtain ⟨foundLan, hfo, h⟩ := bind_eq_ok.1 h
    rw [← byMatcher_eq_ok hf, ← byMatcher_eq_ok hfo]
    cases hwan : foundWan.or config.wanInterface with
    | none =>
      cases hlan : foundLan.or config.lanInterface with
      | none =>
        obtain ⟨hw, hwa⟩ := eq_none_of_byMatcher hf hwan
        obtain ⟨hl, hla⟩ := eq_none_of_byMatcher hfo hlan
        simp [HasRole, hw, hwa, hl, hla] at hr
      | some l =>
        simp only [hwan, hlan] at h
        cases h
    | some w =>
      cases hlan : foundLan.or config.lanInterface with
      | none =>
        simp only [hwan, hlan] at h
        cases h
      | some l =>
        simp only [hwan, hlan] at h
        split_ifs at h with hs
        cases h
        exact ⟨rfl, rfl, hs⟩
  · rintro ⟨hwan, hlan, hne⟩
    obtain ⟨foundWan, hf, hwan⟩ := byMatcher_of_roleIs .wanMatch hwan
    obtain ⟨foundLan, hfo, hlan⟩ := byMatcher_of_roleIs .lanMatch hlan
    refine bind_eq_ok.2 ⟨foundWan, hf, bind_eq_ok.2 ⟨foundLan, hfo, ?_⟩⟩
    simp only [hwan, hlan]
    rw [if_neg hne]

theorem exists_of_checkRole {role : String} (h : checkRole interfaces role name = .ok ()) :
    ∃ i ∈ interfaces, i.name = name ∧ isEthernetLike i := by
  unfold checkRole at h
  cases hf : interfaces.find? (·.name = name) with
  | none =>
    simp only [hf] at h
    cases h
  | some i =>
    simp only [hf] at h
    split_ifs at h with he
    exact ⟨i, mem_of_find?_eq_some hf, by simpa using find?_some hf, he⟩

theorem roles_of_validate (hro : HasRole config)
    (h : validate procNetRoute config interfaces = .ok ()) :
    ∃ wan lan, resolveRoles procNetRoute config interfaces = .ok (wan, lan) ∧
      (∃ i ∈ interfaces, i.name = wan ∧ isEthernetLike i) ∧
      ∃ i ∈ interfaces, i.name = lan ∧ isEthernetLike i := by
  have hso : ¬(config.wanInterface.isNone && config.lanInterface.isNone &&
      config.wanMatch.isNone && config.lanMatch.isNone) = true := by
    rcases hro with h | h | h | h <;> simp [Option.isSome_iff_ne_none.1 h]
  unfold validate at h
  rw [if_neg hso] at h
  obtain ⟨⟨wan, lan⟩, hr, h⟩ := bind_eq_ok.1 h
  dsimp only at h
  by_cases hs : wan = lan
  · rw [if_pos hs] at h
    cases h
  rw [if_neg hs] at h
  obtain ⟨_, hw, h⟩ := bind_eq_ok.1 h
  obtain ⟨_, hl, -⟩ := bind_eq_ok.1 h
  exact ⟨wan, lan, hr, exists_of_checkRole hw, exists_of_checkRole hl⟩

theorem RoleIs.perm (h : RoleIs matcher given interfaces name)
    (hp : interfaces'.Perm interfaces) : RoleIs matcher given interfaces' name := by
  cases matcher with
  | none => exact h
  | some m => exact m.resolve_perm hp h

theorem RoleIs.rename (f : Text → Text)
    (hn : ∀ m, matcher = some m → m.name = none) (h : RoleIs matcher none interfaces name) :
    RoleIs matcher none (interfaces.map (·.rename f)) (f name) := by
  cases matcher with
  | none => cases h
  | some m => exact m.resolve_rename f (hn m rfl) h

theorem RoleIs.selects_iff (h : RoleIs matcher given interfaces name) :
    (∀ m, matcher = some m → m.Selects interfaces name) ↔
      ∀ m, matcher = some m → m.UsbNamed interfaces := by
  cases matcher with
  | none => simp
  | some m =>
    simp only [Option.some.injEq, forall_eq']
    exact IfaceMatcher.selects_iff_usbNamed h

end Resolution

/-- What a valid configuration promises: it resolves to two different interfaces like Ethernet, a
matcher to the one interface that meets it; the order of the list does not matter and, without
criteria on names, neither do the names. -/
def RolesSound (procNetRoute : Option Text) (config : NetworkConfig)
    (interfaces : List InterfaceInfo) : Prop :=
  ∃ wan lan, resolveRoles procNetRoute config interfaces = .ok (wan, lan) ∧ wan ≠ lan ∧
    (∃ i ∈ interfaces, i.name = wan ∧ isEthernetLike i = true) ∧
    (∃ i ∈ interfaces, i.name = lan ∧ isEthernetLike i = true) ∧
    (∀ m, config.wanMatch = some m → m.Selects interfaces wan) ∧
    (∀ m, config.lanMatch = some m → m.Selects interfaces lan) ∧
    (∀ interfaces' : List InterfaceInfo, interfaces'.Perm interfaces →
      resolveRoles procNetRoute config interfaces' = .ok (wan, lan)) ∧
    (NoNames config → ∀ f : Text → Text,
      (∀ i ∈ interfaces, ∀ j ∈ interfaces, f i.name = f j.name → i.name = j.name) →
      resolveRoles procNetRoute config (interfaces.map (·.rename f)) = .ok (f wan, f lan))

/-- **Resolved roles.** A valid configuration keeps its promise exactly when no listed interface
passes a matcher for want of a USB id. -/
theorem roles_sound_iff {config : NetworkConfig}
    {procNetRoute : Option Text} (hrole : HasRole config)
    (hvalid : validate procNetRoute config interfaces = .ok ()) :
    RolesSound procNetRoute config interfaces ↔
      (∀ m, config.wanMatch = some m → m.UsbNamed interfaces) ∧
        ∀ m, config.lanMatch = some m → m.UsbNamed interfaces := by
  obtain ⟨wan, lan, hr, hw, hl⟩ := roles_of_validate hrole hvalid
  obtain ⟨hwan, hlan, hne⟩ := (resolveRoles_of_hasRole hrole).1 hr
  rw [← hwan.selects_iff, ← hlan.selects_iff]
  constructor
  · rintro ⟨wan', lan', hr', -, -, -, hsw, hsl, -⟩
    cases hr.symm.trans hr'
    exact ⟨hsw, hsl⟩
  rintro ⟨hsw, hsl⟩
  refine ⟨wan, lan, hr, hne, hw, hl, hsw, hsl, ?_, ?_⟩
  · intro interfaces' hp
    exact (resolveRoles_of_hasRole hrole).2 ⟨hwan.perm hp, hlan.perm hp, hne⟩
  · rintro ⟨hwa, hla, hwanM, hlanM⟩ f hin
    rw [hwa] at hwan
    rw [hla] at hlan
    have hwan' := hwan.rename f hwanM
    have hlan' := hlan.rename f hlanM
    rw [← hwa] at hwan'
    rw [← hla] at hlan'
    refine (resolveRoles_of_hasRole hrole).2 ⟨hwan', hlan', fun hs => hne ?_⟩
    obtain ⟨i, hi, rfl, -⟩ := hw
    obtain ⟨j, hj, rfl, -⟩ := hl
    exact hin i hi j hj hs

inductive InterfaceRole
  | wan
  | lan
  | management
  | unknown
deriving DecidableEq

def assignRoles (procNetRoute : Option Text) (interfaces : List (InterfaceInfo × InterfaceRole))
    (config : NetworkConfig) : List (InterfaceInfo × InterfaceRole) :=
  let detected := if config.wanInterface.isNone && config.lanInterface.isNone then
    autoAssignRoles procNetRoute (interfaces.map Prod.fst) else none
  interfaces.map fun (iface, role) =>
    if config.wanInterface = some iface.name ∨ detected.map Prod.fst = some iface.name then
      (iface, .wan)
    else if config.lanInterface = some iface.name ∨ detected.map Prod.snd = some iface.name then
      (iface, .lan)
    else (iface, role)

section Assignment

variable {config : NetworkConfig} {interfaces : List InterfaceInfo} {procNetRoute : Option Text}
  {wan lan : Text}

def namedRoles (procNetRoute : Option Text) (config : NetworkConfig)
    (interfaces : List InterfaceInfo) : Option Text × Option Text :=
  if config.wanInterface = none ∧ config.lanInterface = none then
    let detected := autoAssignRoles procNetRoute interfaces
    (detected.map Prod.fst, detected.map Prod.snd)
  else (config.wanInterface, config.lanInterface)

theorem assignRoles_eq : assignRoles procNetRoute (interfaces.map (·, .unknown)) config =
    interfaces.map fun i =>
      (i, if (namedRoles procNetRoute config interfaces).1 = some i.name then .wan
        else if (namedRoles procNetRoute config interfaces).2 = some i.name then .lan
        else .unknown) := by
  have hf : (interfaces.map (·, InterfaceRole.unknown)).map Prod.fst = interfaces := by
    rw [map_map, Function.comp_def, map_id']
  unfold assignRoles
  rw [hf, map_map]
  refine map_congr_left fun i _ => ?_
  rw [Function.comp_apply]
  unfold namedRoles
  by_cases hn : config.wanInterface = none ∧ config.lanInterface = none
  · simp only [hn, Option.isNone_none, Bool.and_self, reduceCtorEq, false_or, and_self]
    split_ifs <;> rfl
  · have hd : ¬(config.wanInterface.isNone && config.lanInterface.isNone) := by
      simpa using hn
    simp only [if_neg hd, Option.map_none, reduceCtorEq, or_false]
    split_ifs <;> rfl

variable {name : Text}
  {eth : List InterfaceInfo} {matcher : Option IfaceMatcher} {named : Option Text}

theorem ne_of_mem_others {j : InterfaceInfo}
    (hj : j ∈ eth.filter (·.name ≠ name)) (h : some (name, j.name) = some (wan, lan)) :
    wan ≠ lan := by
  cases h
  exact fun heq => of_decide_eq_true (mem_filter.1 hj).2 heq.symm

theorem byDefaultRoute_ne {route : Option Text}
    (h : byDefaultRoute eth route = some (some (wan, lan))) : wan ≠ lan := by
  unfold byDefaultRoute at h
  cases route with
  | none => cases h
  | some name =>
    dsimp only at h
    split at h
    · cases h
    split_ifs at h
    split at h
    next _ j hup =>
      have hj := mem_singleton_self j
      rw [← hup] at hj
      exact ne_of_mem_others (mem_of_mem_filter hj) (Option.some.inj h)
    next j ho _ =>
      have hj := mem_singleton_self j
      rw [← ho] at hj
      exact ne_of_mem_others hj (Option.some.inj h)
    · cases h

theorem autoAssignRoles_ne (h : autoAssignRoles procNetRoute interfaces = some (wan, lan)) :
    wan ≠ lan := by
  unfold autoAssignRoles at h
  dsimp only at h
  split_ifs at h
  split at h
  next decided hr =>
    subst h
    exact byDefaultRoute_ne hr
  · split at h
    · split at h
      next j ho =>
        have hj := mem_singleton_self j
        rw [← ho] at hj
        exact ne_of_mem_others hj h
      · cases h
    · cases h

def RoleFrom (matcher : Option IfaceMatcher) (named : Option Text)
    (interfaces : List InterfaceInfo) (name : Text) : Prop :=
  matcher = none ∧ named = some name ∨ ∃ m, matcher = some m ∧ m.resolve interfaces = .ok name

theorem RoleFrom.named_iff (h : RoleFrom matcher named interfaces name) :
    (∀ m, matcher = some m → ∃ name, m.resolve interfaces = .ok name ∧ named = some name) ↔
      named = some name := by
  obtain ⟨rfl, hn⟩ | ⟨m, rfl, hm⟩ := h
  · exact iff_of_true nofun hn
  · constructor
    · intro ha
      obtain ⟨name', hna', hn⟩ := ha m rfl
      cases hm.symm.trans hna'
      exact hn
    · intro hn m' hm'
      cases hm'
      exact ⟨name, hm, hn⟩

theorem RoleFrom.named_or_listed (h : RoleFrom matcher named interfaces name) :
    named = some name ∨ ∃ i ∈ interfaces, i.name = name := by
  obtain ⟨-, hn⟩ | ⟨m, -, hm⟩ := h
  · exact .inl hn
  · obtain ⟨-, i, hf, hna⟩ := IfaceMatcher.resolve_eq_ok.1 hm
    exact .inr ⟨i, mem_of_mem_filter (p := m.accepts) (hf ▸ mem_singleton_self i), hna⟩

theorem roleFrom_of_resolveRoles
    (h : resolveRoles procNetRoute config interfaces = .ok (wan, lan)) :
    RoleFrom config.wanMatch (namedRoles procNetRoute config interfaces).1 interfaces wan ∧
      RoleFrom config.lanMatch (namedRoles procNetRoute config interfaces).2 interfaces lan ∧
      wan ≠ lan := by
  by_cases hr : HasRole config
  · obtain ⟨hwan, hlan, hne⟩ := (resolveRoles_of_hasRole hr).1 h
    refine ⟨?_, ?_, hne⟩
    · cases hm : config.wanMatch with
      | some m =>
        rw [hm] at hwan
        exact .inr ⟨m, rfl, hwan⟩
      | none =>
        rw [hm] at hwan
        have hwan : config.wanInterface = some wan := hwan
        rw [namedRoles, if_neg (by simp [hwan])]
        exact .inl ⟨rfl, hwan⟩
    · cases hm : config.lanMatch with
      | some m =>
        rw [hm] at hlan
        exact .inr ⟨m, rfl, hlan⟩
      | none =>
        rw [hm] at hlan
        have hlan : config.lanInterface = some lan := hlan
        rw [namedRoles, if_neg (by simp [hlan])]
        exact .inl ⟨rfl, hlan⟩
  · simp only [HasRole, not_or, Option.not_isSome_iff_eq_none] at hr
    obtain ⟨hwa, hla, hw, hl⟩ := hr
    have ha : autoAssignRoles procNetRoute interfaces = some (wan, lan) := by
      simp only [resolveRoles, hw, hl, hwa, hla] at h
      cases ha : autoAssignRoles procNetRoute interfaces with
      | none =>
        rw [ha] at h
        cases h
      | some roles =>
        rw [ha] at h
        cases h
        rfl
    rw [namedRoles, if_pos ⟨hwa, hla⟩, ha]
    exact ⟨.inl ⟨hw, rfl⟩, .inl ⟨hl, rfl⟩, autoAssignRoles_ne ha⟩

/-- **Assigned roles.** The roles are those that were resolved exactly when each matcher finds the
interface that its role has by name or by detection. -/
theorem assignRoles_resolved_iff
    (h : resolveRoles procNetRoute config interfaces = .ok (wan, lan)) :
    assignRoles procNetRoute (interfaces.map (·, .unknown)) config =
        interfaces.map (fun i => (i, if i.name = wan then .wan
          else if i.name = lan then .lan else .unknown)) ↔
      (∀ m, config.wanMatch = some m → ∃ name, m.resolve interfaces = .ok name ∧
        (namedRoles procNetRoute config interfaces).1 = some name) ∧
      ∀ m, config.lanMatch = some m → ∃ name, m.resolve interfaces = .ok name ∧
        (namedRoles procNetRoute config interfaces).2 = some name := by
  obtain ⟨hw, hl, hne⟩ := roleFrom_of_resolveRoles h
  rw [hw.named_iff, hl.named_iff, assignRoles_eq, map_inj_left]
  constructor
  · intro ha
    constructor
    · obtain hn | ⟨i, hi, rfl⟩ := hw.named_or_listed
      · exact hn
      · have hi := (Prod.mk.inj (ha i hi)).2
        rw [if_pos rfl] at hi
        by_contra hn
        rw [if_neg hn] at hi
        split_ifs at hi
    · obtain hn | ⟨i, hi, rfl⟩ := hl.named_or_listed
      · exact hn
      · have hi := (Prod.mk.inj (ha i hi)).2
        rw [if_neg hne.symm, if_pos rfl] at hi
        by_contra hn
        split_ifs at hi
  · rintro ⟨hw, hl⟩ i -
    simp only [hw, hl, Option.some_inj, eq_comm]

end Assignment

def usbGateway : NetworkConfig where
  wanMatch := some { usb := some "0BDA:8156".toList }
  lanMatch := some { driver := some "genet".toList }

def gatewayPorts : List InterfaceInfo :=
  [{ name := "eth1".toList, vendorId := some "0bda".toList, productId := some "8156".toList },
    { name := "br0".toList, kind := some "bridge".toList },
    { name := "eth0".toList, driver := some "genet".toList }]

theorem assignRoles_resolved_named : assignRoles none (gatewayPorts.map (·, .unknown))
        { wanInterface := some "eth1".toList, lanInterface := some "eth0".toList } =
      gatewayPorts.map (fun i => (i, if i.name = "eth1".toList then .wan
        else if i.name = "eth0".toList then .lan else .unknown)) :=
  (assignRoles_resolved_iff (by decide +kernel)).2 ⟨nofun, nofun⟩

/-- The matchers find both ports, and no port is marked. -/
theorem assignRoles_ignores_matchers :
    resolveRoles none usbGateway gatewayPorts = .ok ("eth1".toList, "eth0".toList) ∧
    assignRoles none (gatewayPorts.map (·, .unknown)) usbGateway =
      gatewayPorts.map (·, .unknown) := by
  decide +kernel

theorem roles_sound_usb : RolesSound none usbGateway gatewayPorts := by
  have hv : validate none usbGateway gatewayPorts = .ok () := by decide +kernel
  refine (roles_sound_iff (by decide) hv).2
    ⟨fun m hm i _ _ usb hu => ?_, fun m hm i _ _ usb hu => ?_⟩
  · cases hm
    cases hu
    have hp : (splitOnceAt ':' (toAsciiLowercase "0BDA:8156".toList)).getD
        (toAsciiLowercase "0BDA:8156".toList, []) = ("0bda".toList, "8156".toList) := by
      decide +kernel
    rw [IfaceMatcher.lacksUsbId_iff hp]
    rintro (⟨h, -⟩ | ⟨-, h, -⟩) <;> revert h <;> decide
  · cases hm
    cases hu

/-- With the USB criterion empty, the onboard port is taken for the USB one. -/
theorem empty_usb_takes_onboard :
    ¬∀ (procNetRoute : Option Text) (config : NetworkConfig) (interfaces : List InterfaceInfo),
      HasRole config → validate procNetRoute config interfaces = .ok () →
        RolesSound procNetRoute config interfaces := by
  intro h
  obtain ⟨wan, lan, -, -, -, -, hs, -⟩ := h none
    { wanMatch := some { usb := some [] }, lanMatch := some { driver := some "r8152".toList } }
    [{ name := "eth0".toList, driver := some "genet".toList },
      { name := "eth1".toList, driver := some "r8152".toList, vendorId := some "0bda".toList }]
    (by decide) (by decide +kernel)
  obtain ⟨i, hi, -, hsat, -⟩ := hs _ rfl
  obtain ⟨ha, hl⟩ := IfaceMatcher.satisfies_iff.1 hsat
  have hp : (splitOnceAt ':' (toAsciiLowercase [])).getD (toAsciiLowercase [], []) =
      (([] : Text), ([] : Text)) := rfl
  refine hl [] rfl ((IfaceMatcher.lacksUsbId_iff hp).2 (.inl ⟨rfl, ?_⟩))
  simp only [mem_cons, not_mem_nil, or_false] at hi
  rcases hi with rfl | rfl
  · rfl
  · revert ha
    decide +kernel

end Roles
end BalanSir.Daemon
