/-
# The calls of the port mappings

Calls to the executor that are still in flight, over the table of `UpnpManager`.
-/

import BalanSir.Executor.Upnp
import BalanSir.Upnp.Manager

namespace BalanSir.Upnp

open List

open Common (Error UpnpOp UpnpOpResult)
open Executor (Kernel System NftProto)
open Executor.NftablesExecutor
open Lib (Table Along)

structure World where
  state : State := {}
  kernel : Kernel := {}

/-- An event, or the end of the call at a place of the queue. -/
inductive Step where
  | event (e : UpnpManager.Event)
  | complete (i : ℕ)
  deriving DecidableEq

def keyOf : UpnpOp → Option (UInt16 × String)
  | .addPortMapping externalPort proto _ _ _ => some (externalPort, proto.toLower)
  | .removePortMapping externalPort proto _ => some (externalPort, proto.toLower)
  | .removeAll => none

namespace World

def carryOut (w : World) (op : UpnpOp) : Except Error UpnpOpResult × System :=
  upnpOp op { kernel := w.kernel }

def succeeds (w : World) : Step → Bool
  | .event _ => true
  | .complete i => w.state.spawned[i]?.all fun op => (w.carryOut op).1.isOk

def inTurn (w : World) : Step → Bool
  | .event _ => true
  | .complete i => w.state.spawned[i]?.all fun op =>
    (w.state.spawned.take i).all fun earlier => keyOf earlier != keyOf op

end World

namespace UpnpManager

variable (m : UpnpManager)

def step : Step → World → World
  | .event e, w => { w with state := m.handle e w.state }
  | .complete i, w =>
    match w.state.spawned[i]? with
    | none => w
    | some op =>
      { state := { w.state with spawned := w.state.spawned.eraseIdx i }
        kernel := (w.carryOut op).2.kernel }

def targetOf (mapping : PortMapping) : Option MappingTarget :=
  match mapping.internalIp with
  | .v4 a => some ⟨a, mapping.internalPort, m.wanInterface⟩
  | .v6 _ => none

def mappingsOf (table : Table (UInt16 × String) PortMapping) : Mappings := fun key =>
  (table.lookup (key.port, key.proto.toText)).bind m.targetOf

/-- **The rules are those of the table.** -/
structure Settled (w : World) : Prop where
  mapped : ∀ key mapping, w.state.mappings.lookup key = some mapping →
    ∃ k : MappingKey, key = (k.port, k.proto.toText) ∧
      (m.mappingsOf w.state.mappings k).isSome = true
  refines : Refines (m.mappingsOf w.state.mappings) (w.kernel.rules .prerouting)

def effectOf : UpnpOp → Option (MappingKey × Option MappingTarget)
  | .addPortMapping externalPort proto internalIp internalPort wanInterface =>
    match protoOfText proto.toLower, Net.ipv4OfText internalIp with
    | some p, some addr => some (⟨externalPort, p⟩, some ⟨addr, internalPort, wanInterface⟩)
    | _, _ => none
  | .removePortMapping externalPort proto _ =>
    (protoOfText proto.toLower).map fun p => (⟨externalPort, p⟩, none)
  | .removeAll => none

variable {op : UpnpOp}

theorem after_eq (hop : op ≠ .removeAll) (M : Mappings) : M.after op = match effectOf op with
      | some (key, target) => Function.update M key target
      | none => M := by
  cases op with
  | addPortMapping externalPort proto internalIp internalPort wanInterface =>
    simp only [Mappings.after, effectOf]
    cases protoOfText proto.toLower <;> cases Net.ipv4OfText internalIp <;> rfl
  | removePortMapping externalPort proto wanInterface =>
    simp only [Mappings.after, effectOf]
    cases protoOfText proto.toLower <;> rfl
  | removeAll => exact absurd rfl hop

variable {key : MappingKey}

theorem keyOf_of_effectOf {target : Option MappingTarget} (h : effectOf op = some (key, target)) :
    keyOf op = some (key.port, key.proto.toText) := by
  cases op with
  | addPortMapping externalPort proto internalIp internalPort wanInterface =>
    simp only [effectOf] at h
    split at h
    · next p addr hp _ =>
        obtain ⟨rfl, -⟩ := Prod.mk.inj (Option.some.inj h)
        rw [toText_of_protoOfText hp]
        rfl
    · cases h
  | removePortMapping externalPort proto wanInterface =>
    obtain ⟨p, hp, he⟩ := Option.map_eq_some_iff.1 h
    obtain ⟨rfl, -⟩ := Prod.mk.inj he
    rw [toText_of_protoOfText hp]
    rfl
  | removeAll => cases h

theorem after_comm {op' : UpnpOp} (hop : op ≠ .removeAll) (hop' : op' ≠ .removeAll)
    (hne : keyOf op' ≠ keyOf op) (M : Mappings) :
    (M.after op').after op = (M.after op).after op' := by
  rw [after_eq hop, after_eq hop', after_eq hop', after_eq hop]
  cases he : effectOf op with
  | none => rfl
  | some effect =>
    cases he' : effectOf op' with
    | none => rfl
    | some effect' =>
      refine Function.update_comm (fun hk => hne ?_) _ _ _
      rw [keyOf_of_effectOf he, keyOf_of_effectOf he', hk]

def callOf : Change → UpnpOp
  | .enter mapping => m.addOp mapping
  | .drop externalPort proto => .removePortMapping externalPort proto m.wanInterface

variable {m}

theorem callOf_ne_removeAll (c : Change) : m.callOf c ≠ .removeAll := by
  cases c <;> exact UpnpOp.noConfusion

theorem spawned_make (he : m.executor) (c : Change) (s : State) :
    (m.make c s).spawned = s.spawned ++ [m.callOf c] := by
  cases c <;> simp [make, enterMapping, applyMapping, deleteMapping, spawn, he, callOf]

theorem protoOfText_toText (p : NftProto) : protoOfText p.toText = some p := by
  cases p <;> rfl

variable {mapping : PortMapping}

theorem Admitted.exists_proto (h : m.Admitted mapping) :
    ∃ p : NftProto, mapping.proto = p.toText := by
  rcases h.proto_eq with hp | hp
  · exact ⟨.tcp, hp⟩
  · exact ⟨.udp, hp⟩

theorem mappingsOf_congr {table table' : Table (UInt16 × String) PortMapping}
    (h : table'.lookup (key.port, key.proto.toText) = table.lookup (key.port, key.proto.toText)) :
    m.mappingsOf table' key = m.mappingsOf table key := by
  rw [mappingsOf, mappingsOf, h]

theorem key_eq_of_text {port : UInt16} {p : NftProto}
    (h : (key.port, key.proto.toText) = (port, p.toText)) : key = ⟨port, p⟩ := by
  obtain ⟨hpo, hpr⟩ := Prod.mk.inj h
  have hp := congrArg protoOfText hpr
  rw [protoOfText_toText, protoOfText_toText, Option.some.injEq] at hp
  rw [← hpo, ← hp]

theorem after_addOp (h : m.Admitted mapping) {p : NftProto} (hp : mapping.proto = p.toText)
    (M : Mappings) : M.after (m.addOp mapping) =
      Function.update M ⟨mapping.externalPort, p⟩ (m.targetOf mapping) := by
  obtain ⟨a, ha⟩ := h.exists_v4
  have hpr : protoOfText mapping.proto.toLower = some p := by
    rw [h.toLower_proto, hp, protoOfText_toText]
  simp only [addOp, Mappings.after, hpr, targetOf, ha, Net.ipv4OfText_toText]

theorem mappingsOf_insert (h : m.Admitted mapping) (table : Table (UInt16 × String) PortMapping) :
    m.mappingsOf (table.insert (mapping.externalPort, mapping.proto) mapping) =
      (m.mappingsOf table).after (m.addOp mapping) := by
  obtain ⟨p, hp⟩ := h.exists_proto
  rw [after_addOp h hp]
  funext key
  by_cases hk : key = ⟨mapping.externalPort, p⟩
  · rw [hk, Function.update_self, mappingsOf, hp, AList.lookup_insert]
    rfl
  · rw [Function.update_of_ne hk]
    refine mappingsOf_congr (AList.lookup_insert_ne fun e => hk (key_eq_of_text ?_))
    rw [e, hp]

theorem mappingsOf_erase {externalPort : UInt16} {proto : String} (hl : proto.toLower = proto)
    (table : Table (UInt16 × String) PortMapping) :
    m.mappingsOf (table.erase (externalPort, proto)) =
      (m.mappingsOf table).after (.removePortMapping externalPort proto m.wanInterface) := by
  simp only [Mappings.after, hl]
  cases hp : protoOfText proto with
  | none =>
    funext key
    refine mappingsOf_congr (AList.lookup_erase_ne fun e => ?_)
    rw [← (Prod.mk.inj e).2, protoOfText_toText] at hp
    cases hp
  | some p =>
    obtain rfl := toText_of_protoOfText hp
    funext key
    by_cases hk : key = ⟨externalPort, p⟩
    · rw [hk]
      simp [mappingsOf]
    · simp only [Function.update_of_ne hk]
      exact mappingsOf_congr (AList.lookup_erase_ne fun e => hk (key_eq_of_text e))

/-- **A change of the table is what its call does to the mappings.** -/
theorem mappingsOf_make {c : Change} (hc : m.Allowed c) (s : State) :
    m.mappingsOf (m.make c s).mappings = (m.mappingsOf s.mappings).after (m.callOf c) := by
  cases c with
  | enter mapping =>
    rw [mappings_make_enter]
    exact mappingsOf_insert hc s.mappings
  | drop externalPort proto =>
    rw [mappings_make_drop]
    exact mappingsOf_erase hc s.mappings

variable {w : World} {k : Kernel}

theorem refines_carryOut {M : Mappings} (hR : Refines M (w.kernel.rules .prerouting)) {c : Change}
    (hc : m.Allowed c) (hok : (w.carryOut (m.callOf c)).1.isOk) :
    Refines (M.after (m.callOf c)) ((w.carryOut (m.callOf c)).2.kernel.rules .prerouting) := by
  have hq : (UpnpCall.mk (m.callOf c) []).Quiet := by simp [UpnpCall.Quiet]
  have hf : (UpnpCall.mk (m.callOf c) []).Fits M := by
    rw [hq.fits_iff]
    cases c with
    | enter mapping =>
      obtain ⟨a, ha⟩ := Admitted.exists_v4 hc
      intro _ _
      rw [ha, Net.ipv4OfText_toText]
      rfl
    | drop externalPort proto => trivial
  have hs := UpnpCall.refined_of_fits hR hf
  unfold UpnpCall.step UpnpCall.system at hs
  unfold World.carryOut at hok ⊢
  revert hs hok
  generalize upnpOp (m.callOf c) { kernel := w.kernel } = ended
  rcases ended with ⟨_ | result, s⟩
  · exact fun h _ => absurd h Bool.false_ne_true
  · exact fun _ h => h

variable (m) in
/-- After the calls in flight the rules will be those of the table. -/
structure Tracks (w : World) : Prop where
  admitted : m.TableAdmitted w.state
  pending : ∀ op ∈ w.state.spawned, ∃ c, m.Allowed c ∧ op = m.callOf c
  ahead : ∃ M, Refines M (w.kernel.rules .prerouting) ∧
    Lib.run (fun op M => Mappings.after M op) w.state.spawned M = m.mappingsOf w.state.mappings

theorem tracks_init (hk : Refines (fun _ => none) (k.rules .prerouting)) :
    m.Tracks { kernel := k } where
  admitted := tableAdmitted_init
  pending := fun _ hop => absurd hop not_mem_nil
  ahead := ⟨_, hk, rfl⟩

theorem Tracks.make (he : m.executor) {s : State}
    (h : m.Tracks ⟨s, k⟩) {c : Change} (hc : m.Allowed c) : m.Tracks ⟨m.make c s, k⟩ where
  admitted := h.admitted.make hc
  pending := by
    intro op hop
    rw [spawned_make he, mem_append, mem_singleton] at hop
    rcases hop with hop | rfl
    · exact h.pending op hop
    · exact ⟨c, hc, rfl⟩
  ahead := by
    obtain ⟨M, hR, hM⟩ := h.ahead
    refine ⟨M, hR, ?_⟩
    rw [spawned_make he, Lib.run_append, hM, mappingsOf_make hc]
    rfl

theorem Tracks.complete (h : m.Tracks w) {i : ℕ} (hok : w.succeeds (.complete i))
    (ht : w.inTurn (.complete i)) : m.Tracks (m.step (.complete i) w) := by
  cases hop : w.state.spawned[i]? with
  | none =>
    simp only [step, hop]
    exact h
  | some op =>
    simp only [World.succeeds, World.inTurn, hop, Option.all_some, all_eq_true,
      bne_iff_ne] at hok ht
    obtain ⟨hi, hg⟩ := List.getElem?_eq_some_iff.1 hop
    have hs : w.state.spawned =
        w.state.spawned.take i ++ op :: w.state.spawned.drop (i + 1) := by
      rw [← hg, getElem_cons_drop, take_append_drop]
    have he : w.state.spawned.eraseIdx i =
        w.state.spawned.take i ++ w.state.spawned.drop (i + 1) :=
      eraseIdx_eq_take_drop_succ _ _
    obtain ⟨c, hc, rfl⟩ := h.pending op (mem_of_getElem? hop)
    obtain ⟨M, hR, hM⟩ := h.ahead
    simp only [step, hop]
    refine ⟨h.admitted, fun op' hop' => h.pending op' (mem_of_mem_eraseIdx hop'),
      M.after (m.callOf c), refines_carryOut hR hc hok, ?_⟩
    rw [he, ← hM]
    nth_rewrite 3 [hs]
    refine (Lib.run_first (fun op' hop' M => ?_) M).symm
    obtain ⟨c', -, rfl⟩ := h.pending op' (mem_of_mem_take hop')
    exact after_comm (callOf_ne_removeAll c) (callOf_ne_removeAll c') (ht _ hop') M

theorem Tracks.step (he : m.executor) (h : m.Tracks w) {o : Step}
    (hok : w.succeeds o) (ht : w.inTurn o) : m.Tracks (m.step o w) := by
  cases o with
  | complete i => exact h.complete hok ht
  | event e =>
    have hI : ∀ c s, m.Allowed c → m.Tracks ⟨s, w.kernel⟩ → m.Tracks ⟨m.make c s, w.kernel⟩ :=
      fun c s hc hs => hs.make he hc
    exact (changed_handle e h.admitted).invariant hI h

theorem Tracks.settled (h : m.Tracks w) (hd : w.state.spawned = []) : m.Settled w where
  mapped := by
    intro key mapping hl
    obtain ⟨rfl, had⟩ := h.admitted key mapping hl
    obtain ⟨p, hp⟩ := had.exists_proto
    obtain ⟨a, ha⟩ := had.exists_v4
    refine ⟨⟨mapping.externalPort, p⟩, by rw [hp], ?_⟩
    rw [hp] at hl
    simp [mappingsOf, hl, targetOf, ha]
  refines := by
    obtain ⟨M, hR, hM⟩ := h.ahead
    rw [hd] at hM
    rw [← hM]
    exact hR

/-- **When the rules settle.** If the calls succeed, in turn for each port and protocol, the rules
are those of the table whenever no call is in flight. -/
theorem settled_of_inTurn (hexec : m.executor = true)
    (hk : Refines (fun _ => none) (k.rules .prerouting)) {steps : List Step}
    (h : Along m.step (fun o w => w.succeeds o = true ∧ w.inTurn o = true) steps { kernel := k })
    (hd : (Lib.run m.step steps { kernel := k }).state.spawned = []) :
    m.Settled (Lib.run m.step steps { kernel := k }) := by
  have ht : m.Tracks (Lib.run m.step steps { kernel := k }) :=
    h.invariant (fun _ _ hw ho => hw.step hexec ho.1 ho.2) (tracks_init hk)
  exact ht.settled hd

def deleteWeb : Event :=
  .request 0 "POST" "/upnp/control/WANIPConnection"
    ("<s:Body><u:DeletePortMapping>\n".toList ++ element "NewExternalPort" "8080" ++
      element "NewProtocol" "TCP" ++ "</u:DeletePortMapping></s:Body>".toList)

/-- A mapping is added, moved to another client, deleted and added again. -/
def inOrder : List Step :=
  [.event (addWeb "192.168.3.10"), .event (addWeb "192.168.3.11"), .complete 0, .complete 0,
    .event deleteWeb, .complete 0, .event (addWeb "192.168.3.10"), .complete 0]

theorem settled_inOrder : homeManager.Settled (Lib.run homeManager.step inOrder {}) := by
  have hr : Along homeManager.step (fun o w => w.succeeds o = true ∧ w.inTurn o = true)
      inOrder {} ∧ (Lib.run homeManager.step inOrder {}).state.spawned = [] := by
    decide +kernel
  exact settled_of_inTurn rfl UpnpCall.refines_empty hr.1 hr.2

def reordered : List Step :=
  [.event (addWeb "192.168.3.10"), .complete 0, .event (addWeb "192.168.3.11"), .event deleteWeb,
    .complete 1, .complete 0]

/-- Port 8080 stays mapped when its removal overtakes the second of its two additions. -/
theorem orphan_after_delete :
    ¬∀ (m : UpnpManager) (k : Kernel) (steps : List Step), m.executor = true →
      Refines (fun _ => none) (k.rules .prerouting) →
      Along m.step (fun o w => w.succeeds o = true) steps { kernel := k } →
      (Lib.run m.step steps { kernel := k }).state.spawned = [] →
      m.Settled (Lib.run m.step steps { kernel := k }) := by
  intro h
  -- One evaluation of the run for all that is read off it.
  have hru : Along homeManager.step (fun o w => w.succeeds o = true) reordered {} ∧
      (Lib.run homeManager.step reordered {}).state.spawned = [] ∧
      (homeManager.mappingsOf (Lib.run homeManager.step reordered {}).state.mappings
        ⟨8080, .tcp⟩).isNone = true ∧
      Lib.tagged Executor.NftRuleSpec.comment (some (MappingKey.comment ⟨8080, .tcp⟩))
        ((Lib.run homeManager.step reordered {}).kernel.rules .prerouting) ≠ [] := by
    decide +kernel
  obtain ⟨hs, hd, hn, hr⟩ := hru
  have hse := h homeManager {} reordered rfl UpnpCall.refines_empty hs hd
  have hm := hse.refines.mapped ⟨8080, .tcp⟩
  rw [Option.isNone_iff_eq_none.1 hn] at hm
  exact hr hm

end UpnpManager
end BalanSir.Upnp
