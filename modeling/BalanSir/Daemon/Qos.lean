/-
# Converging the traffic shaping

The QoS pass of `SubsystemManager`: configurations against the qdiscs it finds.
-/

import BalanSir.Executor.Qdisc
import BalanSir.Lib.Run
import Mathlib.Data.List.Nodup

namespace BalanSir.Daemon

open Common List Executor Netns Attached
open Executor (Netns TcAttribute kindOf cakeBandwidthOf cakeOptions fqCodelAttributes)
open Lib (run Along)

variable {ε : Type}

/-- `SubsystemExec`, the QoS calls, on the state of the executor. -/
structure SubsystemExec (ε : Type) where
  qosOp : QosOp → ε → Except String QosResult × ε
  qosState : String → ε → Except String (List AppliedQdisc)
  qosCapabilities : ε → Except String QosCapabilities

/-- `SubsystemEvent`, the variants of a pass. -/
inductive QosEvent where
  | applied (interface kind : String)
  | removed (interface : String)
  | error (detail : String)
  deriving DecidableEq

/-- The QoS part of `SubsystemManager`; `issued` records the operations. -/
structure SubsystemManager (ε : Type) where
  exec : ε
  qosIntent : List QosConfig
  snapshot : QosSnapshot := {}
  events : List QosEvent := []
  issued : List (QosOp × Except String Unit) := []

def qosResultToResult (result : QosResult) : Except String Unit :=
  if result.ok then .ok () else .error (result.op ++ ": " ++ result.detail)

def qMatchesConfig (q : AppliedQdisc) (config : QosConfig) : Bool :=
  if !q.ourIdentity || q.interface ≠ config.interface then false
  else if q.kind ≠ some config.kind.asStr then false
  else
    match config.bandwidthBps, q.bandwidthBps with
    | some want, some have' => want == have'
    | some _, none => config.kind ≠ .cake
    | none, _ => true

def supported (caps : QosCapabilities) : QdiscKind → Bool
  | .cake => caps.cake
  | .fqCodel => caps.fqCodel
  | .ingress => caps.ingress

namespace SubsystemManager

variable (x : SubsystemExec ε)

def call (op : QosOp) (m : SubsystemManager ε) : Except String Unit × SubsystemManager ε :=
  let (answer, exec) := x.qosOp op m.exec
  let result := match answer with
    | .ok r => qosResultToResult r
    | .error e => .error e
  (result, { m with exec := exec, issued := m.issued ++ [(op, result)] })

def emit (m : SubsystemManager ε) (event : QosEvent) : SubsystemManager ε :=
  { m with events := m.events ++ [event] }

def fail (m : SubsystemManager ε) (detail : String) : SubsystemManager ε :=
  { m.emit (.error detail) with snapshot := { m.snapshot with lastError := some detail } }

def drifts (m : SubsystemManager ε) (detail : String) : SubsystemManager ε :=
  { m with snapshot := { m.snapshot with lastError := some detail, drift := true } }

def cleanupStep (desired : List QosConfig)
    (acc : SubsystemManager ε × Option String) (q : AppliedQdisc) :
    SubsystemManager ε × Option String :=
  if q.ourIdentity && !desired.any (·.interface = q.interface) then
    match acc.1.call x (.remove q.interface) with
    | (.ok (), m) => (m.emit (.removed q.interface), acc.2)
    | (.error e, m) =>
      let detail := "orphan cleanup " ++ q.interface ++ ": " ++ e
      (m.fail detail, some detail)
  else acc

def applyStep (applied : List AppliedQdisc)
    (acc : SubsystemManager ε × Option String) (config : QosConfig) :
    SubsystemManager ε × Option String :=
  if applied.any (qMatchesConfig · config) then acc
  else
    match acc.1.call x (.apply config) with
    | (.ok (), m) => (m.emit (.applied config.interface config.kind.asStr), acc.2)
    | (.error e, m) =>
      let detail := "apply " ++ config.kind.asStr ++ " on " ++ config.interface ++ ": " ++ e
      (m.fail detail, some detail)

def driftNow (desired : List QosConfig) (applied : List AppliedQdisc) : Bool :=
  desired.any (fun config => !applied.any (qMatchesConfig · config)) ||
    applied.any fun q => q.ourIdentity && !desired.any fun c =>
      c.interface = q.interface && c.kind.asStr = q.kind.getD ""

def carryOut (applied : List AppliedQdisc) (m : SubsystemManager ε) :
    SubsystemManager ε × Option String :=
  m.qosIntent.foldl (applyStep x applied) (applied.foldl (cleanupStep x m.qosIntent) (m, none))

def convergeQos (m : SubsystemManager ε) : Except String Unit × SubsystemManager ε :=
  match x.qosState "" m.exec, x.qosCapabilities m.exec with
  | .ok applied, .ok caps =>
    match m.qosIntent.find? fun config => !supported caps config.kind with
    | some config =>
      let detail := config.kind.asStr ++ " not supported on " ++ config.interface
        ++ " (kernel/module missing)"
      (.error detail, (m.drifts detail).emit (.error detail))
    | none =>
      let (m', lastError) := carryOut x applied m
      let appliedFresh := (x.qosState "" m'.exec).toOption.getD applied
      (.ok (), { m' with snapshot :=
        { desired := m.qosIntent
          applied := appliedFresh
          capabilities := some caps
          drift := driftNow m.qosIntent appliedFresh
          lastError := lastError } })
  | .error e, _ => (.error e, m.drifts e)
  | .ok _, .error e => (.error e, m.drifts e)

end SubsystemManager

def netExec (caps : QosCapabilities) : SubsystemExec Netns where
  qosOp op ns := let (result, ns) := Executor.qosOp op ns; (.ok result, ns)
  qosState interface ns := .ok (ns.state interface)
  qosCapabilities _ := .ok caps

def KindRate (config : QosConfig) (kind : Option String) (bandwidth : Option UInt64) : Prop :=
  kind = some config.kind.asStr ∧
    match config.bandwidthBps, bandwidth with
    | some want, some have' => want = have'
    | some _, none => config.kind ≠ .cake
    | none, _ => True

variable {config : QosConfig}

theorem qMatchesConfig_iff {q : AppliedQdisc} :
    qMatchesConfig q config ↔ q.ourIdentity ∧ q.interface = config.interface ∧
      KindRate config q.kind q.bandwidthBps := by
  unfold qMatchesConfig KindRate
  rcases config.bandwidthBps with _ | want <;> rcases q.bandwidthBps with _ | have' <;>
    by_cases hours : q.ourIdentity = true <;> by_cases hi : q.interface = config.interface <;>
    by_cases hk : q.kind = some config.kind.asStr <;> simp [hours]

def InPlace (config : QosConfig) (a : Attached) : Prop :=
  ∃ attributes ∈ a.own, KindRate config (kindOf attributes) (cakeBandwidthOf attributes)

def SameKind (config : QosConfig) (attributes : List TcAttribute) : Prop :=
  config.kind.asStr = (kindOf attributes).getD ""

variable {ns : Netns}

theorem any_matches_iff : (ns.state "").any (qMatchesConfig · config) ↔
      config.interface ∈ ns.interfaces ∧ InPlace config (ns.qdiscs config.interface) := by
  have ho : (∃ q ∈ (ns.qdiscs config.interface).report config.interface, q.ourIdentity = true ∧
      KindRate config q.kind q.bandwidthBps) ↔ InPlace config (ns.qdiscs config.interface) :=
    exists_own_report_iff fun _ _ _ => Iff.rfl
  simp only [any_eq_true, mem_state, qMatchesConfig_iff, ← ho]
  constructor
  · rintro ⟨q, ⟨name, hn, hq⟩, hours, hi, hr⟩
    obtain rfl : name = config.interface := (interface_of_mem_report hq).symm.trans hi
    exact ⟨hn, q, hq, hours, hr⟩
  · rintro ⟨hn, q, hq, hours, hr⟩
    exact ⟨q, ⟨_, hn, hq⟩, hours, interface_of_mem_report hq, hr⟩

variable {desired : List QosConfig}
  {name : String} {applied : List AppliedQdisc} {l : List QosConfig}

theorem driftNow_eq_false_iff : SubsystemManager.driftNow desired (ns.state "") = false ↔
      (∀ config ∈ desired, config.interface ∈ ns.interfaces ∧
        InPlace config (ns.qdiscs config.interface)) ∧
      ∀ name ∈ ns.interfaces, ∀ attributes ∈ (ns.qdiscs name).own,
        ∃ config ∈ desired, config.interface = name ∧ SameKind config attributes := by
  have hours : ∀ name, (∃ q ∈ (ns.qdiscs name).report name, q.ourIdentity = true ∧
      ¬∃ config ∈ desired, config.interface = name ∧ config.kind.asStr = q.kind.getD "") ↔
      ∃ attributes ∈ (ns.qdiscs name).own,
        ¬∃ config ∈ desired, config.interface = name ∧ SameKind config attributes :=
    fun name => exists_own_report_iff fun _ _ _ => Iff.rfl
  unfold SubsystemManager.driftNow
  rw [Bool.or_eq_false_iff]
  refine and_congr ?_ ?_
  · simp only [any_eq_false, Bool.not_eq_true, Bool.not_eq_false', any_matches_iff]
  · have hq : ∀ name, ∀ q ∈ (ns.qdiscs name).report name,
        ((desired.any fun c => c.interface = q.interface && c.kind.asStr = q.kind.getD "") = true ↔
          ∃ config ∈ desired, config.interface = name ∧ config.kind.asStr = q.kind.getD "") := by
      intro name q hq
      simp [interface_of_mem_report hq]
    rw [← Bool.not_eq_true, any_eq_true]
    constructor
    · intro h name hn attributes ha
      by_contra hnon
      obtain ⟨q, hm, ho, hno⟩ := (hours name).2 ⟨attributes, ha, hnon⟩
      refine h ⟨q, Executor.mem_state.2 ⟨name, hn, hm⟩, ?_⟩
      rw [ho, Bool.true_and, Bool.not_eq_true', ← Bool.not_eq_true, hq name q hm]
      exact hno
    · rintro h ⟨q, hm, hc⟩
      obtain ⟨name, hn, hm⟩ := Executor.mem_state.1 hm
      rw [Bool.and_eq_true, Bool.not_eq_true', ← Bool.not_eq_true, hq name q hm] at hc
      obtain ⟨attributes, ha, hno⟩ := (hours name).1 ⟨q, hm, hc⟩
      exact hno (h name hn attributes ha)

def orphan (desired : List QosConfig) (q : AppliedQdisc) : Bool :=
  q.ourIdentity && !desired.any (·.interface = q.interface)

def attach (config : QosConfig) : Attached → Attached :=
  match config.direction, config.kind with
  | .ingress, _ => .replaceIngress [.kind "ingress"]
  | .egress, .fqCodel => .replaceRoot (fqCodelAttributes config)
  | .egress, .cake => .replaceRoot [.kind "cake", .options (cakeOptions config)]
  | .egress, .ingress => id

def cleaned (desired : List QosConfig) (q : AppliedQdisc) (ns : Netns) : Netns :=
  if orphan desired q then ns.change q.interface fun a => a.deleteRoot.deleteIngress else ns

def installed (applied : List AppliedQdisc) (config : QosConfig) (ns : Netns) : Netns :=
  if applied.any (qMatchesConfig · config) then ns else ns.change config.interface (attach config)

/-- From `m` to `m'` operations were issued that take a kernel with `P` to `f` of it. -/
structure Does (f : Netns → Netns) (P : Netns → Prop) (m m' : SubsystemManager Netns) : Prop where
  issued : ∃ new, m'.issued = m.issued ++ new ∧
    ((∀ entry ∈ new, entry.2 = .ok ()) → m'.exec = f m.exec ∧ P m.exec)
  intent : m'.qosIntent = m.qosIntent

namespace Does

variable {f g : Netns → Netns} {P Q : Netns → Prop} {m m' m'' : SubsystemManager Netns}

theorem nothing (hf : f m.exec = m.exec) (hP : P m.exec) : Does f P m m :=
  ⟨⟨[], (append_nil _).symm, fun _ => ⟨hf.symm, hP⟩⟩, rfl⟩

theorem trans (h : Does f P m m') (h' : Does g Q m' m'') :
    Does (fun ns => g (f ns)) (fun ns => P ns ∧ Q (f ns)) m m'' := by
  obtain ⟨⟨new, hn, hdo⟩, hi⟩ := h
  obtain ⟨⟨new', hn', hdo'⟩, hi'⟩ := h'
  refine ⟨⟨new ++ new', by rw [hn', hn, append_assoc], fun hok => ?_⟩, hi'.trans hi⟩
  rw [forall_mem_append] at hok
  obtain ⟨he, hP⟩ := hdo hok.1
  obtain ⟨he', hQ⟩ := hdo' hok.2
  rw [he] at he' hQ
  exact ⟨he', hP, hQ⟩

theorem foldl {α : Type} {step : SubsystemManager Netns × Option String → α →
      SubsystemManager Netns × Option String} {F : α → Netns → Netns} {P : α → Netns → Prop}
    (hs : ∀ acc a, Does (F a) (P a) acc.1 (step acc a).1) (l : List α)
    (acc : SubsystemManager Netns × Option String) :
    Does (run F l) (Along F P l) acc.1 (l.foldl step acc).1 := by
  induction l generalizing acc with
  | nil => exact nothing rfl trivial
  | cons a l ih => exact (hs acc a).trans (ih (step acc a))

end Does

namespace SubsystemManager

variable (caps : QosCapabilities)

theorem does_call_remove (interface : String) (m : SubsystemManager Netns) :
    Does (fun ns => ns.change interface fun a => a.deleteRoot.deleteIngress) (fun _ => True) m
      (m.call (netExec caps) (.remove interface)).2 := by
  refine ⟨⟨[_], rfl, fun hok => ⟨?_, trivial⟩⟩, rfl⟩
  have hr := hok _ (mem_singleton_self _)
  by_cases hi : interface ∈ m.exec.interfaces
  · simp [call, netExec, Executor.qosOp, Netns.remove, hi]
  · simp [Netns.remove, hi, qosResultToResult] at hr

theorem does_call_apply (config : QosConfig) (m : SubsystemManager Netns) :
    Does (fun ns => ns.change config.interface (attach config))
      (fun ns => config.interface ∈ ns.interfaces) m (m.call (netExec caps) (.apply config)).2 := by
  refine ⟨⟨[_], rfl, fun hok => ?_⟩, rfl⟩
  have hr := hok _ (mem_singleton_self _)
  by_cases hi : config.interface ∈ m.exec.interfaces
  · unfold attach
    cases hd : config.direction <;> cases hk : config.kind <;>
      simp [call, netExec, Executor.qosOp, Netns.apply, hi, hd, hk, qosResultToResult] at hr ⊢
  · simp [Netns.apply, hi, qosResultToResult] at hr

theorem does_cleanupStep (desired : List QosConfig) (acc : SubsystemManager Netns × Option String)
    (q : AppliedQdisc) : Does (cleaned desired q) (fun _ => True) acc.1
      (cleanupStep (netExec caps) desired acc q).1 := by
  unfold cleaned cleanupStep
  by_cases ho : orphan desired q
  · have hd := does_call_remove caps q.interface acc.1
    simp only [if_pos ho]
    rw [if_pos (show (_ && _) = true from ho)]
    rcases hc : acc.1.call (netExec caps) (.remove q.interface) with ⟨_ | _, m⟩ <;>
      rw [hc] at hd <;> exact ⟨hd.issued, hd.intent⟩
  · rw [if_neg (show ¬(_ && _) = true from ho)]
    exact .nothing (if_neg ho) trivial

theorem does_applyStep (applied : List AppliedQdisc)
    (acc : SubsystemManager Netns × Option String) (config : QosConfig) :
    Does (installed applied config)
      (fun ns => applied.any (qMatchesConfig · config) ∨ config.interface ∈ ns.interfaces)
      acc.1 (applyStep (netExec caps) applied acc config).1 := by
  unfold installed applyStep
  by_cases hm : applied.any (qMatchesConfig · config)
  · rw [if_pos hm]
    exact .nothing (if_pos hm) (.inl hm)
  · have hd := does_call_apply caps config acc.1
    simp only [hm, Bool.false_eq_true, false_or]
    rcases hc : acc.1.call (netExec caps) (.apply config) with ⟨_ | _, m⟩ <;>
      rw [hc] at hd <;> exact ⟨hd.issued, hd.intent⟩

theorem does_carryOut (applied : List AppliedQdisc) (m : SubsystemManager Netns) :
    Does (fun ns => run (installed applied) m.qosIntent (run (cleaned m.qosIntent) applied ns))
      (fun ns => Along (cleaned m.qosIntent) (fun _ _ => True) applied ns ∧
        Along (installed applied)
          (fun config ns => applied.any (qMatchesConfig · config) ∨
            config.interface ∈ ns.interfaces)
          m.qosIntent (run (cleaned m.qosIntent) applied ns))
      m (carryOut (netExec caps) applied m).1 :=
  (Does.foldl (does_cleanupStep caps m.qosIntent) applied (m, none)).trans
    (Does.foldl (does_applyStep caps applied) m.qosIntent _)

end SubsystemManager

theorem run_cleaned_interfaces (desired : List QosConfig) (l : List AppliedQdisc) (ns : Netns) :
    (run (cleaned desired) l ns).interfaces = ns.interfaces := by
  refine Lib.run_frame (fun q _ ns => ?_) ns
  unfold cleaned
  split <;> rfl

theorem run_installed_interfaces (applied : List AppliedQdisc) (l : List QosConfig) (ns : Netns) :
    (run (installed applied) l ns).interfaces = ns.interfaces := by
  refine Lib.run_frame (fun config _ ns => ?_) ns
  unfold installed
  split <;> rfl

theorem run_cleaned_of_desired (hm : config ∈ desired) (l : List AppliedQdisc) (ns : Netns) :
    (run (cleaned desired) l ns).qdiscs config.interface = ns.qdiscs config.interface := by
  refine Lib.run_frame (f := fun ns => ns.qdiscs config.interface) (fun q _ ns => ?_) ns
  unfold cleaned
  split
  · rename_i ho
    have hne : config.interface ≠ q.interface := by
      rintro heq
      simp only [orphan, Bool.and_eq_true, Bool.not_eq_true', any_eq_false] at ho
      exact ho.2 config hm (by simpa using heq)
    exact change_qdiscs_of_ne hne ..
  · rfl

theorem own_run_cleaned (hn : ∀ config ∈ desired, config.interface ≠ name) {l : List AppliedQdisc}
    (h : (∃ q ∈ l, q.interface = name ∧ q.ourIdentity) ∨ (ns.qdiscs name).own = []) :
    ((run (cleaned desired) l ns).qdiscs name).own = [] := by
  induction l generalizing ns with
  | nil =>
    rcases h with ⟨q, hq, -⟩ | h
    · cases hq
    · exact h
  | cons q l ih =>
    apply ih
    unfold cleaned
    by_cases hq : q.interface = name ∧ q.ourIdentity
    · obtain ⟨rfl, hours⟩ := hq
      have ho : orphan desired q := by simpa [orphan, hours] using hn
      right
      rw [if_pos ho, change_qdiscs_self, own_delete]
    · rcases h with ⟨q', hm, hq'⟩ | h
      · rcases List.mem_cons.1 hm with rfl | hm
        · exact absurd hq' hq
        · exact .inl ⟨q', hm, hq'⟩
      · right
        split
        · by_cases hi : name = q.interface
          · rw [← hi, change_qdiscs_self, own_delete]
          · rw [change_qdiscs_of_ne hi, h]
        · exact h

theorem run_installed_of_ne (hn : ∀ config ∈ l, config.interface ≠ name) (ns : Netns) :
    (run (installed applied) l ns).qdiscs name = ns.qdiscs name := by
  refine Lib.run_frame (f := fun ns => ns.qdiscs name) (fun config hc ns => ?_) ns
  unfold installed
  split
  · rfl
  · exact change_qdiscs_of_ne (hn config hc).symm ..

theorem run_installed_of_mem (hn : (l.map (·.interface)).Nodup) (hm : config ∈ l) (ns : Netns) :
    (run (installed applied) l ns).qdiscs config.interface =
      if applied.any (qMatchesConfig · config) then ns.qdiscs config.interface
      else attach config (ns.qdiscs config.interface) := by
  induction l generalizing ns with
  | nil => cases hm
  | cons config' l ih =>
    rw [map_cons, nodup_cons] at hn
    have hne : ∀ c ∈ l, c.interface ≠ config'.interface := fun c hc heq =>
      hn.1 (heq ▸ mem_map_of_mem hc)
    rw [run]
    rcases List.mem_cons.1 hm with rfl | hm
    · rw [run_installed_of_ne hne]
      unfold installed
      split
      · rfl
      · exact change_qdiscs_self ..
    · have hs : (installed applied config' ns).qdiscs config.interface =
          ns.qdiscs config.interface := run_installed_of_ne (l := [config'])
        (by simpa using (hne config hm).symm) ns
      rw [ih hn.2 hm, hs]

def ReadsBack (config : QosConfig) : Prop :=
  match config.direction, config.kind with
  | .egress, .fqCodel => True
  | .egress, .cake => ∀ bps ∈ config.bandwidthBps,
      bps.toNat % 8 = 0 ∧ 8 ≤ bps.toNat ∧ bps.toNat < 34359738368
  | .ingress, .ingress => True
  | .egress, .ingress | .ingress, .fqCodel | .ingress, .cake => False

def otherSide (config : QosConfig) (a : Attached) : Option (List TcAttribute) :=
  match config.direction with
  | .egress => a.ingress
  | .ingress => a.ownRoot

def Settled (config : QosConfig) (a : Attached) : Prop :=
  InPlace config a ∧ ∀ attributes ∈ a.own, SameKind config attributes

/-- It is settled, or the operation settles it. -/
def Settles (config : QosConfig) (a : Attached) : Prop :=
  Settled config a ∨
    ¬InPlace config a ∧ ReadsBack config ∧
      ∀ attributes ∈ otherSide config a, SameKind config attributes

theorem KindRate.sameKind {attributes : List TcAttribute} {bandwidth : Option UInt64}
    (h : KindRate config (kindOf attributes) bandwidth) : SameKind config attributes := by
  rw [SameKind, h.1]
  rfl

theorem settled_iff_of_own {a a' : Attached} {new : List TcAttribute}
    {other : Option (List TcAttribute)} (hn : ¬InPlace config a)
    (ho : ∀ attributes ∈ other, attributes ∈ a.own)
    (how : ∀ attributes, attributes ∈ a'.own ↔ attributes = new ∨ attributes ∈ other) :
    Settled config a' ↔ KindRate config (kindOf new) (cakeBandwidthOf new) ∧
      ∀ attributes ∈ other, SameKind config attributes := by
  constructor
  · rintro ⟨⟨attributes, hm, hr⟩, hs⟩
    refine ⟨?_, fun attributes hm => hs attributes ((how _).2 (.inr hm))⟩
    rcases (how _).1 hm with rfl | hm
    · exact hr
    · exact absurd ⟨attributes, ho _ hm, hr⟩ hn
  · rintro ⟨hr, hs⟩
    refine ⟨⟨new, (how _).2 (.inl rfl), hr⟩, fun attributes hm => ?_⟩
    rcases (how _).1 hm with rfl | hm
    · exact hr.sameKind
    · exact hs attributes hm

theorem kindRate_fqCodelAttributes (hk : config.kind = .fqCodel) :
    KindRate config (kindOf (fqCodelAttributes config))
      (cakeBandwidthOf (fqCodelAttributes config)) := by
  have hn : Executor.bandwidthIn (Executor.fqCodelOptions config) = none := by
    refine bandwidthIn_eq_none fun kind value hm => ?_
    simp [Executor.fqCodelOptions] at hm
  unfold fqCodelAttributes KindRate
  rcases config.bandwidthBps with _ | bps <;> split <;>
    simp [kindOf, cakeBandwidthOf, hn, hk, QdiscKind.asStr]

theorem kindRate_cake_iff (hk : config.kind = .cake) :
    KindRate config (kindOf [.kind "cake", .options (cakeOptions config)])
        (cakeBandwidthOf [.kind "cake", .options (cakeOptions config)]) ↔
      ∀ bps ∈ config.bandwidthBps,
        bps.toNat % 8 = 0 ∧ 8 ≤ bps.toNat ∧ bps.toNat < 34359738368 := by
  rw [cakeBandwidthOf_cakeOptions]
  unfold KindRate
  rcases config.bandwidthBps with _ | bps
  · simp [kindOf, hk, QdiscKind.asStr]
  · rw [Option.bind_some]
    simp only [Option.mem_some_iff, forall_eq', ← reportedRate_eq_some_self_iff]
    rcases Executor.reportedRate bps with _ | rate <;>
      simp [kindOf, hk, QdiscKind.asStr, eq_comm]

theorem kindRate_ingress_iff :
    KindRate config (kindOf [.kind "ingress"]) (cakeBandwidthOf [.kind "ingress"]) ↔
      config.kind = .ingress := by
  unfold KindRate
  rcases config.bandwidthBps with _ | bps <;> cases config.kind <;>
    simp [kindOf, cakeBandwidthOf, QdiscKind.asStr]

theorem settled_attach_iff {a : Attached} (hn : ¬InPlace config a) :
    Settled config (attach config a) ↔
      ReadsBack config ∧ ∀ attributes ∈ otherSide config a, SameKind config attributes := by
  have hr : ∀ new, Settled config (a.replaceRoot new) ↔
      KindRate config (kindOf new) (cakeBandwidthOf new) ∧
        ∀ attributes ∈ a.ingress, SameKind config attributes := fun new =>
    settled_iff_of_own hn (by simp +contextual [Attached.own]) (by simp)
  have hi : ∀ new, Settled config (a.replaceIngress new) ↔
      KindRate config (kindOf new) (cakeBandwidthOf new) ∧
        ∀ attributes ∈ a.ownRoot, SameKind config attributes := fun new =>
    settled_iff_of_own hn (by simp +contextual [Attached.own]) (by simp [or_comm])
  unfold attach ReadsBack otherSide
  cases hd : config.direction with
  | egress =>
    cases hk : config.kind with
    | fqCodel => simp only [hr, kindRate_fqCodelAttributes hk]
    | cake => simp only [hr, kindRate_cake_iff hk]
    | ingress =>
      simp only [false_and, iff_false]
      exact fun h => hn h.1
  | ingress => cases hk : config.kind <;> simp [hi, kindRate_ingress_iff, hk]

theorem driftNow_eq_false_iff_settled (hn : (desired.map (·.interface)).Nodup)
    (ht : ∀ config ∈ desired, config.interface ∈ ns.interfaces)
    (he : ∀ name ∈ ns.interfaces, (∀ config ∈ desired, config.interface ≠ name) →
      (ns.qdiscs name).own = []) : SubsystemManager.driftNow desired (ns.state "") = false ↔
      ∀ config ∈ desired, Settled config (ns.qdiscs config.interface) := by
  rw [driftNow_eq_false_iff]
  constructor
  · rintro ⟨hp, hk⟩ config hm
    refine ⟨(hp config hm).2, fun attributes ho => ?_⟩
    obtain ⟨config', hm', hi, hs⟩ := hk _ (ht config hm) attributes ho
    obtain rfl : config' = config := inj_on_of_nodup_map hn hm' hm hi
    exact hs
  · intro h
    refine ⟨fun config hm => ⟨ht config hm, (h config hm).1⟩, ?_⟩
    intro name hna attributes ho
    by_cases hd : ∃ config ∈ desired, config.interface = name
    · obtain ⟨config, hm, rfl⟩ := hd
      exact ⟨config, hm, rfl, (h config hm).2 attributes ho⟩
    · rw [he name hna (by simpa using hd)] at ho
      cases ho

namespace SubsystemManager

variable {caps : QosCapabilities} {m : SubsystemManager Netns}

theorem convergeQos_netExec (hk : ∀ config ∈ m.qosIntent, supported caps config.kind) :
    (convergeQos (netExec caps) m).2 = { (carryOut (netExec caps) (m.exec.state "") m).1 with
        snapshot :=
          { desired := m.qosIntent
            applied := (carryOut (netExec caps) (m.exec.state "") m).1.exec.state ""
            capabilities := some caps
            drift := driftNow m.qosIntent
              ((carryOut (netExec caps) (m.exec.state "") m).1.exec.state "")
            lastError := (carryOut (netExec caps) (m.exec.state "") m).2 } } := by
  have hn : m.qosIntent.find? (fun config => !supported caps config.kind) = none := by
    rw [find?_eq_none]
    intro config hm
    rw [hk config hm]
    decide
  show (match m.qosIntent.find? (fun config => !supported caps config.kind) with
    | some config => _
    | none => _ : Except String Unit × SubsystemManager Netns).2 = _
  rw [hn]
  rfl

theorem carryOut_of_not_drift (hd : driftNow m.qosIntent (m.exec.state "") = false) :
    carryOut (netExec caps) (m.exec.state "") m = (m, none) := by
  rw [driftNow, Bool.or_eq_false_iff, any_eq_false, any_eq_false] at hd
  obtain ⟨hm, hours⟩ := hd
  have hc : (m.exec.state "").foldl (cleanupStep (netExec caps) m.qosIntent) (m, none) =
      (m, none) := by
    refine List.foldlRecOn (motive := fun acc => acc = (m, none)) _ _ rfl ?_
    rintro _ rfl q hq
    refine if_neg fun ho => hours q hq ?_
    simp only [Bool.and_eq_true, Bool.not_eq_true', any_eq_false] at ho ⊢
    exact ⟨ho.1, fun config hme h => ho.2 config hme h.1⟩
  rw [carryOut, hc]
  refine List.foldlRecOn (motive := fun acc => acc = (m, none)) _ _ rfl ?_
  rintro _ rfl config hme
  exact if_pos (by simpa using hm config hme)

theorem exec_carryOut (hn : (m.qosIntent.map (·.interface)).Nodup)
    (hok : ∀ entry ∈ (carryOut (netExec caps) (m.exec.state "") m).1.issued.drop m.issued.length,
      entry.2 = .ok ()) (hns : (carryOut (netExec caps) (m.exec.state "") m).1.exec = ns) :
    (∀ config ∈ m.qosIntent, config.interface ∈ ns.interfaces) ∧ (∀ config ∈ m.qosIntent,
        (Settled config (ns.qdiscs config.interface) ↔
          Settles config (m.exec.qdiscs config.interface))) ∧
      ∀ name ∈ ns.interfaces, (∀ config ∈ m.qosIntent, config.interface ≠ name) →
        (ns.qdiscs name).own = [] := by
  obtain ⟨new, hne, hdo⟩ := (does_carryOut caps (m.exec.state "") m).issued
  rw [hne, drop_left] at hok
  obtain ⟨he, -, ha⟩ := hdo hok
  rw [hns] at he
  subst he
  have ht : ∀ config ∈ m.qosIntent, config.interface ∈ m.exec.interfaces := by
    intro config hme
    obtain ⟨pre, post, hs⟩ := append_of_mem hme
    rcases Lib.along_iff_split.1 ha pre config post hs with hm | hme
    · exact (any_matches_iff.1 hm).1
    · rwa [run_installed_interfaces, run_cleaned_interfaces] at hme
  rw [run_installed_interfaces, run_cleaned_interfaces]
  refine ⟨ht, ?_, ?_⟩
  · intro config hme
    rw [run_installed_of_mem hn hme, run_cleaned_of_desired hme, Settles]
    by_cases hp : InPlace config (m.exec.qdiscs config.interface)
    · rw [if_pos (any_matches_iff.2 ⟨ht config hme, hp⟩)]
      simp [hp]
    · rw [if_neg fun h => hp (any_matches_iff.1 h).2, settled_attach_iff hp]
      simp [Settled, hp]
  · intro name hna hel
    rw [run_installed_of_ne hel]
    refine own_run_cleaned hel ?_
    refine (em _).imp_right fun hno => List.eq_nil_iff_forall_not_mem.2 fun attributes ho => ?_
    obtain ⟨q, hq, hours, -⟩ : ∃ q ∈ (m.exec.qdiscs name).report name,
        q.ourIdentity = true ∧ True :=
      (exists_own_report_iff fun _ _ _ => Iff.rfl).2 ⟨attributes, ho, trivial⟩
    exact hno ⟨q, Executor.mem_state.2 ⟨name, hna, hq⟩, interface_of_mem_report hq, hours⟩

/-- **When a pass settles.** With one supported config per interface and operations that succeed,
nothing drifts and the next pass issues nothing exactly when every interface of the intent settles.
-/
theorem convergeQos_settles_iff (caps : QosCapabilities) (m : SubsystemManager Netns)
    (hnodup : (m.qosIntent.map (·.interface)).Nodup)
    (hkinds : ∀ config ∈ m.qosIntent, supported caps config.kind = true)
    (hok : ∀ entry ∈ (convergeQos (netExec caps) m).2.issued.drop m.issued.length,
      entry.2 = .ok ()) : ((convergeQos (netExec caps) m).2.snapshot.drift = false ∧
        (convergeQos (netExec caps) (convergeQos (netExec caps) m).2).2.issued =
          (convergeQos (netExec caps) m).2.issued) ↔
      ∀ config ∈ m.qosIntent, Settles config (m.exec.qdiscs config.interface) := by
  have hi : (convergeQos (netExec caps) m).2.qosIntent = m.qosIntent := by
    rw [convergeQos_netExec hkinds]
    exact (does_carryOut caps _ m).intent
  have hd : (convergeQos (netExec caps) m).2.snapshot.drift =
      driftNow m.qosIntent ((convergeQos (netExec caps) m).2.exec.state "") := by
    rw [convergeQos_netExec hkinds]
  have hq : (convergeQos (netExec caps) m).2.snapshot.drift = false →
      (convergeQos (netExec caps) (convergeQos (netExec caps) m).2).2.issued =
        (convergeQos (netExec caps) m).2.issued := by
    intro h
    rw [hd, ← hi] at h
    rw [convergeQos_netExec (hi ▸ hkinds), carryOut_of_not_drift h]
  have hp := convergeQos_netExec hkinds
  rw [hp] at hok
  obtain ⟨ht, hs, he⟩ := exec_carryOut hnodup hok rfl
  rw [and_iff_left_of_imp hq, hp, driftNow_eq_false_iff_settled hnodup ht he]
  exact forall₂_congr hs

def cakeAt (bps : UInt64) : QosConfig where
  interface := "eth0"
  direction := .egress
  kind := .cake
  bandwidthBps := some bps

/-- The queues of the kernel's own root `mq`. -/
def mqQueues : List InnerQdisc :=
  [⟨⟨0, 0⟩, ⟨0, 1⟩, [.kind "fq_codel"], rfl⟩, ⟨⟨0, 0⟩, ⟨0, 2⟩, [.kind "fq_codel"], rfl⟩]

def shaping (bps : UInt64) : SubsystemManager Netns where
  exec :=
    { interfaces := ["eth0"]
      qdiscs := fun _ => { root := some (0, [.kind "mq"]), inner := mqQueues } }
  qosIntent := [cakeAt bps]

/-- Fifty megabits are settled by one pass. -/
theorem fifty_megabits_settle :
    (convergeQos (netExec ⟨true, true, true⟩) (shaping 50000000)).2.snapshot.drift = false ∧
      (convergeQos (netExec ⟨true, true, true⟩)
          (convergeQos (netExec ⟨true, true, true⟩) (shaping 50000000)).2).2.issued =
        (convergeQos (netExec ⟨true, true, true⟩) (shaping 50000000)).2.issued := by
  refine (convergeQos_settles_iff ⟨true, true, true⟩ (shaping 50000000) (by decide) (by decide)
    (by decide +kernel)).2 fun config hm => .inr ?_
  obtain rfl := List.mem_singleton.1 hm
  refine ⟨?_, ?_, ?_⟩
  · rintro ⟨attributes, ho, -⟩
    cases ho
  · rintro bps ⟨⟩
    decide
  · rintro attributes ⟨⟩

/-- Forty gigabits are installed as 5640261632 bits per second, and then applied again. -/
theorem forty_gigabits_applied_again :
    let first := (convergeQos (netExec ⟨true, true, true⟩) (shaping 40000000000)).2
    first.issued.map (·.2) = [.ok ()] ∧
      first.snapshot.applied.map (·.bandwidthBps) = [some 5640261632] ∧
      first.snapshot.drift = true ∧
      (convergeQos (netExec ⟨true, true, true⟩) first).2.issued.map (·.1) =
        [.apply (cakeAt 40000000000), .apply (cakeAt 40000000000)] := by
  decide +kernel

end SubsystemManager

end BalanSir.Daemon
