/-
# The OTA commands

`balansir-ota`: `update`, `boot-confirm` and `rollback`, each a list of writes.
-/

import BalanSir.Ota.Slot

namespace BalanSir.Ota

open Lib Common List
open Write (apply)

/-- The image, the template files, how `dd` ends and what is read back. -/
structure Install where
  image : List UInt8
  etcCmdline : Slot → Option String
  ddError : Option String
  readBack : List UInt8

def defaultCmdline : Slot → String
  | .A => "root=/dev/mmcblk0p2 rootwait console=tty1 console=serial0,115200 loglevel=8 " ++
      "consoleblank=0 systemd.log_level=debug net.ifnames=0 biosdevname=0 balansir_slot=A"
  | .B => "root=/dev/mmcblk0p3 rootwait console=tty1 console=serial0,115200 loglevel=8 " ++
      "consoleblank=0 systemd.log_level=debug net.ifnames=0 biosdevname=0 balansir_slot=B"

namespace OtaDaemon

def template (etcCmdline slotCmdline : Slot → Option String) (slot : Slot) : String :=
  ((etcCmdline slot).or (slotCmdline slot)).getD (defaultCmdline slot)

def new (etcCmdline : Slot → Option String) : Command Error Unit := do
  let slotCmdline ← inspect Machine.slotCmdline
  BootPartition.ensureSlotCmdlines (template etcCmdline slotCmdline .A)
    (template etcCmdline slotCmdline .B)

variable (sha256Hex : List UInt8 → String)

def hashPartitionPrefix (partition : List UInt8) (len : ℕ) : Except Error String :=
  if partition.length < len then
    .error (.fatal ("image verification failed: partition shorter than image (" ++
      toString (len - partition.length) ++ " bytes missing)"))
  else .ok (sha256Hex (partition.take len))

def verify (i : Install) : Except Error Unit := do
  if let some stderr := i.ddError then
    throw (.fatal ("dd failed: " ++ stderr))
  let sourceHash := sha256Hex i.image
  let writtenPrefixHash ← hashPartitionPrefix sha256Hex i.readBack i.image.length
  if writtenPrefixHash ≠ sourceHash then
    throw (.fatal ("image verification failed: written " ++ writtenPrefixHash ++
      " != source " ++ sourceHash))

def install (i : Install) (targetSlot : Slot) : Command Error Unit := do
  let targetPartition := "/dev/mmcblk0p" ++ toString targetSlot.partitionNumber
  if !(← inspect fun s => s.partition targetSlot) then
    throw (.fatal ("target partition " ++ targetPartition ++ " not found"))
  else
    perform Write.apply (.image targetSlot)
    compute (verify sha256Hex i)
    perform Write.apply (.verified targetSlot)

end OtaDaemon

def failing {α : Type} (step : String) (m : Command Error α) : Command String α :=
  mapError (fun e => step ++ ": " ++ e.toText) m

variable (sha256Hex : List UInt8 → String)

def cmdUpdate (i : Install) : Command String Unit := do
  let metadata ← failing "load metadata" BootMetadata.load
  let inactive := metadata.activeSlot.other
  failing "init OTA daemon" (OtaDaemon.new i.etcCmdline)
  failing "install failed" (OtaDaemon.install sha256Hex i inactive)
  failing "switch boot slot" (BootPartition.switchToSlot inactive)
  let metadata := { metadata with nextSlot := inactive, state := .pending, triesRemaining := 3 }
  failing "save metadata" metadata.save

def cmdBootConfirm (version : String) (now : UInt64) (readable : Bool) :
    Command String Unit := do
  let metadata ← failing "load metadata" BootMetadata.load
  let booted ← unwrapOr (BootPartition.detectCurrentSlot readable) metadata.activeSlot
  if booted ≠ metadata.activeSlot then
    let metadata := { metadata with
      activeSlot := booted, activeVersion := version, state := .confirmed, triesRemaining := 3 }
    failing "save" metadata.save
  else
    let metadata ← failing "confirm" (metadata.confirmBoot version now)
    failing "save" metadata.save

def cmdRollback : Command String Unit := do
  let metadata ← failing "load metadata" BootMetadata.load
  let target := metadata.activeSlot
  let metadata ← failing "rollback" (metadata.forceRollback "manual rollback via CLI")
  failing "switch boot slot" (BootPartition.switchToSlot target)
  failing "save" metadata.save

def otaBootConfirm (version : String) (now : UInt64) : Command Error Unit := do
  let metadata ← BootMetadata.load
  let metadata ← metadata.confirmBoot version now
  metadata.save

def otaRollback : Command Error Unit := do
  let metadata ← BootMetadata.load
  let metadata ← metadata.forceRollback "manual rollback via API"
  metadata.save

/-- A command of the CLI or the API with its inputs. -/
inductive OtaCommand where
  | update (i : Install)
  | bootConfirm (version : String) (now : UInt64) (readable : Bool)
  | rollback
  | apiBootConfirm (version : String) (now : UInt64)
  | apiRollback

namespace OtaCommand

def program : OtaCommand → Command String Unit
  | update i => cmdUpdate sha256Hex i
  | bootConfirm version now readable => cmdBootConfirm version now readable
  | rollback => cmdRollback
  | apiBootConfirm version now => mapError Error.toText (otaBootConfirm version now)
  | apiRollback => mapError Error.toText otaRollback

def writes (c : OtaCommand) (s : Machine) : List Write := Lib.writes (c.program sha256Hex) s

def Succeeds (c : OtaCommand) (s : Machine) : Prop := outcome (c.program sha256Hex) s = .ok ()
  deriving Decidable

end OtaCommand

variable {s : Machine} {sha256Hex}

def Machine.updateContent (s : Machine) (i : Install) (slot : Slot) : String :=
  (s.slotCmdline slot).getD ((i.etcCmdline slot).getD (defaultCmdline slot))

def Machine.newWrites (s : Machine) (i : Install) : List Write :=
  s.ensureWrites .A ((i.etcCmdline .A).getD (defaultCmdline .A)) ++
    s.ensureWrites .B ((i.etcCmdline .B).getD (defaultCmdline .B))

def Machine.switchWrites (s : Machine) (i : Install) (m : BootMetadata) : List Write :=
  let target := m.activeSlot.other
  [.verified target, .cmdline (s.updateContent i target),
    .metadata { m with nextSlot := target, state := .pending, triesRemaining := 3 }]

def Machine.updateWrites (sha256Hex : List UInt8 → String) (s : Machine) (i : Install)
    (m : BootMetadata) : List Write :=
  s.newWrites i ++
    if s.partition m.activeSlot.other then
      .image m.activeSlot.other ::
        (match OtaDaemon.verify sha256Hex i with
          | .ok () => s.switchWrites i m
          | .error _ => [])
    else []

def Machine.booted (s : Machine) (m : BootMetadata) (readable : Bool) : Slot :=
  if readable then s.cmdlineSlot else m.activeSlot

def Machine.bootConfirmWrites (s : Machine) (m : BootMetadata) (version : String) (now : UInt64)
    (readable : Bool) : List Write :=
  if s.booted m readable ≠ m.activeSlot then
    [.metadata { m with
      activeSlot := s.booted m readable, activeVersion := version,
      state := .confirmed, triesRemaining := 3 }]
  else m.confirmWrites version now ++ [.metadata (m.promoted version now)]

def Machine.rollbackWrites (s : Machine) (m : BootMetadata) : List Write :=
  let rolledBack := m.rolledBack "manual rollback via CLI"
  .metadata rolledBack ::
    match s.slotCmdline m.activeSlot with
    | none => []
    | some content => [.cmdline content, .metadata rolledBack]

section Parts

theorem ensureWrites_eq (slot : Slot) (etcCmdline : Slot → Option String) :
    s.ensureWrites slot (OtaDaemon.template etcCmdline s.slotCmdline slot) =
      s.ensureWrites slot ((etcCmdline slot).getD (defaultCmdline slot)) := by
  unfold Machine.ensureWrites OtaDaemon.template
  cases h : s.slotCmdline slot with
  | none => simp
  | some content => rfl

theorem ensureWrites_run (slot : Slot) (text : String) {other : Slot} (h : other ≠ slot)
    (template : String) : (run apply (s.ensureWrites slot text) s).ensureWrites other template =
      s.ensureWrites other template := by
  unfold Machine.ensureWrites
  cases s.slotCmdline slot with
  | none => simp [run, apply, Function.update_of_ne h]
  | some content => rfl

theorem slotCmdline_run_ensureWrites (slot : Slot) (text : String) :
    (run apply (s.ensureWrites slot text) s).slotCmdline =
      Function.update s.slotCmdline slot (some ((s.slotCmdline slot).getD text)) := by
  unfold Machine.ensureWrites
  cases h : s.slotCmdline slot with
  | none => simp [run, apply]
  | some content => simp [run, h]

theorem does_new (i : Install) :
    Does apply (OtaDaemon.new i.etcCmdline) s (.ok ()) (s.newWrites i) := by
  refine Does.inspect_bind ?_
  rw [Machine.newWrites, ← ensureWrites_eq, ← ensureWrites_eq]
  refine (does_ensureSlotCmdline .A _).bind ?_
  rw [← ensureWrites_run .A (OtaDaemon.template i.etcCmdline s.slotCmdline .A)
    (show Slot.B ≠ .A by decide)]
  exact does_ensureSlotCmdline .B _

theorem slotCmdline_run_newWrites (i : Install) (slot : Slot) :
    (run apply (s.newWrites i) s).slotCmdline slot = some (s.updateContent i slot) := by
  rw [Machine.newWrites, run_append]
  rw [← ensureWrites_run .A ((i.etcCmdline .A).getD (defaultCmdline .A))
      (show Slot.B ≠ .A by decide), slotCmdline_run_ensureWrites, slotCmdline_run_ensureWrites]
  cases slot with
  | A => simp [Machine.updateContent]
  | B => simp [Machine.updateContent]

@[simp] theorem partition_run (ws : List Write) : (run apply ws s).partition = s.partition :=
  Lib.run_frame (fun w _ _ => by cases w <;> rfl) s

@[simp] theorem running_run (ws : List Write) : (run apply ws s).running = s.running :=
  Lib.run_frame (fun w _ _ => by cases w <;> rfl) s

@[simp] theorem slotCmdline_run_loadWrites :
    (run apply s.loadWrites s).slotCmdline = s.slotCmdline := by
  unfold Machine.loadWrites
  cases s.metadata <;> rfl

@[simp] theorem cmdline_run_loadWrites : (run apply s.loadWrites s).cmdline = s.cmdline := by
  unfold Machine.loadWrites
  cases s.metadata <;> rfl

@[simp] theorem newWrites_run_loadWrites (i : Install) :
    (run apply s.loadWrites s).newWrites i = s.newWrites i := by
  simp [Machine.newWrites, Machine.ensureWrites]

@[simp] theorem updateContent_run_loadWrites (i : Install) (slot : Slot) :
    (run apply s.loadWrites s).updateContent i slot = s.updateContent i slot := by
  simp [Machine.updateContent]

end Parts

section Commands

variable {m : BootMetadata} {ws : List Write}

variable (sha256Hex) in
theorem does_install_absent (i : Install) {slot : Slot} (h : s.partition slot = false) :
    ∃ e, Does apply (OtaDaemon.install sha256Hex i slot) s (.error e) [] := by
  refine ⟨.fatal ("target partition " ++ ("/dev/mmcblk0p" ++ toString slot.partitionNumber) ++
    " not found"), Does.inspect_bind ?_⟩
  rw [h]
  exact does_throw _

variable (sha256Hex) in
theorem does_install (i : Install) {slot : Slot} (h : s.partition slot) :
    Does apply (OtaDaemon.install sha256Hex i slot) s (OtaDaemon.verify sha256Hex i)
      (.image slot :: match OtaDaemon.verify sha256Hex i with
        | .ok () => [.verified slot]
        | .error _ => []) := by
  refine Does.inspect_bind ?_
  rw [h]
  refine Does.perform_bind ?_
  cases hv : OtaDaemon.verify sha256Hex i with
  | error e => exact (does_compute _).bind_error
  | ok _ => exact (does_compute _).bind (does_perform _)

theorem does_failing {α : Type} (step : String) {c : Command Error α} {r : Except Error α}
    (h : Does apply c s r ws) :
    Does apply (failing step c) s (r.mapError fun e => step ++ ": " ++ e.toText) ws :=
  h.mapError

variable (sha256Hex) in
theorem does_of_load_error {e : Error} (h : s.loaded = .error e) (c : OtaCommand) :
    ∃ text, Does apply (c.program sha256Hex) s (.error text) [] := by
  have hl := does_load (s := s)
  have hn : s.loadWrites = [] := by
    unfold Machine.loadWrites
    unfold Machine.loaded at h
    cases hm : s.metadata with
    | absent => simp [hm] at h
    | corrupt parseError => rfl
    | valid metadata => rfl
  rw [h, hn] at hl
  cases c with
  | update i => exact ⟨_, (does_failing _ hl).bind_error⟩
  | bootConfirm version now readable => exact ⟨_, (does_failing _ hl).bind_error⟩
  | rollback => exact ⟨_, (does_failing _ hl).bind_error⟩
  | apiBootConfirm version now => exact ⟨_, Does.mapError hl.bind_error⟩
  | apiRollback => exact ⟨_, Does.mapError hl.bind_error⟩

theorem does_load_bind {α ε : Type} (h : s.loaded = .ok m) {f : Error → ε}
    {body : BootMetadata → Command ε α} {r : Except ε α}
    (hb : Does apply (body m) (run apply s.loadWrites s) r ws) :
    Does apply (mapError f BootMetadata.load >>= body) s r (s.loadWrites ++ ws) := by
  have hl := (does_load (s := s)).mapError (g := f)
  rw [h] at hl
  exact hl.bind hb

variable (sha256Hex) in
theorem does_cmdUpdate (h : s.loaded = .ok m) (i : Install) :
    ∃ r, Does apply (cmdUpdate sha256Hex i) s r
        (s.loadWrites ++ s.updateWrites sha256Hex i m) ∧
      (r = .ok () ↔ s.partition m.activeSlot.other ∧
        OtaDaemon.verify sha256Hex i = .ok ()) := by
  have hn := does_failing "init OTA daemon"
    (does_new (s := run apply s.loadWrites s) i)
  rw [newWrites_run_loadWrites] at hn
  unfold Machine.updateWrites
  cases hp : s.partition m.activeSlot.other with
  | false =>
    have hp' : (run apply (s.newWrites i) (run apply s.loadWrites s)).partition
        m.activeSlot.other = false := by simpa using hp
    obtain ⟨e, hi⟩ := does_install_absent sha256Hex i hp'
    refine ⟨_, does_load_bind h (hn.bind (does_failing _ hi).bind_error), ?_⟩
    simp
  | true =>
    have hp' : (run apply (s.newWrites i) (run apply s.loadWrites s)).partition
        m.activeSlot.other = true := by simpa using hp
    have hi := does_install sha256Hex i hp'
    cases hv : OtaDaemon.verify sha256Hex i with
    | error e =>
      rw [hv] at hi
      refine ⟨_, does_load_bind h (hn.bind (does_failing _ hi).bind_error), ?_⟩
      simp
    | ok _ =>
      rw [hv] at hi
      refine ⟨.ok (), does_load_bind h (hn.bind ?_), by simp⟩
      refine (does_failing _ hi).bind ((does_failing _ (does_switchToSlot ?_)).bind
        (does_failing _ (does_perform _)))
      show (run apply (s.newWrites i) (run apply s.loadWrites s)).slotCmdline _ = _
      rw [← newWrites_run_loadWrites, slotCmdline_run_newWrites, updateContent_run_loadWrites]

theorem does_cmdBootConfirm (h : s.loaded = .ok m) (version : String) (now : UInt64)
    (readable : Bool) : Does apply (cmdBootConfirm version now readable) s (.ok ())
      (s.loadWrites ++ s.bootConfirmWrites m version now readable) := by
  have hs : (run apply s.loadWrites s).cmdlineSlot = s.cmdlineSlot := by
    simp [Machine.cmdlineSlot]
  refine does_load_bind h ((does_detectCurrentSlot_unwrapOr readable m.activeSlot).bind ?_)
  rw [hs]
  show Does apply (if s.booted m readable ≠ m.activeSlot then _ else _) _ _
    (s.bootConfirmWrites m version now readable)
  unfold Machine.bootConfirmWrites
  by_cases hb : s.booted m readable ≠ m.activeSlot
  · rw [if_pos hb, if_pos hb]
    exact does_failing _ (does_perform _)
  · rw [if_neg hb, if_neg hb]
    exact (does_failing _ (does_confirmBoot m version now)).bind (does_failing _ (does_perform _))

theorem does_cmdRollback (h : s.loaded = .ok m) :
    ∃ r, Does apply cmdRollback s r (s.loadWrites ++ s.rollbackWrites m) ∧
      (r = .ok () ↔ (s.slotCmdline m.activeSlot).isSome) := by
  have hb := does_failing "rollback" (does_forceRollback
    (s := run apply s.loadWrites s) m "manual rollback via CLI")
  have hf : (run apply [.metadata (m.rolledBack "manual rollback via CLI")]
      (run apply s.loadWrites s)).slotCmdline m.activeSlot =
        s.slotCmdline m.activeSlot := by
    simp [run, apply]
  unfold Machine.rollbackWrites
  cases hc : s.slotCmdline m.activeSlot with
  | none =>
    have hs := does_failing "switch boot slot" (does_switchToSlot_of_none
      (hf.trans hc))
    exact ⟨_, does_load_bind h (hb.bind hs.bind_error), by simp⟩
  | some content =>
    have hs := does_failing "switch boot slot" (does_switchToSlot (hf.trans hc))
    exact ⟨.ok (), does_load_bind h (hb.bind (hs.bind (does_failing _ (does_perform _)))),
      by simp⟩

theorem does_otaBootConfirm (h : s.loaded = .ok m) (version : String) (now : UInt64) :
    Does apply (otaBootConfirm version now) s (.ok ())
      (s.loadWrites ++ (m.confirmWrites version now ++ [.metadata (m.promoted version now)])) := by
  have hl := does_load (s := s)
  rw [h] at hl
  exact hl.bind ((does_confirmBoot m version now).bind (does_perform _))

theorem does_otaRollback (h : s.loaded = .ok m) : Does apply otaRollback s (.ok ())
      (s.loadWrites ++ [.metadata (m.rolledBack "manual rollback via API"),
        .metadata (m.rolledBack "manual rollback via API")]) := by
  have hl := does_load (s := s)
  rw [h] at hl
  exact hl.bind ((does_forceRollback m _).bind (does_perform _))

variable (sha256Hex) in
def OtaCommand.bodyWrites (c : OtaCommand) (s : Machine) (m : BootMetadata) : List Write :=
  match c with
  | update i => s.updateWrites sha256Hex i m
  | bootConfirm version now readable => s.bootConfirmWrites m version now readable
  | rollback => s.rollbackWrites m
  | apiBootConfirm version now =>
    m.confirmWrites version now ++ [.metadata (m.promoted version now)]
  | apiRollback =>
    [.metadata (m.rolledBack "manual rollback via API"),
      .metadata (m.rolledBack "manual rollback via API")]

/-- **What a command writes.** -/
theorem OtaCommand.writes_of_loaded (h : s.loaded = .ok m) (c : OtaCommand) :
    c.writes sha256Hex s = s.loadWrites ++ c.bodyWrites sha256Hex s m := by
  cases c with
  | update i =>
    obtain ⟨r, hr, -⟩ := does_cmdUpdate sha256Hex h i
    exact hr.writes_eq
  | bootConfirm version now readable => exact (does_cmdBootConfirm h version now readable).writes_eq
  | rollback =>
    obtain ⟨r, hr, -⟩ := does_cmdRollback h
    exact hr.writes_eq
  | apiBootConfirm version now => exact (does_otaBootConfirm h version now).mapError.writes_eq
  | apiRollback => exact (does_otaRollback h).mapError.writes_eq

theorem OtaCommand.writes_of_error {e : Error} (h : s.loaded = .error e) (c : OtaCommand) :
    c.writes sha256Hex s = [] := by
  obtain ⟨text, ht⟩ := does_of_load_error sha256Hex h c
  exact ht.writes_eq

theorem OtaCommand.succeeds_update (h : s.loaded = .ok m) (i : Install) :
    (OtaCommand.update i).Succeeds sha256Hex s ↔
      s.partition m.activeSlot.other ∧ OtaDaemon.verify sha256Hex i = .ok () := by
  obtain ⟨r, hr, hok⟩ := does_cmdUpdate sha256Hex h i
  rw [← hok]
  exact iff_of_eq (congrArg (· = Except.ok ()) hr.outcome_eq)

theorem OtaCommand.succeeds_rollback (h : s.loaded = .ok m) :
    OtaCommand.rollback.Succeeds sha256Hex s ↔ (s.slotCmdline m.activeSlot).isSome := by
  obtain ⟨r, hr, hok⟩ := does_cmdRollback h
  rw [← hok]
  exact iff_of_eq (congrArg (· = Except.ok ()) hr.outcome_eq)

end Commands

/-- A command, a command cut after so many writes, or a reboot. -/
inductive Op where
  | command (c : OtaCommand)
  | cut (c : OtaCommand) (after : ℕ)
  | reboot

namespace Op

def command? : Op → Option OtaCommand
  | command c | cut c _ => some c
  | reboot => none

def done (ws : List Write) : Op → List Write
  | command _ => ws
  | cut _ k => ws.take k
  | reboot => []

def Passes (n : ℕ) : Op → Prop
  | command _ => True
  | cut _ k => n < k
  | reboot => False

instance (n : ℕ) : ∀ op : Op, Decidable (op.Passes n)
  | command _ => isTrue trivial
  | cut _ k => inferInstanceAs (Decidable (n < k))
  | reboot => isFalse id

def Succeeds (sha256Hex : List UInt8 → String) (s : Machine) : Op → Prop
  | command c => c.Succeeds sha256Hex s
  | cut _ _ => False
  | reboot => True

instance (s : Machine) : ∀ op : Op, Decidable (op.Succeeds sha256Hex s)
  | command c => inferInstanceAs (Decidable (c.Succeeds sha256Hex s))
  | cut _ _ => isFalse id
  | reboot => isTrue trivial

variable (sha256Hex) in
def writes (op : Op) (s : Machine) : List Write :=
  match op.command? with
  | some c => op.done (c.writes sha256Hex s)
  | none => []

variable (sha256Hex) in
def step (op : Op) (s : Machine) : Machine :=
  match op with
  | command c => run Write.apply (c.writes sha256Hex s) s
  | cut c k => run Write.apply ((c.writes sha256Hex s).take k) s
  | reboot => { s with running := s.cmdlineSlot }

theorem done_cases (op : Op) (pre : List Write) (w : Write) (rest : List Write) :
    (op.Passes pre.length ∧ ∃ rest', rest' <+: rest ∧
      op.done (pre ++ w :: rest) = pre ++ w :: rest') ∨
    (¬op.Passes pre.length ∧ op.done (pre ++ w :: rest) <+: pre) := by
  cases op with
  | command c => exact .inl ⟨trivial, rest, prefix_rfl, rfl⟩
  | reboot => exact .inr ⟨id, nil_prefix⟩
  | cut c k =>
    rcases Nat.lt_or_ge pre.length k with h | h
    · refine .inl ⟨h, rest.take (k - pre.length - 1), take_prefix _ _, ?_⟩
      obtain ⟨j, rfl⟩ := Nat.exists_eq_add_of_lt h
      show (pre ++ w :: rest).take (pre.length + j + 1) = _
      have hj : pre.length + j + 1 - pre.length = j + 1 := by omega
      rw [take_append, take_of_length_le (by omega), hj, take_succ_cons, Nat.add_sub_cancel]
    · refine .inr ⟨Nat.not_lt.2 h, ?_⟩
      show (pre ++ w :: rest).take k <+: pre
      rw [take_append_of_le_length h]
      exact take_prefix _ _

theorem done_initial (op : Op) (ws : List Write) : op.done ws <+: ws := by
  cases op with
  | command c => exact prefix_rfl
  | cut c k => exact take_prefix _ _
  | reboot => exact nil_prefix

@[simp] theorem step_reboot (s : Machine) :
    reboot.step sha256Hex s = { s with running := s.cmdlineSlot } := rfl

variable {c : OtaCommand}

theorem step_of_command {op : Op} (h : op.command? = some c) (s : Machine) :
    op.step sha256Hex s = run apply (op.writes sha256Hex s) s := by
  cases op with
  | command c => rfl
  | cut c k => rfl
  | reboot => simp [command?] at h

theorem writes_of_command {op : Op} (h : op.command? = some c) (s : Machine) :
    op.writes sha256Hex s = op.done (c.writes sha256Hex s) := by
  rw [writes, h]

end Op

end BalanSir.Ota
