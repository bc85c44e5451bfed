/-
# Slots, boot metadata and the boot partition

`slot.rs`: `BootMetadata` and the files that say which slot boots.
-/

import BalanSir.Common.Types
import BalanSir.Lib.Journal
import BalanSir.Lib.Text

namespace BalanSir.Ota

open Lib Common Does

inductive Slot where
  | A
  | B
  deriving DecidableEq

namespace Slot

def other : Slot → Slot
  | A => B
  | B => A

def partitionNumber : Slot → ℕ
  | A => 2
  | B => 3

@[simp] theorem other_ne (s : Slot) : s.other ≠ s := by cases s <;> decide

@[simp] theorem other_other (s : Slot) : s.other.other = s := by cases s <;> rfl

theorem eq_other_of_ne {s t : Slot} (h : s ≠ t) : s = t.other := by
  cases s <;> cases t <;> first | rfl | exact absurd rfl h

theorem eq_of_ne_of_ne {s t u : Slot} (hs : s ≠ u) (ht : t ≠ u) : s = t := by
  rw [eq_other_of_ne hs, eq_other_of_ne ht]

end Slot

inductive BootState where
  | confirmed
  | pending
  | trying
  | rollingBack
  deriving DecidableEq

structure BootMetadata where
  activeSlot : Slot := .A
  nextSlot : Slot := .A
  triesRemaining : UInt8 := 3
  state : BootState := .confirmed
  activeVersion : String := "unknown"
  nextVersion : String := ""
  lastSuccessfulBoot : UInt64 := 0
  rollbackCount : UInt32 := 0
  lastRollbackReason : String := ""
  deriving DecidableEq

/-- The file `/persistent/ota/boot-metadata.toml`. -/
inductive MetadataFile where
  | absent
  | corrupt (parseError : String)
  | valid (metadata : BootMetadata)
  deriving DecidableEq

/-- An image that is confirmed, verified by reading it back, or neither. -/
inductive ImageState where
  | confirmed
  | verified
  | unverified
  deriving DecidableEq

/-- What the OTA commands read and write, and the slot the system is running from. -/
structure Machine where
  metadata : MetadataFile
  cmdline : String
  slotCmdline : Slot → Option String
  /-- Whether the device `/dev/mmcblk0pN` of the slot exists. -/
  partition : Slot → Bool
  image : Slot → ImageState
  running : Slot

inductive Write where
  | metadata (metadata : BootMetadata)
  | slotCmdline (slot : Slot) (text : String)
  /-- `dd` starts to write an image to the slot's partition. -/
  | image (slot : Slot)
  /-- The image read back from the slot's partition is the one that was written. -/
  | verified (slot : Slot)
  | cmdline (text : String)
  deriving DecidableEq

def confirmImage (metadata : BootMetadata) (image : Slot → ImageState) : Slot → ImageState :=
  if metadata.state = .confirmed ∧ image metadata.activeSlot = .verified then
    Function.update image metadata.activeSlot .confirmed
  else image

def Write.apply : Write → Machine → Machine
  | .metadata m, s => { s with metadata := .valid m, image := confirmImage m s.image }
  | .slotCmdline slot text, s =>
    { s with slotCmdline := Function.update s.slotCmdline slot (some text) }
  | .image slot, s => { s with image := Function.update s.image slot .unverified }
  | .verified slot, s => { s with image := Function.update s.image slot .verified }
  | .cmdline text, s => { s with cmdline := text }

abbrev Command (ε α : Type) := Logged Machine Write ε α

namespace BootMetadata

def save (metadata : BootMetadata) : Command Error Unit := perform Write.apply (.metadata metadata)

def load : Command Error BootMetadata := do
  match ← inspect Machine.metadata with
  | .absent =>
    let metadata : BootMetadata := {}
    metadata.save
    return metadata
  | .corrupt parseError =>
    throw (.misconfiguration ("parse boot metadata: " ++ parseError))
  | .valid metadata => return metadata

def confirmBoot (metadata : BootMetadata) (version : String) (now : UInt64) :
    Command Error BootMetadata := do
  if metadata.state = .trying then
    let metadata := { metadata with
      activeSlot := metadata.nextSlot, activeVersion := version, nextVersion := "",
      state := .confirmed, triesRemaining := 3, lastSuccessfulBoot := now }
    metadata.save
    return metadata
  else if metadata.state = .pending then
    let metadata := { metadata with
      activeSlot := metadata.nextSlot, activeVersion := version,
      state := .confirmed, triesRemaining := 3, lastSuccessfulBoot := now }
    metadata.save
    return metadata
  else return metadata

def initiateRollback (metadata : BootMetadata) (reason : String) : Command Error BootMetadata := do
  let metadata := { metadata with
    state := .rollingBack, nextSlot := metadata.activeSlot,
    nextVersion := metadata.activeVersion, triesRemaining := 3,
    rollbackCount := metadata.rollbackCount + 1, lastRollbackReason := reason }
  metadata.save
  return metadata

def forceRollback (metadata : BootMetadata) (reason : String) : Command Error BootMetadata :=
  metadata.initiateRollback reason

end BootMetadata

def slotNamed (cmdline : String) : Slot :=
  let cmdline := trim cmdline.toList
  if contains cmdline "balansir_slot=B".toList || contains cmdline "root=/dev/mmcblk0p3".toList
  then .B else .A

def Machine.cmdlineSlot (s : Machine) : Slot := slotNamed s.cmdline

namespace BootPartition

def writeCmdline (content : String) : Command Error Unit := perform Write.apply (.cmdline content)

def switchToSlot (slot : Slot) : Command Error Unit := do
  match ← inspect fun s => s.slotCmdline slot with
  | none => throw (.io "No such file or directory (os error 2)")
  | some content => writeCmdline content

def ensureSlotCmdline (slot : Slot) (template : String) : Command Error Unit := do
  if (← inspect fun s => s.slotCmdline slot).isNone then
    perform Write.apply (.slotCmdline slot template)

def ensureSlotCmdlines (templateA templateB : String) : Command Error Unit := do
  ensureSlotCmdline .A templateA
  ensureSlotCmdline .B templateB

def detectCurrentSlot (readable : Bool) : Command Error Slot := do
  if readable then inspect Machine.cmdlineSlot
  else throw (.io "No such file or directory (os error 2)")

end BootPartition

namespace Machine

def loaded (s : Machine) : Except Error BootMetadata :=
  match s.metadata with
  | .absent => .ok {}
  | .corrupt parseError => .error (.misconfiguration ("parse boot metadata: " ++ parseError))
  | .valid metadata => .ok metadata

def loadWrites (s : Machine) : List Write :=
  match s.metadata with
  | .absent => [.metadata {}]
  | _ => []

def ensureWrites (s : Machine) (slot : Slot) (template : String) : List Write :=
  match s.slotCmdline slot with
  | none => [.slotCmdline slot template]
  | some _ => []

end Machine

namespace BootMetadata

variable (metadata : BootMetadata) (version : String) (now : UInt64)

def promoted : BootMetadata :=
  match metadata.state with
  | .trying => { metadata with
      activeSlot := metadata.nextSlot, activeVersion := version, nextVersion := "",
      state := .confirmed, triesRemaining := 3, lastSuccessfulBoot := now }
  | .pending => { metadata with
      activeSlot := metadata.nextSlot, activeVersion := version,
      state := .confirmed, triesRemaining := 3, lastSuccessfulBoot := now }
  | .confirmed | .rollingBack => metadata

def Promotes : Prop :=
  metadata.state = .trying ∨ metadata.state = .pending
  deriving Decidable

def confirmWrites : List Write :=
  if metadata.Promotes then [.metadata (metadata.promoted version now)] else []

def rolledBack (reason : String) : BootMetadata :=
  { metadata with
    state := .rollingBack, nextSlot := metadata.activeSlot,
    nextVersion := metadata.activeVersion, triesRemaining := 3,
    rollbackCount := metadata.rollbackCount + 1, lastRollbackReason := reason }

theorem promoted_activeSlot : (metadata.promoted version now).activeSlot =
      if metadata.Promotes then metadata.nextSlot else metadata.activeSlot := by
  cases h : metadata.state <;> simp [promoted, Promotes, h]

@[simp] theorem promoted_nextSlot :
    (metadata.promoted version now).nextSlot = metadata.nextSlot := by
  cases h : metadata.state <;> simp [promoted, h]

end BootMetadata

variable {s : Machine}

theorem does_load : Does Write.apply BootMetadata.load s s.loaded s.loadWrites := by
  refine inspect_bind ?_
  unfold Machine.loaded Machine.loadWrites
  cases s.metadata with
  | absent => exact perform_bind (does_pure _)
  | corrupt parseError => exact does_throw _
  | valid metadata => exact does_pure _

theorem does_confirmBoot (metadata : BootMetadata) (version : String) (now : UInt64) :
    Does Write.apply (metadata.confirmBoot version now) s (.ok (metadata.promoted version now))
      (metadata.confirmWrites version now) := by
  cases h : metadata.state <;>
    simp only [BootMetadata.confirmBoot, BootMetadata.confirmWrites, BootMetadata.Promotes,
      BootMetadata.promoted, h, reduceCtorEq, or_self, or_true, true_or, if_true, if_false]
  case trying => exact perform_bind (does_pure _)
  case pending => exact perform_bind (does_pure _)
  all_goals exact does_pure _

theorem does_forceRollback (metadata : BootMetadata) (reason : String) :
    Does Write.apply (metadata.forceRollback reason) s (.ok (metadata.rolledBack reason))
      [.metadata (metadata.rolledBack reason)] :=
  perform_bind (does_pure _)

theorem does_detectCurrentSlot_unwrapOr (readable : Bool) (slot : Slot) {ε : Type} :
    Does Write.apply (unwrapOr (BootPartition.detectCurrentSlot readable) slot : Command ε Slot) s
      (.ok (if readable then s.cmdlineSlot else slot)) [] := by
  cases readable with
  | true => exact (does_inspect Machine.cmdlineSlot).unwrapOr
  | false => exact (does_throw _).unwrapOr

theorem does_switchToSlot {slot : Slot} {content : String} (h : s.slotCmdline slot = some content) :
    Does Write.apply (BootPartition.switchToSlot slot) s (.ok ()) [.cmdline content] := by
  refine inspect_bind ?_
  rw [h]
  exact does_perform _

theorem does_switchToSlot_of_none {slot : Slot} (h : s.slotCmdline slot = none) :
    Does Write.apply (BootPartition.switchToSlot slot) s
      (.error (.io "No such file or directory (os error 2)")) [] := by
  refine inspect_bind ?_
  rw [h]
  exact does_throw _

theorem does_ensureSlotCmdline (slot : Slot) (template : String) :
    Does Write.apply (BootPartition.ensureSlotCmdline slot template) s (.ok ())
      (s.ensureWrites slot template) := by
  refine inspect_bind ?_
  unfold Machine.ensureWrites
  cases s.slotCmdline slot with
  | none => exact does_perform _
  | some content => exact does_pure _

end BalanSir.Ota
