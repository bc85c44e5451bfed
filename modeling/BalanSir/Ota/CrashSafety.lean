/-
# The slot that would boot

Power can fail between any two writes of a command.
-/

import BalanSir.Ota.Runs

namespace BalanSir.Ota

open Lib Common List OtaCommand
open Write (apply)

variable {sha256Hex : List UInt8 → String} {s : Machine} {m : BootMetadata}

def ImageState.Good (i : ImageState) : Prop := i = .confirmed ∨ i = .verified
  deriving Decidable

def Machine.Bootable (s : Machine) : Prop := (s.image s.cmdlineSlot).Good
  deriving Decidable

@[simp] theorem not_good_unverified : ¬ImageState.unverified.Good := by decide

@[simp] theorem good_verified : ImageState.verified.Good := by decide

@[simp] theorem good_confirmImage (m : BootMetadata) (image : Slot → ImageState) (slot : Slot) :
    (confirmImage m image slot).Good ↔ (image slot).Good := by
  unfold confirmImage
  split_ifs with h
  · by_cases hs : slot = m.activeSlot
    · subst hs
      simp [h.2, ImageState.Good]
    · rw [Function.update_of_ne hs]
  · exact Iff.rfl

def Write.Safe (s : Machine) : Write → Prop
  | .image slot => slot ≠ s.cmdlineSlot
  | .cmdline text => (s.image (slotNamed text)).Good
  | .metadata _ | .slotCmdline _ _ | .verified _ => True

variable {w : Write}

theorem cmdlineSlot_apply (hw : ∀ text, w ≠ .cmdline text) :
    (w.apply s).cmdlineSlot = s.cmdlineSlot := by
  cases w with
  | cmdline text => exact absurd rfl (hw text)
  | metadata | slotCmdline | image | verified => rfl

theorem bootable_apply_iff (h : s.Bootable) : (w.apply s).Bootable ↔ w.Safe s := by
  unfold Machine.Bootable at h ⊢
  cases w with
  | cmdline text => exact Iff.rfl
  | metadata m =>
    exact iff_of_true ((good_confirmImage m s.image s.cmdlineSlot).2 h) trivial
  | slotCmdline slot text =>
    exact iff_of_true h trivial
  | verified slot =>
    refine iff_of_true ?_ trivial
    simp only [apply, Function.update_apply]
    split_ifs
    · exact good_verified
    · exact h
  | image slot =>
    rw [cmdlineSlot_apply (by simp)]
    simp only [apply, Write.Safe, Function.update_apply]
    split_ifs with hs
    · simp [hs]
    · exact iff_of_true h (Ne.symm hs)

variable (sha256Hex) in
def StaysBootable (op : Op) (s : Machine) : Prop :=
  Along Write.apply (fun w s => (w.apply s).Bootable) (op.writes sha256Hex s) s

def OtaCommand.KeepsBootable (op : Op) (s : Machine) (m : BootMetadata) : OtaCommand → Prop
  | update _ => s.partition m.activeSlot.other = true →
      op.Passes (s.missingMetadata + s.missingCmdlines) → s.cmdlineSlot = m.activeSlot
  | rollback => ∀ content, s.slotCmdline m.activeSlot = some content →
      op.Passes (s.missingMetadata + 1) → (s.image (slotNamed content)).Good
  | bootConfirm _ _ _ | apiBootConfirm _ _ | apiRollback => True

instance (op : Op) (s : Machine) (m : BootMetadata) :
    ∀ c : OtaCommand, Decidable (c.KeepsBootable op s m)
  | .update _ => inferInstanceAs (Decidable (s.partition _ = true → op.Passes _ → _ = _))
  | .rollback => inferInstanceAs (Decidable (∀ content, s.slotCmdline m.activeSlot = some content →
      op.Passes (s.missingMetadata + 1) → (s.image (slotNamed content)).Good))
  | .bootConfirm _ _ _ | .apiBootConfirm _ _ | .apiRollback => isTrue trivial

def BootFits (op : Op) (s : Machine) : Prop :=
  ∀ c, op.command? = some c → ∀ m, s.loaded = .ok m → c.KeepsBootable op s m
  deriving Decidable

def Write.Harmless : Write → Prop
  | .metadata _ | .slotCmdline _ _ => True
  | .image _ | .verified _ | .cmdline _ => False

theorem apply_harmless (hw : w.Harmless) :
    (w.apply s).cmdlineSlot = s.cmdlineSlot ∧
      ∀ slot, ((w.apply s).image slot).Good ↔ (s.image slot).Good := by
  cases w with
  | metadata m => exact ⟨rfl, good_confirmImage m s.image⟩
  | slotCmdline slot text => exact ⟨rfl, fun _ => Iff.rfl⟩
  | image | verified | cmdline => exact hw.elim

variable {ws : List Write}

theorem run_harmless (hws : ∀ w ∈ ws, w.Harmless) :
    (run apply ws s).cmdlineSlot = s.cmdlineSlot ∧
      ∀ slot, ((run apply ws s).image slot).Good ↔ (s.image slot).Good := by
  induction ws generalizing s with
  | nil => exact ⟨rfl, fun _ => Iff.rfl⟩
  | cons w ws ih =>
    obtain ⟨hw, hr⟩ := List.forall_mem_cons.1 hws
    obtain ⟨hs, hg⟩ := apply_harmless hw
    obtain ⟨hs', hg'⟩ := ih hr
    exact ⟨hs'.trans hs, fun slot => (hg' slot).trans (hg slot)⟩

theorem bootable_run_harmless (hws : ∀ w ∈ ws, w.Harmless) (h : s.Bootable) :
    (run apply ws s).Bootable := by
  obtain ⟨hs, hg⟩ := run_harmless hws
  rw [Machine.Bootable, hs, hg]
  exact h

theorem along_harmless (hws : ∀ w ∈ ws, w.Harmless) (h : s.Bootable) :
    Along apply (fun w s => (w.apply s).Bootable) ws s := by
  rw [along_iff_split]
  rintro pre w post rfl
  have hp : ∀ w' ∈ pre ++ [w], w'.Harmless := fun w' hw' => hws w' (by
    rw [append_cons]
    exact mem_append_left post hw')
  have := bootable_run_harmless hp h
  rwa [run_append] at this

/-- A command harmless but for `w` keeps the machine bootable exactly if `w` is safe or not done. -/
theorem along_done_iff {op : Op} {pre : List Write} {rest : List Write}
    (hpr : ∀ w' ∈ pre, w'.Harmless) (h : s.Bootable) (hr : w.Safe (run apply pre s) →
      Along apply (fun w s => (w.apply s).Bootable) rest (w.apply (run apply pre s))) :
    Along apply (fun w s => (w.apply s).Bootable) (op.done (pre ++ w :: rest)) s ↔
      (op.Passes pre.length → w.Safe (run apply pre s)) := by
  have hru := bootable_run_harmless hpr h
  rcases op.done_cases pre w rest with ⟨hp, rest', hr', hd⟩ | ⟨hp, hd⟩
  · rw [hd, along_append]
    constructor
    · rintro ⟨-, hw, -⟩ -
      exact (bootable_apply_iff hru).1 hw
    · intro hs
      have hw := hs hp
      exact ⟨along_harmless hpr h, (bootable_apply_iff hru).2 hw, (hr hw).of_initial hr'⟩
  · refine iff_of_true ?_ fun hp' => absurd hp' hp
    exact along_harmless (fun w' hw' => hpr w' (hd.subset hw')) h

theorem harmless_loadWrites : ∀ w ∈ s.loadWrites, w.Harmless := by
  unfold Machine.loadWrites
  cases s.metadata <;> simp [Write.Harmless]

variable (i : Install)

theorem harmless_newWrites : ∀ w ∈ s.newWrites i, w.Harmless := by
  have h : ∀ slot template, ∀ w ∈ s.ensureWrites slot template, w.Harmless := by
    intro slot template
    unfold Machine.ensureWrites
    cases s.slotCmdline slot <;> simp [Write.Harmless]
  rw [Machine.newWrites, forall_mem_append]
  exact ⟨h _ _, h _ _⟩

theorem along_switchWrites {s' : Machine} (h : s'.Bootable)
    (hne : m.activeSlot.other ≠ s'.cmdlineSlot) :
    Along apply (fun w s => (w.apply s).Bootable) (s.switchWrites i m) s' := by
  have hv : ((Write.verified m.activeSlot.other).apply s').Bootable :=
    (bootable_apply_iff h).2 trivial
  have hc : ((Write.cmdline (s.updateContent i m.activeSlot.other)).apply
      ((Write.verified m.activeSlot.other).apply s')).Bootable := by
    refine (bootable_apply_iff hv).2 ?_
    simp only [Write.Safe, apply, Function.update_apply]
    split_ifs with hs
    · exact good_verified
    · rw [Slot.eq_of_ne_of_ne hs hne.symm]
      exact h
  exact ⟨hv, hc, (bootable_apply_iff hc).2 trivial, trivial⟩

theorem along_update_iff (op : Op) (h : s.Bootable) (hm : s.loaded = .ok m) :
    Along apply (fun w s => (w.apply s).Bootable)
        (op.done ((OtaCommand.update i).writes sha256Hex s)) s ↔
      (OtaCommand.update i).KeepsBootable op s m := by
  have hpr : ∀ w ∈ s.loadWrites ++ s.newWrites i, w.Harmless :=
    List.forall_mem_append.2 ⟨harmless_loadWrites, harmless_newWrites i⟩
  have hl : (s.loadWrites ++ s.newWrites i).length = s.missingMetadata + s.missingCmdlines := by
    rw [length_append, length_loadWrites, length_newWrites]
  rw [writes_of_loaded hm, OtaCommand.bodyWrites, Machine.updateWrites, ← append_assoc]
  unfold OtaCommand.KeepsBootable
  cases hp : s.partition m.activeSlot.other with
  | false =>
    rw [if_neg Bool.false_ne_true, append_nil]
    refine iff_of_true ?_ fun h => absurd h Bool.false_ne_true
    exact along_harmless (fun w hw => hpr w ((op.done_initial _).subset hw)) h
  | true =>
    have hsl := (run_harmless (s := s) hpr).1
    have hr := bootable_run_harmless hpr h
    rw [if_pos rfl, along_done_iff hpr h, hl]
    · have hsa : (Write.image m.activeSlot.other).Safe
          (run apply (s.loadWrites ++ s.newWrites i) s) ↔ s.cmdlineSlot = m.activeSlot := by
        rw [Write.Safe, hsl]
        constructor
        · intro hne
          rw [Slot.eq_other_of_ne hne.symm, Slot.other_other]
        · intro he
          rw [he]
          exact Slot.other_ne _
      rw [hsa]
      exact ⟨fun hs _ => hs, fun hs => hs rfl⟩
    · intro hsa
      cases OtaDaemon.verify sha256Hex i with
      | error e => exact trivial
      | ok _ =>
        refine along_switchWrites i ((bootable_apply_iff hr).2 hsa) ?_
        exact hsa

theorem along_rollback_iff (op : Op) (h : s.Bootable) (hm : s.loaded = .ok m) :
    Along apply (fun w s => (w.apply s).Bootable)
        (op.done (OtaCommand.rollback.writes sha256Hex s)) s ↔
      OtaCommand.rollback.KeepsBootable op s m := by
  have hp : ∀ w ∈ s.loadWrites ++ [Write.metadata (m.rolledBack "manual rollback via CLI")],
      w.Harmless :=
    List.forall_mem_append.2 ⟨harmless_loadWrites, by simp [Write.Harmless]⟩
  rw [writes_of_loaded hm, OtaCommand.bodyWrites, Machine.rollbackWrites, append_cons]
  unfold OtaCommand.KeepsBootable
  cases hc : s.slotCmdline m.activeSlot with
  | none =>
    rw [append_nil]
    refine iff_of_true ?_ fun content hco => absurd hco.symm (Option.some_ne_none _)
    exact along_harmless (fun w hw => hp w ((op.done_initial _).subset hw)) h
  | some content =>
    have hg := (run_harmless (s := s) hp).2 (slotNamed content)
    have hr := bootable_run_harmless hp h
    rw [along_done_iff hp h, length_append, length_loadWrites, Write.Safe, hg]
    · simp
    · intro hs
      exact ⟨(bootable_apply_iff ((bootable_apply_iff hr).2 hs)).2 trivial, trivial⟩

theorem harmless_writes {c : OtaCommand} (hc : c.IsBootConfirm ∨ c = .apiRollback)
    (hm : s.loaded = .ok m) : ∀ w ∈ c.writes sha256Hex s, w.Harmless := by
  rw [writes_of_loaded hm, forall_mem_append]
  refine ⟨harmless_loadWrites, ?_⟩
  rcases hc with hc | rfl
  · intro w hw
    obtain ⟨m', rfl, -⟩ := (saves_bodyWrites sha256Hex hc).1 w hw
    trivial
  · simp [OtaCommand.bodyWrites, Write.Harmless]

theorem stays_bootable_step_iff (op : Op) (h : s.Bootable) :
    StaysBootable sha256Hex op s ↔ BootFits op s := by
  unfold StaysBootable BootFits
  cases hop : op.command? with
  | none =>
    rw [Op.writes, hop]
    exact iff_of_true trivial fun c hc => absurd hc.symm (Option.some_ne_none c)
  | some c =>
    rw [Op.writes_of_command hop]
    cases hm : s.loaded with
    | error e =>
      rw [writes_of_error hm, List.prefix_nil.1 (op.done_initial [])]
      exact iff_of_true trivial fun _ _ m he => absurd he (by simp)
    | ok m =>
      have ho : (∀ c', some c = some c' →
          ∀ m', Except.ok m = (Except.ok m' : Except Error _) → c'.KeepsBootable op s m') ↔
          c.KeepsBootable op s m :=
        ⟨fun hk => hk c rfl m rfl, fun hk c' hc' m' hm' =>
          Option.some.inj hc' ▸ Except.ok.inj hm' ▸ hk⟩
      rw [ho]
      have hke : c.IsBootConfirm ∨ c = .apiRollback →
          Along apply (fun w s => (w.apply s).Bootable)
            (op.done (c.writes sha256Hex s)) s := fun hc =>
        along_harmless (fun w hw => harmless_writes hc hm w ((op.done_initial _).subset hw)) h
      cases c with
      | update i => exact along_update_iff i op h hm
      | rollback => exact along_rollback_iff op h hm
      | bootConfirm version now readable => exact iff_of_true (hke (.inl trivial)) trivial
      | apiBootConfirm version now => exact iff_of_true (hke (.inl trivial)) trivial
      | apiRollback => exact iff_of_true (hke (.inr rfl)) trivial

theorem bootable_step {op : Op} (h : s.Bootable) (hs : StaysBootable sha256Hex op s) :
    (op.step sha256Hex s).Bootable := by
  cases hop : op.command? with
  | some c =>
    rw [Op.step_of_command hop]
    refine Along.invariant ?_ h hs
    exact fun _ _ _ hw => hw
  | none =>
    cases op with
    | reboot =>
      exact h
    | command | cut => exact absurd hop nofun

/-- **The slot that would boot is always good**, after every write of a run, cut or not, exactly
when every update finds the active slot in `cmdline.txt` and every rollback switches to a good one.
-/
theorem bootable_iff {ops : List Op} (h : s.image s.cmdlineSlot = .confirmed) :
    Along (Op.step sha256Hex) (StaysBootable sha256Hex) ops s ↔
      Along (Op.step sha256Hex) BootFits ops s :=
  along_congr (I := Machine.Bootable) (fun op _ _ => stays_bootable_step_iff op)
    (fun _ _ _ => bootable_step) (.inl h)

/-- A confirmed update and a second one that a crash cuts: `cmdline.txt` names a good slot. -/
theorem bootable_confirmed_updates :
    Along (Op.step fun _ => "") (StaysBootable fun _ => "")
      [.command (.update sameBack), .reboot, .command (.bootConfirm "0.1.0" 0 true),
        .cut (.update sameBack) 1, .reboot] runningA :=
  (bootable_iff rfl).2 (by decide +kernel)

/-- A second update before the first is confirmed writes over the slot in `cmdline.txt`. -/
theorem second_update_unbootable :
    ¬∀ (sha256Hex : List UInt8 → String) (ops : List Op) (s : Machine),
      s.image s.cmdlineSlot = .confirmed →
      Along (Op.step sha256Hex) (StaysBootable sha256Hex) ops s := by
  intro h
  have hc := (h (fun _ => "") [.command (.update sameBack), .cut (.update sameBack) 1] runningA
    rfl).2.1.1
  exact absurd hc (by decide +kernel)

end BalanSir.Ota
