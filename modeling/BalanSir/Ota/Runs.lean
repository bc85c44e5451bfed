/-
# Runs of OTA commands and reboots

The metadata, the boot partition and the running slot along a run.
-/

import BalanSir.Ota.Commands

namespace BalanSir.Ota

open Lib Common List Op OtaCommand
open Machine (loadWrites ensureWrites newWrites loaded booted updateWrites switchWrites)
open OtaCommand (bodyWrites)

variable {sha256Hex : List UInt8 → String} {s : Machine} {m : BootMetadata}
  {ws : List Write} {c : OtaCommand} {op : Op} {i : Install}

def Machine.activeSlot? (s : Machine) : Option Slot := s.loaded.toOption.map (·.activeSlot)

def Machine.missingMetadata (s : Machine) : ℕ := if s.metadata = .absent then 1 else 0

def Machine.missingCmdlines (s : Machine) : ℕ :=
  (if s.slotCmdline .A = none then 1 else 0) + if s.slotCmdline .B = none then 1 else 0

theorem length_loadWrites : s.loadWrites.length = s.missingMetadata := by
  unfold loadWrites Machine.missingMetadata
  cases s.metadata <;> rfl

theorem length_ensureWrites (slot : Slot) (template : String) :
    (s.ensureWrites slot template).length = if s.slotCmdline slot = none then 1 else 0 := by
  unfold ensureWrites
  cases s.slotCmdline slot <;> rfl

theorem length_newWrites (i : Install) : (s.newWrites i).length = s.missingCmdlines := by
  rw [newWrites, length_append, length_ensureWrites, length_ensureWrites]
  rfl

def runningA : Machine where
  metadata := .valid {}
  cmdline := "balansir_slot=A"
  slotCmdline slot := some (if slot = .A then "balansir_slot=A" else "balansir_slot=B")
  partition _ := true
  image _ := .confirmed
  running := .A

def sameBack : Install where
  image := [0x42]
  etcCmdline _ := none
  ddError := none
  readBack := [0x42]

def OtaCommand.IsBootConfirm : OtaCommand → Prop
  | bootConfirm _ _ _ | apiBootConfirm _ _ => True
  | _ => False

variable (sha256Hex) in
def ConfirmsRunning (op : Op) (s : Machine) : Prop :=
  ∀ c, op.command? = some c → c.IsBootConfirm → ∀ slot, s.activeSlot? ≠ some slot →
    (op.step sha256Hex s).activeSlot? = some slot → s.running = slot

def PromotesRunning (s : Machine) (m : BootMetadata) : Prop :=
  m.Promotes → m.nextSlot ≠ m.activeSlot → s.running = m.nextSlot

def OtaCommand.FindsRunning (s : Machine) (m : BootMetadata) : OtaCommand → Prop
  | bootConfirm _ _ readable =>
    if readable = true ∧ s.cmdlineSlot ≠ m.activeSlot then s.running = s.cmdlineSlot
    else PromotesRunning s m
  | apiBootConfirm _ _ => PromotesRunning s m
  | _ => True

def ConfirmFits (op : Op) (s : Machine) : Prop :=
  ∀ c, op.command? = some c → ∀ m, s.loaded = .ok m → op.Passes s.missingMetadata →
    c.FindsRunning s m

def Saves (active next : Slot) (ws : List Write) : Prop :=
  ∀ w ∈ ws, ∃ m : BootMetadata, w = .metadata m ∧ m.activeSlot = active ∧ m.nextSlot = next

theorem loaded_run_saves {active next : Slot} (h : Saves active next ws)
    (hne : ws ≠ []) : ∃ m, (run Write.apply ws s).loaded = .ok m ∧ m.activeSlot = active ∧
      m.nextSlot = next := by
  obtain ⟨init, w, rfl⟩ : ∃ init w, ws = init ++ [w] :=
    ⟨ws.dropLast, ws.getLast hne, (dropLast_append_getLast hne).symm⟩
  obtain ⟨m, rfl, hm⟩ := h w (by simp)
  refine ⟨m, ?_, hm⟩
  rw [run_append]
  rfl

theorem activeSlot?_run_initial {pre : List Write} (h : pre <+: s.loadWrites) :
    (run Write.apply pre s).activeSlot? = s.activeSlot? := by
  unfold loadWrites at h
  cases hm : s.metadata with
  | absent =>
    rw [hm, prefix_cons_iff] at h
    rcases h with rfl | ⟨t, rfl, ht⟩
    · rfl
    · rw [List.prefix_nil.1 ht]
      simp [run, Write.apply, Machine.activeSlot?, loaded, hm]
  | corrupt parseError => rw [hm] at h; rw [List.prefix_nil.1 h]; rfl
  | valid metadata => rw [hm] at h; rw [List.prefix_nil.1 h]; rfl

def OtaCommand.confirmed (c : OtaCommand) (s : Machine) (m : BootMetadata) : Slot :=
  match c with
  | bootConfirm _ _ readable =>
    if s.booted m readable ≠ m.activeSlot then s.booted m readable
    else if m.Promotes then m.nextSlot else m.activeSlot
  | _ => if m.Promotes then m.nextSlot else m.activeSlot

theorem saves_confirm (version : String) (now : UInt64) :
    Saves (if m.Promotes then m.nextSlot else m.activeSlot) m.nextSlot
      (m.confirmWrites version now ++ [.metadata (m.promoted version now)]) := by
  intro w hw
  refine ⟨m.promoted version now, ?_, m.promoted_activeSlot version now,
    m.promoted_nextSlot version now⟩
  unfold BootMetadata.confirmWrites at hw
  split_ifs at hw <;> simpa using hw

variable (sha256Hex) in
theorem saves_bodyWrites (hc : c.IsBootConfirm) :
    Saves (c.confirmed s m) m.nextSlot (c.bodyWrites sha256Hex s m) ∧
      c.bodyWrites sha256Hex s m ≠ [] := by
  cases c with
  | bootConfirm version now readable =>
    unfold OtaCommand.confirmed bodyWrites Machine.bootConfirmWrites
    by_cases hb : s.booted m readable ≠ m.activeSlot
    · simp only [if_pos hb]
      exact ⟨fun w hw => ⟨_, List.mem_singleton.1 hw, rfl, rfl⟩, by simp⟩
    · simp only [if_neg hb]
      exact ⟨saves_confirm version now, by simp⟩
  | apiBootConfirm version now =>
    exact ⟨saves_confirm version now, by simp [bodyWrites]⟩
  | update i => exact hc.elim
  | rollback => exact hc.elim
  | apiRollback => exact hc.elim

theorem activeSlot?_step_confirm (hop : op.command? = some c)
    (hc : c.IsBootConfirm) (hm : s.loaded = .ok m) : (op.step sha256Hex s).activeSlot? =
      if op.Passes s.missingMetadata then some (c.confirmed s m) else s.activeSlot? := by
  obtain ⟨hs, hne⟩ := saves_bodyWrites sha256Hex hc
  obtain ⟨w, rest, hb⟩ := exists_cons_of_ne_nil hne
  rw [step_of_command hop, writes_of_command hop, writes_of_loaded hm, hb, ← length_loadWrites]
  rcases op.done_cases s.loadWrites w rest with ⟨hp, rest', hr, hd⟩ | ⟨hp, hd⟩
  · have hpr : w :: rest' <+: w :: rest := List.cons_prefix_cons.2 ⟨rfl, hr⟩
    obtain ⟨m', hm', ha, -⟩ := loaded_run_saves
      (fun w' hw' => hs w' (hb ▸ hpr.subset hw')) (cons_ne_nil w rest')
    rw [if_pos hp, hd, run_append, ← ha, Machine.activeSlot?, hm']
    rfl
  · rw [if_neg hp]
    exact activeSlot?_run_initial hd

theorem step_of_error {e : Error} (he : s.loaded = .error e)
    (hop : op.command? = some c) : op.step sha256Hex s = s := by
  have hd : op.done [] = [] := List.prefix_nil.1 (op.done_initial [])
  rw [step_of_command hop, writes_of_command hop, writes_of_error he, hd]
  rfl

theorem confirmed_running_iff (hc : c.IsBootConfirm) :
    (c.confirmed s m ≠ m.activeSlot → s.running = c.confirmed s m) ↔ c.FindsRunning s m := by
  have hpr : ((if m.Promotes then m.nextSlot else m.activeSlot) ≠ m.activeSlot →
      s.running = if m.Promotes then m.nextSlot else m.activeSlot) ↔ PromotesRunning s m := by
    unfold PromotesRunning
    by_cases hp : m.Promotes <;> simp [hp]
  cases c with
  | bootConfirm version now readable =>
    simp only [OtaCommand.confirmed, OtaCommand.FindsRunning]
    by_cases hb : s.booted m readable ≠ m.activeSlot
    · have hre : readable := by
        by_contra hr
        exact hb (by simp [booted, hr])
      have hs : s.booted m readable = s.cmdlineSlot := by simp [booted, hre]
      have hco : readable = true ∧ s.cmdlineSlot ≠ m.activeSlot := ⟨hre, hs ▸ hb⟩
      rw [if_pos hb, if_pos hco, hs]
      exact ⟨fun h => h hco.2, fun h _ => h⟩
    · have hco : ¬(readable = true ∧ s.cmdlineSlot ≠ m.activeSlot) := by
        rintro ⟨hr, hne⟩
        exact hb (by simpa [booted, hr] using hne)
      rw [if_neg hb, if_neg hco]
      exact hpr
  | apiBootConfirm version now => exact hpr
  | update i => exact hc.elim
  | rollback => exact hc.elim
  | apiRollback => exact hc.elim

theorem confirms_running_step_iff (op : Op) (s : Machine) :
    ConfirmsRunning sha256Hex op s ↔ ConfirmFits op s := by
  refine forall_congr' fun c => ?_
  cases hm : s.loaded with
  | error e =>
    constructor
    · exact fun _ _ m h => absurd h nofun
    · intro _ hop _ slot hne h
      rw [step_of_error hm hop] at h
      exact absurd h hne
  | ok m =>
    have ha : s.activeSlot? = some m.activeSlot := by
      simp [Machine.activeSlot?, hm, Except.toOption]
    constructor
    · intro h hop m' he hp
      cases he
      by_cases hc : c.IsBootConfirm
      · refine (confirmed_running_iff hc).1 fun hne => h hop hc _ ?_ ?_
        · rw [ha]
          exact fun he => hne (Option.some.inj he).symm
        · rw [activeSlot?_step_confirm hop hc hm, if_pos hp]
      · cases c <;> first | trivial | exact absurd trivial hc
    · intro h hop hc slot hne hs
      rw [activeSlot?_step_confirm hop hc hm] at hs
      by_cases hp : op.Passes s.missingMetadata
      · rw [if_pos hp, Option.some.injEq] at hs
        subst hs
        refine (confirmed_running_iff hc).2 (h hop m rfl hp) fun he => hne ?_
        rw [ha, he]
      · rw [if_neg hp] at hs
        exact absurd hs hne

/-- **A boot-confirm makes the running slot the active one** exactly when every boot-confirm finds
the running slot where it looks for the booted one. -/
theorem confirms_running_iff (ops : List Op) (s : Machine) :
    Along (Op.step sha256Hex) (ConfirmsRunning sha256Hex) ops s ↔
      Along (Op.step sha256Hex) ConfirmFits ops s :=
  along_congr (I := fun _ => True) (fun op _ s _ => confirms_running_step_iff op s)
    (fun _ _ _ _ _ => trivial) trivial

/-- A boot-confirm before the reboot activates the slot of the update while the other is running. -/
theorem confirm_before_reboot : ¬∀ (sha256Hex : List UInt8 → String) (ops : List Op) (s : Machine),
      Along (Op.step sha256Hex) (ConfirmsRunning sha256Hex) ops s := by
  intro h
  have hB := (h (fun _ => "") [.command (.update sameBack),
    .command (.bootConfirm "0.1.0" 0 true)] runningA).2.1 _ rfl trivial .B
    (by decide +kernel) (by decide +kernel)
  exact absurd hB (by decide +kernel)

variable (sha256Hex) in
def SparesRunning (op : Op) (s : Machine) : Prop :=
  ∀ slot, Write.image slot ∈ op.writes sha256Hex s → slot ≠ s.running

def UpdateFits (op : Op) (s : Machine) : Prop :=
  ∀ i, op.command? = some (.update i) → ∀ m, s.loaded = .ok m →
    s.partition m.activeSlot.other = true →
    op.Passes (s.missingMetadata + s.missingCmdlines) → m.activeSlot = s.running

theorem image_notMem_loadWrites (slot : Slot) : Write.image slot ∉ s.loadWrites := by
  unfold loadWrites
  cases s.metadata <;> simp

theorem image_notMem_newWrites (i : Install) (slot : Slot) : Write.image slot ∉ s.newWrites i := by
  have h : ∀ slot' template, Write.image slot ∉ s.ensureWrites slot' template := by
    intro slot' template
    unfold ensureWrites
    cases s.slotCmdline slot' <;> simp
  rw [newWrites, mem_append, not_or]
  exact ⟨h _ _, h _ _⟩

theorem image_notMem_confirmWrites (version : String) (now : UInt64) (slot : Slot) :
    Write.image slot ∉ m.confirmWrites version now := by
  unfold BootMetadata.confirmWrites
  split_ifs <;> simp

theorem image_notMem_rollbackWrites (slot : Slot) : Write.image slot ∉ s.rollbackWrites m := by
  unfold Machine.rollbackWrites
  cases s.slotCmdline m.activeSlot <;> simp

theorem image_notMem_bootConfirmWrites (version : String) (now : UInt64) (readable : Bool)
    (slot : Slot) : Write.image slot ∉ s.bootConfirmWrites m version now readable := by
  unfold Machine.bootConfirmWrites
  split_ifs
  · simp
  · simp [image_notMem_confirmWrites]

theorem image_mem_writes_iff (hop : op.command? = some c) (hm : s.loaded = .ok m) (slot : Slot) :
    Write.image slot ∈ op.writes sha256Hex s ↔
      (∃ i, c = .update i) ∧ s.partition m.activeSlot.other ∧
        op.Passes (s.missingMetadata + s.missingCmdlines) ∧ slot = m.activeSlot.other := by
  rw [writes_of_command hop, writes_of_loaded hm]
  have ho : Write.image slot ∉ s.loadWrites ++ c.bodyWrites sha256Hex s m →
      Write.image slot ∉ op.done (s.loadWrites ++ c.bodyWrites sha256Hex s m) :=
    fun h h' => h ((op.done_initial _).subset h')
  cases c with
  | update i =>
    have hpr : Write.image slot ∉ s.loadWrites ++ s.newWrites i := by
      simp [image_notMem_loadWrites, image_notMem_newWrites]
    have hl : (s.loadWrites ++ s.newWrites i).length =
        s.missingMetadata + s.missingCmdlines := by
      rw [length_append, length_loadWrites, length_newWrites]
    cases hpa : s.partition m.activeSlot.other with
    | false =>
      refine iff_of_false (ho ?_) (by simp)
      simpa [bodyWrites, updateWrites, hpa] using hpr
    | true =>
      obtain ⟨rest, hr, hw⟩ : ∃ rest, Write.image slot ∉ rest ∧
          s.loadWrites ++ (OtaCommand.update i).bodyWrites sha256Hex s m =
            (s.loadWrites ++ s.newWrites i) ++ .image m.activeSlot.other :: rest := by
        refine ⟨_, ?_, by rw [bodyWrites, updateWrites, hpa, if_pos rfl,
          append_assoc]⟩
        cases OtaDaemon.verify sha256Hex i <;> simp [switchWrites]
      rw [hw]
      rcases op.done_cases (s.loadWrites ++ s.newWrites i) (.image m.activeSlot.other) rest
        with ⟨hp, rest', hr', hd⟩ | ⟨hp, hd⟩
      · rw [hl] at hp
        have hn : Write.image slot ∉ rest' := fun h => hr (hr'.subset h)
        rw [hd, mem_append]
        simp [hpr, hn, hp]
      · rw [hl] at hp
        exact iff_of_false (fun h => hpr (hd.subset h)) (fun h => hp h.2.2.1)
  | bootConfirm version now readable =>
    refine iff_of_false (ho ?_) (by simp)
    simp [image_notMem_loadWrites, bodyWrites, image_notMem_bootConfirmWrites]
  | rollback =>
    refine iff_of_false (ho ?_) (by simp)
    simp [image_notMem_loadWrites, bodyWrites, image_notMem_rollbackWrites]
  | apiBootConfirm version now =>
    refine iff_of_false (ho ?_) (by simp)
    simp [image_notMem_loadWrites, bodyWrites, image_notMem_confirmWrites]
  | apiRollback =>
    refine iff_of_false (ho ?_) (by simp)
    simp [image_notMem_loadWrites, bodyWrites]

theorem spares_running_step_iff (op : Op) (s : Machine) :
    SparesRunning sha256Hex op s ↔ UpdateFits op s := by
  unfold SparesRunning UpdateFits
  cases hop : op.command? with
  | none =>
    have hw : op.writes sha256Hex s = [] := by rw [Op.writes, hop]
    simp [hw]
  | some c =>
    cases hm : s.loaded with
    | error e =>
      have hw : op.writes sha256Hex s = [] := by
        rw [writes_of_command hop, writes_of_error hm]
        exact List.prefix_nil.1 (op.done_initial [])
      simp [hw]
    | ok m =>
      constructor
      · intro h i hc m' he hpa hp
        cases he
        cases hc
        have hne := h _ ((image_mem_writes_iff hop hm _).2 ⟨⟨i, rfl⟩, hpa, hp, rfl⟩)
        exact (Slot.eq_other_of_ne hne.symm ▸ (Slot.other_other _)).symm
      · intro h slot hme
        obtain ⟨⟨i, rfl⟩, hpa, hp, rfl⟩ := (image_mem_writes_iff hop hm slot).1 hme
        rw [← h i rfl m rfl hpa hp]
        exact Slot.other_ne _

/-- **An update spares the running slot** exactly when every update that gets to `dd` finds that
slot as the active one. -/
theorem spares_running_iff (ops : List Op) (s : Machine) :
    Along (Op.step sha256Hex) (SparesRunning sha256Hex) ops s ↔
      Along (Op.step sha256Hex) UpdateFits ops s :=
  along_congr (I := fun _ => True) (fun op _ s _ => spares_running_step_iff op s)
    (fun _ _ _ _ _ => trivial) trivial

/-- An update after an update and a reboot, with no boot-confirm, writes to the running slot. -/
theorem update_of_running : ¬∀ (sha256Hex : List UInt8 → String) (ops : List Op) (s : Machine),
      Along (Op.step sha256Hex) (SparesRunning sha256Hex) ops s := by
  intro h
  have hB := (h (fun _ => "") [.command (.update sameBack), .reboot,
    .command (.update sameBack)] runningA).2.2.1 .B (by decide +kernel)
  exact absurd hB (by decide +kernel)

def Machine.Agrees (s : Machine) : Prop := ∃ m, s.loaded = .ok m ∧ s.cmdlineSlot = m.nextSlot
  deriving Decidable

def OtaCommand.KeepsStores (s : Machine) (m : BootMetadata) : OtaCommand → Prop
  | update i => slotNamed (s.updateContent i m.activeSlot.other) = m.activeSlot.other
  | rollback => ∀ content, s.slotCmdline m.activeSlot = some content →
      slotNamed content = m.activeSlot
  | apiRollback => s.cmdlineSlot = m.activeSlot
  | bootConfirm _ _ _ | apiBootConfirm _ _ => True

instance (s : Machine) (m : BootMetadata) : ∀ c : OtaCommand, Decidable (c.KeepsStores s m)
  | .update i => inferInstanceAs (Decidable (slotNamed (s.updateContent i _) = _))
  | .rollback => inferInstanceAs (Decidable (∀ content, s.slotCmdline m.activeSlot = some content →
      slotNamed content = m.activeSlot))
  | .apiRollback => inferInstanceAs (Decidable (s.cmdlineSlot = m.activeSlot))
  | .bootConfirm _ _ _ | .apiBootConfirm _ _ => isTrue trivial

def StoresFit (op : Op) (s : Machine) : Prop :=
  ∀ c, op.command? = some c → ∀ m, s.loaded = .ok m → c.KeepsStores s m
  deriving Decidable

theorem cmdline_run (h : ∀ text, Write.cmdline text ∉ ws) :
    (run Write.apply ws s).cmdline = s.cmdline := by
  refine Lib.run_frame (fun w hw s => ?_) s
  cases w with
  | cmdline text => exact absurd hw (h text)
  | metadata | slotCmdline | image | verified => rfl

theorem cmdline_notMem_loadWrites (text : String) : Write.cmdline text ∉ s.loadWrites := by
  unfold loadWrites
  cases s.metadata <;> simp

theorem step_command_update (hm : s.loaded = .ok m)
    (h : (OtaCommand.update i).Succeeds sha256Hex s) :
    ((Op.command (.update i)).step sha256Hex s).loaded =
        .ok { m with nextSlot := m.activeSlot.other, state := .pending, triesRemaining := 3 } ∧
      ((Op.command (.update i)).step sha256Hex s).cmdline =
        s.updateContent i m.activeSlot.other := by
  obtain ⟨hp, hv⟩ := (OtaCommand.succeeds_update hm i).1 h
  rw [step_of_command rfl, writes_of_command rfl, writes_of_loaded hm]
  simp only [Op.done, bodyWrites, updateWrites, hp, hv, run_append]
  exact ⟨rfl, rfl⟩

theorem step_command_rollback (hm : s.loaded = .ok m)
    (h : OtaCommand.rollback.Succeeds sha256Hex s) :
    ((Op.command .rollback).step sha256Hex s).loaded =
        .ok (m.rolledBack "manual rollback via CLI") ∧
      s.slotCmdline m.activeSlot = some ((Op.command .rollback).step sha256Hex s).cmdline := by
  obtain ⟨content, hc⟩ := Option.isSome_iff_exists.1
    ((succeeds_rollback hm).1 h)
  rw [step_of_command rfl, writes_of_command rfl, writes_of_loaded hm]
  simp only [Op.done, bodyWrites, Machine.rollbackWrites, hc, run_append]
  exact ⟨rfl, rfl⟩

variable (sha256Hex) in
theorem step_command_apiRollback (hm : s.loaded = .ok m) :
    ((Op.command .apiRollback).step sha256Hex s).loaded =
        .ok (m.rolledBack "manual rollback via API") ∧
      ((Op.command .apiRollback).step sha256Hex s).cmdline = s.cmdline := by
  rw [step_of_command rfl, writes_of_command rfl, writes_of_loaded hm]
  refine ⟨?_, cmdline_run ?_⟩
  · simp only [Op.done, run_append]
    rfl
  · simp [Op.done, bodyWrites, cmdline_notMem_loadWrites]

variable (sha256Hex) in
theorem step_command_confirm (hc : c.IsBootConfirm) (hm : s.loaded = .ok m) :
    (∃ m', ((Op.command c).step sha256Hex s).loaded = .ok m' ∧
        m'.activeSlot = c.confirmed s m ∧ m'.nextSlot = m.nextSlot) ∧
      ((Op.command c).step sha256Hex s).cmdline = s.cmdline := by
  obtain ⟨hs, hne⟩ := saves_bodyWrites sha256Hex (s := s) (m := m) hc
  rw [step_of_command rfl, writes_of_command rfl, writes_of_loaded hm]
  refine ⟨?_, cmdline_run fun text hme => ?_⟩
  · rw [Op.done, run_append]
    exact loaded_run_saves hs hne
  · rcases List.mem_append.1 hme with h | h
    · exact cmdline_notMem_loadWrites text h
    · obtain ⟨m', hw, -⟩ := hs _ h
      exact absurd hw nofun

theorem agrees_step_iff (hs : s.Agrees) (h : op.Succeeds sha256Hex s) :
    (op.step sha256Hex s).Agrees ↔ StoresFit op s := by
  obtain ⟨m, hm, hsl⟩ := hs
  have hfi : ∀ {c}, StoresFit (.command c) s ↔ c.KeepsStores s m := by
    intro c
    constructor
    · exact fun hf => hf c rfl m hm
    · intro hk c' hc' m' hm'
      cases hc'
      cases hm.symm.trans hm'
      exact hk
  have ha : ∀ {s' m'}, loaded s' = .ok m' →
      (s'.Agrees ↔ slotNamed s'.cmdline = m'.nextSlot) := by
    intro s' m' hm'
    constructor
    · rintro ⟨m'', hm'', hs'⟩
      cases hm'.symm.trans hm''
      exact hs'
    · exact fun hs' => ⟨m', hm', hs'⟩
  cases op with
  | cut c k => exact h.elim
  | reboot =>
    have hm' : (Op.reboot.step sha256Hex s).loaded = .ok m := hm
    rw [ha hm']
    exact iff_of_true hsl fun c hc => nomatch hc
  | command c =>
    rw [hfi]
    cases c with
    | update i =>
      obtain ⟨hm', hcm⟩ := step_command_update hm h
      rw [ha hm', hcm]
      exact Iff.rfl
    | rollback =>
      obtain ⟨hm', hcm⟩ := step_command_rollback hm h
      rw [ha hm']
      constructor
      · intro hs' content hco
        rw [hcm, Option.some.injEq] at hco
        rw [← hco]
        exact hs'
      · exact fun hk => hk _ hcm
    | apiRollback =>
      obtain ⟨hm', hcm⟩ := step_command_apiRollback sha256Hex hm
      rw [ha hm', hcm]
      exact Iff.rfl
    | bootConfirm version now readable =>
      obtain ⟨⟨m', hm', -, hn⟩, hcm⟩ := step_command_confirm
        sha256Hex (c := .bootConfirm version now readable) trivial hm
      rw [ha hm', hcm, hn]
      exact iff_of_true hsl trivial
    | apiBootConfirm version now =>
      obtain ⟨⟨m', hm', -, hn⟩, hcm⟩ := step_command_confirm
        sha256Hex (c := .apiBootConfirm version now) trivial hm
      rw [ha hm', hcm, hn]
      exact iff_of_true hsl trivial

/-- **The two stores agree** after every command exactly when every copied slot file names its slot
and every rollback of the API finds the active slot in `cmdline.txt`. -/
theorem agrees_iff {ops : List Op} (hs : s.Agrees)
    (h : Along (Op.step sha256Hex) (fun op s => op.Succeeds sha256Hex s) ops s) :
    Along (Op.step sha256Hex) (fun op s => (op.step sha256Hex s).Agrees) ops s ↔
      Along (Op.step sha256Hex) StoresFit ops s :=
  h.congr_invariant (I := Machine.Agrees) (fun _ _ => agrees_step_iff) (fun _ _ _ _ hp => hp) hs

theorem runningA_agrees : runningA.Agrees := by decide +kernel

/-- A rollback of the command line after an update leaves the stores in agreement. -/
theorem agrees_cli_rollback :
    Along (Op.step fun _ => "") (fun op s => (op.step (fun _ => "") s).Agrees)
      [.command (.update sameBack), .command .rollback] runningA := by
  refine (agrees_iff runningA_agrees ?_).2 ?_
  · decide +kernel
  · decide +kernel

/-- A rollback of the API after an update moves the next slot back and leaves `cmdline.txt`. -/
theorem api_rollback_disagrees :
    ¬∀ (sha256Hex : List UInt8 → String) (ops : List Op) (s : Machine), s.Agrees →
      Along (Op.step sha256Hex) (fun op s => op.Succeeds sha256Hex s) ops s →
      Along (Op.step sha256Hex) (fun op s => (op.step sha256Hex s).Agrees) ops s := by
  intro h
  have hb := h (fun _ => "") [.command (.update sameBack), .command .apiRollback] runningA
  exact absurd hb (by decide +kernel)

def OtaCommand.IsRollback : OtaCommand → Prop
  | rollback | apiRollback => True
  | _ => False

def NamesSlots (files : Slot → Option String) : Prop :=
  ∀ slot content, files slot = some content → slotNamed content = slot

theorem slotNamed_defaultCmdline (slot : Slot) : slotNamed (defaultCmdline slot) = slot := by
  cases slot with
  | A => decide +kernel
  | B => decide +kernel

theorem slotNamed_updateContent (hfi : NamesSlots s.slotCmdline)
    (het : NamesSlots i.etcCmdline) (slot : Slot) : slotNamed (s.updateContent i slot) = slot := by
  unfold Machine.updateContent
  cases hf : s.slotCmdline slot with
  | some content => exact hfi slot content hf
  | none =>
    cases he : i.etcCmdline slot with
    | some content => exact het slot content he
    | none => exact slotNamed_defaultCmdline slot

theorem namesSlots_run (hs : NamesSlots s.slotCmdline)
    (h : ∀ slot text, Write.slotCmdline slot text ∈ ws → slotNamed text = slot) :
    NamesSlots (run Write.apply ws s).slotCmdline := by
  induction ws generalizing s with
  | nil => exact hs
  | cons w ws ih =>
    refine ih ?_ fun slot text hm => h slot text (mem_cons_of_mem w hm)
    cases w with
    | slotCmdline slot text =>
      intro slot' content hc
      by_cases he : slot' = slot
      · subst he
        simp only [Write.apply, Function.update_self, Option.some.injEq] at hc
        rw [← hc]
        exact h slot' text mem_cons_self
      · simp only [Write.apply, Function.update_of_ne he] at hc
        exact hs slot' content hc
    | metadata | image | verified | cmdline => exact hs

theorem slotCmdline_notMem_loadWrites (slot : Slot) (text : String) :
    Write.slotCmdline slot text ∉ s.loadWrites := by
  unfold loadWrites
  cases s.metadata <;> simp

variable (sha256Hex) in
theorem namesSlots_update (hfi : NamesSlots s.slotCmdline)
    (het : NamesSlots i.etcCmdline) (hm : s.loaded = .ok m) :
    NamesSlots ((Op.command (.update i)).step sha256Hex s).slotCmdline := by
  have hen : ∀ slot' slot text,
      Write.slotCmdline slot text ∈ s.ensureWrites slot'
        ((i.etcCmdline slot').getD (defaultCmdline slot')) → slotNamed text = slot := by
    intro slot' slot text hme
    unfold ensureWrites at hme
    cases hf : s.slotCmdline slot' with
    | some content => simp [hf] at hme
    | none =>
      rw [hf, mem_singleton, Write.slotCmdline.injEq] at hme
      obtain ⟨rfl, rfl⟩ := hme
      cases he : i.etcCmdline slot with
      | some content => exact het slot content he
      | none => exact slotNamed_defaultCmdline slot
  rw [step_of_command rfl, writes_of_command rfl, writes_of_loaded hm]
  refine namesSlots_run hfi fun slot text hme => ?_
  rcases List.mem_append.1 hme with hl | hb
  · exact absurd hl (slotCmdline_notMem_loadWrites slot text)
  · rcases List.mem_append.1 hb with hn | hr
    · rcases List.mem_append.1 hn with h | h
      · exact hen .A slot text h
      · exact hen .B slot text h
    · -- what follows `OtaDaemon::new` creates no slot file
      split_ifs at hr
      · cases hv : OtaDaemon.verify sha256Hex i <;> simp [hv, switchWrites] at hr
      · simp at hr

variable (sha256Hex) in
theorem namesSlots_confirm (hc : c.IsBootConfirm)
    (hf : NamesSlots s.slotCmdline) (hm : s.loaded = .ok m) :
    NamesSlots ((Op.command c).step sha256Hex s).slotCmdline := by
  obtain ⟨hs, -⟩ := saves_bodyWrites sha256Hex (s := s) (m := m) hc
  rw [step_of_command rfl, writes_of_command rfl, writes_of_loaded hm]
  refine namesSlots_run hf fun slot text hme => ?_
  rcases List.mem_append.1 hme with h | h
  · exact absurd h (slotCmdline_notMem_loadWrites slot text)
  · obtain ⟨m', hw, -⟩ := hs _ h
    exact absurd hw nofun

theorem confirmed_of_pending (hst : m.state = .pending)
    (hn : m.nextSlot = m.activeSlot.other) (hs : s.cmdlineSlot = m.activeSlot.other) :
    c.confirmed s m = m.activeSlot.other := by
  have hp : m.Promotes := .inr hst
  cases c with
  | bootConfirm version now readable =>
    cases readable <;> simp [OtaCommand.confirmed, booted, hp, hn, hs]
  | update | rollback | apiBootConfirm | apiRollback => simp [OtaCommand.confirmed, hp, hn]

/-- Update, reboot, boot-confirm, rollback and reboot end on the slot of the update. -/
theorem rollback_after_confirm {confirm back : OtaCommand}
    (hfiles : NamesSlots s.slotCmdline) (hetc : NamesSlots i.etcCmdline)
    (hm : s.loaded = .ok m) (hconfirm : confirm.IsBootConfirm) (hback : back.IsRollback)
    (h : Along (Op.step sha256Hex) (fun op s => op.Succeeds sha256Hex s)
      [.command (.update i), .reboot, .command confirm, .command back, .reboot] s) :
    (run (Op.step sha256Hex)
      [.command (.update i), .reboot, .command confirm, .command back, .reboot] s).running =
      m.activeSlot.other := by
  obtain ⟨hu, -, -, hr, -, -⟩ := h
  simp only [run, step_reboot] at hr ⊢
  -- after the update
  obtain ⟨hm₁, hc₁⟩ := step_command_update hm hu
  have hn₁ := namesSlots_update sha256Hex hfiles hetc hm
  generalize (Op.command (.update i)).step sha256Hex s = s₁ at hm₁ hc₁ hn₁ hr ⊢
  have hsl₁ : s₁.cmdlineSlot = m.activeSlot.other := by
    rw [Machine.cmdlineSlot, hc₁, slotNamed_updateContent hfiles hetc]
  -- after the reboot
  obtain ⟨s₂, hs₂⟩ : ∃ s₂ : Machine, s₂ = { s₁ with running := s₁.cmdlineSlot } := ⟨_, rfl⟩
  rw [← hs₂] at hr ⊢
  have hm₂ : s₂.loaded = s₁.loaded := by rw [hs₂]; rfl
  have hsl₂ : s₂.cmdlineSlot = m.activeSlot.other := by rw [hs₂]; exact hsl₁
  have hn₂ : NamesSlots s₂.slotCmdline := by rw [hs₂]; exact hn₁
  -- after the boot-confirm
  obtain ⟨⟨m₃, hm₃, ha₃, -⟩, hc₃⟩ := step_command_confirm sha256Hex hconfirm
    (hm₂.trans hm₁)
  have hn₃ := namesSlots_confirm sha256Hex hconfirm hn₂ (hm₂.trans hm₁)
  replace ha₃ : m₃.activeSlot = m.activeSlot.other :=
    ha₃.trans (confirmed_of_pending rfl rfl hsl₂)
  -- after the rollback; the last reboot runs the slot that `cmdline.txt` then names
  cases back with
  | rollback =>
    obtain ⟨-, hc₄⟩ := step_command_rollback hm₃ hr
    rw [← ha₃]
    exact hn₃ _ _ hc₄
  | apiRollback =>
    obtain ⟨-, hc₄⟩ := step_command_apiRollback sha256Hex hm₃
    rw [Machine.cmdlineSlot, hc₄, hc₃]
    exact hsl₂
  | update | bootConfirm | apiBootConfirm => exact hback.elim

theorem namesSlots_runningA : NamesSlots runningA.slotCmdline := by
  rintro slot content ⟨⟩
  cases slot <;> decide +kernel

/-- From slot A, a rollback of the command line after a confirmed update ends on slot B. -/
theorem rollback_after_confirm_runningA :
    (run (Op.step fun _ => "") [.command (.update sameBack), .reboot,
      .command (.bootConfirm "0.1.0" 0 true), .command .rollback, .reboot] runningA).running =
      .B :=
  rollback_after_confirm (m := {}) namesSlots_runningA nofun rfl trivial trivial
    (by decide +kernel)

/-- So a rollback after a confirmed update does not bring the former slot back. -/
theorem former_slot_not_restored :
    ¬∀ (sha256Hex : List UInt8 → String) (s : Machine) (m : BootMetadata) (i : Install)
      (confirm back : OtaCommand), NamesSlots s.slotCmdline → NamesSlots i.etcCmdline →
      s.loaded = .ok m → confirm.IsBootConfirm → back.IsRollback →
      Along (Op.step sha256Hex) (fun op s => op.Succeeds sha256Hex s)
        [.command (.update i), .reboot, .command confirm, .command back, .reboot] s →
      (run (Op.step sha256Hex)
        [.command (.update i), .reboot, .command confirm, .command back, .reboot] s).running =
        m.activeSlot := by
  intro h
  have hA := h (fun _ => "") runningA {} sameBack (.bootConfirm "0.1.0" 0 true) .rollback
    namesSlots_runningA nofun rfl trivial trivial (by decide +kernel)
  exact absurd hA (by decide +kernel)

end BalanSir.Ota
