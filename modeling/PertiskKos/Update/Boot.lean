import PertiskKos.Update.Apply

/-!
# Recording boots and marking them good

What a boot and a confirmation do to the metadata are functions on `BootMeta`.
The operations around them load the metadata, flip the loader back on a rollback,
and save.  `recordBootAttemptWithLayout` answers without a save while `bootOk`
holds.
-/

namespace PertiskKos.Update

open PertiskKos.Fallible

namespace BootMeta

/-- Activate the pending slot if `next` differs from `active`. -/
def activatePending (bootMeta : BootMeta) : BootMeta :=
  if bootMeta.next ≠ bootMeta.active then
    { bootMeta with
      active := bootMeta.next
      activeVersion := bootMeta.pendingVersion.or bootMeta.activeVersion
      pendingVersion := none }
  else
    bootMeta

def countAttempt (bootMeta : BootMeta) : BootMeta :=
  { bootMeta with bootAttempts := saturatingSucc bootMeta.bootAttempts }

/-- What a rollback records. -/
def rolledBack (bootMeta : BootMeta) : BootMeta :=
  { bootMeta with
    next := bootMeta.previousGood
    active := bootMeta.previousGood
    bootAttempts := 0
    bootOk := true
    pendingVersion := none }

/-- What `mark_boot_good` records. -/
def markGood (bootMeta : BootMeta) : BootMeta :=
  { bootMeta with
    bootOk := true
    bootAttempts := 0
    previousGood := bootMeta.active
    pendingVersion := none }

/-- The boot that is being recorded uses up the last attempt. -/
def Exhausted (bootMeta : BootMeta) : Prop :=
  bootMeta.bootOk = false ∧
    maxBootAttempts ≤ saturatingSucc bootMeta.bootAttempts

instance (bootMeta : BootMeta) : Decidable bootMeta.Exhausted :=
  inferInstanceAs (Decidable (_ ∧ _))

/-- The metadata that a recorded boot leaves persisted.  A boot that finds
`bootOk` leaves the old metadata, pending switch included. -/
def recorded (bootMeta : BootMeta) : BootMeta :=
  if bootMeta.bootOk then bootMeta
  else if bootMeta.Exhausted then bootMeta.activatePending.rolledBack
  else bootMeta.activatePending.countAttempt

@[simp]
theorem activatePending_bootOk (bootMeta : BootMeta) :
    bootMeta.activatePending.bootOk = bootMeta.bootOk := by
  unfold activatePending
  split <;> rfl

@[simp]
theorem activatePending_bootAttempts (bootMeta : BootMeta) :
    bootMeta.activatePending.bootAttempts = bootMeta.bootAttempts := by
  unfold activatePending
  split <;> rfl

@[simp]
theorem activatePending_previousGood (bootMeta : BootMeta) :
    bootMeta.activatePending.previousGood = bootMeta.previousGood := by
  unfold activatePending
  split <;> rfl

@[simp]
theorem activatePending_next (bootMeta : BootMeta) :
    bootMeta.activatePending.next = bootMeta.next := by
  unfold activatePending
  split <;> rfl

@[simp]
theorem activatePending_active (bootMeta : BootMeta) :
    bootMeta.activatePending.active = bootMeta.next := by
  unfold activatePending
  split
  · rfl
  · next hsame => exact (not_not.1 hsame).symm

end BootMeta

variable (codec : Codec)

/-- The rollback of `record_boot_attempt_with_layout`: the loader is flipped back
only when STATE has a kernel for the slot. -/
def flipBack (layout : Option SlotLayout) (slot : BootSlot) :
    Prog Site ApplyError Disk Unit :=
  match layout with
  | none => pure ()
  | some layout => do
      let slotDir ← inspect (Disk.slotDir slot)
      whenever (slotDir "kernel").isPresent do
        let _ ← activateStaged layout slot
        pure ()

/-- `record_boot_attempt_with_layout`. -/
def recordBootAttemptWithLayout (layout : Option SlotLayout) :
    Prog Site ApplyError Disk BootMeta := do
  let loaded ← mapErr .bootMeta (BootMeta.load codec.releaseVersion)
  let bootMeta := loaded.activatePending
  if bootMeta.bootOk then
    -- nothing is saved: a switch made by `activatePending` is dropped
    pure bootMeta
  else if maxBootAttempts ≤ bootMeta.countAttempt.bootAttempts then do
    flipBack layout bootMeta.previousGood
    mapErr .bootMeta (bootMeta.rolledBack.save .record)
    pure bootMeta.rolledBack
  else do
    mapErr .bootMeta (bootMeta.countAttempt.save .record)
    pure bootMeta.countAttempt

/-- `record_boot_attempt`. -/
def recordBootAttempt : Prog Site ApplyError Disk BootMeta :=
  recordBootAttemptWithLayout codec none

/-- `mark_boot_good`. -/
def markBootGood : Prog Site ApplyError Disk BootMeta := do
  let bootMeta ← mapErr .bootMeta (BootMeta.load codec.releaseVersion)
  mapErr .bootMeta (bootMeta.markGood.save .record)
  pure bootMeta.markGood

/-- STATE has a kernel for the slot. -/
def Disk.HasKernel (disk : Disk) (slot : BootSlot) : Prop :=
  (disk.slotDir slot "kernel").isPresent = true

instance (disk : Disk) (slot : BootSlot) : Decidable (disk.HasKernel slot) :=
  inferInstanceAs (Decidable (_ = _))

/-- A slot directory on STATE that has a kernel can be booted. -/
def Disk.Usable (disk : Disk) : Prop :=
  ∀ slot, disk.HasKernel slot → Bootable (disk.slotDir slot)

/-- What a recorded boot has done to a disk with an ESP. -/
structure BootRecorded (bootMeta : BootMeta) (before after : Disk) : Prop where
  persisted : after.bootMeta = .holds bootMeta.recorded
  slots : after.slots = before.slots
  loaderDefault : after.loaderDefault =
    if bootMeta.Exhausted ∧ before.HasKernel bootMeta.previousGood then
      some bootMeta.previousGood
    else before.loaderDefault

section Calm

variable {codec} {disk : Disk} {bootMeta : BootMeta}

/-- An undisturbed rollback flips the loader exactly when STATE has the kernel. -/
theorem flipBack_calm (layout : SlotLayout) (slot : BootSlot)
    (hesp : disk.esp.isSome = true) (husable : disk.Usable) :
    ∃ after, flipBack (some layout) slot calm disk = .ok () after ∧
      after.slots = disk.slots ∧
      after.loaderDefault =
        if disk.HasKernel slot then some slot else disk.loaderDefault := by
  simp only [flipBack, bind_apply, inspect_apply]
  by_cases hkernel : disk.HasKernel slot
  · obtain ⟨updated, after, hrun, hswitched⟩ :=
      activateStaged_of_quiet (calm_quietIn .install) (calm_quietIn .flip) layout slot
        fun _ => husable slot hkernel
    refine ⟨after, ?_, hswitched.slots, ?_⟩
    · have hpresent : (disk.slotDir slot "kernel").isPresent = true := hkernel
      simp only [hpresent, whenever_true, bind_apply, hrun, pure_apply]
    · rw [if_pos hkernel, hswitched.loaderDefault hesp]
  · refine ⟨disk, ?_, rfl, ?_⟩
    · have hmissing : (disk.slotDir slot "kernel").isPresent = false :=
        Bool.eq_false_iff.2 hkernel
      simp only [hmissing, whenever_false, pure_apply]
    · rw [if_neg hkernel]

/-- An undisturbed boot is recorded. -/
theorem recordBootAttempt_calm (layout : SlotLayout)
    (hmeta : disk.persistedMeta codec.releaseVersion = some bootMeta)
    (hesp : disk.esp.isSome = true) (husable : disk.Usable) :
    ∃ answer after,
      recordBootAttemptWithLayout codec (some layout) calm disk =
        .ok answer after ∧
      BootRecorded bootMeta disk after := by
  have hload := load_of_quiet codec.releaseVersion (calm_quietIn .load) hmeta
  have hsave : ∀ (recorded : BootMeta) (store : Disk),
      recorded.save .record calm store = .ok () (store.putMeta (.holds recorded)) :=
    save_of_quiet rfl rfl
  simp only [recordBootAttemptWithLayout, bind_apply, mapErr, hload,
    BootMeta.activatePending_bootOk, BootMeta.countAttempt,
    BootMeta.activatePending_bootAttempts, BootMeta.activatePending_previousGood]
  by_cases hok : bootMeta.bootOk = true
  · simp only [hok, if_true, pure_apply]
    refine ⟨_, _, rfl, ?_, rfl, ?_⟩
    · simp only [Disk.putMeta_bootMeta, BootMeta.recorded, hok, if_true]
    · have hnot : ¬ bootMeta.Exhausted := fun h => by simp [h.1] at hok
      rw [if_neg fun h => hnot h.1]
      rfl
  have hfalse : bootMeta.bootOk = false := Bool.eq_false_iff.2 hok
  by_cases hlast : maxBootAttempts ≤ saturatingSucc bootMeta.bootAttempts
  · have hexhausted : bootMeta.Exhausted := ⟨hfalse, hlast⟩
    obtain ⟨flipped, hrun, hslots, hdefault⟩ :=
      @flipBack_calm (disk.putMeta (.holds bootMeta)) layout
        bootMeta.previousGood hesp husable
    simp only [if_neg hok, if_pos hlast, bind_apply, hrun, mapErr, hsave, pure_apply]
    refine ⟨_, _, rfl, ?_, hslots, ?_⟩
    · simp only [Disk.putMeta_bootMeta, BootMeta.recorded, if_neg hok,
        if_pos hexhausted]
    · simp only [hexhausted, true_and]
      exact hdefault
  · have hmore : ¬ bootMeta.Exhausted := fun h => hlast h.2
    simp only [if_neg hok, if_neg hlast, bind_apply, mapErr, hsave, pure_apply]
    refine ⟨_, _, rfl, ?_, rfl, ?_⟩
    · simp only [Disk.putMeta_bootMeta, BootMeta.recorded, if_neg hok,
        if_neg hmore, BootMeta.countAttempt, BootMeta.activatePending_bootOk,
        BootMeta.activatePending_bootAttempts,
        BootMeta.activatePending_previousGood]
    · rw [if_neg fun h => hmore h.1]
      rfl

/-- An undisturbed confirmation is recorded. -/
theorem markBootGood_calm
    (hmeta : disk.persistedMeta codec.releaseVersion = some bootMeta) :
    markBootGood codec calm disk =
      .ok bootMeta.markGood (disk.putMeta (.holds bootMeta.markGood)) := by
  have hload := load_of_quiet codec.releaseVersion (calm_quietIn .load) hmeta
  have hsave := @save_of_quiet calm .record rfl rfl
    bootMeta.markGood (disk.putMeta (.holds bootMeta))
  simp only [markBootGood, bind_apply, mapErr, hload, hsave, pure_apply]
  rfl

end Calm

end PertiskKos.Update
