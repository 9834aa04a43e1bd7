import PertiskKos.Update.Disk

/-!
# Loading and saving the boot metadata

`boot-meta.json` is missing on a freshly installed disk; `load` then answers the
default and writes it.  `persistedMeta` is what a `load` that is not disturbed
would answer, so it is the metadata the next boot works with.
-/

namespace PertiskKos.Update

open PertiskKos.Fallible

inductive MetaError where
  | io (err : IoError)
  | parse
  deriving DecidableEq, Repr

variable (release : String)

/-- `BootMeta::save`. -/
def BootMeta.save (phase : SavePhase) (bootMeta : BootMeta) :
    Prog Site MetaError Disk Unit := do
  guardSite (.makeStateRoot phase) (.io .failed)
  write (.writeMeta phase) (.io .failed) bootMeta Disk.putMeta

/-- `BootMeta::load`. -/
def BootMeta.load : Prog Site MetaError Disk BootMeta := do
  match ← inspect Disk.bootMeta with
  | .absent =>
      let bootMeta := BootMeta.default release
      bootMeta.save .seed
      pure bootMeta
  | .holds bootMeta =>
      guardSite .readMeta (.io .failed)
      pure bootMeta
  | .damaged =>
      guardSite .readMeta (.io .failed)
      stop .parse

/-- The metadata the next `load` answers. -/
def Disk.persistedMeta (disk : Disk) : Option BootMeta :=
  match disk.bootMeta with
  | .absent => some (BootMeta.default release)
  | .holds bootMeta => some bootMeta
  | .damaged => none

@[simp]
theorem persistedMeta_putMeta_holds (bootMeta : BootMeta) (disk : Disk) :
    (disk.putMeta (.holds bootMeta)).persistedMeta release = some bootMeta := rfl

@[simp]
theorem persistedMeta_putMeta_damaged (disk : Disk) :
    (disk.putMeta .damaged).persistedMeta release = none := rfl

@[simp]
theorem persistedMeta_putSlot (slot : BootSlot) (dir : Option SlotDir)
    (disk : Disk) :
    (disk.putSlot slot dir).persistedMeta release = disk.persistedMeta release := rfl

@[simp]
theorem persistedMeta_onEsp (act : Esp → Esp) (disk : Disk) :
    (disk.onEsp act).persistedMeta release = disk.persistedMeta release := rfl

/-- A save that stops early, by the site that stopped it. -/
def SaveStopped (faults : Faults Site) (phase : SavePhase) (before after : Disk) :
    Prop :=
  ((faults (.makeStateRoot phase) ≠ none ∨
      faults (.writeMeta phase) = some .refused) ∧ after = before) ∨
    (faults (.writeMeta phase) = some .torn ∧ after = before.putMeta .damaged)

theorem save_spec (faults : Faults Site) (phase : SavePhase) (bootMeta : BootMeta)
    (before : Disk) :
    Triple faults (· = before) (bootMeta.save phase)
      (fun _ after => after = before.putMeta (.holds bootMeta))
      (fun _ after => SaveStopped faults phase before after) := by
  apply Triple.bind fun _ => (· = before)
  · exact Triple.guardSite (fun _ _ h => h) fun hsite _ h => .inl ⟨.inl hsite, h⟩
  intro _
  apply Triple.write
  · intro _ disk hdisk
    rw [hdisk]
  · intro hsite disk hdisk
    exact .inl ⟨.inr hsite, hdisk⟩
  · intro hsite disk hdisk
    exact .inr ⟨hsite, by rw [hdisk]⟩

/-- An undisturbed save goes through. -/
theorem save_of_quiet {faults : Faults Site} {phase : SavePhase}
    (hroot : faults (.makeStateRoot phase) = none)
    (hwrite : faults (.writeMeta phase) = none) (bootMeta : BootMeta) (disk : Disk) :
    bootMeta.save phase faults disk = .ok () (disk.putMeta (.holds bootMeta)) := by
  simp only [BootMeta.save, bind_apply, guardSite_of_quiet faults disk hroot]
  exact attempt_of_quiet faults disk hwrite _ _ _

/-- A save whose write is torn leaves a damaged file. -/
theorem save_of_torn {faults : Faults Site} {phase : SavePhase}
    (hroot : faults (.makeStateRoot phase) = none)
    (htorn : faults (.writeMeta phase) = some .torn) (bootMeta : BootMeta)
    (disk : Disk) :
    bootMeta.save phase faults disk =
      .error (.io .failed) (disk.putMeta .damaged) := by
  simp only [BootMeta.save, bind_apply, guardSite_of_quiet faults disk hroot]
  simp only [write, attempt, htorn]

theorem putMeta_eq_self {disk : Disk} {bootMeta : BootMeta}
    (hfile : disk.bootMeta = .holds bootMeta) :
    disk.putMeta (.holds bootMeta) = disk := by
  simp only [Disk.putMeta, ← hfile]

/-- A load that returns answers the persisted metadata and leaves it persisted.
A load that stops has changed nothing, or it tore the seed it was writing. -/
theorem load_spec (faults : Faults Site) (before : Disk) :
    Triple faults (· = before) (BootMeta.load release)
      (fun bootMeta after => before.persistedMeta release = some bootMeta ∧
        after = before.putMeta (.holds bootMeta))
      (fun _ after => after = before ∨
        (before.bootMeta = .absent ∧ faults (.writeMeta .seed) = some .torn ∧
          after = before.putMeta .damaged)) := by
  apply Triple.bind fun file disk => file = before.bootMeta ∧ disk = before
  · apply Triple.inspect
    intro disk hdisk
    exact ⟨congrArg _ hdisk, hdisk⟩
  intro file
  cases file with
  | absent =>
      apply Triple.bind fun _ disk => before.bootMeta = .absent ∧
        disk = before.putMeta (.holds (BootMeta.default release))
      · intro disk hdisk
        refine (save_spec faults .seed _ before).weaken (fun _ h => h) ?_ ?_
          disk hdisk.2
        · exact fun _ _ h => ⟨hdisk.1.symm, h⟩
        · exact fun _ _ h => h.imp (fun hkept => hkept.2)
            fun htorn => ⟨hdisk.1.symm, htorn⟩
      · intro _
        apply Triple.pure
        intro disk hdisk
        exact ⟨by simp [Disk.persistedMeta, hdisk.1], hdisk.2⟩
  | holds bootMeta =>
      apply Triple.bind fun _ disk => .holds bootMeta = before.bootMeta ∧
        disk = before
      · exact Triple.guardSite (fun _ _ h => h) fun _ _ h => .inl h.2
      · intro _
        apply Triple.pure
        intro disk hdisk
        have hfile := hdisk.1.symm
        exact ⟨by simp [Disk.persistedMeta, hfile],
          hdisk.2.trans (putMeta_eq_self hfile).symm⟩
  | damaged =>
      apply Triple.bind fun _ disk => disk = before
      · exact Triple.guardSite (fun _ _ h => h.2) fun _ _ h => .inl h.2
      · intro _
        exact Triple.stop fun _ h => .inl h

/-- An undisturbed load goes through unless the file is damaged. -/
theorem load_of_quiet {faults : Faults Site} (hquiet : QuietIn faults .load)
    {disk : Disk} {bootMeta : BootMeta}
    (hmeta : disk.persistedMeta release = some bootMeta) :
    BootMeta.load release faults disk =
      .ok bootMeta (disk.putMeta (.holds bootMeta)) := by
  rw [BootMeta.load, bind_apply, inspect_apply]
  cases hfile : disk.bootMeta with
  | absent =>
      have hdefault : BootMeta.default release = bootMeta := by
        simpa [Disk.persistedMeta, hfile] using hmeta
      have hsave := save_of_quiet (hquiet _ rfl) (hquiet (.writeMeta .seed) rfl)
        bootMeta disk
      simp only [bind_apply, hdefault, hsave, pure_apply]
  | holds saved =>
      have hsaved : saved = bootMeta := by
        simpa [Disk.persistedMeta, hfile] using hmeta
      have hguard := guardSite_of_quiet faults disk (hquiet .readMeta rfl)
        (.io .failed : MetaError)
      rw [hsaved] at hfile ⊢
      simp only [bind_apply, hguard, pure_apply, putMeta_eq_self hfile]
  | damaged => simp [Disk.persistedMeta, hfile] at hmeta

end PertiskKos.Update
