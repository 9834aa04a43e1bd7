import PertiskKos.Update.Bootloader
import PertiskKos.Update.Bundle
import PertiskKos.Update.Meta

/-!
# Staging an upgrade

`applyBundle` verifies a bundle, copies it into the inactive slot on STATE,
switches the loader over and saves the metadata, in this order.  Each step stops
the call when it fails.  `applyBundle_spec` says for every environment where the
call can have stopped and what it has left behind.
-/

namespace PertiskKos.Update

open PertiskKos.Fallible

inductive ApplyError where
  | bundle (err : BundleError)
  | bootMeta (err : MetaError)
  | bootloader (err : BootloaderError)
  | io (err : IoError)
  deriving DecidableEq, Repr

/-- `SlotLayout`; its paths are fields of `Disk`. -/
structure SlotLayout where
  cmdline : String

/-- `SlotLayout::new`. -/
def SlotLayout.new : SlotLayout where
  cmdline := "console=tty0 console=ttyS0 rdinit=/init"

/-- `ApplyResult`; its `slot_dir` is the directory of `targetSlot`. -/
structure ApplyResult where
  targetSlot : BootSlot
  version : String
  bootloaderUpdated : Bool
  deriving DecidableEq, Repr

namespace BootMeta

/-- What `apply_bundle` records once the target slot is staged. -/
def stage (bootMeta : BootMeta) (version : String) : BootMeta :=
  { bootMeta with
    previousGood := bootMeta.active
    next := bootMeta.active.other
    bootOk := false
    bootAttempts := 0
    pendingVersion := some version }

end BootMeta

/-- Copy one artifact of the manifest into the slot. -/
def copyArtifact (slot : BootSlot) (bundle : VerifiedBundle)
    (entry : String × String) : Prog Site ApplyError Disk Unit := do
  guardSite (.makeArtifactDir entry.1) (.io .failed)
  copy (.copyArtifact entry.1) (.io .notFound) (.io .failed) (bundle.root entry.1)
    (Disk.putSlotFile slot entry.1)

/-- Remove the slot directory; a removal that stops may leave some of it. -/
def clearSlot (slot : BootSlot) : Prog Site ApplyError Disk Unit :=
  attempt .clearSlot (.io .failed) (Disk.putSlot slot none)
    (Disk.putSlot slot (some emptyDir))

/-- `stage_slot`. -/
def stageSlot (slot : BootSlot) (bundle : VerifiedBundle) :
    Prog Site ApplyError Disk Unit := do
  let dest ← inspect fun disk => disk.slots slot
  whenever dest.isSome (clearSlot slot)
  attempt .makeSlot (.io .failed) (Disk.putSlot slot (some emptyDir)) id
  bundle.manifest.artifacts.forM (copyArtifact slot bundle)
  copy .copyManifest (.io .notFound) (.io .failed) (bundle.root "manifest.json")
    (Disk.putSlotFile slot "manifest.json")
  copy .copySignature (.io .notFound) (.io .failed) (bundle.root "manifest.sig")
    (Disk.putSlotFile slot "manifest.sig")

/-- `try_activate_slot` on the slot's directory on STATE. -/
def activateStaged (layout : SlotLayout) (slot : BootSlot) :
    Prog Site ApplyError Disk Bool := do
  let slotDir ← inspect (Disk.slotDir slot)
  mapErr .bootloader (tryActivateSlot slotDir slot layout.cmdline)

variable (codec : Codec)

/-- `apply_bundle` once the target slot is staged. -/
def switchOver (layout : SlotLayout) (bootMeta : BootMeta) (version : String) :
    Prog Site ApplyError Disk ApplyResult := do
  let target := bootMeta.active.other
  let bootloaderUpdated ← activateStaged layout target
  mapErr .bootMeta ((bootMeta.stage version).save .record)
  pure ⟨target, version, bootloaderUpdated⟩

/-- `apply_bundle`. -/
def applyBundle (layout : SlotLayout) (bundleDir : SlotDir) :
    Prog Site ApplyError Disk ApplyResult := do
  let verified ← mapErr .bundle (verifyBundle codec bundleDir)
  let bootMeta ← mapErr .bootMeta (BootMeta.load codec.releaseVersion)
  stageSlot bootMeta.active.other verified
  switchOver layout bootMeta verified.manifest.version

/-- The slot directory that `stage_slot` makes from a bundle. -/
def VerifiedBundle.stagedDir (bundle : VerifiedBundle) : SlotDir :=
  let artifacts := bundle.manifest.artifacts.foldl
    (fun dir entry => Function.update dir entry.1 (bundle.root entry.1)) emptyDir
  let withManifest :=
    Function.update artifacts "manifest.json" (bundle.root "manifest.json")
  Function.update withManifest "manifest.sig" (bundle.root "manifest.sig")

/-- Copying one file into a slot directory that holds `dir` already. -/
theorem copyToSlot_spec (faults : Faults Site) (site : Site) (slot : BootSlot)
    (bundle : VerifiedBundle) (name : String) (before : Disk) (dir : SlotDir) :
    Triple faults (· = before.putSlot slot (some dir))
      (copy site (.io .notFound) (.io .failed) (bundle.root name)
        (Disk.putSlotFile slot name) : Prog Site ApplyError Disk Unit)
      (fun _ after => after = before.putSlot slot
        (some (Function.update dir name (bundle.root name))))
      (fun _ after => ∃ left, after = before.putSlot slot left) := by
  apply Triple.copy
  · intro _ _ disk hdisk
    rw [hdisk, Disk.putSlotFile_putSlot]
  · exact fun _ _ h => ⟨_, h⟩
  · exact fun _ h => ⟨_, h⟩
  · intro disk hdisk
    exact ⟨_, by rw [hdisk, Disk.putSlotFile_putSlot]⟩

/-- The copies of the artifacts one after the other, from a directory that holds
`dir` already. -/
theorem copyArtifacts_spec (faults : Faults Site) (slot : BootSlot)
    (bundle : VerifiedBundle) (entries : List (String × String)) (before : Disk)
    (dir : SlotDir) :
    Triple faults (· = before.putSlot slot (some dir))
      (entries.forM (copyArtifact slot bundle))
      (fun _ after => after = before.putSlot slot (some (entries.foldl
        (fun dir entry => Function.update dir entry.1 (bundle.root entry.1)) dir)))
      (fun _ after => ∃ left, after = before.putSlot slot left) := by
  induction entries generalizing dir with
  | nil => exact Triple.pure fun _ h => h
  | cons entry entries ih =>
      apply Triple.bind fun _ after => after = before.putSlot slot
        (some (Function.update dir entry.1 (bundle.root entry.1)))
      · apply Triple.bind fun _ => (· = before.putSlot slot (some dir))
        · exact Triple.guardSite (fun _ _ h => h) fun _ _ h => ⟨_, h⟩
        intro _
        exact copyToSlot_spec faults _ slot bundle entry.1 before dir
      intro _
      exact ih _

/-- Staging writes the target slot on STATE and nothing else. -/
theorem stageSlot_spec (faults : Faults Site) (slot : BootSlot)
    (bundle : VerifiedBundle) (before : Disk) :
    Triple faults (· = before) (stageSlot slot bundle)
      (fun _ after => after = before.putSlot slot (some bundle.stagedDir))
      (fun _ after => ∃ left, after = before.putSlot slot left) := by
  have hrefl : ∃ left, before = before.putSlot slot left :=
    ⟨before.slots slot, by simp [Disk.putSlot]⟩
  apply Triple.bind fun _ => (· = before)
  · exact Triple.inspect fun _ h => h
  intro dest
  apply Triple.bind fun _ disk => ∃ left, disk = before.putSlot slot left
  · have hclear : Keeps faults (fun disk => ∃ left, disk = before.putSlot slot left)
        (whenever dest.isSome (clearSlot slot)) := by
      apply Keeps.whenever
      apply Keeps.attempt
      · rintro disk ⟨left, hdisk⟩
        exact ⟨none, by rw [hdisk, Disk.putSlot_putSlot]⟩
      · rintro disk ⟨left, hdisk⟩
        exact ⟨some emptyDir, by rw [hdisk, Disk.putSlot_putSlot]⟩
    exact hclear.weaken (fun _ h => by rwa [h]) (fun _ _ h => h) fun _ _ h => h
  intro _
  apply Triple.bind fun _ disk => disk = before.putSlot slot (some emptyDir)
  · apply Triple.attempt
    · rintro _ disk ⟨left, hdisk⟩
      rw [hdisk, Disk.putSlot_putSlot]
    · exact fun _ _ h => h
    · exact fun _ _ h => h
  intro _
  apply Triple.bind _ (copyArtifacts_spec faults slot bundle _ before emptyDir)
  intro _
  apply Triple.bind _ (copyToSlot_spec faults _ slot bundle _ before _)
  intro _
  exact copyToSlot_spec faults _ slot bundle _ before _

/-- Staging a whole bundle goes through if nothing disturbs it. -/
theorem stageSlot_succeeds {faults : Faults Site} (hquiet : QuietIn faults .stage)
    {bundle : VerifiedBundle} (hwhole : bundle.Whole) (slot : BootSlot) :
    Succeeds faults (stageSlot slot bundle) := by
  apply Succeeds.bind
  · exact fun store => ⟨_, store, rfl⟩
  intro dest
  apply Succeeds.bind
  · exact Succeeds.whenever fun _ => Succeeds.attempt (hquiet _ rfl) _ _ _
  intro _
  apply Succeeds.bind (Succeeds.attempt (hquiet _ rfl) _ _ _)
  intro _
  apply Succeeds.bind
  · apply Succeeds.forM
    intro entry hentry
    apply Succeeds.bind (Succeeds.guardSite (hquiet _ rfl) _)
    intro _
    exact Succeeds.copy (hquiet _ rfl) _ _ (hwhole.artifacts entry hentry) _
  intro _
  apply Succeeds.bind (Succeeds.copy (hquiet _ rfl) _ _ hwhole.manifest _)
  intro _
  exact Succeeds.copy (hquiet _ rfl) _ _ hwhole.signature _

theorem activateStaged_spec (faults : Faults Site) (layout : SlotLayout)
    (slot : BootSlot) (before : Disk) :
    Triple faults (· = before) (activateStaged layout slot)
      (fun _ after => Switched (before.slotDir slot) slot before after)
      (fun _ after => SwitchStopped faults (before.slotDir slot) before after) := by
  apply Triple.bindFact (· = before.slotDir slot) (· = before)
  · apply Triple.inspect
    intro disk hdisk
    exact ⟨by rw [hdisk], hdisk⟩
  intro slotDir hdir
  rw [hdir]
  apply Triple.mapErr
  exact tryActivateSlot_spec faults _ slot layout.cmdline before

/-- An undisturbed activation of a slot directory that can be booted. -/
theorem activateStaged_of_quiet {faults : Faults Site}
    (hinstall : QuietIn faults .install) (hflip : QuietIn faults .flip)
    (layout : SlotLayout) (slot : BootSlot) {disk : Disk}
    (hboot : disk.esp.isSome = true → Bootable (disk.slotDir slot)) :
    ∃ updated after, activateStaged layout slot faults disk = .ok updated after ∧
      Switched (disk.slotDir slot) slot disk after := by
  have hspec := activateStaged_spec faults layout slot disk
  suffices h : ∃ updated after,
      activateStaged layout slot faults disk = .ok updated after by
    obtain ⟨updated, after, hrun⟩ := h
    exact ⟨updated, after, hrun, Triple.of_ok hspec rfl hrun⟩
  simp only [activateStaged, tryActivateSlot, bind_apply, inspect_apply, mapErr]
  cases hesp : disk.esp with
  | none => exact ⟨false, disk, rfl⟩
  | some esp =>
      have hactivate : Succeeds faults
          (activateSlot (disk.slotDir slot) slot layout.cmdline) := by
        apply Succeeds.bind
        · exact installSlot_succeeds hinstall (hboot (by rw [hesp]; rfl)) _ _
        intro _
        apply Succeeds.bind (Succeeds.guardSite (hflip _ rfl) _)
        intro _
        exact Succeeds.write (hflip _ rfl) _ _ _
      obtain ⟨_, after, hrun⟩ := hactivate disk
      exact ⟨true, after, by simp only [bind_apply, hrun, pure_apply]⟩

/-- The next boot runs the same slot under the same metadata. -/
structure SameBoot (release : String) (before after : Disk) : Prop where
  loaderDefault : after.loaderDefault = before.loaderDefault
  persistedMeta : after.persistedMeta release = before.persistedMeta release

/-- The switch is made and its record is on disk. -/
def SwitchedOver (bootMeta : BootMeta) (version : String) (before after : Disk) :
    Prop :=
  ∃ switched,
    Switched (before.slotDir bootMeta.active.other) bootMeta.active.other
      before switched ∧
    after = switched.putMeta (.holds (bootMeta.stage version))

/-- The switch is made and the save of its record stops. -/
def SwitchUnrecorded (faults : Faults Site) (bootMeta : BootMeta)
    (before after : Disk) : Prop :=
  ∃ switched,
    Switched (before.slotDir bootMeta.active.other) bootMeta.active.other
      before switched ∧
    SaveStopped faults .record switched after

theorem switchOver_spec (faults : Faults Site) (layout : SlotLayout)
    (bootMeta : BootMeta) (version : String) (before : Disk) :
    Triple faults (· = before) (switchOver layout bootMeta version)
      (fun result after => result.targetSlot = bootMeta.active.other ∧
        result.version = version ∧ SwitchedOver bootMeta version before after)
      (fun _ after =>
        SwitchStopped faults (before.slotDir bootMeta.active.other) before after ∨
          SwitchUnrecorded faults bootMeta before after) := by
  apply Triple.bind fun _ => Switched (before.slotDir bootMeta.active.other)
    bootMeta.active.other before
  · exact (activateStaged_spec faults layout _ before).weaken (fun _ h => h)
      (fun _ _ h => h) fun _ _ h => .inl h
  intro updated
  apply Triple.bind fun _ => SwitchedOver bootMeta version before
  · apply Triple.mapErr
    intro switched hswitched
    exact (save_spec faults .record (bootMeta.stage version) switched).weaken
      (fun _ h => h) (fun _ _ h => ⟨switched, hswitched, h⟩)
      (fun _ _ h => .inr ⟨switched, hswitched, h⟩) switched rfl
  intro _
  exact Triple.pure fun _ h => ⟨rfl, rfl, h⟩

/-- The call got past verification and load. -/
structure Accepted (faults : Faults Site) (bundleDir : SlotDir) (before : Disk)
    (bundle : VerifiedBundle) (bootMeta : BootMeta) : Prop where
  verified : verifyBundle codec bundleDir faults before = .ok bundle before
  whole : bundle.Whole
  persisted : before.persistedMeta codec.releaseVersion = some bootMeta

/-- The disk once the target slot is staged. -/
def stagedDisk (bundle : VerifiedBundle) (bootMeta : BootMeta) (before : Disk) :
    Disk :=
  (before.putMeta (.holds bootMeta)).putSlot bootMeta.active.other
    (some bundle.stagedDir)

@[simp]
theorem slotDir_stagedDisk (bundle : VerifiedBundle) (bootMeta : BootMeta)
    (before : Disk) :
    (stagedDisk bundle bootMeta before).slotDir bootMeta.active.other =
      bundle.stagedDir :=
  Disk.slotDir_putSlot_some _ _ _

theorem verifyBundle_exact (faults : Faults Site) (bundleDir : SlotDir)
    (before : Disk) :
    Triple faults (· = before) (verifyBundle codec bundleDir)
      (fun bundle after =>
        (verifyBundle codec bundleDir faults before = .ok bundle before ∧
          bundle.Whole) ∧ after = before)
      (fun _ after => after = before) := by
  have hboth := Triple.both
    (Triple.exact faults (verifyBundle codec bundleDir) before)
    (verifyBundle_spec codec faults bundleDir before)
  refine hboth.weaken (fun _ h => ⟨h, h⟩) ?_ (fun _ _ h => h.2)
  intro bundle after hafter
  obtain ⟨hrun, hwhole, heq⟩ := hafter
  rw [heq] at hrun
  exact ⟨⟨hrun, hwhole⟩, heq⟩

/-- `apply_bundle` in every environment.  It stops before the switch with nothing
changed for the next boot, or tears the default metadata it seeds, or reaches the
switch. -/
theorem applyBundle_spec (faults : Faults Site) (layout : SlotLayout)
    (bundleDir : SlotDir) (before : Disk) :
    Triple faults (· = before) (applyBundle codec layout bundleDir)
      (fun result after => ∃ bundle bootMeta,
        Accepted codec faults bundleDir before bundle bootMeta ∧
        result.targetSlot = bootMeta.active.other ∧
        result.version = bundle.manifest.version ∧
        SwitchedOver bootMeta bundle.manifest.version
          (stagedDisk bundle bootMeta before) after)
      (fun _ after => SameBoot codec.releaseVersion before after ∨
        (∃ bundle, verifyBundle codec bundleDir faults before = .ok bundle before ∧
          before.bootMeta = .absent ∧ faults (.writeMeta .seed) = some .torn ∧
          after = before.putMeta .damaged) ∨
        (∃ bundle bootMeta,
          Accepted codec faults bundleDir before bundle bootMeta ∧
          (SwitchStopped faults bundle.stagedDir (stagedDisk bundle bootMeta before)
              after ∨
            SwitchUnrecorded faults bootMeta (stagedDisk bundle bootMeta before)
              after))) := by
  apply Triple.bindFact
    (fun bundle => verifyBundle codec bundleDir faults before = .ok bundle before ∧
      bundle.Whole) (· = before)
  · apply Triple.mapErr
    exact (verifyBundle_exact codec faults bundleDir before).weaken (fun _ h => h)
      (fun _ _ h => h) fun _ _ h => .inl (by rw [h]; exact ⟨rfl, rfl⟩)
  intro bundle hbundle
  apply Triple.bindFact
    (fun bootMeta => before.persistedMeta codec.releaseVersion = some bootMeta)
    (fun disk => ∃ bootMeta, before.persistedMeta codec.releaseVersion =
      some bootMeta ∧ disk = before.putMeta (.holds bootMeta))
  · apply Triple.mapErr
    refine (load_spec codec.releaseVersion faults before).weaken (fun _ h => h)
      (fun bootMeta _ h => ⟨h.1, bootMeta, h⟩) ?_
    intro _ after hafter
    obtain heq | htorn := hafter
    · exact .inl (by rw [heq]; exact ⟨rfl, rfl⟩)
    · exact .inr (.inl ⟨bundle, hbundle.1, htorn⟩)
  intro bootMeta hmeta
  have haccepted : Accepted codec faults bundleDir before bundle bootMeta :=
    ⟨hbundle.1, hbundle.2, hmeta⟩
  apply Triple.bind fun _ => (· = stagedDisk bundle bootMeta before)
  · intro disk hdisk
    obtain ⟨loaded, hloaded, hdisk⟩ := hdisk
    have heq : loaded = bootMeta := Option.some.inj (hloaded.symm.trans hmeta)
    rw [heq] at hdisk
    refine (stageSlot_spec faults bootMeta.active.other bundle
      (before.putMeta (.holds bootMeta))).weaken (fun _ h => h) (fun _ _ h => h) ?_
      disk hdisk
    intro _ after hafter
    obtain ⟨left, hleft⟩ := hafter
    exact .inl (by rw [hleft]; exact ⟨rfl, hmeta.symm⟩)
  intro _
  refine (switchOver_spec faults layout bootMeta bundle.manifest.version
    (stagedDisk bundle bootMeta before)).weaken (fun _ h => h) ?_ ?_
  · exact fun _ _ h => ⟨bundle, bootMeta, haccepted, h⟩
  · intro _ after hafter
    rw [slotDir_stagedDisk] at hafter
    exact .inr (.inr ⟨bundle, bootMeta, haccepted, hafter⟩)

/-- What a successful `apply_bundle` has done to a disk with an ESP. -/
structure Upgraded (bootMeta : BootMeta) (result : ApplyResult) (dir : SlotDir)
    (before after : Disk) : Prop where
  target : result.targetSlot = bootMeta.active.other
  persisted : after.bootMeta = .holds (bootMeta.stage result.version)
  slots : after.slots =
    Function.update before.slots bootMeta.active.other (some dir)
  loaderDefault : after.loaderDefault = some bootMeta.active.other
  bootable : Bootable dir

theorem applyBundle_upgraded {codec : Codec} {faults : Faults Site}
    {layout : SlotLayout} {bundleDir : SlotDir} {before after : Disk}
    {bootMeta : BootMeta} {result : ApplyResult}
    (hmeta : before.persistedMeta codec.releaseVersion = some bootMeta)
    (hesp : before.esp.isSome = true)
    (hrun : applyBundle codec layout bundleDir faults before = .ok result after) :
    ∃ dir, Upgraded bootMeta result dir before after := by
  obtain ⟨bundle, loaded, haccepted, htarget, hversion, switched, hswitched, hafter⟩ :=
    Triple.of_ok (applyBundle_spec codec faults layout bundleDir before) rfl hrun
  have hloaded : loaded = bootMeta :=
    Option.some.inj (haccepted.persisted.symm.trans hmeta)
  rw [hloaded] at htarget hswitched hafter
  rw [slotDir_stagedDisk] at hswitched
  refine ⟨bundle.stagedDir, htarget, ?_, ?_, ?_, hswitched.bootable hesp⟩
  · rw [hafter, hversion, Disk.putMeta_bootMeta]
  · rw [hafter, Disk.putMeta_slots, hswitched.slots]
    rfl
  · rw [hafter]
    exact hswitched.loaderDefault hesp

end PertiskKos.Update
