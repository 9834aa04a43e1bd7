import PertiskKos.Update.Machine

/-!
# An upgrade that fails

`apply_bundle` writes the slot on STATE, the ESP and the metadata one after the
other and stops at the first failure.  A failed call should leave the next boot as
it was: the same slot under the same metadata.  Two files decide about that boot,
`loader.conf` and `boot-meta.json`, and neither is written atomically or rolled
back, so a failure at one of them or between them is visible to the next boot.
-/

namespace PertiskKos.Update

open PertiskKos.Fallible

theorem only_eq_some {site other : Site} {fault found : Fault}
    (h : only site fault other = some found) : site = other ∧ fault = found := by
  by_cases hsite : other = site
  · rw [only, if_pos hsite] at h
    exact ⟨hsite.symm, Option.some.inj h⟩
  · rw [only, if_neg hsite] at h
    cases h

theorem only_ne_none {site other : Site} {fault : Fault}
    (h : only site fault other ≠ none) : site = other := by
  obtain ⟨found, hfound⟩ := Option.ne_none_iff_exists'.1 h
  exact (only_eq_some hfound).1

@[simp]
theorem only_self (site : Site) (fault : Fault) : only site fault site = some fault :=
  if_pos rfl

theorem only_of_ne {site other : Site} (hne : other ≠ site) (fault : Fault) :
    only site fault other = none :=
  if_neg hne

theorem SameBoot.refl (release : String) (disk : Disk) :
    SameBoot release disk disk := ⟨rfl, rfl⟩

/-- A call that returns an error leaves the next boot as it was. -/
def AllOrNothing {A : Type} (release : String) (before : Disk) :
    EStateM.Result ApplyError Disk A → Prop
  | .ok _ _ => True
  | .error _ after => SameBoot release before after

/-- The fault hits the switch to `target` half-way: it tears `loader.conf`, tears
the metadata, or stops the save after the loader was flipped. -/
def SplitsSwitch (site : Site) (fault : Fault) (target : BootSlot) (disk : Disk) :
    Prop :=
  (site = .writeLoader ∧ fault = .torn ∧ disk.loaderDefault ≠ none) ∨
    (site = .writeMeta .record ∧ fault = .torn) ∨
    ((site = .writeMeta .record ∨ site = .makeStateRoot .record) ∧
      disk.esp.isSome = true ∧ disk.loaderDefault ≠ some target)

/-- The one fault of the environment hits a write that decides about the next boot:
the seed of the metadata, or the switch. -/
def SplitsUpgrade (codec : Codec) (bundleDir : SlotDir) (site : Site) (fault : Fault)
    (disk : Disk) : Prop :=
  ∃ bundle, verifyBundle codec bundleDir (only site fault) disk = .ok bundle disk ∧
    ((site = .writeMeta .seed ∧ fault = .torn ∧ disk.bootMeta = .absent) ∨
      ∃ bootMeta, disk.persistedMeta codec.releaseVersion = some bootMeta ∧
        (disk.esp.isSome = true → Bootable bundle.stagedDir) ∧
        SplitsSwitch site fault bootMeta.active.other disk)

section

variable {codec : Codec} {layout : SlotLayout} {bundleDir : SlotDir} {disk : Disk}
variable {bundle : VerifiedBundle} {bootMeta : BootMeta}

/-- Metadata that is still the staged one is still the old one. -/
theorem SameBoot.of_stagedDisk {release : String} (bundle : VerifiedBundle)
    (after : Disk)
    (hmeta : disk.persistedMeta release = some bootMeta)
    (hloader : after.loaderDefault = disk.loaderDefault)
    (hkept : after.bootMeta = (stagedDisk bundle bootMeta disk).bootMeta) :
    SameBoot release disk after := by
  refine ⟨hloader, ?_⟩
  rw [hmeta, Disk.persistedMeta, hkept]
  rfl

/-- A fault that does not split the upgrade leaves a failed call without effect on
the next boot. -/
theorem sameBoot_of_not_splits {site : Site} {fault : Fault} {err : ApplyError}
    {after : Disk} (hwhole : ¬ SplitsUpgrade codec bundleDir site fault disk)
    (hrun : applyBundle codec layout bundleDir (only site fault) disk =
      .error err after) :
    SameBoot codec.releaseVersion disk after := by
  have hspec := Triple.of_error
    (applyBundle_spec codec (only site fault) layout bundleDir disk) rfl hrun
  obtain hsame | ⟨bundle, hverified, habsent, htorn, _⟩ |
    ⟨bundle, bootMeta, haccepted, hstopped⟩ := hspec
  · exact hsame
  · obtain ⟨hsite, hfault⟩ := only_eq_some htorn
    exact absurd ⟨bundle, hverified, .inl ⟨hsite, hfault, habsent⟩⟩ hwhole
  have hsplit : ∀ (_ : disk.esp.isSome = true → Bootable bundle.stagedDir),
      ¬ SplitsSwitch site fault bootMeta.active.other disk :=
    fun hboot hswitch => hwhole ⟨bundle, haccepted.verified, .inr
      ⟨bootMeta, haccepted.persisted, hboot, hswitch⟩⟩
  have hkeep := SameBoot.of_stagedDisk bundle after haccepted.persisted
  obtain ⟨hesp, hkept | ⟨htorn, hboot, installed, hkept, heq⟩⟩ |
    ⟨switched, hswitched, ⟨hblame, heq⟩ | ⟨htorn, _⟩⟩ := hstopped
  · exact hkeep hkept.loaderDefault hkept.bootMeta
  · obtain ⟨hsite, hfault⟩ := only_eq_some htorn
    have hnone : disk.loaderDefault = none := by
      by_contra hsome
      exact hsplit (fun _ => hboot) (.inl ⟨hsite, hfault, hsome⟩)
    apply hkeep
    · rw [heq, loaderDefault_putLoader_damaged, hnone]
    · rw [heq, Disk.onEsp_bootMeta, hkept.bootMeta]
  · rw [slotDir_stagedDisk] at hswitched
    have hboot : disk.esp.isSome = true → Bootable bundle.stagedDir :=
      fun hesp => hswitched.bootable hesp
    have hsite : site = .writeMeta .record ∨ site = .makeStateRoot .record :=
      (hblame.imp only_ne_none fun hrefused => (only_eq_some hrefused).1).symm
    apply hkeep
    · by_cases hesp : disk.esp.isSome = true
      · rw [heq, hswitched.loaderDefault hesp]
        by_contra hother
        exact hsplit hboot (.inr (.inr ⟨hsite, hesp, fun h => hother h.symm⟩))
      · obtain ⟨_, hsame⟩ | ⟨hsome, _⟩ := hswitched
        · rw [heq, hsame]
          rfl
        · exact absurd hsome hesp
    · rw [heq, hswitched.bootMeta]
  · rw [slotDir_stagedDisk] at hswitched
    obtain ⟨hrecord, hfault⟩ := only_eq_some htorn
    exact absurd (.inr (.inl ⟨hrecord, hfault⟩))
      (hsplit fun hesp => hswitched.bootable hesp)

/-- With everything before the switch undisturbed the call reaches the switch. -/
theorem applyBundle_reaches_switch {faults : Faults Site} (layout : SlotLayout)
    (hload : QuietIn faults .load) (hstage : QuietIn faults .stage)
    (hverified : verifyBundle codec bundleDir faults disk = .ok bundle disk)
    (hmeta : disk.persistedMeta codec.releaseVersion = some bootMeta) :
    applyBundle codec layout bundleDir faults disk =
      switchOver layout bootMeta bundle.manifest.version faults
        (stagedDisk bundle bootMeta disk) := by
  have hwhole : bundle.Whole :=
    (Triple.of_ok (verifyBundle_spec codec faults bundleDir disk) rfl hverified).1
  have hloaded := load_of_quiet codec.releaseVersion hload hmeta
  obtain ⟨_, staged, hrun⟩ := stageSlot_succeeds hstage hwhole bootMeta.active.other
    (disk.putMeta (.holds bootMeta))
  have hstaged : staged = stagedDisk bundle bootMeta disk :=
    Triple.of_ok (stageSlot_spec faults bootMeta.active.other bundle _) rfl hrun
  simp only [applyBundle, bind_apply, mapErr, hverified, hloaded, hrun, hstaged]

theorem not_sameBoot_of_damaged {release : String} {after : Disk}
    (hmeta : disk.persistedMeta release = some bootMeta)
    (hdamaged : after.bootMeta = .damaged) : ¬ SameBoot release disk after := by
  intro hsame
  have hpersisted := hsame.persistedMeta
  rw [hmeta, Disk.persistedMeta, hdamaged] at hpersisted
  cases hpersisted

/-- A save that its environment disturbs stops. -/
theorem save_stops {faults : Faults Site} {phase : SavePhase}
    (hblame : faults (.makeStateRoot phase) ≠ none ∨ faults (.writeMeta phase) ≠ none)
    (saved : BootMeta) (before : Disk) :
    ∃ err after, saved.save phase faults before = .error err after ∧
      SaveStopped faults phase before after := by
  have hspec := save_spec faults phase saved before
  suffices h : ∃ err after, saved.save phase faults before = .error err after by
    obtain ⟨err, after, hrun⟩ := h
    exact ⟨err, after, hrun, Triple.of_error hspec rfl hrun⟩
  cases hroot : faults (.makeStateRoot phase) with
  | some fault =>
      cases fault <;>
        simp [BootMeta.save, guardSite, attempt, hroot]
  | none =>
      have hwrite := hblame.resolve_left fun h => h hroot
      obtain ⟨fault, hfault⟩ := Option.ne_none_iff_exists'.1 hwrite
      have hguard := guardSite_of_quiet faults before hroot (.io .failed : MetaError)
      simp only [BootMeta.save, bind_apply, hguard, write, attempt, hfault]
      cases fault with
      | refused => exact ⟨_, _, rfl⟩
      | torn => exact ⟨_, _, rfl⟩

/-- A torn seed damages the metadata. -/
theorem applyBundle_torn_seed {faults : Faults Site} (layout : SlotLayout)
    (hverified : verifyBundle codec bundleDir faults disk = .ok bundle disk)
    (habsent : disk.bootMeta = .absent)
    (hroot : faults (.makeStateRoot .seed) = none)
    (htorn : faults (.writeMeta .seed) = some .torn) :
    ∃ err, applyBundle codec layout bundleDir faults disk =
      .error err (disk.putMeta .damaged) := by
  have hsave := save_of_torn hroot htorn (BootMeta.default codec.releaseVersion) disk
  refine ⟨.bootMeta (.io .failed), ?_⟩
  simp only [applyBundle, bind_apply, mapErr, hverified, BootMeta.load, inspect_apply,
    habsent, hsave]

/-- A torn `loader.conf` leaves no default. -/
theorem switchOver_torn_loader {faults : Faults Site} (layout : SlotLayout)
    (version : String)
    (hinstall : QuietIn faults .install) (hdir : faults .makeLoaderDir = none)
    (htorn : faults .writeLoader = some .torn) (hesp : disk.esp.isSome = true)
    (hboot : Bootable (disk.slotDir bootMeta.active.other)) :
    ∃ err after, switchOver layout bootMeta version faults disk = .error err after ∧
      after.loaderDefault = none := by
  have hsucceeds :=
    installSlot_succeeds hinstall hboot bootMeta.active.other layout.cmdline
  have hkeeps := installSlot_keeps faults (disk.slotDir bootMeta.active.other)
    bootMeta.active.other layout.cmdline disk
  obtain ⟨_, installed, hrun, _⟩ := hsucceeds.ends hkeeps (LoaderKept.refl disk)
  obtain ⟨esp, hsome⟩ := Option.isSome_iff_exists.1 hesp
  have hguard :=
    guardSite_of_quiet faults installed hdir (.io .failed : BootloaderError)
  refine ⟨.bootloader (.io .failed), _, ?_, loaderDefault_putLoader_damaged installed⟩
  simp only [switchOver, activateStaged, tryActivateSlot, activateSlot,
    writeLoaderDefault, bind_apply, inspect_apply, mapErr, hsome, hrun, hguard, write,
    attempt, htorn]

/-- A record that is stopped leaves the switch behind. -/
theorem switchOver_unrecorded {faults : Faults Site} (layout : SlotLayout)
    (version : String)
    (hinstall : QuietIn faults .install) (hflip : QuietIn faults .flip)
    (hblame : faults (.makeStateRoot .record) ≠ none ∨
      faults (.writeMeta .record) ≠ none)
    (hboot : disk.esp.isSome = true →
      Bootable (disk.slotDir bootMeta.active.other)) :
    ∃ err after, switchOver layout bootMeta version faults disk = .error err after ∧
      SwitchUnrecorded faults bootMeta disk after := by
  obtain ⟨updated, switched, hactivate, hswitched⟩ :=
    activateStaged_of_quiet hinstall hflip layout bootMeta.active.other hboot
  obtain ⟨err, after, hsave, hstopped⟩ :=
    save_stops hblame (bootMeta.stage version) switched
  refine ⟨.bootMeta err, after, ?_, switched, hswitched, hstopped⟩
  simp only [switchOver, bind_apply, hactivate, mapErr, hsave]

theorem makeStateRoot_or_writeMeta {site : Site} (fault : Fault)
    (hsite : site = .writeMeta .record ∨ site = .makeStateRoot .record) :
    only site fault (.makeStateRoot .record) ≠ none ∨
      only site fault (.writeMeta .record) ≠ none := by
  obtain hsite | hsite := hsite
  · exact .inr (by rw [hsite, only_self]; exact Option.some_ne_none _)
  · exact .inl (by rw [hsite, only_self]; exact Option.some_ne_none _)

/-- A fault that splits the upgrade makes the call fail and shows in the next boot. -/
theorem not_sameBoot_of_splits (layout : SlotLayout) {site : Site} {fault : Fault}
    (hsplits : SplitsUpgrade codec bundleDir site fault disk) :
    ∃ err after, applyBundle codec layout bundleDir (only site fault) disk =
      .error err after ∧ ¬ SameBoot codec.releaseVersion disk after := by
  obtain ⟨bundle, hverified, ⟨hsite, hfault, habsent⟩ |
    ⟨bootMeta, hmeta, hboot, hswitch⟩⟩ := hsplits
  · rw [hsite, hfault] at hverified ⊢
    obtain ⟨err, hrun⟩ := applyBundle_torn_seed layout hverified habsent
      (only_of_ne (by decide) _) (only_self _ _)
    have hdefault : disk.persistedMeta codec.releaseVersion =
        some (BootMeta.default codec.releaseVersion) := by
      rw [Disk.persistedMeta, habsent]
    exact ⟨err, _, hrun, not_sameBoot_of_damaged hdefault rfl⟩
  have hstagedBoot : (stagedDisk bundle bootMeta disk).esp.isSome = true →
      Bootable ((stagedDisk bundle bootMeta disk).slotDir bootMeta.active.other) := by
    rw [slotDir_stagedDisk]
    exact hboot
  obtain ⟨hsite, hfault, hloader⟩ | hrecord := hswitch
  · have hesp : disk.esp.isSome = true := by
      obtain ⟨slot, hslot⟩ := Option.ne_none_iff_exists'.1 hloader
      exact isSome_esp_of_loaderDefault hslot
    have hstagedEsp : (stagedDisk bundle bootMeta disk).esp.isSome = true := hesp
    rw [hsite, hfault] at hverified ⊢
    have hreach := applyBundle_reaches_switch layout
      (only_quietIn (by decide) _) (only_quietIn (by decide) _) hverified hmeta
    obtain ⟨err, after, hrun, hnone⟩ := switchOver_torn_loader layout
      bundle.manifest.version (only_quietIn (by decide) _)
      (only_of_ne (by decide) _) (only_self _ _) hstagedEsp
      (hstagedBoot hesp)
    refine ⟨err, after, hreach.trans hrun, fun hsame => hloader ?_⟩
    rw [← hsame.loaderDefault, hnone]
  · have hsite : site = .writeMeta .record ∨ site = .makeStateRoot .record :=
      hrecord.elim (fun h => .inl h.1) fun h => h.1
    have hphase : site.phase = .record := by
      obtain hsite | hsite := hsite <;> rw [hsite] <;> rfl
    have hquiet : ∀ phase, phase ≠ .record → QuietIn (only site fault) phase :=
      fun phase hne => only_quietIn (by rw [hphase]; exact hne.symm) fault
    have hreach := applyBundle_reaches_switch layout
      (hquiet .load (by decide)) (hquiet .stage (by decide)) hverified hmeta
    obtain ⟨err, after, hrun, switched, hswitched, hstopped⟩ :=
      switchOver_unrecorded layout bundle.manifest.version (hquiet .install (by decide))
        (hquiet .flip (by decide)) (makeStateRoot_or_writeMeta fault hsite) hstagedBoot
    refine ⟨err, after, hreach.trans hrun, ?_⟩
    obtain ⟨hblame, heq⟩ | ⟨_, heq⟩ := hstopped
    · obtain ⟨hwrite, htorn⟩ | ⟨_, hesp, hother⟩ := hrecord
      · rw [hwrite, htorn] at hblame
        obtain hroot | hrefused := hblame
        · exact absurd (only_ne_none hroot) (by decide)
        · exact absurd (only_eq_some hrefused).2 (by decide)
      · intro hsame
        rw [slotDir_stagedDisk] at hswitched
        apply hother
        rw [← hsame.loaderDefault, heq, hswitched.loaderDefault hesp]
    · exact not_sameBoot_of_damaged hmeta (by rw [heq]; rfl)

/-- With one fault in the environment, `apply_bundle` is all or nothing for the next
boot exactly when the fault does not split the upgrade. -/
theorem apply_bundle_all_or_nothing_iff (codec : Codec) (layout : SlotLayout)
    (bundleDir : SlotDir) (site : Site) (fault : Fault) (disk : Disk) :
    AllOrNothing codec.releaseVersion disk
        (applyBundle codec layout bundleDir (only site fault) disk) ↔
      ¬ SplitsUpgrade codec bundleDir site fault disk := by
  constructor
  · intro hwhole hsplits
    obtain ⟨err, after, hrun, hchanged⟩ := not_sameBoot_of_splits layout hsplits
    rw [hrun] at hwhole
    exact hchanged hwhole
  · intro hwhole
    cases hrun : applyBundle codec layout bundleDir (only site fault) disk with
    | ok result after => trivial
    | error err after => exact sameBoot_of_not_splits hwhole hrun

/-- The save of the metadata fails after the loader was flipped. -/
theorem apply_bundle_half_done :
    ¬ AllOrNothing "0.1.0" labDisk
      (applyBundle labCodec .new (labBundle 2) (only (.writeMeta .record) .refused)
        labDisk) := by
  intro hwhole
  have hdefault : labDisk.loaderDefault = some .A := by decide
  have hflipped : ∃ err after, applyBundle labCodec .new (labBundle 2)
      (only (.writeMeta .record) .refused) labDisk = .error err after ∧
      after.loaderDefault = some .B := ⟨_, _, rfl, by decide⟩
  obtain ⟨err, after, hrun, hloader⟩ := hflipped
  rw [hrun] at hwhole
  have hsame := hwhole.loaderDefault
  rw [hloader, hdefault] at hsame
  exact absurd hsame (by decide)

end

end PertiskKos.Update
