import PertiskKos.Update.Machine

/-!
# The version that is reported

`active_version` is reported as the version of the image in the active slot.  A
switch moves the pending version into it.  A rollback moves `active` back to
`previous_good` and leaves `active_version` at the version of the failed image.
-/

namespace PertiskKos.Update

open PertiskKos.Fallible
open PertiskKos.Runs

namespace History

variable {history : History} {slot : BootSlot} {release version : String}

/-- The slot holds an image of this version. -/
def HoldsVersion (history : History) (release : String) (slot : BootSlot)
    (version : String) : Prop :=
  ∃ image ∈ history.image slot, image.version release = version

theorem HoldsVersion.stage (hholds : history.HoldsVersion release slot version)
    {target : BootSlot} (hother : slot ≠ target) (staged : String) :
    (history.stage target staged).HoldsVersion release slot version := by
  rw [HoldsVersion, history.stage_image_of_ne hother]
  exact hholds

theorem HoldsVersion.confirm (hholds : history.HoldsVersion release slot version) :
    history.confirm.HoldsVersion release slot version :=
  exists_confirm (fun image hversion => by cases image <;> exact hversion) hholds

theorem HoldsVersion.boot (hholds : history.HoldsVersion release slot version)
    (found : BootMeta) (running : BootSlot) :
    (history.boot found running).HoldsVersion release slot version :=
  exists_boot (fun image hversion => by cases image <;> exact hversion) hholds found running

end History

namespace Book

variable {book : Book} {release : String}

/-- `active_version` is the version of the image in the active slot. -/
def VersionReported (release : String) (book : Book) : Prop :=
  ∃ version ∈ book.bootMeta.activeVersion,
    book.history.HoldsVersion release book.bootMeta.active version

instance : DecidablePred (VersionReported release) := fun book =>
  inferInstanceAs (Decidable (∃ version ∈ book.bootMeta.activeVersion,
    ∃ image ∈ book.history.image book.bootMeta.active,
      image.version release = version))

/-- A boot that rolls back returns to an image of the version that is reported
before it. -/
def RollbackKeepsVersion (release : String) (book : Book) : Op → Prop
  | .reboot => book.bootMeta.Exhausted →
      ∃ version ∈ book.bootMeta.activeVersion,
        book.history.HoldsVersion release book.bootMeta.previousGood version
  | .apply _ => True
  | .markGood => True

instance (book : Book) (op : Op) : Decidable (book.RollbackKeepsVersion release op) :=
  match op with
  | .reboot => inferInstanceAs (Decidable (book.bootMeta.Exhausted →
      ∃ version ∈ book.bootMeta.activeVersion,
        ∃ image ∈ book.history.image book.bootMeta.previousGood,
          image.version release = version))
  | .apply _ => isTrue trivial
  | .markGood => isTrue trivial

theorem versionReported_fresh (release : String) (kernel : BootSlot → Bool) :
    (fresh release kernel).VersionReported release :=
  ⟨release, rfl, .factory, rfl, rfl⟩

/-- By the time a trial is exhausted its slot is active. -/
theorem Sound.next_eq_active_of_last (hsound : book.Sound)
    (hlast : book.bootMeta.Exhausted) :
    book.bootMeta.next = book.bootMeta.active := by
  by_contra hne
  have hattempts := (hsound.trial hlast.1).attempts hne
  have hle := hlast.2
  rw [hattempts] at hle
  exact absurd hle (by decide)

/-- What a rolled back boot reports: the version from before it. -/
theorem reboot_activeVersion_of_last (hsound : book.Sound)
    (hlast : book.bootMeta.Exhausted) :
    book.reboot.bootMeta.activeVersion = book.bootMeta.activeVersion ∧
      book.reboot.bootMeta.active = book.bootMeta.previousGood := by
  have hmeta : book.reboot.bootMeta = book.bootMeta.activatePending.rolledBack :=
    BootMeta.recorded_of_last hlast
  have hsame : ¬ book.bootMeta.next ≠ book.bootMeta.active :=
    not_not.2 (hsound.next_eq_active_of_last hlast)
  rw [hmeta, BootMeta.activatePending, if_neg hsame]
  exact ⟨rfl, rfl⟩

theorem VersionReported.apply (hreported : book.VersionReported release)
    (version : String) (kernel : Bool) :
    (book.apply version kernel).VersionReported release := by
  obtain ⟨active, hactive, hholds⟩ := hreported
  exact ⟨active, hactive, hholds.stage (BootSlot.ne_other _) version⟩

theorem VersionReported.markGood (hreported : book.VersionReported release) :
    book.markGood.VersionReported release := by
  obtain ⟨active, hactive, hholds⟩ := hreported
  exact ⟨active, hactive, hholds.confirm⟩

theorem VersionReported.reboot (hsound : book.Sound)
    (hreported : book.VersionReported release)
    (hguard : book.RollbackKeepsVersion release .reboot) :
    book.reboot.VersionReported release := by
  obtain ⟨active, hactive, hholds⟩ := hreported
  by_cases hok : book.bootMeta.bootOk = true
  · have hmeta : book.reboot.bootMeta = book.bootMeta := BootMeta.recorded_of_ok hok
    rw [VersionReported, hmeta]
    exact ⟨active, hactive, hholds.boot _ _⟩
  have htrial : book.bootMeta.bootOk = false := Bool.eq_false_iff.2 hok
  by_cases hlast : book.bootMeta.Exhausted
  · obtain ⟨version, hversion, hprevious⟩ := hguard hlast
    obtain ⟨hsame, htarget⟩ := reboot_activeVersion_of_last hsound hlast
    rw [VersionReported, hsame, htarget]
    exact ⟨version, hversion, hprevious.boot _ _⟩
  · have hmeta : book.reboot.bootMeta = book.bootMeta.activatePending.countAttempt :=
      BootMeta.recorded_of_more htrial hlast
    rw [VersionReported, hmeta, BootMeta.countAttempt, BootMeta.activatePending_active]
    by_cases hswitch : book.bootMeta.next ≠ book.bootMeta.active
    · -- the switch takes the pending version, which was staged into the slot
      obtain ⟨version, outlived, himage, hpending⟩ := (hsound.trial htrial).image
      refine ⟨version, ?_, ?_⟩
      · rw [BootMeta.activatePending, if_pos hswitch, hpending hswitch]
        rfl
      · have hstaged : book.history.HoldsVersion release book.bootMeta.next version :=
          ⟨_, himage, rfl⟩
        exact hstaged.boot _ _
    · rw [BootMeta.activatePending, if_neg hswitch, not_not.1 hswitch]
      exact ⟨active, hactive, hholds.boot _ _⟩

theorem VersionReported.next (hsound : book.Sound)
    (hreported : book.VersionReported release) {op : Op} {after : Book}
    (hguard : book.RollbackKeepsVersion release op) (hnext : book.Next op after) :
    after.VersionReported release := by
  cases op with
  | apply bundleDir =>
      obtain ⟨version, kernel, heq⟩ := hnext
      rw [heq]
      exact hreported.apply version kernel
  | markGood =>
      rw [hnext]
      exact hreported.markGood
  | reboot =>
      rw [hnext]
      exact VersionReported.reboot hsound hreported hguard

/-- A rollback to an image of another version misreports it. -/
theorem not_versionReported (hsound : book.Sound) {op : Op} {after : Book}
    (hguard : ¬ book.RollbackKeepsVersion release op) (hnext : book.Next op after) :
    ¬ after.VersionReported release := by
  cases op with
  | apply bundleDir => exact absurd trivial hguard
  | markGood => exact absurd trivial hguard
  | reboot =>
      obtain ⟨hlast, hother⟩ := Classical.not_imp.1 hguard
      obtain ⟨hsame, htarget⟩ := reboot_activeVersion_of_last hsound hlast
      intro hreported
      rw [hnext, VersionReported, hsame, htarget] at hreported
      obtain ⟨version, hversion, aged, haged, hagedVersion⟩ := hreported
      rw [Option.mem_def, reboot_image_of_last hlast, Option.map_eq_some_iff] at haged
      obtain ⟨image, himage, houtlive⟩ := haged
      refine hother ⟨version, hversion, image, himage, ?_⟩
      rw [← hagedVersion, ← houtlive]
      cases image <;> rfl

end Book

section Machine

variable {codec : Codec} {layout : SlotLayout} {disk : Disk}

/-- The version of the active slot is reported throughout a run from the factory
image exactly when every boot of the run that rolls back returns to an image of the
version reported before it. -/
theorem version_reported_iff (hfresh : Fresh codec disk) {ops : List Op}
    {final : Machine}
    (hrun : run (step codec layout) (Machine.fresh codec disk) ops = some final) :
    Throughout (step codec layout)
        (Sees codec (Book.VersionReported codec.releaseVersion))
        (Machine.fresh codec disk) ops ↔
      Guarded (step codec layout)
        (Permits codec (Book.RollbackKeepsVersion codec.releaseVersion))
        (Machine.fresh codec disk) ops := by
  apply throughout_iff_permits (Book.VersionReported codec.releaseVersion) _ _ _ _
    hfresh hrun
  · exact fun _ _ hreported => hreported
  · exact fun _ _ _ hsound hreported hguard hnext =>
      Book.VersionReported.next hsound hreported hguard hnext
  · exact fun _ _ _ hsound _ hguard hnext =>
      Book.not_versionReported hsound hguard hnext
  · exact fun kernel => Book.versionReported_fresh _ kernel

theorem version_reported_lab :
    Throughout (step labCodec .new) (Sees labCodec (Book.VersionReported "0.1.0"))
      (Machine.fresh labCodec labDisk)
      [.apply (labBundle 2), .reboot, .markGood, .apply (labBundle 3), .reboot] := by
  have hsome : (labRun [.apply (labBundle 2), .reboot, .markGood,
      .apply (labBundle 3), .reboot]).isSome = true := by decide
  obtain ⟨final, hrun⟩ := Option.isSome_iff_exists.1 hsome
  exact (version_reported_iff labDisk_fresh hrun).2 (by decide)

/-- After the rollback to the factory image the failed version is reported. -/
theorem version_misreported :
    Fresh labCodec labDisk ∧
      ∃ final ∈ labRun [.apply (labBundle 2), .reboot, .reboot, .reboot],
        ¬ Sees labCodec (Book.VersionReported "0.1.0") final := by
  refine ⟨labDisk_fresh, ?_⟩
  decide

end Machine

end PertiskKos.Update
