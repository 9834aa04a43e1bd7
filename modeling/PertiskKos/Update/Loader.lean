import PertiskKos.Update.Machine

/-!
# The loader default, the metadata and the slot that runs

The slot to boot next is stored twice: `loader.conf` names it on the ESP and `next`
names it on STATE.  The slot that runs is stored as `active`.  A rollback rewrites
the metadata in any case but flips the loader only if STATE has a kernel for the
slot, and a boot that finds `bootOk` does not save the switch it makes.
-/

namespace PertiskKos.Update

open PertiskKos.Fallible
open PertiskKos.Runs

namespace Book

variable {book : Book}

/-- The loader default is the slot that the metadata boots next. -/
def LoaderAgrees (book : Book) : Prop := book.loader = book.bootMeta.next

instance : DecidablePred LoaderAgrees := fun book =>
  inferInstanceAs (Decidable (book.loader = book.bootMeta.next))

/-- A boot that rolls back finds a kernel on STATE for the slot it returns to. -/
def RollbackHasKernel (book : Book) : Op → Prop
  | .reboot =>
      book.bootMeta.Exhausted → book.kernel book.bootMeta.previousGood = true
  | .apply _ => True
  | .markGood => True

instance (book : Book) (op : Op) : Decidable (book.RollbackHasKernel op) :=
  match op with
  | .reboot => inferInstanceAs (Decidable (_ → _))
  | .apply _ => isTrue trivial
  | .markGood => isTrue trivial

theorem reboot_loader_of_last (hlast : book.bootMeta.Exhausted) :
    book.reboot.loader =
      if book.kernel book.bootMeta.previousGood = true then
        book.bootMeta.previousGood
      else book.loader := by
  simp only [reboot, FlipsBack, hlast, true_and]

theorem reboot_next_of_last (hlast : book.bootMeta.Exhausted) :
    book.reboot.bootMeta.next = book.bootMeta.previousGood := by
  have hmeta : book.reboot.bootMeta = book.bootMeta.activatePending.rolledBack :=
    BootMeta.recorded_of_last hlast
  rw [hmeta]
  exact BootMeta.activatePending_previousGood _

/-- A boot that does not roll back leaves `next` as it is. -/
theorem reboot_next_of_more (hmore : ¬ book.bootMeta.Exhausted) :
    book.reboot.bootMeta.next = book.bootMeta.next := by
  by_cases hok : book.bootMeta.bootOk = true
  · have hmeta : book.reboot.bootMeta = book.bootMeta := BootMeta.recorded_of_ok hok
    rw [hmeta]
  · have hmeta : book.reboot.bootMeta = book.bootMeta.activatePending.countAttempt :=
      BootMeta.recorded_of_more (Bool.eq_false_iff.2 hok) hmore
    rw [hmeta]
    exact BootMeta.activatePending_next _

theorem LoaderAgrees.next (hagrees : book.LoaderAgrees) {op : Op} {after : Book}
    (hguard : book.RollbackHasKernel op) (hnext : book.Next op after) :
    after.LoaderAgrees := by
  cases op with
  | apply bundleDir =>
      obtain ⟨version, kernel, heq⟩ := hnext
      rw [heq]
      exact rfl
  | markGood =>
      rw [hnext]
      exact hagrees
  | reboot =>
      rw [hnext, LoaderAgrees]
      by_cases hlast : book.bootMeta.Exhausted
      · rw [reboot_loader_of_last hlast, reboot_next_of_last hlast,
          if_pos (hguard hlast)]
      · rw [reboot_loader_of_more hlast, reboot_next_of_more hlast]
        exact hagrees

/-- A rollback without a kernel on STATE leaves the loader on the failed slot. -/
theorem not_loaderAgrees (hsound : book.Sound) {op : Op} {after : Book}
    (hguard : ¬ book.RollbackHasKernel op) (hnext : book.Next op after) :
    ¬ after.LoaderAgrees := by
  cases op with
  | apply bundleDir => exact absurd trivial hguard
  | markGood => exact absurd trivial hguard
  | reboot =>
      obtain ⟨hlast, hmissing⟩ := Classical.not_imp.1 hguard
      have htrial := hsound.trial hlast.1
      rw [hnext, LoaderAgrees, reboot_loader_of_last hlast,
        reboot_next_of_last hlast, if_neg hmissing, htrial.loader]
      exact htrial.previousGood.symm

/-- An upgrade leaves the running slot alone. -/
def SparesRunning (book : Book) : Op → Prop
  | .apply _ => book.bootMeta.active.other ≠ book.history.running
  | .markGood => True
  | .reboot => True

/-- The boot that the machine runs since found the loader in agreement with the
metadata, dropped no switch and did not roll back. -/
def CleanBoot (history : History) : Prop :=
  history.found.next = history.running ∧
    (history.found.bootOk = true → history.found.next = history.found.active) ∧
    ¬ history.found.Exhausted

/-- Upgrades are issued after a clean boot only. -/
def UpgradesAfterCleanBoot (book : Book) : Op → Prop
  | .apply _ => CleanBoot book.history
  | .markGood => True
  | .reboot => True

instance (book : Book) (op : Op) : Decidable (book.SparesRunning op) :=
  match op with
  | .apply _ => inferInstanceAs (Decidable (_ ≠ _))
  | .markGood => isTrue trivial
  | .reboot => isTrue trivial

instance (book : Book) (op : Op) : Decidable (book.UpgradesAfterCleanBoot op) :=
  match op with
  | .apply _ => inferInstanceAs (Decidable (_ ∧ _ ∧ _))
  | .markGood => isTrue trivial
  | .reboot => isTrue trivial

/-- `active` is the slot that runs exactly after a clean boot. -/
def Tracked (book : Book) : Prop :=
  CleanBoot book.history ↔ book.bootMeta.active = book.history.running

theorem tracked_fresh (release : String) (kernel : BootSlot → Bool) :
    (fresh release kernel).Tracked :=
  ⟨fun _ => rfl,
    fun _ => ⟨rfl, fun _ => rfl, BootMeta.not_exhausted_of_ok rfl⟩⟩

theorem tracked_reboot (hsound : book.Sound) : book.reboot.Tracked := by
  have hfound : CleanBoot book.reboot.history ↔
      book.bootMeta.next = book.loader ∧
        (book.bootMeta.bootOk = true →
          book.bootMeta.next = book.bootMeta.active) ∧
        ¬ book.bootMeta.Exhausted := Iff.rfl
  have hrunning : book.reboot.history.running = book.loader := rfl
  rw [Tracked, hfound, hrunning]
  by_cases hok : book.bootMeta.bootOk = true
  · have hmeta : book.reboot.bootMeta = book.bootMeta := BootMeta.recorded_of_ok hok
    have hmore := BootMeta.not_exhausted_of_ok hok
    rw [hmeta]
    constructor
    · intro hclean
      rw [← hclean.2.1 hok]
      exact hclean.1
    · intro hactive
      have hsame : book.bootMeta.next = book.bootMeta.active := by
        obtain hloader | hsettled := hsound.settled
        · rw [hactive, hloader]
        · exact hsettled.2
      exact ⟨hsame.trans hactive, fun _ => hsame, hmore⟩
  have hfalse : book.bootMeta.bootOk = false := Bool.eq_false_iff.2 hok
  have htrial := hsound.trial hfalse
  by_cases hlast : book.bootMeta.Exhausted
  · have hmeta : book.reboot.bootMeta = book.bootMeta.activatePending.rolledBack :=
      BootMeta.recorded_of_last hlast
    constructor
    · exact fun hclean => absurd hlast hclean.2.2
    · intro hactive
      rw [hmeta, htrial.loader] at hactive
      have hprevious :=
        (BootMeta.activatePending_previousGood book.bootMeta).symm.trans hactive
      exact absurd hprevious htrial.previousGood
  · have hmeta : book.reboot.bootMeta = book.bootMeta.activatePending.countAttempt :=
      BootMeta.recorded_of_more hfalse hlast
    constructor
    · intro hclean
      rw [hmeta, ← hclean.1]
      exact BootMeta.activatePending_active _
    · exact fun _ => ⟨htrial.loader.symm, fun h => absurd h hok, hlast⟩

theorem Tracked.next (hsound : book.Sound) (htracked : book.Tracked) {op : Op}
    {after : Book} (hnext : book.Next op after) : after.Tracked := by
  cases op with
  | apply bundleDir =>
      obtain ⟨version, kernel, heq⟩ := hnext
      rw [heq]
      exact htracked
  | markGood =>
      rw [hnext]
      exact htracked
  | reboot =>
      rw [hnext]
      exact tracked_reboot hsound

theorem sparesRunning_iff (htracked : book.Tracked) (op : Op) :
    book.SparesRunning op ↔ book.UpgradesAfterCleanBoot op := by
  cases op with
  | apply bundleDir =>
      have htracks : CleanBoot book.history ↔
          book.bootMeta.active = book.history.running := htracked
      rw [SparesRunning, UpgradesAfterCleanBoot, htracks]
      constructor
      · intro hne
        have hother := BootSlot.eq_other_of_ne hne.symm
        rw [hother, BootSlot.other_other]
      · intro hactive
        rw [← hactive]
        exact BootSlot.other_ne _
  | markGood => exact Iff.rfl
  | reboot => exact Iff.rfl

end Book

section Machine

variable {codec : Codec} {layout : SlotLayout} {disk : Disk}

/-- From an ESP seeded by `bootstrap_esp`, the loader default and `next` agree
throughout a run exactly when every boot of the run that rolls back finds a kernel
on STATE for the slot it returns to. -/
theorem loader_agrees_iff {blank : Disk} {assets : BootAssets}
    (hmeta : blank.persistedMeta codec.releaseVersion =
      some (BootMeta.default codec.releaseVersion))
    (husable : blank.Usable) (hesp : blank.esp.isSome = true)
    (hbootstrap : bootstrapEsp assets calm blank = .ok () disk)
    {ops : List Op} {final : Machine}
    (hrun : run (step codec layout) (Machine.fresh codec disk) ops = some final) :
    Throughout (step codec layout) (Sees codec Book.LoaderAgrees)
        (Machine.fresh codec disk) ops ↔
      Guarded (step codec layout) (Permits codec Book.RollbackHasKernel)
        (Machine.fresh codec disk) ops := by
  have hfresh := Fresh.of_bootstrapEsp hmeta husable hesp hbootstrap
  apply throughout_iff_permits Book.LoaderAgrees _ _ _ _ hfresh hrun
  · exact fun _ _ hagrees => hagrees
  · exact fun _ _ _ _ hagrees hguard hnext => hagrees.next hguard hnext
  · exact fun _ _ _ hsound _ hguard hnext =>
      Book.not_loaderAgrees hsound hguard hnext
  · exact fun _ => rfl

theorem loader_agrees_lab :
    Throughout (step labCodec .new) (Sees labCodec Book.LoaderAgrees)
      (Machine.fresh labCodec labDisk)
      [.apply (labBundle 2), .reboot, .markGood, .apply (labBundle 3), .reboot,
        .markGood, .apply (labBundle 2), .reboot, .reboot, .reboot] := by
  have hsome : (labRun [.apply (labBundle 2), .reboot, .markGood,
      .apply (labBundle 3), .reboot, .markGood, .apply (labBundle 2), .reboot,
      .reboot, .reboot]).isSome = true := by decide
  obtain ⟨final, hrun⟩ := Option.isSome_iff_exists.1 hsome
  exact (loader_agrees_iff rfl labBlank_usable rfl labDisk_installed hrun).2
    (by decide)

/-- The factory slot has no directory on STATE, so the first rollback leaves the
loader on the failed slot. -/
theorem loader_stays_on_failed_slot :
    bootstrapEsp labAssets calm labBlank = .ok () labDisk ∧
      ∃ final ∈ labRun [.apply (labBundle 2), .reboot, .reboot, .reboot],
        ¬ Sees labCodec Book.LoaderAgrees final := by
  refine ⟨labDisk_installed, ?_⟩
  decide

/-- The upgrades of a run from the factory image all leave the running slot alone
exactly when each of them is issued after a clean boot. -/
theorem upgrades_spare_running_iff (hfresh : Fresh codec disk) (ops : List Op) :
    Guarded (step codec layout) (Permits codec Book.SparesRunning)
        (Machine.fresh codec disk) ops ↔
      Guarded (step codec layout) (Permits codec Book.UpgradesAfterCleanBoot)
        (Machine.fresh codec disk) ops := by
  apply guarded_iff_guarded (Machine.Holds codec Book.Tracked)
  · intro machine op hholds
    obtain ⟨book, hshows, _, htracked⟩ := hholds
    rw [hshows.permits, hshows.permits]
    exact Book.sparesRunning_iff htracked op
  · intro machine op next hholds hstep
    obtain ⟨book, hshows, hsound, htracked⟩ := hholds
    obtain ⟨after, hnext, hafter⟩ := step_book hshows hstep
    exact ⟨after, hafter, hsound.next hnext, Book.Tracked.next hsound htracked hnext⟩
  · exact hfresh.holds fun kernel => Book.tracked_fresh _ kernel

theorem upgrades_spare_running_lab :
    Guarded (step labCodec .new) (Permits labCodec Book.SparesRunning)
      (Machine.fresh labCodec labDisk)
      [.apply (labBundle 2), .reboot, .markGood, .apply (labBundle 3)] :=
  (upgrades_spare_running_iff labDisk_fresh _).2 (by decide)

/-- A confirmation before the first boot makes the boot drop the switch, and the
next upgrade goes to the slot that runs. -/
theorem upgrade_overwrites_running :
    Fresh labCodec labDisk ∧
      ∃ machine ∈ labRun [.apply (labBundle 2), .markGood, .reboot],
        ¬ Permits labCodec Book.SparesRunning machine (.apply (labBundle 3)) ∧
          (step labCodec .new machine (.apply (labBundle 3))).isSome = true := by
  refine ⟨labDisk_fresh, ?_⟩
  decide

end Machine

end PertiskKos.Update
