import PertiskKos.Update.Machine

/-!
# The image that a rollback returns to

`previous_good` should name a slot whose image is known to work: the factory image
or one that was confirmed while it was running.  `apply_bundle` records the active
slot as `previous_good` without asking whether the image in it was ever confirmed,
so an upgrade that is issued while another one is on trial loses the good image.
-/

namespace PertiskKos.Update

open PertiskKos.Fallible
open PertiskKos.Runs

namespace History

variable {history : History} {slot : BootSlot}

/-- The slot holds the factory image or a confirmed one. -/
def HoldsGood (history : History) (slot : BootSlot) : Prop :=
  ∃ image ∈ history.image slot, image.Good

theorem HoldsGood.stage (hgood : history.HoldsGood slot) {target : BootSlot}
    (hother : slot ≠ target) (version : String) :
    (history.stage target version).HoldsGood slot := by
  obtain ⟨image, himage, hkeep⟩ := hgood
  refine ⟨image, ?_, hkeep⟩
  rw [history.stage_image_of_ne hother]
  exact himage

theorem HoldsGood.confirm (hgood : history.HoldsGood slot) :
    history.confirm.HoldsGood slot :=
  exists_confirm (fun image _ => by cases image <;> trivial) hgood

theorem HoldsGood.boot (hgood : history.HoldsGood slot) (found : BootMeta)
    (running : BootSlot) : (history.boot found running).HoldsGood slot :=
  exists_boot (fun image hkeep => by cases image <;> exact hkeep) hgood found running

/-- Confirming an image that runs undisturbed makes its slot good. -/
theorem holdsGood_confirm {image : Image} (hrunning : history.running = slot)
    (hintact : history.intact = true) (himage : history.image slot = some image) :
    history.confirm.HoldsGood slot := by
  refine ⟨image.confirm, ?_, ?_⟩
  · rw [Option.mem_def, confirm_image, if_pos ⟨hintact, hrunning.symm⟩, himage, Option.map_some]
  · cases image <;> trivial

end History

namespace Book

variable {book : Book}

/-- The slot a rollback returns to holds a good image. -/
def RollbackTargetGood (book : Book) : Prop :=
  book.history.HoldsGood book.bootMeta.previousGood

instance : DecidablePred RollbackTargetGood := fun book =>
  inferInstanceAs (Decidable
    (∃ image ∈ book.history.image book.bootMeta.previousGood, image.Good))

/-- No upgrade is issued while the active slot is on trial. -/
def NoUpgradeOnTrial (book : Book) : Op → Prop
  | .apply _ =>
      book.bootMeta.bootOk = true ∨ book.bootMeta.next ≠ book.bootMeta.active
  | .markGood => True
  | .reboot => True

instance (book : Book) (op : Op) : Decidable (book.NoUpgradeOnTrial op) :=
  match op with
  | .apply _ => inferInstanceAs (Decidable (_ ∨ _))
  | .markGood => isTrue trivial
  | .reboot => isTrue trivial

/-- Both slots that matter hold good images. -/
structure Kept (book : Book) : Prop where
  previousGood : book.RollbackTargetGood
  active : book.bootMeta.bootOk = true ∨ book.bootMeta.next ≠ book.bootMeta.active →
    book.history.HoldsGood book.bootMeta.active

theorem kept_fresh (release : String) (kernel : BootSlot → Bool) :
    (fresh release kernel).Kept := by
  have hgood : (fresh release kernel).history.HoldsGood .A :=
    ⟨.factory, rfl, trivial⟩
  exact ⟨hgood, fun _ => hgood⟩

theorem Kept.apply (hkept : book.Kept) {bundleDir : SlotDir}
    (hguard : book.NoUpgradeOnTrial (.apply bundleDir)) (version : String)
    (kernel : Bool) : (book.apply version kernel).Kept := by
  have hactive := (hkept.active hguard).stage (BootSlot.ne_other _) version
  exact ⟨hactive, fun _ => hactive⟩

theorem Kept.markGood (hsound : book.Sound) (hkept : book.Kept) :
    book.markGood.Kept := by
  have hactive : book.history.confirm.HoldsGood book.bootMeta.active := by
    by_cases hopen : book.bootMeta.bootOk = true ∨
        book.bootMeta.next ≠ book.bootMeta.active
    · exact (hkept.active hopen).confirm
    · -- the active slot is on trial, so this call confirms the image in it
      obtain ⟨hok, hsame⟩ := not_or.1 hopen
      have hnext := not_not.1 hsame
      have htrial := hsound.trial (Bool.eq_false_iff.2 hok)
      obtain ⟨hrunning, hintact⟩ := htrial.running hnext
      obtain ⟨version, outlived, himage, _⟩ := htrial.image
      rw [hnext] at hrunning himage
      exact History.holdsGood_confirm hrunning hintact himage
  exact ⟨hactive, fun _ => hactive⟩

theorem Kept.reboot (hkept : book.Kept) : book.reboot.Kept := by
  have hprevious : book.reboot.history.HoldsGood book.bootMeta.previousGood :=
    hkept.previousGood.boot _ _
  by_cases hok : book.bootMeta.bootOk = true
  · have hmeta : book.reboot.bootMeta = book.bootMeta := BootMeta.recorded_of_ok hok
    refine ⟨?_, fun _ => ?_⟩
    · rw [RollbackTargetGood, hmeta]
      exact hprevious
    · rw [hmeta]
      exact (hkept.active (.inl hok)).boot _ _
  have htrial : book.bootMeta.bootOk = false := Bool.eq_false_iff.2 hok
  by_cases hlast : book.bootMeta.Exhausted
  · have hmeta : book.reboot.bootMeta = book.bootMeta.activatePending.rolledBack :=
      BootMeta.recorded_of_last hlast
    have htarget : book.reboot.history.HoldsGood
        book.bootMeta.activatePending.previousGood := by
      rw [BootMeta.activatePending_previousGood]
      exact hprevious
    refine ⟨?_, fun _ => ?_⟩
    · rw [RollbackTargetGood, hmeta]
      exact htarget
    · rw [hmeta]
      exact htarget
  · have hmeta : book.reboot.bootMeta = book.bootMeta.activatePending.countAttempt :=
      BootMeta.recorded_of_more htrial hlast
    constructor
    · rw [RollbackTargetGood, hmeta, BootMeta.countAttempt,
        BootMeta.activatePending_previousGood]
      exact hprevious
    · intro hopen
      rw [hmeta, BootMeta.countAttempt, BootMeta.activatePending_bootOk, htrial,
        BootMeta.activatePending_next, BootMeta.activatePending_active] at hopen
      exact absurd rfl (hopen.resolve_left Bool.false_ne_true)

theorem Kept.next (hsound : book.Sound) (hkept : book.Kept) {op : Op} {after : Book}
    (hguard : book.NoUpgradeOnTrial op) (hnext : book.Next op after) :
    after.Kept := by
  cases op with
  | apply bundleDir =>
      obtain ⟨version, kernel, heq⟩ := hnext
      rw [heq]
      exact hkept.apply hguard version kernel
  | markGood =>
      rw [hnext]
      exact Kept.markGood hsound hkept
  | reboot =>
      rw [hnext]
      exact hkept.reboot

/-- An upgrade issued while the active slot is on trial loses the good image. -/
theorem not_rollbackTargetGood (hsound : book.Sound) {op : Op} {after : Book}
    (hguard : ¬ book.NoUpgradeOnTrial op) (hnext : book.Next op after) :
    ¬ after.RollbackTargetGood := by
  cases op with
  | apply bundleDir =>
      obtain ⟨version, kernel, heq⟩ := hnext
      obtain ⟨hok, hsame⟩ := not_or.1 hguard
      have htrial := hsound.trial (Bool.eq_false_iff.2 hok)
      obtain ⟨staged, outlived, himage, _⟩ := htrial.image
      rw [not_not.1 hsame] at himage
      have hafter : (book.apply version kernel).history.image book.bootMeta.active =
          some (.staged staged false outlived) := by
        rw [← himage]
        exact History.stage_image_of_ne _ (BootSlot.ne_other _) _
      intro hgood
      rw [heq] at hgood
      obtain ⟨image, hmem, hbad⟩ := hgood
      have hsome := Option.some.inj (hafter.symm.trans hmem)
      rw [← hsome] at hbad
      exact Bool.false_ne_true hbad
  | markGood => exact absurd trivial hguard
  | reboot => exact absurd trivial hguard

end Book

/-- The rollback target stays good throughout a run from the factory image exactly
when no upgrade of the run is issued while the active slot is on trial. -/
theorem rollback_target_good_iff {codec : Codec} {layout : SlotLayout} {disk : Disk}
    (hfresh : Fresh codec disk) {ops : List Op} {final : Machine}
    (hrun : run (step codec layout) (Machine.fresh codec disk) ops = some final) :
    Throughout (step codec layout) (Sees codec Book.RollbackTargetGood)
        (Machine.fresh codec disk) ops ↔
      Guarded (step codec layout) (Permits codec Book.NoUpgradeOnTrial)
        (Machine.fresh codec disk) ops := by
  apply throughout_iff_permits Book.Kept _ _ _ _ hfresh hrun
  · exact fun book _ hkept => hkept.previousGood
  · exact fun book op after hsound hkept hguard hnext =>
      Book.Kept.next hsound hkept hguard hnext
  · exact fun book op after hsound _ hguard hnext =>
      Book.not_rollbackTargetGood hsound hguard hnext
  · exact fun kernel => Book.kept_fresh _ kernel

theorem rollback_target_good_lab :
    Throughout (step labCodec .new) (Sees labCodec Book.RollbackTargetGood)
      (Machine.fresh labCodec labDisk)
      [.apply (labBundle 2), .reboot, .markGood, .apply (labBundle 3)] := by
  have hsome : (labRun [.apply (labBundle 2), .reboot, .markGood,
      .apply (labBundle 3)]).isSome = true := by decide
  obtain ⟨final, hrun⟩ := Option.isSome_iff_exists.1 hsome
  exact (rollback_target_good_iff labDisk_fresh hrun).2 (by decide)

/-- The second upgrade overwrites the factory image and makes the unconfirmed first
upgrade the slot a rollback returns to. -/
theorem rollback_target_lost :
    Fresh labCodec labDisk ∧
      ∃ final ∈ labRun [.apply (labBundle 2), .reboot, .apply (labBundle 3)],
        ¬ Sees labCodec Book.RollbackTargetGood final := by
  refine ⟨labDisk_fresh, ?_⟩
  decide

end PertiskKos.Update
