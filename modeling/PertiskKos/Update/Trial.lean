import PertiskKos.Update.Machine

/-!
# The trial of an upgraded image

An image that was staged and not yet confirmed runs on trial: `bootOk` is false, so
every boot of it is counted, and the boot that uses up the last attempt rolls back.
The rollback itself sets `bootOk` again while the image still runs.  A confirmation
that comes in before the first boot of the image ends the trial before it starts.
-/

namespace PertiskKos.Update

open PertiskKos.Fallible
open PertiskKos.Runs

namespace History

variable {history : History} {slot : BootSlot}

/-- The slot holds an image on trial. -/
def OnTrialAt (history : History) (slot : BootSlot) : Prop :=
  ∃ image ∈ history.image slot, image.OnTrial

theorem OnTrialAt.of_confirm (htrial : history.confirm.OnTrialAt slot) :
    history.OnTrialAt slot := by
  obtain ⟨image, himage, hopen⟩ := htrial
  rw [Option.mem_def, confirm_image] at himage
  split at himage
  · obtain ⟨old, _, rfl⟩ := Option.map_eq_some_iff.mp himage
    exact absurd hopen old.not_onTrial_confirm
  · exact ⟨image, himage, hopen⟩

/-- A confirmation ends the trial of the image that runs undisturbed. -/
theorem not_onTrialAt_confirm (hintact : history.intact = true) :
    ¬ history.confirm.OnTrialAt history.running := by
  intro htrial
  obtain ⟨image, himage, hopen⟩ := htrial
  rw [Option.mem_def, confirm_image, if_pos ⟨hintact, rfl⟩] at himage
  obtain ⟨old, _, rfl⟩ := Option.map_eq_some_iff.mp himage
  exact old.not_onTrial_confirm hopen

/-- A rollback ends every trial. -/
theorem not_onTrialAt_outlived {image : BootSlot → Option Image}
    (houtlived : ∀ slot, history.image slot = (image slot).map Image.outlive) :
    ¬ history.OnTrialAt slot := by
  intro htrial
  obtain ⟨aged, haged, hopen⟩ := htrial
  rw [Option.mem_def, houtlived] at haged
  obtain ⟨old, _, rfl⟩ := Option.map_eq_some_iff.mp haged
  exact old.not_onTrial_outlive hopen

end History

namespace Book

variable {book : Book}

/-- While an unconfirmed image runs, boots are counted. -/
def TrialProtection (book : Book) : Prop :=
  ∀ image ∈ book.history.image book.history.running,
    image.Unconfirmed → book.bootMeta.bootOk = false

instance : DecidablePred TrialProtection := fun book =>
  inferInstanceAs (Decidable (∀ image ∈ book.history.image book.history.running,
    image.Unconfirmed → book.bootMeta.bootOk = false))

/-- While an image on trial runs, boots are counted. -/
def Protected (book : Book) : Prop :=
  book.history.OnTrialAt book.history.running → book.bootMeta.bootOk = false

/-- `mark_boot_good` is not issued while a staged slot awaits its first boot. -/
def NoEarlyConfirm (book : Book) : Op → Prop
  | .markGood => book.bootMeta.next = book.bootMeta.active
  | .apply _ => True
  | .reboot => True

instance (book : Book) (op : Op) : Decidable (book.NoEarlyConfirm op) :=
  match op with
  | .markGood =>
      inferInstanceAs (Decidable (book.bootMeta.next = book.bootMeta.active))
  | .apply _ => isTrue trivial
  | .reboot => isTrue trivial

/-- Without `bootOk` to count boots, nothing that runs or runs next is on trial. -/
def Covered (book : Book) : Prop :=
  book.bootMeta.bootOk = true →
    ¬ book.history.OnTrialAt book.loader ∧
      ¬ book.history.OnTrialAt book.history.running

theorem covered_fresh (release : String) (kernel : BootSlot → Bool) :
    (fresh release kernel).Covered := by
  have hfactory : ¬ (fresh release kernel).history.OnTrialAt .A := by
    intro htrial
    obtain ⟨image, himage, hopen⟩ := htrial
    rw [← Option.some.inj himage] at hopen
    exact hopen
  exact fun _ => ⟨hfactory, hfactory⟩

theorem covered_apply (book : Book) (version : String) (kernel : Bool) :
    (book.apply version kernel).Covered :=
  fun hok => nomatch hok

theorem Covered.markGood (hsound : book.Sound) (hcovered : book.Covered)
    (hsame : book.bootMeta.next = book.bootMeta.active) :
    book.markGood.Covered := by
  intro _
  by_cases hok : book.bootMeta.bootOk = true
  · obtain ⟨hloader, hrunning⟩ := hcovered hok
    exact ⟨mt History.OnTrialAt.of_confirm hloader,
      mt History.OnTrialAt.of_confirm hrunning⟩
  · have htrial := hsound.trial (Bool.eq_false_iff.2 hok)
    obtain ⟨hrunning, hintact⟩ := htrial.running hsame
    have hended := History.not_onTrialAt_confirm hintact
    have hloader : book.loader = book.history.running :=
      htrial.loader.trans hrunning.symm
    exact ⟨by rw [← hloader] at hended; exact hended, hended⟩

theorem Covered.reboot (hcovered : book.Covered) : book.reboot.Covered := by
  intro hafter
  by_cases hok : book.bootMeta.bootOk = true
  · have hmore := BootMeta.not_exhausted_of_ok hok
    have hloader : ¬ book.reboot.history.OnTrialAt book.loader := by
      rw [History.OnTrialAt, reboot_image_of_more hmore]
      exact (hcovered hok).1
    refine ⟨?_, hloader⟩
    rw [reboot_loader_of_more hmore]
    exact hloader
  have htrial : book.bootMeta.bootOk = false := Bool.eq_false_iff.2 hok
  by_cases hlast : book.bootMeta.Exhausted
  · have hended : ∀ slot, ¬ book.reboot.history.OnTrialAt slot := fun slot =>
      History.not_onTrialAt_outlived (reboot_image_of_last hlast)
    exact ⟨hended _, hended _⟩
  · have hmeta : book.reboot.bootMeta = book.bootMeta.activatePending.countAttempt :=
      BootMeta.recorded_of_more htrial hlast
    rw [hmeta, BootMeta.countAttempt, BootMeta.activatePending_bootOk, htrial]
      at hafter
    exact absurd hafter Bool.false_ne_true

theorem Covered.next (hsound : book.Sound) (hcovered : book.Covered) {op : Op}
    {after : Book} (hguard : book.NoEarlyConfirm op) (hnext : book.Next op after) :
    after.Covered := by
  cases op with
  | apply bundleDir =>
      obtain ⟨version, kernel, heq⟩ := hnext
      rw [heq]
      exact covered_apply book version kernel
  | markGood =>
      rw [hnext]
      exact Covered.markGood hsound hcovered hguard
  | reboot =>
      rw [hnext]
      exact hcovered.reboot

/-- The metadata is back on `slot` for good. -/
def RolledBackTo (slot : BootSlot) (book : Book) : Prop :=
  book.bootMeta.bootOk = true ∧ book.bootMeta.next = slot ∧
    book.bootMeta.active = slot

/-- Back on `slot`, or on trial with at least `count` attempts used. -/
def Within (slot : BootSlot) (count : ℕ) (book : Book) : Prop :=
  book.RolledBackTo slot ∨
    (book.bootMeta.bootOk = false ∧ count ≤ book.bootMeta.bootAttempts ∧
      book.bootMeta.bootAttempts < maxBootAttempts ∧
      book.bootMeta.previousGood = slot)

theorem RolledBackTo.reboot {slot : BootSlot} (hback : book.RolledBackTo slot) :
    book.reboot.RolledBackTo slot := by
  have hmeta : book.reboot.bootMeta = book.bootMeta :=
    BootMeta.recorded_of_ok hback.1
  rw [RolledBackTo, hmeta]
  exact hback

/-- Every boot of a trial uses up an attempt or rolls back. -/
theorem Within.reboot {slot : BootSlot} {count : ℕ} (hwithin : book.Within slot count) :
    book.reboot.Within slot (count + 1) := by
  obtain hback | ⟨htrial, hcount, hfew, hprevious⟩ := hwithin
  · exact .inl hback.reboot
  have hsucc : saturatingSucc book.bootMeta.bootAttempts =
      book.bootMeta.bootAttempts + 1 := by
    simp only [saturatingSucc, maxBootAttempts] at hfew ⊢
    omega
  by_cases hlast : book.bootMeta.Exhausted
  · have hmeta : book.reboot.bootMeta = book.bootMeta.activatePending.rolledBack :=
      BootMeta.recorded_of_last hlast
    rw [← hprevious, ← BootMeta.activatePending_previousGood]
    exact .inl (by rw [RolledBackTo, hmeta]; exact ⟨rfl, rfl, rfl⟩)
  · have hmeta : book.reboot.bootMeta = book.bootMeta.activatePending.countAttempt :=
      BootMeta.recorded_of_more htrial hlast
    have hmore : book.bootMeta.bootAttempts + 1 < maxBootAttempts := by
      rw [← hsucc]
      exact Nat.lt_of_not_le fun hle => hlast ⟨htrial, hle⟩
    refine .inr ?_
    rw [hmeta]
    simp only [BootMeta.countAttempt, BootMeta.activatePending_bootOk,
      BootMeta.activatePending_bootAttempts, BootMeta.activatePending_previousGood,
      hsucc]
    exact ⟨htrial, Nat.succ_le_succ hcount, hmore, hprevious⟩

/-- A trial that is open is within reach of its rollback. -/
theorem Trial.within (htrial : book.Trial) (hopen : book.bootMeta.bootOk = false) :
    book.Within book.bootMeta.previousGood 0 :=
  .inr ⟨hopen, Nat.zero_le _, htrial.few, rfl⟩

theorem Within.reboots {slot : BootSlot} (hwithin : book.Within slot 0) (count : ℕ) :
    (Book.reboot^[count] book).Within slot count := by
  induction count with
  | zero => exact hwithin
  | succ count ih =>
      rw [Function.iterate_succ_apply']
      exact ih.reboot

/-- All attempts are used up after `maxBootAttempts` boots. -/
theorem Within.rolledBack {slot : BootSlot}
    (hwithin : book.Within slot maxBootAttempts) : book.RolledBackTo slot := by
  obtain hback | ⟨_, hcount, hfew, _⟩ := hwithin
  · exact hback
  · exact absurd hcount (Nat.not_le_of_lt hfew)

end Book

section Machine

variable {codec : Codec} {layout : SlotLayout} {disk : Disk}

/-- A machine that can be read can be rebooted any number of times. -/
theorem run_reboots {machine : Machine} {book : Book}
    (hshows : machine.Shows codec book) (count : ℕ) :
    ∃ after, run (step codec layout) machine (List.replicate count .reboot) =
      some after ∧ after.Shows codec (Book.reboot^[count] book) := by
  induction count generalizing machine book with
  | zero => exact ⟨machine, rfl, hshows⟩
  | succ count ih =>
      have hstep : step codec layout machine .reboot =
          some ⟨bootedDisk codec layout machine.disk,
            machine.history.boot book.bootMeta book.loader⟩ := by
        simp only [step, hshows.loader, hshows.bootMeta]
      obtain ⟨after, hrun, hafter⟩ := ih (step_reboot hshows hstep)
      refine ⟨after, ?_, hafter⟩
      rw [List.replicate_succ, run, hstep]
      exact hrun

/-- In a run from the factory image whose confirmations all come after the first
boot of the staged slot, boots are counted while an image on trial runs, and an
image on trial that is booted `MAX_BOOT_ATTEMPTS` times is rolled back. -/
theorem trial_protected (hfresh : Fresh codec disk) {ops : List Op} {final : Machine}
    (hguard : Guarded (step codec layout) (Permits codec Book.NoEarlyConfirm)
      (Machine.fresh codec disk) ops)
    (hrun : run (step codec layout) (Machine.fresh codec disk) ops = some final) :
    Sees codec Book.Protected final ∧
      ∀ book ∈ final.book codec, book.history.OnTrialAt book.loader →
        ∃ after,
          run (step codec layout) final (List.replicate maxBootAttempts .reboot) =
            some after ∧
          Sees codec (Book.RolledBackTo book.bootMeta.previousGood) after := by
  obtain ⟨book, hshows, hsound, hcovered⟩ : final.Holds codec Book.Covered :=
    holds_run Book.Covered (fun _ _ _ hsound hcovered hop hnext =>
      Book.Covered.next hsound hcovered hop hnext)
      (fun kernel => Book.covered_fresh _ kernel) hfresh hguard hrun
  refine ⟨hshows.sees.2 ?_, ?_⟩
  · intro htrial
    rw [← Bool.not_eq_true]
    exact fun hok => (hcovered hok).2 htrial
  · intro other hother htrial
    have hsame : book = other := Option.some.inj (hshows.book.symm.trans hother)
    rw [← hsame] at htrial ⊢
    have hopen : book.bootMeta.bootOk = false := by
      rw [← Bool.not_eq_true]
      exact fun hok => (hcovered hok).1 htrial
    obtain ⟨after, hreboots, hafter⟩ := run_reboots hshows maxBootAttempts
    have hwithin := ((hsound.trial hopen).within hopen).reboots maxBootAttempts
    exact ⟨after, hreboots, hafter.sees.2 hwithin.rolledBack⟩

theorem trial_protected_lab :
    ∃ final ∈ labRun [.apply (labBundle 2), .reboot],
      Sees labCodec Book.Protected final := by
  have hsome : (labRun [.apply (labBundle 2), .reboot]).isSome = true := by decide
  obtain ⟨final, hrun⟩ := Option.isSome_iff_exists.1 hsome
  exact ⟨final, hrun, (trial_protected labDisk_fresh (by decide) hrun).1⟩

/-- The boot that rolls back sets `bootOk` while the unconfirmed image runs. -/
theorem rollback_boot_unprotected :
    Fresh labCodec labDisk ∧
      ∃ final ∈ labRun [.apply (labBundle 2), .reboot, .reboot, .reboot],
        ¬ Sees labCodec Book.TrialProtection final := by
  refine ⟨labDisk_fresh, ?_⟩
  decide

end Machine

end PertiskKos.Update
