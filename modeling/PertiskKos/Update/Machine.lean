import PertiskKos.Library.Runs
import PertiskKos.Update.Book

/-!
# The machine that is upgraded

A machine is its disk and its history.  It is upgraded, confirmed and rebooted in
any order.  A reboot runs the slot that the loader names and then records the boot.
`step_book` says that the machine over its disk does what its book says.
-/

namespace PertiskKos.Update

open PertiskKos.Fallible

structure Machine where
  disk : Disk
  history : History

variable (codec : Codec) (layout : SlotLayout)

/-- The disk after a boot.  A boot goes on when the record fails. -/
def bootedDisk (disk : Disk) : Disk :=
  match recordBootAttemptWithLayout codec (some layout) calm disk with
  | .ok _ after => after
  | .error _ after => after

def step (machine : Machine) : Op → Option Machine
  | .apply bundleDir =>
      match applyBundle codec layout bundleDir calm machine.disk with
      | .ok result disk =>
          some ⟨disk, machine.history.stage result.targetSlot result.version⟩
      | .error _ _ => none
  | .markGood =>
      match markBootGood codec calm machine.disk with
      | .ok _ disk => some ⟨disk, machine.history.confirm⟩
      | .error _ _ => none
  | .reboot =>
      match machine.disk.loaderDefault,
        machine.disk.persistedMeta codec.releaseVersion with
      | some slot, some found =>
          some ⟨bootedDisk codec layout machine.disk, machine.history.boot found slot⟩
      | _, _ => none

/-- A disk that still has the default metadata and boots slot A. -/
structure Fresh (disk : Disk) : Prop where
  bootMeta : disk.persistedMeta codec.releaseVersion =
    some (BootMeta.default codec.releaseVersion)
  loader : disk.loaderDefault = some .A
  usable : disk.Usable

/-- The machine on its factory image. -/
def Machine.fresh (disk : Disk) : Machine where
  disk := disk
  history :=
    { running := .A
      image := Function.update (fun _ => none) .A (some .factory)
      intact := true
      found := BootMeta.default codec.releaseVersion }

/-- The book of a machine whose metadata and loader default can be read. -/
def Machine.book (machine : Machine) : Option Book :=
  match machine.disk.persistedMeta codec.releaseVersion,
    machine.disk.loaderDefault with
  | some bootMeta, some loader =>
      some ⟨bootMeta, loader, fun slot => decide (machine.disk.HasKernel slot),
        machine.history⟩
  | _, _ => none

/-- The machine can be read, and what is read is as it should be. -/
def Sees (good : Book → Prop) (machine : Machine) : Prop :=
  ∃ book ∈ machine.book codec, good book

instance (good : Book → Prop) [DecidablePred good] (machine : Machine) :
    Decidable (Sees codec good machine) :=
  inferInstanceAs (Decidable (∃ book ∈ machine.book codec, good book))

/-- The operation is one that may be issued as things are. -/
def Permits (guard : Book → Op → Prop) (machine : Machine) (op : Op) : Prop :=
  ∀ book ∈ machine.book codec, guard book op

instance (guard : Book → Op → Prop) [∀ book op, Decidable (guard book op)]
    (machine : Machine) (op : Op) : Decidable (Permits codec guard machine op) :=
  inferInstanceAs (Decidable (∀ book ∈ machine.book codec, guard book op))

/-- The book describes the machine. -/
structure Machine.Shows (machine : Machine) (book : Book) : Prop where
  bootMeta : machine.disk.persistedMeta codec.releaseVersion = some book.bootMeta
  loader : machine.disk.loaderDefault = some book.loader
  kernel : ∀ slot, book.kernel slot = true ↔ machine.disk.HasKernel slot
  usable : machine.disk.Usable
  history : machine.history = book.history

variable {codec} {layout}

theorem Fresh.shows {disk : Disk} (hfresh : Fresh codec disk) :
    (Machine.fresh codec disk).Shows codec
      (Book.fresh codec.releaseVersion fun slot => decide (disk.HasKernel slot)) where
  bootMeta := hfresh.bootMeta
  loader := hfresh.loader
  kernel _ := decide_eq_true_iff
  usable := hfresh.usable
  history := rfl

theorem Machine.Shows.book {machine : Machine} {book : Book}
    (hshows : machine.Shows codec book) : machine.book codec = some book := by
  have hkernel : (fun slot => decide (machine.disk.HasKernel slot)) = book.kernel := by
    funext slot
    rw [Bool.eq_iff_iff, decide_eq_true_iff, hshows.kernel slot]
  rw [Machine.book, hshows.bootMeta, hshows.loader]
  simp only [hkernel, hshows.history]

theorem Machine.Shows.sees {machine : Machine} {book : Book}
    (hshows : machine.Shows codec book) {good : Book → Prop} :
    Sees codec good machine ↔ good book := by
  simp [Sees, hshows.book]

theorem Machine.Shows.permits {machine : Machine} {book : Book}
    (hshows : machine.Shows codec book) {guard : Book → Op → Prop} {op : Op} :
    Permits codec guard machine op ↔ guard book op := by
  simp [Permits, hshows.book]

theorem isSome_esp_of_loaderDefault {disk : Disk} {slot : BootSlot}
    (hloader : disk.loaderDefault = some slot) : disk.esp.isSome = true := by
  cases hesp : disk.esp with
  | none => simp [Disk.loaderDefault, hesp] at hloader
  | some esp => rfl

/-- `bootstrap_esp` on a disk with the default metadata gives a fresh disk. -/
theorem Fresh.of_bootstrapEsp {blank disk : Disk} {assets : BootAssets}
    (hmeta : blank.persistedMeta codec.releaseVersion =
      some (BootMeta.default codec.releaseVersion))
    (husable : blank.Usable) (hesp : blank.esp.isSome = true)
    (hrun : bootstrapEsp assets calm blank = .ok () disk) : Fresh codec disk := by
  obtain ⟨honly, hloader⟩ :=
    Triple.of_ok (bootstrapEsp_spec calm assets blank hesp) rfl hrun
  have hdir : ∀ slot, disk.slotDir slot = blank.slotDir slot := by
    intro slot
    rw [Disk.slotDir, honly.slots]
    rfl
  refine ⟨?_, hloader, ?_⟩
  · rw [← hmeta, Disk.persistedMeta, honly.bootMeta]
    rfl
  · intro slot hkernel
    rw [Disk.HasKernel, hdir] at hkernel
    rw [hdir]
    exact husable slot hkernel

section Simulation

variable {machine next : Machine} {book : Book}

theorem step_apply (hshows : machine.Shows codec book) {bundleDir : SlotDir}
    (hstep : step codec layout machine (.apply bundleDir) = some next) :
    ∃ version kernel, next.Shows codec (book.apply version kernel) := by
  cases hrun : applyBundle codec layout bundleDir calm machine.disk with
  | error err after => simp [step, hrun] at hstep
  | ok result after =>
      simp only [step, hrun, Option.some.injEq] at hstep
      have hesp := isSome_esp_of_loaderDefault hshows.loader
      obtain ⟨dir, hupgraded⟩ := applyBundle_upgraded hshows.bootMeta hesp hrun
      have hdir : ∀ slot, after.slotDir slot =
          if slot = book.bootMeta.active.other then dir
          else machine.disk.slotDir slot := by
        intro slot
        rw [Disk.slotDir, hupgraded.slots, Function.update_apply]
        by_cases hslot : slot = book.bootMeta.active.other
        · rw [if_pos hslot, if_pos hslot]
          rfl
        · rw [if_neg hslot, if_neg hslot]
          rfl
      refine ⟨result.version, (dir "kernel").isPresent, ?_⟩
      rw [← hstep]
      refine ⟨?_, hupgraded.loaderDefault, ?_, ?_, ?_⟩
      · simp only [Disk.persistedMeta, hupgraded.persisted, Book.apply]
      · intro slot
        simp only [Book.apply, Disk.HasKernel, hdir, Function.update_apply]
        by_cases hslot : slot = book.bootMeta.active.other
        · rw [if_pos hslot, if_pos hslot]
        · rw [if_neg hslot, if_neg hslot]
          exact hshows.kernel slot
      · intro slot hkernel
        rw [Disk.HasKernel, hdir] at hkernel
        rw [hdir]
        by_cases hslot : slot = book.bootMeta.active.other
        · rw [if_pos hslot]
          exact hupgraded.bootable
        · rw [if_neg hslot] at hkernel ⊢
          exact hshows.usable slot hkernel
      · rw [hshows.history, hupgraded.target, Book.apply]

theorem step_markGood (hshows : machine.Shows codec book)
    (hstep : step codec layout machine .markGood = some next) :
    next.Shows codec book.markGood := by
  simp only [step, markBootGood_calm hshows.bootMeta, Option.some.injEq] at hstep
  rw [← hstep]
  exact ⟨rfl, hshows.loader, hshows.kernel, hshows.usable,
    congrArg History.confirm hshows.history⟩

theorem step_reboot (hshows : machine.Shows codec book)
    (hstep : step codec layout machine .reboot = some next) :
    next.Shows codec book.reboot := by
  have hesp := isSome_esp_of_loaderDefault hshows.loader
  obtain ⟨answer, after, hrun, hrecorded⟩ :=
    recordBootAttempt_calm layout hshows.bootMeta hesp hshows.usable
  simp only [step, hshows.loader, hshows.bootMeta, bootedDisk, hrun,
    Option.some.injEq] at hstep
  have hdir : ∀ slot, after.slotDir slot = machine.disk.slotDir slot := by
    intro slot
    rw [Disk.slotDir, hrecorded.slots]
    rfl
  rw [← hstep]
  refine ⟨?_, ?_, ?_, ?_, ?_⟩
  · simp only [Disk.persistedMeta, hrecorded.persisted, Book.reboot]
  · have hflips : book.FlipsBack ↔ book.bootMeta.Exhausted ∧
        machine.disk.HasKernel book.bootMeta.previousGood :=
      and_congr_right fun _ => hshows.kernel _
    rw [hrecorded.loaderDefault, Book.reboot, hshows.loader]
    by_cases hflip : book.FlipsBack
    · rw [if_pos hflip, if_pos (hflips.1 hflip)]
    · rw [if_neg hflip, if_neg (mt hflips.2 hflip)]
  · intro slot
    rw [Disk.HasKernel, hdir]
    exact hshows.kernel slot
  · intro slot hkernel
    rw [Disk.HasKernel, hdir] at hkernel
    rw [hdir]
    exact hshows.usable slot hkernel
  · rw [hshows.history, Book.reboot]

/-- Simulation: each step of the machine is the step of its book. -/
theorem step_book (hshows : machine.Shows codec book) {op : Op}
    (hstep : step codec layout machine op = some next) :
    ∃ after, book.Next op after ∧ next.Shows codec after := by
  cases op with
  | apply bundleDir =>
      obtain ⟨version, kernel, hnext⟩ := step_apply hshows hstep
      exact ⟨_, ⟨version, kernel, rfl⟩, hnext⟩
  | markGood => exact ⟨_, rfl, step_markGood hshows hstep⟩
  | reboot => exact ⟨_, rfl, step_reboot hshows hstep⟩

end Simulation

/-- The machine has a sound book that satisfies `inv`. -/
def Machine.Holds (codec : Codec) (inv : Book → Prop) (machine : Machine) : Prop :=
  ∃ book, machine.Shows codec book ∧ book.Sound ∧ inv book

section Runs

open PertiskKos.Runs

variable {good : Book → Prop} {guard : Book → Op → Prop}
variable {disk : Disk} {ops : List Op} {final : Machine}

theorem Fresh.holds {inv : Book → Prop} (hfresh : Fresh codec disk)
    (hinit : ∀ kernel, inv (Book.fresh codec.releaseVersion kernel)) :
    (Machine.fresh codec disk).Holds codec inv :=
  ⟨_, hfresh.shows, Book.sound_fresh _ _, hinit _⟩

/-- Step rule: what a guarded operation on a sound book keeps, the machine keeps. -/
theorem Machine.Holds.step {inv : Book → Prop}
    (hkeeps : ∀ book op after, book.Sound → inv book → guard book op →
      book.Next op after → inv after)
    {machine next : Machine} {op : Op} (hholds : machine.Holds codec inv)
    (hguard : Permits codec guard machine op)
    (hstep : step codec layout machine op = some next) : next.Holds codec inv := by
  obtain ⟨book, hshows, hsound, hinv⟩ := hholds
  obtain ⟨after, hnext, hafter⟩ := step_book hshows hstep
  exact ⟨after, hafter, hsound.next hnext,
    hkeeps book op after hsound hinv (hshows.permits.1 hguard) hnext⟩

/-- Run rule over books, for runs from the factory image. -/
theorem holds_run (inv : Book → Prop)
    (hkeeps : ∀ book op after, book.Sound → inv book → guard book op →
      book.Next op after → inv after)
    (hinit : ∀ kernel, inv (Book.fresh codec.releaseVersion kernel))
    (hfresh : Fresh codec disk)
    (hguard : Guarded (step codec layout) (Permits codec guard)
      (Machine.fresh codec disk) ops)
    (hrun : run (step codec layout) (Machine.fresh codec disk) ops = some final) :
    final.Holds codec inv :=
  inv_run (fun _ _ _ hholds hop hstep => hholds.step hkeeps hop hstep)
    (hfresh.holds hinit) hguard hrun

/-- Exact run rule over books: if the guarded operations keep an invariant that
implies `good`, and any other operation ends outside `good`, then a run from the
factory image stays inside `good` exactly when it issues guarded operations. -/
theorem throughout_iff_permits (inv : Book → Prop)
    (hgood : ∀ book, book.Sound → inv book → good book)
    (hkeeps : ∀ book op after, book.Sound → inv book → guard book op →
      book.Next op after → inv after)
    (hbreak : ∀ book op after, book.Sound → inv book → ¬ guard book op →
      book.Next op after → ¬ good after)
    (hinit : ∀ kernel, inv (Book.fresh codec.releaseVersion kernel))
    (hfresh : Fresh codec disk)
    (hrun : run (step codec layout) (Machine.fresh codec disk) ops = some final) :
    Throughout (step codec layout) (Sees codec good) (Machine.fresh codec disk) ops ↔
      Guarded (step codec layout) (Permits codec guard) (Machine.fresh codec disk)
        ops := by
  apply throughout_iff_guarded (Machine.Holds codec inv) ?_ ?_ ?_
    (hfresh.holds hinit) hrun
  · intro machine hholds
    obtain ⟨book, hshows, hsound, hinv⟩ := hholds
    exact hshows.sees.2 (hgood book hsound hinv)
  · intro machine op next hholds hop hstep
    exact hholds.step hkeeps hop hstep
  · intro machine op next hholds hop hstep
    obtain ⟨book, hshows, hsound, hinv⟩ := hholds
    obtain ⟨after, hnext, hafter⟩ := step_book hshows hstep
    have hbad := hbreak book op after hsound hinv (mt hshows.permits.2 hop) hnext
    exact mt hafter.sees.1 hbad

end Runs

/-! ## A machine to try the model on -/

def labManifest (version : String) : BundleManifest where
  version := version
  artifacts :=
    [("initramfs", "de7d1b721a1e0632b7cf04edf5032c8ecffa9f9a08492152b926f1a5a7e765d7"),
      ("kernel", "8254c329a92850f6d539dd376f4816ee2764517da5e0235514af433164480d7a")]

/-- A codec for bundles whose manifest file is one byte long and whose artifacts
are the letters k and i. -/
def labCodec : Codec where
  releaseVersion := "0.1.0"
  loadVerifyingKey := .ok
  verifyManifest key content signature :=
    if signature = key ++ content then .ok () else .error .verifyFailed
  parseManifest content :=
    if content = [2] then some (labManifest "0.2.0")
    else if content = [3] then some (labManifest "0.3.0")
    else none
  sha256 content :=
    if content = [107] then
      "8254c329a92850f6d539dd376f4816ee2764517da5e0235514af433164480d7a"
    else "de7d1b721a1e0632b7cf04edf5032c8ecffa9f9a08492152b926f1a5a7e765d7"

def labBundle (version : UInt8) : SlotDir := fun name =>
  if name = "manifest.json" then .holds [version]
  else if name = "manifest.sig" then .holds [7, version]
  else if name = "kernel" then .holds [107]
  else if name = "initramfs" then .holds [105]
  else .absent

def labAssets : BootAssets where
  kernel := .holds [107]
  initramfs := .holds [105]
  uki := none
  bootloaderEfi := .holds [101]
  cmdline := SlotLayout.new.cmdline

/-- A disk before its installation: an empty ESP, and on STATE the trust key. -/
def labBlank : Disk where
  bootMeta := .absent
  slots := fun _ => none
  esp := some
    { loaderConf := .absent
      entry := fun _ => .absent
      slotImage := fun _ => emptyDir
      slotUki := fun _ => .absent
      bootEfi := .absent
      systemdEfi := .absent
      staging := none }
  trustKey := .holds [7]

def labDisk : Disk :=
  match bootstrapEsp labAssets calm labBlank with
  | .ok _ disk => disk
  | .error _ disk => disk

theorem labBlank_usable : labBlank.Usable := by
  intro slot hkernel
  exact absurd hkernel Bool.false_ne_true

theorem labDisk_installed :
    bootstrapEsp labAssets calm labBlank = .ok () labDisk := rfl

theorem labDisk_fresh : Fresh labCodec labDisk :=
  Fresh.of_bootstrapEsp rfl labBlank_usable rfl labDisk_installed

/-- The machine on `labDisk` after some operations. -/
def labRun (ops : List Op) : Option Machine :=
  Runs.run (step labCodec .new) (Machine.fresh labCodec labDisk) ops

example : (labRun [.apply (labBundle 2), .reboot, .markGood]).isSome = true := by
  decide

end PertiskKos.Update
