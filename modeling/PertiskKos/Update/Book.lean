import PertiskKos.Update.Boot

/-!
# The book of an upgraded machine

What an observer of a machine writes down: the metadata, the loader default, the
slots that have a kernel on STATE, the slot that runs and the image each slot
holds.  `Book` is the abstract machine; its operations are functions on these
values.  `Sound` is the invariant of every run from the factory image.
-/

namespace PertiskKos.Update

/-- What a slot holds.  `confirmed`: `mark_boot_good` was called while the image
was running.  `outlived`: an automatic rollback has fired since it was staged. -/
inductive Image where
  | factory
  | staged (version : String) (confirmed outlived : Bool)
  deriving DecidableEq, Repr

namespace Image

def confirm : Image → Image
  | factory => factory
  | staged version _ outlived => staged version true outlived

def outlive : Image → Image
  | factory => factory
  | staged version confirmed _ => staged version confirmed true

/-- The version the image was built or staged with. -/
def version (release : String) : Image → String
  | factory => release
  | staged version _ _ => version

/-- The factory image, or one that was confirmed while it was running. -/
def Good : Image → Prop
  | factory => True
  | staged _ confirmed _ => confirmed = true

/-- A staged image that nobody has confirmed while it was running. -/
def Unconfirmed : Image → Prop
  | factory => False
  | staged _ confirmed _ => confirmed = false

/-- An unconfirmed image that no rollback has given up on. -/
def OnTrial : Image → Prop
  | factory => False
  | staged _ confirmed outlived => confirmed = false ∧ outlived = false

instance (image : Image) : Decidable image.Good :=
  match image with
  | factory => isTrue trivial
  | staged _ confirmed _ => inferInstanceAs (Decidable (confirmed = true))

instance (image : Image) : Decidable image.Unconfirmed :=
  match image with
  | factory => isFalse id
  | staged _ confirmed _ => inferInstanceAs (Decidable (confirmed = false))

theorem not_onTrial_confirm (image : Image) : ¬ image.confirm.OnTrial := by
  cases image with
  | factory => exact id
  | staged version confirmed outlived => exact fun hopen => absurd hopen.1 (by decide)

theorem not_onTrial_outlive (image : Image) : ¬ image.outlive.OnTrial := by
  cases image with
  | factory => exact id
  | staged version confirmed outlived => exact fun hopen => absurd hopen.2 (by decide)

end Image

structure History where
  running : BootSlot
  image : BootSlot → Option Image
  /-- The running slot has not been staged over since the boot. -/
  intact : Bool
  /-- The metadata that the last boot found. -/
  found : BootMeta

namespace History

variable (history : History)

def stage (slot : BootSlot) (version : String) : History :=
  { history with
    image := Function.update history.image slot (some (.staged version false false))
    intact := history.intact && history.running != slot }

def confirm : History :=
  let confirmed := (history.image history.running).map Image.confirm
  { history with
    image := if history.intact then
        Function.update history.image history.running confirmed
      else history.image }

def boot (found : BootMeta) (slot : BootSlot) : History where
  running := slot
  image := if found.Exhausted then
      fun other => (history.image other).map Image.outlive
    else history.image
  intact := true
  found := found

@[simp]
theorem stage_image_self (slot : BootSlot) (version : String) :
    (history.stage slot version).image slot = some (.staged version false false) :=
  Function.update_self ..

theorem stage_image_of_ne {slot target : BootSlot} (hne : slot ≠ target)
    (version : String) :
    (history.stage target version).image slot = history.image slot :=
  Function.update_of_ne hne ..

theorem confirm_image (slot : BootSlot) :
    history.confirm.image slot =
      if history.intact = true ∧ slot = history.running then
        (history.image slot).map Image.confirm
      else history.image slot := by
  simp only [confirm]
  by_cases hintact : history.intact = true
  · by_cases hslot : slot = history.running
    · rw [if_pos hintact, if_pos ⟨hintact, hslot⟩, hslot, Function.update_self]
    · rw [if_pos hintact, if_neg fun h => hslot h.2, Function.update_of_ne hslot]
  · rw [if_neg hintact, if_neg fun h => hintact h.1]

theorem boot_image (found : BootMeta) (running slot : BootSlot) :
    (history.boot found running).image slot =
      if found.Exhausted then (history.image slot).map Image.outlive
      else history.image slot := by
  simp only [boot]
  split <;> rfl

variable {history} {slot : BootSlot} {kept : Image → Prop}

/-- A slot holds what it held, up to what confirming keeps. -/
theorem exists_confirm (hkept : ∀ image, kept image → kept image.confirm)
    (hholds : ∃ image ∈ history.image slot, kept image) :
    ∃ image ∈ history.confirm.image slot, kept image := by
  obtain ⟨image, himage, hkeep⟩ := hholds
  rw [Option.mem_def] at himage
  rw [confirm_image, himage]
  split
  · exact ⟨image.confirm, rfl, hkept image hkeep⟩
  · exact ⟨image, rfl, hkeep⟩

theorem exists_boot (hkept : ∀ image, kept image → kept image.outlive)
    (hholds : ∃ image ∈ history.image slot, kept image) (found : BootMeta)
    (running : BootSlot) :
    ∃ image ∈ (history.boot found running).image slot, kept image := by
  obtain ⟨image, himage, hkeep⟩ := hholds
  rw [Option.mem_def] at himage
  rw [boot_image, himage]
  split
  · exact ⟨image.outlive, rfl, hkept image hkeep⟩
  · exact ⟨image, rfl, hkeep⟩

end History

inductive Op where
  /-- A successful `apply_bundle` of the bundle in this directory. -/
  | apply (bundleDir : SlotDir)
  | markGood
  | reboot

/-- The abstract machine. -/
structure Book where
  bootMeta : BootMeta
  loader : BootSlot
  /-- The slots that have a kernel on STATE. -/
  kernel : BootSlot → Bool
  history : History

namespace Book

variable (book : Book)

def apply (version : String) (kernel : Bool) : Book where
  bootMeta := book.bootMeta.stage version
  loader := book.bootMeta.active.other
  kernel := Function.update book.kernel book.bootMeta.active.other kernel
  history := book.history.stage book.bootMeta.active.other version

def markGood : Book :=
  { book with
    bootMeta := book.bootMeta.markGood
    history := book.history.confirm }

/-- The boot being recorded rolls back and finds what it needs on STATE. -/
def FlipsBack : Prop :=
  book.bootMeta.Exhausted ∧ book.kernel book.bootMeta.previousGood = true

instance : Decidable book.FlipsBack := inferInstanceAs (Decidable (_ ∧ _))

def reboot : Book :=
  { book with
    bootMeta := book.bootMeta.recorded
    loader := if book.FlipsBack then book.bootMeta.previousGood else book.loader
    history := book.history.boot book.bootMeta book.loader }

/-- What an operation can turn a book into. -/
def Next : Op → Book → Prop
  | .apply _, next => ∃ version kernel, next = book.apply version kernel
  | .markGood, next => next = book.markGood
  | .reboot, next => next = book.reboot

/-- The book of a machine on its factory image. -/
def fresh (release : String) (kernel : BootSlot → Bool) : Book where
  bootMeta := BootMeta.default release
  loader := .A
  kernel := kernel
  history :=
    { running := .A
      image := Function.update (fun _ => none) .A (some .factory)
      intact := true
      found := BootMeta.default release }

end Book

namespace BootMeta

variable {bootMeta : BootMeta}

theorem not_exhausted_of_ok (hok : bootMeta.bootOk = true) :
    ¬ bootMeta.Exhausted := by
  intro hexhausted
  rw [hexhausted.1] at hok
  exact Bool.false_ne_true hok

theorem recorded_of_ok (hok : bootMeta.bootOk = true) :
    bootMeta.recorded = bootMeta := by
  rw [recorded, if_pos hok]

theorem recorded_of_last (hlast : bootMeta.Exhausted) :
    bootMeta.recorded = bootMeta.activatePending.rolledBack := by
  rw [recorded, hlast.1, if_neg Bool.false_ne_true, if_pos hlast]

theorem recorded_of_more (htrial : bootMeta.bootOk = false)
    (hmore : ¬ bootMeta.Exhausted) :
    bootMeta.recorded = bootMeta.activatePending.countAttempt := by
  rw [recorded, htrial, if_neg Bool.false_ne_true, if_neg hmore]

end BootMeta

namespace Book

variable {book : Book}

theorem not_flipsBack (hmore : ¬ book.bootMeta.Exhausted) : ¬ book.FlipsBack :=
  fun hflips => hmore hflips.1

theorem reboot_loader_of_more (hmore : ¬ book.bootMeta.Exhausted) :
    book.reboot.loader = book.loader := by
  rw [reboot]
  exact if_neg (not_flipsBack hmore)

theorem reboot_image_of_more (hmore : ¬ book.bootMeta.Exhausted) :
    book.reboot.history.image = book.history.image := by
  rw [reboot]
  exact if_neg hmore

theorem reboot_image_of_last (hlast : book.bootMeta.Exhausted) (slot : BootSlot) :
    book.reboot.history.image slot =
      (book.history.image slot).map Image.outlive := by
  have himage : book.reboot.history.image =
      fun other => (book.history.image other).map Image.outlive := if_pos hlast
  rw [himage]

/-- What holds while an upgrade is on trial. -/
structure Trial (book : Book) : Prop where
  loader : book.loader = book.bootMeta.next
  previousGood : book.bootMeta.previousGood ≠ book.bootMeta.next
  image : ∃ version outlived,
    book.history.image book.bootMeta.next =
        some (.staged version false outlived) ∧
      (book.bootMeta.next ≠ book.bootMeta.active →
        book.bootMeta.pendingVersion = some version)
  running : book.bootMeta.next = book.bootMeta.active →
    book.history.running = book.bootMeta.next ∧ book.history.intact = true
  attempts : book.bootMeta.next ≠ book.bootMeta.active →
    book.bootMeta.bootAttempts = 0
  few : book.bootMeta.bootAttempts < maxBootAttempts

structure Sound (book : Book) : Prop where
  trial : book.bootMeta.bootOk = false → book.Trial
  settled : book.loader = book.bootMeta.next ∨
    (book.bootMeta.bootOk = true ∧ book.bootMeta.next = book.bootMeta.active)

theorem sound_fresh (release : String) (kernel : BootSlot → Bool) :
    (fresh release kernel).Sound where
  trial htrial := nomatch htrial
  settled := .inl rfl

theorem trial_apply (book : Book) (version : String) (kernel : Bool) :
    (book.apply version kernel).Trial where
  loader := rfl
  previousGood := BootSlot.ne_other _
  image := ⟨version, false, History.stage_image_self .., fun _ => rfl⟩
  running hsame := absurd hsame (BootSlot.other_ne _)
  attempts _ := rfl
  few := Nat.succ_pos 2

theorem sound_apply (book : Book) (version : String) (kernel : Bool) :
    (book.apply version kernel).Sound where
  trial _ := trial_apply book version kernel
  settled := .inl rfl

theorem Sound.markGood (hsound : book.Sound) : book.markGood.Sound where
  trial htrial := nomatch htrial
  settled := hsound.settled.imp_right fun hsettled => ⟨rfl, hsettled.2⟩

theorem Sound.reboot (hsound : book.Sound) : book.reboot.Sound := by
  by_cases hok : book.bootMeta.bootOk = true
  · have hmore := BootMeta.not_exhausted_of_ok hok
    have hmeta : book.reboot.bootMeta = book.bootMeta := BootMeta.recorded_of_ok hok
    constructor
    · intro htrial
      rw [hmeta, hok] at htrial
      exact nomatch htrial
    · rw [reboot_loader_of_more hmore, hmeta]
      exact hsound.settled
  have htrial : book.bootMeta.bootOk = false := Bool.eq_false_iff.2 hok
  have hold := hsound.trial htrial
  by_cases hlast : book.bootMeta.Exhausted
  · have hmeta : book.reboot.bootMeta = book.bootMeta.activatePending.rolledBack :=
      BootMeta.recorded_of_last hlast
    constructor
    · intro hfalse
      rw [hmeta] at hfalse
      exact nomatch hfalse
    · rw [hmeta]
      exact .inr ⟨rfl, rfl⟩
  · have hmeta : book.reboot.bootMeta = book.bootMeta.activatePending.countAttempt :=
      BootMeta.recorded_of_more htrial hlast
    have hnext : book.reboot.bootMeta.next = book.bootMeta.next := by
      rw [hmeta]
      exact BootMeta.activatePending_next _
    have hactive : book.reboot.bootMeta.active = book.bootMeta.next := by
      rw [hmeta]
      exact BootMeta.activatePending_active _
    have hprevious :
        book.reboot.bootMeta.previousGood = book.bootMeta.previousGood := by
      rw [hmeta]
      exact BootMeta.activatePending_previousGood _
    have hloader := (reboot_loader_of_more hlast).trans hold.loader
    have hsame : book.reboot.bootMeta.next = book.reboot.bootMeta.active :=
      hnext.trans hactive.symm
    have hattempts : book.reboot.bootMeta.bootAttempts =
        saturatingSucc book.bootMeta.bootAttempts := by
      rw [hmeta, BootMeta.countAttempt, BootMeta.activatePending_bootAttempts]
    refine ⟨fun _ => ⟨?_, ?_, ?_, ?_, ?_, ?_⟩, .inl (hloader.trans hnext.symm)⟩
    · rw [hloader, hnext]
    · rw [hprevious, hnext]
      exact hold.previousGood
    · obtain ⟨version, outlived, himage, _⟩ := hold.image
      refine ⟨version, outlived, ?_, fun hne => absurd hsame hne⟩
      rw [reboot_image_of_more hlast, hnext]
      exact himage
    · intro _
      rw [hnext]
      exact ⟨hold.loader, rfl⟩
    · exact fun hne => absurd hsame hne
    · rw [hattempts]
      exact Nat.lt_of_not_le fun hle => hlast ⟨htrial, hle⟩

/-- Every operation keeps a sound book sound. -/
theorem Sound.next {op : Op} {after : Book} (hsound : book.Sound)
    (hnext : book.Next op after) : after.Sound := by
  cases op with
  | apply bundleDir =>
      obtain ⟨version, kernel, heq⟩ := hnext
      rw [heq]
      exact sound_apply book version kernel
  | markGood =>
      rw [hnext]
      exact hsound.markGood
  | reboot =>
      rw [hnext]
      exact hsound.reboot

end Book

end PertiskKos.Update
