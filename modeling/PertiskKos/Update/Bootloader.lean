import PertiskKos.Update.Disk

/-!
# Switching the boot slot on the EFI system partition

`activateSlot` copies the artifacts of a slot directory onto the ESP, writes the
loader entry and last of all the `default` line of `loader.conf`.  Everything
before that last write is `installSlot`: it leaves the default alone.
-/

namespace PertiskKos.Update

open PertiskKos.Fallible

inductive BootloaderError where
  | io (err : IoError)
  /-- "missing {name} in slot dir {slot_dir}" -/
  | missing (name : String)
  /-- "bootloader EFI missing: {path}" -/
  | missingBootloader
  deriving DecidableEq, Repr

namespace Esp

def putEntry (slot : BootSlot) (file : File String) (esp : Esp) : Esp :=
  { esp with entry := Function.update esp.entry slot file }

def putImage (slot : BootSlot) (name : String) (file : File Bytes)
    (esp : Esp) : Esp :=
  let image := Function.update (esp.slotImage slot) name file
  { esp with slotImage := Function.update esp.slotImage slot image }

def putUki (slot : BootSlot) (file : File Bytes) (esp : Esp) : Esp :=
  { esp with slotUki := Function.update esp.slotUki slot file }

def putLoader (file : File String) (esp : Esp) : Esp :=
  { esp with loaderConf := file }

def putStaging (name : String) (file : File Bytes) (esp : Esp) : Esp :=
  let staging := Function.update (esp.staging.getD emptyDir) name file
  { esp with staging := some staging }

end Esp

/-- The body `write_loader_default` writes. -/
def loaderBody (next : BootSlot) : String :=
  "default pertisk-" ++ next.lower ++
    ".conf\ntimeout 0\nconsole-mode keep\neditor no\n"

/-- The body `write_entry` writes. -/
def entryBody (slot : BootSlot) (cmdline : String) : String :=
  "title Pertisk KOS (slot " ++ slot.asStr ++ ")\n" ++
    "linux /pertisk/" ++ slot.asStr ++ "/kernel\n" ++
    "initrd /pertisk/" ++ slot.asStr ++ "/initramfs\n" ++
    "options " ++ cmdline ++ "\n"

/-- The body `write_uki_entry` writes. -/
def ukiEntryBody (slot : BootSlot) : String :=
  "title Pertisk KOS UKI (slot " ++ slot.asStr ++ ")\n" ++
    "efi /EFI/Linux/pertisk-" ++ slot.lower ++ ".efi\n"

/-- The slot whose entry `loader.conf` names as the default. -/
def Esp.defaultSlot (esp : Esp) : Option BootSlot :=
  match esp.loaderConf with
  | .holds text =>
      if text = loaderBody .A then some .A
      else if text = loaderBody .B then some .B
      else none
  | _ => none

/-- The slot the firmware boots next. -/
def Disk.loaderDefault (disk : Disk) : Option BootSlot :=
  disk.esp.bind Esp.defaultSlot

/-- `write_entry`. -/
def writeEntry (slot : BootSlot) (cmdline : String) :
    Prog Site BootloaderError Disk Unit :=
  write .writeEntry (.io .failed) (entryBody slot cmdline)
    fun file => Disk.onEsp (Esp.putEntry slot file)

/-- `write_uki_entry`. -/
def writeUkiEntry (slot : BootSlot) : Prog Site BootloaderError Disk Unit :=
  write .writeEntry (.io .failed) (ukiEntryBody slot)
    fun file => Disk.onEsp (Esp.putEntry slot file)

/-- `write_loader_default`. -/
def writeLoaderDefault (next : BootSlot) :
    Prog Site BootloaderError Disk Unit := do
  guardSite .makeLoaderDir (.io .failed)
  write .writeLoader (.io .failed) (loaderBody next)
    fun file => Disk.onEsp (Esp.putLoader file)

/-- Copy one classic artifact to `pertisk/<SLOT>/`. -/
def copyClassic (slotDir : SlotDir) (next : BootSlot) (name : String) :
    Prog Site BootloaderError Disk Unit :=
  copy (.copyClassic name) (.io .notFound) (.io .failed) (slotDir name)
    fun file => Disk.onEsp (Esp.putImage next name file)

/-- `activate_slot` up to, and without, its `write_loader_default`. -/
def installSlot (slotDir : SlotDir) (next : BootSlot) (cmdline : String) :
    Prog Site BootloaderError Disk Unit := do
  guardSite .makeImageDir (.io .failed)
  guardSite .makeEntriesDir (.io .failed)
  if (slotDir "uki").isPresent then
    guardSite .makeUkiDir (.io .failed)
    copy .copyUki (.io .notFound) (.io .failed) (slotDir "uki")
      fun file => Disk.onEsp (Esp.putUki next file)
    -- classic copies are kept for rollback tooling, where there are any
    ["kernel", "initramfs"].forM fun name =>
      whenever (slotDir name).isPresent (copyClassic slotDir next name)
    writeUkiEntry next
  else
    ["kernel", "initramfs"].forM fun name =>
      if (slotDir name).isPresent then copyClassic slotDir next name
      else stop (.missing name)
    writeEntry next cmdline

/-- `activate_slot`. -/
def activateSlot (slotDir : SlotDir) (next : BootSlot) (cmdline : String) :
    Prog Site BootloaderError Disk Unit := do
  installSlot slotDir next cmdline
  writeLoaderDefault next

/-- `try_activate_slot`: without an ESP the update is meta-only. -/
def tryActivateSlot (slotDir : SlotDir) (next : BootSlot) (cmdline : String) :
    Prog Site BootloaderError Disk Bool := do
  match ← inspect Disk.esp with
  | some _ =>
      activateSlot slotDir next cmdline
      pure true
  | none => pure false

/-- `BootAssets`: what a fresh ESP is seeded from. -/
structure BootAssets where
  kernel : File Bytes
  initramfs : File Bytes
  uki : Option (File Bytes)
  bootloaderEfi : File Bytes
  cmdline : String

/-- `install_systemd_boot`. -/
def installSystemdBoot (bootloaderEfi : File Bytes) :
    Prog Site BootloaderError Disk Unit := do
  if bootloaderEfi.isPresent then
    guardSite .makeBootDir (.io .failed)
    copy .copyBootEfi (.io .notFound) (.io .failed) bootloaderEfi
      fun file => Disk.onEsp fun esp => { esp with bootEfi := file }
    guardSite .makeSystemdDir (.io .failed)
    copy .copySystemdEfi (.io .notFound) (.io .failed) bootloaderEfi
      fun file => Disk.onEsp fun esp => { esp with systemdEfi := file }
  else
    stop .missingBootloader

/-- Copy one asset into `.bootstrap-slot`. -/
def copyStaging (name : String) (source : File Bytes) :
    Prog Site BootloaderError Disk Unit :=
  copy (.copyStaging name) (.io .notFound) (.io .failed) source
    fun file => Disk.onEsp (Esp.putStaging name file)

/-- `.bootstrap-slot`, as far as it exists. -/
def Disk.stagingDir (disk : Disk) : SlotDir :=
  ((disk.esp.bind Esp.staging).getD emptyDir)

/-- Remove `.bootstrap-slot`. -/
def removeStaging (site : Site) : Prog Site BootloaderError Disk Unit :=
  attempt site (.io .failed)
    (Disk.onEsp fun esp => { esp with staging := none })
    (Disk.onEsp fun esp => { esp with staging := some emptyDir })

/-- Start over with an empty `.bootstrap-slot`. -/
def resetStaging : Prog Site BootloaderError Disk Unit := do
  let staging ← inspect fun disk => disk.esp.bind Esp.staging
  whenever staging.isSome (removeStaging .clearStaging)
  attempt .makeStaging (.io .failed)
    (Disk.onEsp fun esp => { esp with staging := some emptyDir }) id

def copyStagingUki : Option (File Bytes) → Prog Site BootloaderError Disk Unit
  | some uki => copyStaging "uki" uki
  | none => pure ()

/-- `bootstrap_esp`: systemd-boot, slot A and its loader entry. -/
def bootstrapEsp (assets : BootAssets) : Prog Site BootloaderError Disk Unit := do
  installSystemdBoot assets.bootloaderEfi
  resetStaging
  copyStaging "kernel" assets.kernel
  copyStaging "initramfs" assets.initramfs
  copyStagingUki assets.uki
  let staging ← inspect Disk.stagingDir
  activateSlot staging .A assets.cmdline
  removeStaging .removeStaging

/-- What `activate_slot` can be run on: a UKI, or the classic pair. -/
def Bootable (slotDir : SlotDir) : Prop :=
  (slotDir "uki").isPresent = true ∨
    ((slotDir "kernel").isPresent = true ∧ (slotDir "initramfs").isPresent = true)

instance (slotDir : SlotDir) : Decidable (Bootable slotDir) :=
  inferInstanceAs (Decidable (_ ∨ _))

/-- Nothing but images and entries on the ESP differs. -/
structure LoaderKept (before after : Disk) : Prop where
  bootMeta : after.bootMeta = before.bootMeta
  slots : after.slots = before.slots
  loader : after.esp.map Esp.loaderConf = before.esp.map Esp.loaderConf

namespace LoaderKept

variable {before after : Disk}

theorem refl (disk : Disk) : LoaderKept disk disk := ⟨rfl, rfl, rfl⟩

theorem onEsp (hkept : LoaderKept before after) (act : Esp → Esp)
    (hact : ∀ esp, (act esp).loaderConf = esp.loaderConf) :
    LoaderKept before (after.onEsp act) := by
  refine ⟨hkept.bootMeta, hkept.slots, ?_⟩
  rw [← hkept.loader]
  cases hesp : after.esp with
  | none => simp [Disk.onEsp, hesp]
  | some esp => simp [Disk.onEsp, hesp, hact]

theorem isSome_esp (hkept : LoaderKept before after) :
    after.esp.isSome = before.esp.isSome := by
  simpa using congrArg Option.isSome hkept.loader

theorem loaderDefault (hkept : LoaderKept before after) :
    after.loaderDefault = before.loaderDefault := by
  have hloader := hkept.loader
  cases hbefore : before.esp <;> cases hafter : after.esp <;>
    simp_all [Disk.loaderDefault, Esp.defaultSlot]

end LoaderKept

@[simp]
theorem loaderBody_ne : loaderBody .B ≠ loaderBody .A := by decide

/-- After a complete write of `loader.conf` the default is the written slot. -/
theorem loaderDefault_putLoader_holds {disk : Disk} (hesp : disk.esp.isSome = true)
    (next : BootSlot) :
    (disk.onEsp (Esp.putLoader (.holds (loaderBody next)))).loaderDefault =
      some next := by
  obtain ⟨esp, hsome⟩ := Option.isSome_iff_exists.1 hesp
  cases next <;>
    simp [Disk.loaderDefault, Disk.onEsp, hsome, Esp.putLoader, Esp.defaultSlot]

/-- After an abandoned write of `loader.conf` there is no default. -/
theorem loaderDefault_putLoader_damaged (disk : Disk) :
    (disk.onEsp (Esp.putLoader .damaged)).loaderDefault = none := by
  cases hesp : disk.esp <;>
    simp [Disk.loaderDefault, Disk.onEsp, hesp, Esp.putLoader, Esp.defaultSlot]

theorem copyClassic_keeps (faults : Faults Site) (slotDir : SlotDir)
    (next : BootSlot) (name : String) (before : Disk) :
    Keeps faults (LoaderKept before) (copyClassic slotDir next name) :=
  Keeps.copy fun _ _ h => h.onEsp _ fun _ => rfl

/-- Installing a slot leaves the metadata, STATE and `loader.conf` alone. -/
theorem installSlot_keeps (faults : Faults Site) (slotDir : SlotDir)
    (next : BootSlot) (cmdline : String) (before : Disk) :
    Keeps faults (LoaderKept before) (installSlot slotDir next cmdline) := by
  apply Keeps.bind (Keeps.guardSite _ _)
  intro _
  apply Keeps.bind (Keeps.guardSite _ _)
  intro _
  apply Keeps.ite
  · apply Keeps.bind (Keeps.guardSite _ _)
    intro _
    apply Keeps.bind (Keeps.copy fun _ _ h => h.onEsp _ fun _ => rfl)
    intro _
    apply Keeps.bind
    · apply Keeps.forM
      intro name _
      exact Keeps.whenever (copyClassic_keeps faults slotDir next name before)
    intro _
    exact Keeps.write fun _ _ h => h.onEsp _ fun _ => rfl
  · apply Keeps.bind
    · apply Keeps.forM
      intro name _
      exact Keeps.ite (copyClassic_keeps faults slotDir next name before)
        (Keeps.stop _)
    intro _
    exact Keeps.write fun _ _ h => h.onEsp _ fun _ => rfl

/-- Installing a slot directory that is not bootable stops. -/
theorem installSlot_bootable (faults : Faults Site) (slotDir : SlotDir)
    (next : BootSlot) (cmdline : String) :
    Triple faults (fun _ => True) (installSlot slotDir next cmdline)
      (fun _ _ => Bootable slotDir) (fun _ _ => True) := by
  by_cases hboot : Bootable slotDir
  · exact Triple.always (fun _ _ => hboot) fun _ _ => trivial
  have huki : ¬ (slotDir "uki").isPresent = true := fun h => hboot (.inl h)
  have hrest : Triple faults (fun _ => True)
      (["kernel", "initramfs"].forM fun name =>
        if (slotDir name).isPresent then copyClassic slotDir next name
        else stop (.missing name))
      (fun _ _ => Bootable slotDir) (fun _ _ => True) := by
    by_cases hkernel : (slotDir "kernel").isPresent = true
    · have hinitramfs : ¬ (slotDir "initramfs").isPresent = true :=
        fun h => hboot (.inr ⟨hkernel, h⟩)
      apply Triple.bind fun _ _ => True
      · exact Triple.always (fun _ _ => trivial) fun _ _ => trivial
      intro _
      apply Triple.bind fun _ _ => False
      · simpa only [if_neg hinitramfs] using Triple.stop fun _ _ => trivial
      exact fun _ _ h => h.elim
    · apply Triple.bind fun _ _ => False
      · simpa only [if_neg hkernel] using Triple.stop fun _ _ => trivial
      exact fun _ _ h => h.elim
  apply Triple.bind fun _ _ => True
  · exact Triple.always (fun _ _ => trivial) fun _ _ => trivial
  intro _
  apply Triple.bind fun _ _ => True
  · exact Triple.always (fun _ _ => trivial) fun _ _ => trivial
  intro _
  simp only [if_neg huki]
  apply Triple.bind (fun _ _ => Bootable slotDir) hrest
  exact fun _ _ h => absurd h hboot

/-- Installing a bootable slot directory goes through if nothing disturbs it. -/
theorem installSlot_succeeds {faults : Faults Site} (hquiet : QuietIn faults .install)
    {slotDir : SlotDir} (hboot : Bootable slotDir) (next : BootSlot)
    (cmdline : String) : Succeeds faults (installSlot slotDir next cmdline) := by
  apply Succeeds.bind (Succeeds.guardSite (hquiet _ rfl) _)
  intro _
  apply Succeeds.bind (Succeeds.guardSite (hquiet _ rfl) _)
  intro _
  have hclassic : ∀ name, (slotDir name).isPresent = true →
      Succeeds faults (copyClassic slotDir next name) :=
    fun name hname => Succeeds.copy (hquiet _ rfl) _ _ hname _
  by_cases huki : (slotDir "uki").isPresent = true
  · simp only [if_pos huki]
    apply Succeeds.bind (Succeeds.guardSite (hquiet _ rfl) _)
    intro _
    apply Succeeds.bind (Succeeds.copy (hquiet _ rfl) _ _ huki _)
    intro _
    apply Succeeds.bind
    · apply Succeeds.forM
      intro name _
      exact Succeeds.whenever (hclassic name)
    intro _
    exact Succeeds.write (hquiet _ rfl) _ _ _
  · simp only [if_neg huki]
    have hpair := hboot.resolve_left huki
    apply Succeeds.bind
    · apply Succeeds.forM
      intro name hname
      have hpresent : (slotDir name).isPresent = true := by
        simp only [List.mem_cons, List.not_mem_nil, or_false] at hname
        obtain rfl | rfl := hname
        · exact hpair.1
        · exact hpair.2
      simpa only [if_pos hpresent] using hclassic name hpresent
    intro _
    exact Succeeds.write (hquiet _ rfl) _ _ _

/-- What a `write_loader_default` for `next` leaves when it goes through. -/
def LoaderFlipped (next : BootSlot) (before after : Disk) : Prop :=
  ∃ installed, LoaderKept before installed ∧
    after = installed.onEsp (Esp.putLoader (.holds (loaderBody next)))

/-- What it leaves when `loader.conf` is torn. -/
def LoaderTorn (before after : Disk) : Prop :=
  ∃ installed, LoaderKept before installed ∧
    after = installed.onEsp (Esp.putLoader .damaged)

/-- `activate_slot` either stops before it touches `loader.conf`, tears it, or
makes a bootable slot directory the default. -/
theorem activateSlot_spec (faults : Faults Site) (slotDir : SlotDir)
    (next : BootSlot) (cmdline : String) (before : Disk) :
    Triple faults (· = before) (activateSlot slotDir next cmdline)
      (fun _ after => Bootable slotDir ∧ LoaderFlipped next before after)
      (fun _ after => LoaderKept before after ∨
        (faults .writeLoader = some .torn ∧ Bootable slotDir ∧
          LoaderTorn before after)) := by
  apply Triple.bindFact (fun _ => Bootable slotDir) (LoaderKept before)
  · have hinstall := Triple.both (installSlot_bootable faults slotDir next cmdline)
      (installSlot_keeps faults slotDir next cmdline before)
    exact hinstall.weaken (fun _ h => ⟨trivial, by rw [h]; exact LoaderKept.refl _⟩)
      (fun _ _ h => h) fun _ _ h => .inl h.2
  intro _ hboot
  apply Triple.bind fun _ => LoaderKept before
  · exact Triple.guardSite (fun _ _ h => h) fun _ _ h => .inl h
  intro _
  apply Triple.write
  · exact fun _ disk h => ⟨hboot, disk, h, rfl⟩
  · exact fun _ _ h => .inl h
  · exact fun htorn disk h => .inr ⟨htorn, hboot, disk, h, rfl⟩

/-- A `try_activate_slot` that returns: it did nothing because there is no ESP, or
it switched the default to a bootable slot directory. -/
def Switched (slotDir : SlotDir) (next : BootSlot) (before after : Disk) : Prop :=
  (before.esp = none ∧ after = before) ∨
    (before.esp.isSome = true ∧ Bootable slotDir ∧ LoaderFlipped next before after)

/-- A `try_activate_slot` that stops. -/
def SwitchStopped (faults : Faults Site) (slotDir : SlotDir)
    (before after : Disk) : Prop :=
  before.esp.isSome = true ∧
    (LoaderKept before after ∨
      (faults .writeLoader = some .torn ∧ Bootable slotDir ∧ LoaderTorn before after))

theorem tryActivateSlot_spec (faults : Faults Site) (slotDir : SlotDir)
    (next : BootSlot) (cmdline : String) (before : Disk) :
    Triple faults (· = before) (tryActivateSlot slotDir next cmdline)
      (fun _ after => Switched slotDir next before after)
      (fun _ after => SwitchStopped faults slotDir before after) := by
  apply Triple.bind fun esp disk => esp = before.esp ∧ disk = before
  · apply Triple.inspect
    intro disk hdisk
    exact ⟨congrArg _ hdisk, hdisk⟩
  intro esp
  cases esp with
  | none =>
      apply Triple.pure
      intro disk hdisk
      exact .inl ⟨hdisk.1.symm, hdisk.2⟩
  | some esp =>
      apply Triple.bind fun _ after => before.esp.isSome = true ∧
        Bootable slotDir ∧ LoaderFlipped next before after
      · intro disk hdisk
        have hsome : before.esp.isSome = true := by rw [← hdisk.1]; rfl
        exact (activateSlot_spec faults slotDir next cmdline before).weaken
          (fun _ h => h) (fun _ _ h => ⟨hsome, h⟩) (fun _ _ h => ⟨hsome, h⟩)
          disk hdisk.2
      intro _
      exact Triple.pure fun _ h => .inr h

namespace Switched

variable {slotDir : SlotDir} {next : BootSlot} {before after : Disk}

theorem bootMeta (hswitched : Switched slotDir next before after) :
    after.bootMeta = before.bootMeta := by
  obtain ⟨_, heq⟩ | ⟨_, _, installed, hkept, heq⟩ := hswitched
  · rw [heq]
  · rw [heq, Disk.onEsp_bootMeta, hkept.bootMeta]

theorem slots (hswitched : Switched slotDir next before after) :
    after.slots = before.slots := by
  obtain ⟨_, heq⟩ | ⟨_, _, installed, hkept, heq⟩ := hswitched
  · rw [heq]
  · rw [heq, Disk.onEsp_slots, hkept.slots]

theorem isSome_esp (hswitched : Switched slotDir next before after) :
    after.esp.isSome = before.esp.isSome := by
  obtain ⟨_, heq⟩ | ⟨_, _, installed, hkept, heq⟩ := hswitched
  · rw [heq]
  · rw [heq, ← hkept.isSome_esp]
    simp [Disk.onEsp]

theorem loaderDefault (hswitched : Switched slotDir next before after)
    (hesp : before.esp.isSome = true) : after.loaderDefault = some next := by
  obtain ⟨hnone, _⟩ | ⟨_, _, installed, hkept, heq⟩ := hswitched
  · simp [hnone] at hesp
  · rw [heq]
    exact loaderDefault_putLoader_holds (hkept.isSome_esp.trans hesp) next

theorem bootable (hswitched : Switched slotDir next before after)
    (hesp : before.esp.isSome = true) : Bootable slotDir := by
  obtain ⟨hnone, _⟩ | ⟨_, hboot, _⟩ := hswitched
  · simp [hnone] at hesp
  · exact hboot

end Switched

/-- Nothing but the contents of the ESP differs. -/
structure EspOnly (before after : Disk) : Prop where
  bootMeta : after.bootMeta = before.bootMeta
  slots : after.slots = before.slots
  present : after.esp.isSome = before.esp.isSome

theorem EspOnly.onEsp {before after : Disk} (honly : EspOnly before after)
    (act : Esp → Esp) : EspOnly before (after.onEsp act) :=
  ⟨honly.bootMeta, honly.slots, by simpa [Disk.onEsp] using honly.present⟩

theorem EspOnly.flipped {before middle after : Disk} {next : BootSlot}
    (honly : EspOnly before middle) (hflipped : LoaderFlipped next middle after) :
    EspOnly before after := by
  obtain ⟨installed, hkept, heq⟩ := hflipped
  rw [heq]
  apply EspOnly.onEsp
  exact ⟨hkept.bootMeta.trans honly.bootMeta, hkept.slots.trans honly.slots,
    hkept.isSome_esp.trans honly.present⟩

theorem copyStaging_keeps (faults : Faults Site) (name : String)
    (source : File Bytes) (before : Disk) :
    Keeps faults (EspOnly before) (copyStaging name source) :=
  Keeps.copy fun _ _ h => h.onEsp _

theorem installSystemdBoot_keeps (faults : Faults Site) (bootloaderEfi : File Bytes)
    (before : Disk) :
    Keeps faults (EspOnly before) (installSystemdBoot bootloaderEfi) := by
  apply Keeps.ite
  · apply Keeps.bind (Keeps.guardSite _ _)
    intro _
    apply Keeps.bind (Keeps.copy fun _ _ h => h.onEsp _)
    intro _
    apply Keeps.bind (Keeps.guardSite _ _)
    intro _
    exact Keeps.copy fun _ _ h => h.onEsp _
  · exact Keeps.stop _

theorem resetStaging_keeps (faults : Faults Site) (before : Disk) :
    Keeps faults (EspOnly before) resetStaging := by
  apply Keeps.bind (Keeps.inspect _)
  intro staging
  apply Keeps.bind
  · apply Keeps.whenever
    exact Keeps.attempt (fun _ h => h.onEsp _) fun _ h => h.onEsp _
  intro _
  exact Keeps.attempt (fun _ h => h.onEsp _) fun _ h => h

theorem copyStagingUki_keeps (faults : Faults Site) (uki : Option (File Bytes))
    (before : Disk) : Keeps faults (EspOnly before) (copyStagingUki uki) := by
  cases uki with
  | none => exact Keeps.pure _
  | some uki => exact copyStaging_keeps faults "uki" uki before

/-- `bootstrap_esp` makes slot A the default and writes nothing but the ESP: STATE
gets no slot directory. -/
theorem bootstrapEsp_spec (faults : Faults Site) (assets : BootAssets)
    (before : Disk) (hesp : before.esp.isSome = true) :
    Triple faults (· = before) (bootstrapEsp assets)
      (fun _ after => EspOnly before after ∧ after.loaderDefault = some .A)
      (fun _ _ => True) := by
  have hloose : ∀ {A : Type} {prog : Prog Site BootloaderError Disk A},
      Keeps faults (EspOnly before) prog →
      Triple faults (EspOnly before) prog (fun _ => EspOnly before)
        (fun _ _ => True) :=
    fun hkeeps => hkeeps.weaken (fun _ h => h) (fun _ _ h => h) fun _ _ _ => trivial
  apply Triple.bind fun _ => EspOnly before
  · exact (installSystemdBoot_keeps faults assets.bootloaderEfi before).weaken
      (fun _ h => by rw [h]; exact ⟨rfl, rfl, rfl⟩) (fun _ _ h => h)
      fun _ _ _ => trivial
  intro _
  apply Triple.bind (fun _ => EspOnly before) (hloose (resetStaging_keeps _ _))
  intro _
  apply Triple.bind (fun _ => EspOnly before) (hloose (copyStaging_keeps _ _ _ _))
  intro _
  apply Triple.bind (fun _ => EspOnly before) (hloose (copyStaging_keeps _ _ _ _))
  intro _
  apply Triple.bind (fun _ => EspOnly before) (hloose (copyStagingUki_keeps _ _ _))
  intro _
  apply Triple.bind (fun _ => EspOnly before) (hloose (Keeps.inspect _))
  intro staging
  apply Triple.bind fun _ disk => EspOnly before disk ∧ disk.loaderDefault = some .A
  · intro disk hdisk
    have hpresent := hdisk.present.trans hesp
    refine (activateSlot_spec faults staging .A assets.cmdline disk).weaken
      (fun _ h => h) ?_ (fun _ _ _ => trivial) disk rfl
    intro _ after hafter
    have hswitched : Switched staging .A disk after := .inr ⟨hpresent, hafter⟩
    exact ⟨hdisk.flipped hafter.2, hswitched.loaderDefault hpresent⟩
  intro _
  apply Triple.attempt
  · intro _ disk hdisk
    have hkept := (LoaderKept.refl disk).onEsp
      (fun esp => { esp with staging := none }) fun _ => rfl
    exact ⟨hdisk.1.onEsp _, hkept.loaderDefault.trans hdisk.2⟩
  · exact fun _ _ _ => trivial
  · exact fun _ _ _ => trivial

end PertiskKos.Update
