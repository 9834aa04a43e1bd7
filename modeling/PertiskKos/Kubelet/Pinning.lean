import PertiskKos.Library.Fallible
import PertiskKos.Library.Strings
import PertiskKos.Library.Utf8

/-!
# Pinning the version of kubelet

The root file system of a node starts from the image at every boot, and a kubelet of another
version is kept on STATE.  What a file contains decides what it answers to `--version`; a
copy or a download may stop half-way.
-/

namespace PertiskKos.Kubelet

open Strings Utf8 Fallible

inductive Error where
  | io
  | context (message : Text)
  deriving DecidableEq

inductive Site where
  | readVersion
  | makeRestoreDir
  | restoreCopy
  | chmodRestored
  | makeBinDir
  | createTmp
  | writeTmp
  | flushTmp
  | chmodTmp
  | removeTmp
  | rename
  | makeRuntimeDir
  | persistCopy
  | chmodCopy
  | writeVersion
  deriving DecidableEq

/-- The installed binary, the download in progress, and the copy on STATE with its version. -/
structure Files where
  installed : Option Bytes
  tmp : Option Bytes
  copy : Option Bytes
  version : Option Bytes
  downloads : Nat
  deriving DecidableEq

/-- What a GET of the release gives.  The body may end early, with an error or unnoticed. -/
inductive Answer where
  | unreachable
  | response (status : Nat) (body : Bytes) (complete : Bool)
  deriving DecidableEq

structure World where
  binary : Text
  arch : Text
  stateIsDir : Bool
  answer : Text → Answer
  /-- How many bytes an abandoned write has written. -/
  written : Site → Nat

section Code

-- what a file prints when it is run with `--version`, if it can be run and succeeds
variable (run : Bytes → Option Bytes)

def isVersion (token : Text) : Bool := startsWith token ['v'] && token.contains '.'

def readKubeletVersion (file : Option Bytes) : Option Text := do
  let content ← file
  let stdout ← run content
  let token ← (splitWhitespace (lossy stdout)).find? isVersion
  pure (trim token)

/-- With or without a leading `v` or a `+build` suffix. -/
def versionsMatch (got want : Text) : Bool :=
  let got := trimStartMatches ['v'] (trim got)
  let want := trimStartMatches ['v'] (trim want)
  got.takeWhile (· ≠ '+') = want

def normalizeK8sVersion (v : Text) : Text :=
  let v := trim v
  if startsWith v ['v'] then v else 'v' :: v

def hostArch (arch : Text) : Text :=
  if arch = "aarch64".toList then "arm64".toList else "amd64".toList

/-- The file answers with the wanted version. -/
def Reports (want : Text) (file : Option Bytes) : Prop :=
  ∃ got, readKubeletVersion run file = some got ∧ versionsMatch got want = true

instance (want : Text) (file : Option Bytes) : Decidable (Reports run want file) :=
  match hread : readKubeletVersion run file with
  | some got =>
      decidable_of_iff (versionsMatch got want = true) (by simp [Reports, hread])
  | none => isFalse (by simp [Reports, hread])

variable (world : World)

def writeBody (body : Bytes) (complete : Bool) : Prog Site Error Files Unit :=
  if complete then
    attempt .writeTmp .io (fun files => { files with tmp := some body })
      fun files => { files with tmp := some (body.take (world.written .writeTmp)) }
  else do
    change fun files => { files with tmp := some (body.take (world.written .writeTmp)) }
    stop (.context "read download body".toList)

def downloadTo (url dest : Text) : Prog Site Error Files Unit := do
  change fun files => { files with downloads := files.downloads + 1 }
  match world.answer url with
  | .unreachable => stop (.context ("GET ".toList ++ url))
  | .response status body complete =>
      if 400 ≤ status then stop (.context ("GET ".toList ++ url))
      else if status ≠ 200 then
        stop (.context ("GET ".toList ++ url ++ " → HTTP ".toList ++ Nat.toDigits 10 status))
      else do
        attempt .createTmp (.context ("create ".toList ++ dest))
          (fun files => { files with tmp := some [] }) id
        writeBody world body complete
        guardSite .flushTmp .io

def copyToState (installed : Option Bytes) : Prog Site Error Files Unit :=
  match installed with
  | none => stop .io
  | some content =>
      attempt .persistCopy .io (fun files => { files with copy := some content })
        fun files => { files with copy := some (content.take (world.written .persistCopy)) }

def saveToState (want : Text) : Prog Site Error Files Unit := do
  guardSite .makeRuntimeDir .io
  let files ← inspect id
  copyToState world files.installed
  guardSite .chmodCopy .io
  let line := encode (want ++ ['\n'])
  attempt .writeVersion .io (fun files => { files with version := some line })
    fun files => { files with version := some (line.take (world.written .writeVersion)) }

/-- Keep the installed binary on STATE; what goes wrong is only logged. -/
def persistKubelet (want : Text) : Prog Site Error Files Unit :=
  whenever world.stateIsDir (ignore (saveToState world want))

/-- The version that STATE says its copy has; nothing if the file cannot be read. -/
def storedVersion (readable : Bool) (file : Option Bytes) : Text :=
  if readable then (file.bind decode).getD [] else []

def restorePersistedKubelet (want : Text) : Prog Site Error Files Bool := do
  let files ← inspect id
  match files.copy, files.version with
  | some content, some _ => do
      let readable ← outcome (guardSite .readVersion .io : Prog Site Error Files Unit)
      if !versionsMatch (trim (storedVersion readable.isOk files.version)) want then pure false
      else if !decide (Reports run want files.copy) then pure false
      else do
        guardSite .makeRestoreDir .io
        attempt .restoreCopy (.context ("restore kubelet /system/state/runtime/kubelet → ".toList ++
            world.binary))
          (fun files => { files with installed := some content })
          fun files => { files with
            installed := some (content.take (world.written .restoreCopy)) }
        guardSite .chmodRestored .io
        pure true
  | _, _ => pure false

def releaseUrl (want : Text) : Text :=
  "https://dl.k8s.io/release/".toList ++ want ++ "/bin/linux/".toList ++ hostArch world.arch ++
    "/kubelet".toList

def removeTmp : Prog Site Error Files Unit :=
  attempt .removeTmp .io (fun files => { files with tmp := none }) id

/-- The sanity check before the swap. -/
def checkDownload (want : Text) (tmp : Option Bytes) : Prog Site Error Files Unit :=
  match readKubeletVersion run tmp with
  | some got =>
      if !versionsMatch got want then do
        ignore removeTmp
        stop (.context ("downloaded kubelet reports ".toList ++ got ++ ", expected ".toList ++
          want))
      else pure ()
  -- it is installed anyway, with a warning
  | none => pure ()

/-- Download a kubelet, look at its version, and put it in the place of the installed one. -/
def downloadKubelet (want : Text) : Prog Site Error Files Bool := do
  guardSite .makeBinDir .io
  downloadTo world (releaseUrl world want) (".kubelet.".toList ++ want ++ ".tmp".toList)
  guardSite .chmodTmp .io
  let files ← inspect id
  checkDownload run want files.tmp
  attempt .rename (.context ("install kubelet → ".toList ++ world.binary))
    (fun files => { files with installed := files.tmp, tmp := none }) id
  persistKubelet world want
  pure true

/-- Get the installed kubelet to the wanted version; true if it has been replaced. -/
def ensureKubeletVersion (want : Text) : Prog Site Error Files Bool := do
  let want := normalizeK8sVersion want
  let files ← inspect id
  if Reports run want files.installed then do
    persistKubelet world want
    pure false
  else
    let restored ← restorePersistedKubelet run world want
    if restored then pure true else downloadKubelet run world want

end Code

section Specs

variable {run : Bytes → Option Bytes} {world : World} {faults : Faults Site} {want : Text}

def Keeps (installed : Option Bytes) (files : Files) : Prop := files.installed = installed

/-- The body of an answer is complete in the temporary file. -/
def Fetched (answer : Answer) (installed : Option Bytes) (files : Files) : Prop :=
  files.installed = installed ∧
    ∃ body, answer = .response 200 body true ∧ files.tmp = some body

/-- Keeping a copy touches neither the installed binary nor the network. -/
theorem persistKubelet_spec (kept : Option Bytes → Nat → Prop) (fail : Error → Files → Prop) :
    Triple faults (fun files => kept files.installed files.downloads)
      (persistKubelet world want)
      (fun _ files => kept files.installed files.downloads) fail := by
  rw [persistKubelet]
  cases world.stateIsDir with
  | false => exact Triple.pure fun files h => h
  | true =>
      rw [whenever_true]
      refine Triple.ignore (Triple.bind (fun _ files => kept files.installed files.downloads)
        (Triple.guardSite (fun _ files h => h) fun _ files h => h) fun _ => ?_)
      refine Triple.bind (fun _ files => kept files.installed files.downloads)
        (Triple.inspect fun files h => h) fun read => ?_
      refine Triple.bind (fun _ files => kept files.installed files.downloads) ?_ fun _ => ?_
      · cases read.installed with
        | none => exact Triple.stop fun files h => h
        | some content =>
            exact Triple.attempt (fun _ files h => h) (fun _ files h => h) fun _ files h => h
      · refine Triple.bind (fun _ files => kept files.installed files.downloads)
          (Triple.guardSite (fun _ files h => h) fun _ files h => h) fun _ => ?_
        exact Triple.attempt (fun _ files h => h) (fun _ files h => h) fun _ files h => h

theorem writeBody_spec (body : Bytes) (complete : Bool) (installed : Option Bytes) :
    Triple faults (Keeps installed) (writeBody world body complete)
      (fun _ => Fetched (.response 200 body complete) installed) (fun _ => Keeps installed) := by
  cases complete with
  | true =>
      exact Triple.attempt (fun _ files h => ⟨h, body, rfl, rfl⟩) (fun _ files h => h)
        fun _ files h => h
  | false =>
      exact Triple.bind (fun _ => Keeps installed) (Triple.change fun files h => h)
        fun _ => Triple.stop fun files h => h

/-- A download that returns has written the whole body of the answer. -/
theorem downloadTo_spec (url dest : Text) (installed : Option Bytes) :
    Triple faults (Keeps installed) (downloadTo world url dest)
      (fun _ => Fetched (world.answer url) installed) (fun _ => Keeps installed) := by
  rw [downloadTo]
  refine Triple.bind (fun _ => Keeps installed) (Triple.change fun files h => h) fun _ => ?_
  cases world.answer url with
  | unreachable => exact Triple.stop fun files h => h
  | response status body complete =>
      dsimp only
      split
      · exact Triple.stop fun files h => h
      · split
        · exact Triple.stop fun files h => h
        · next hstatus =>
            rw [Decidable.not_not] at hstatus
            subst hstatus
            refine Triple.bind (fun _ => Keeps installed) (Triple.attempt (fun _ files h => h)
              (fun _ files h => h) fun _ files h => h) fun _ => ?_
            refine Triple.bind (fun _ => Fetched (.response 200 body complete) installed)
              (writeBody_spec body complete installed) fun _ => ?_
            exact Triple.guardSite (fun _ files h => h) fun _ files h => h.1

variable (run world want) in
/-- The kubelet that has just been downloaded, which cannot be run. -/
def Unchecked (file : Option Bytes) : Prop :=
  ∃ body, world.answer (releaseUrl world want) = .response 200 body true ∧ file = some body ∧
    readKubeletVersion run file = none

/-- A downloaded kubelet that has a version has the wanted one. -/
theorem downloadKubelet_spec (installed : Option Bytes) :
    Triple faults (Keeps installed) (downloadKubelet run world want)
      (fun _ files => Reports run want files.installed ∨ Unchecked run world want files.installed)
      (fun _ => Keeps installed) := by
  let answer := world.answer (releaseUrl world want)
  rw [downloadKubelet]
  refine Triple.bind (fun _ => Keeps installed)
    (Triple.guardSite (fun _ files h => h) fun _ files h => h) fun _ => ?_
  refine Triple.bind (fun _ => Fetched answer installed) (downloadTo_spec _ _ installed)
    fun _ => ?_
  refine Triple.bind (fun _ => Fetched answer installed)
    (Triple.guardSite (fun _ files h => h) fun _ files h => h.1) fun _ => ?_
  refine Triple.bind (fun read files => Fetched answer installed files ∧ files = read)
    (Triple.inspect fun files h => ⟨h, rfl⟩) fun read => ?_
  refine Triple.bind (fun _ files => Keeps installed files ∧
    (Reports run want files.tmp ∨ Unchecked run world want files.tmp)) ?_ fun _ => ?_
  · rw [checkDownload]
    cases hread : readKubeletVersion run read.tmp with
    | none =>
        refine Triple.pure fun files h => ?_
        obtain ⟨⟨hkeeps, body, hanswer, htmp⟩, rfl⟩ := h
        exact ⟨hkeeps, .inr ⟨body, hanswer, htmp, hread⟩⟩
    | some got =>
        dsimp only
        split
        · refine Triple.bind (fun _ => Keeps installed) ?_ fun _ => Triple.stop fun files h => h
          exact Triple.ignore (Triple.attempt (fun _ files h => h.1.1) (fun _ files h => h.1.1)
            fun _ files h => h.1.1)
        · next hmatch =>
            refine Triple.pure fun files h => ?_
            obtain ⟨⟨hkeeps, -⟩, rfl⟩ := h
            exact ⟨hkeeps, .inl ⟨got, hread, by simpa using hmatch⟩⟩
  · refine Triple.bind (fun _ files => Reports run want files.installed ∨
      Unchecked run world want files.installed) (Triple.attempt (fun _ files h => h.2)
      (fun _ files h => h.1) fun _ files h => h.1) fun _ => ?_
    refine Triple.bind (fun _ files => Reports run want files.installed ∨
      Unchecked run world want files.installed) ?_ fun _ => Triple.pure fun files h => h
    exact persistKubelet_spec (fun installed _ => Reports run want installed ∨
      Unchecked run world want installed) _

variable (run want) in
/-- STATE has a copy that says and answers that it is the wanted version. -/
def Restorable (files : Files) : Prop :=
  (∃ readable, versionsMatch (trim (storedVersion readable files.version)) want = true) ∧
    Reports run want files.copy

/-- A copy from STATE is put in place of the installed binary only if it is the wanted one. -/
theorem restorePersistedKubelet_spec (before : Files) :
    Triple faults (· = before) (restorePersistedKubelet run world want)
      (fun restored files => if restored then Reports run want files.installed
        else files = before)
      (fun _ files => Restorable run want before ∨ Keeps before.installed files) := by
  rw [restorePersistedKubelet]
  refine Triple.bind (fun read files => files = before ∧ read = before)
    (Triple.inspect fun files h => ⟨h, h⟩) fun read => ?_
  split
  · next content _ hcopy _ =>
      refine Triple.bind (fun _ files => files = before ∧ read = before)
        (Triple.outcome (Triple.guardSite (fun _ files h => h) fun _ files h => h))
        fun readable => ?_
      split
      · exact Triple.pure fun files h => h.1
      · next hstored =>
          split
          · exact Triple.pure fun files h => h.1
          · next hcopied =>
              have hreports : Reports run want read.copy := by simpa using hcopied
              have hrestorable : read = before → Restorable run want before := by
                rintro rfl
                exact ⟨⟨readable.isOk, by simpa using hstored⟩, hreports⟩
              refine Triple.bind (fun _ files => files = before ∧ read = before)
                (Triple.guardSite (fun _ files h => h) fun _ files h => .inl (hrestorable h.2))
                fun _ => ?_
              refine Triple.bind (fun _ files => Reports run want files.installed ∧ read = before)
                (Triple.attempt (fun _ files h => ⟨hcopy ▸ hreports, h.2⟩)
                  (fun _ files h => .inl (hrestorable h.2))
                  fun _ files h => .inl (hrestorable h.2)) fun _ => ?_
              refine Triple.bind (fun _ files => Reports run want files.installed)
                (Triple.guardSite (fun _ files h => h.1)
                  fun _ files h => .inl (hrestorable h.2)) fun _ => ?_
              exact Triple.pure fun files h => h
  · exact Triple.pure fun files h => h.1

/-- Whether it is already there, restored or downloaded: a kubelet that has a version has the
wanted one. -/
theorem ensureKubeletVersion_spec (before : Files) :
    Triple faults (· = before) (ensureKubeletVersion run world want)
      (fun _ files => Reports run (normalizeK8sVersion want) files.installed ∨
        Unchecked run world (normalizeK8sVersion want) files.installed)
      (fun _ files => Restorable run (normalizeK8sVersion want) before ∨
        Keeps before.installed files) := by
  rw [ensureKubeletVersion]
  refine Triple.bind (fun read files => files = before ∧ read = before)
    (Triple.inspect fun files h => ⟨h, h⟩) fun read => ?_
  split
  · next hreports =>
      refine Triple.bind (fun _ files => Reports run (normalizeK8sVersion want) files.installed)
        ?_ fun _ => Triple.pure fun files h => .inl h
      refine Triple.weaken (persistKubelet_spec (fun installed _ =>
        Reports run (normalizeK8sVersion want) installed) fun _ _ => False) ?_
        (fun _ files h => h) fun _ files h => h.elim
      rintro files ⟨rfl, rfl⟩
      exact hreports
  · refine Triple.bind (fun restored files =>
      if restored then Reports run (normalizeK8sVersion want) files.installed
        else files = before) ?_ fun restored => ?_
    · exact Triple.weaken (restorePersistedKubelet_spec before) (fun files h => h.1)
        (fun _ files h => h) fun _ files h => h
    · cases restored with
      | true => exact Triple.pure fun files h => .inl h
      | false =>
          refine Triple.weaken (downloadKubelet_spec before.installed) ?_
            (fun _ files h => h) fun _ files h => .inr h
          rintro files rfl
          rfl

/-- Where the installed kubelet is the wanted one there is nothing to do. -/
theorem ensureKubeletVersion_again {before : Files}
    (hreports : Reports run (normalizeK8sVersion want) before.installed) :
    ∃ after, ensureKubeletVersion run world want faults before = .ok false after ∧
      after.downloads = before.downloads := by
  have htriple : Triple faults (· = before) (ensureKubeletVersion run world want)
      (fun replaced files => replaced = false ∧ files.downloads = before.downloads)
      (fun _ _ => False) := by
    rw [ensureKubeletVersion]
    refine Triple.bind (fun read files => files = before ∧ read = before)
      (Triple.inspect fun files h => ⟨h, h⟩) fun read => ?_
    split
    · refine Triple.bind (fun _ files => files.downloads = before.downloads) ?_
        fun _ => Triple.pure fun files h => ⟨rfl, h⟩
      refine Triple.weaken (persistKubelet_spec (fun _ downloads => downloads = before.downloads)
        fun _ _ => False) ?_ (fun _ files h => h) fun _ files h => h
      rintro files ⟨rfl, -⟩
      rfl
    · next hnot =>
        rintro files ⟨-, rfl⟩
        exact absurd hreports hnot
  have hrun := htriple before rfl
  cases hresult : ensureKubeletVersion run world want faults before with
  | ok replaced after =>
      rw [hresult] at hrun
      obtain ⟨rfl, hdownloads⟩ := hrun
      exact ⟨after, rfl, hdownloads⟩
  | error err after =>
      rw [hresult] at hrun
      exact hrun.elim

end Specs

section Pinned

variable (run : Bytes → Option Bytes) (world : World) (faults : Faults Site) (want : Text)
variable (before : Files)

/-- A second call has nothing to do, whatever goes wrong in it. -/
def NothingLeft (after : Files) : Prop :=
  ∀ (world : World) (faults : Faults Site), ∃ later,
    ensureKubeletVersion run world want faults after = .ok false later ∧
      later.downloads = after.downloads

/-- What pinning is to promise. -/
structure Pinned : Prop where
  reports : ∀ replaced after, ensureKubeletVersion run world want faults before =
    .ok replaced after → Reports run (normalizeK8sVersion want) after.installed
  kept : ∀ err after, ensureKubeletVersion run world want faults before = .error err after →
    after.installed = before.installed
  again : ∀ replaced after, ensureKubeletVersion run world want faults before =
    .ok replaced after → NothingLeft run want after

/-- What it does: a kubelet that cannot be run is installed all the same. -/
structure PinnedIfRuns : Prop where
  reports : ∀ replaced after, ensureKubeletVersion run world want faults before =
    .ok replaced after → Reports run (normalizeK8sVersion want) after.installed ∨
      Unchecked run world (normalizeK8sVersion want) after.installed
  kept : ∀ err after, ensureKubeletVersion run world want faults before = .error err after →
    ¬ Restorable run (normalizeK8sVersion want) before → after.installed = before.installed
  again : ∀ replaced after, ensureKubeletVersion run world want faults before =
    .ok replaced after → Reports run (normalizeK8sVersion want) after.installed →
    NothingLeft run want after

variable {run world faults want before}

/-- For every state of the three files, every answer of the server and every fault: a call that
returns leaves the wanted kubelet or one that has just been downloaded and cannot be run; one
that fails leaves the installed kubelet alone, unless it had one on STATE to restore; and once
the wanted one is there nothing is left to do. -/
theorem kubelet_pinned_if_runs (run : Bytes → Option Bytes) (world : World)
    (faults : Faults Site) (want : Text) (before : Files) :
    PinnedIfRuns run world faults want before where
  reports _ _ hrun := (ensureKubeletVersion_spec before).of_ok rfl hrun
  kept _ _ hrun hnot := ((ensureKubeletVersion_spec before).of_error rfl hrun).resolve_left hnot
  again _ _ _ hreports _ _ := ensureKubeletVersion_again hreports

/-- The first four bytes of a kubelet stand for the whole of it. -/
def sampleRun (content : Bytes) : Option Bytes :=
  if content = [0x7f, 0x45, 0x4c, 0x46] then
    some (encode ['K', 'u', 'b', 'e', 'r', 'n', 'e', 't', 'e', 's', ' ', 'v', '1', '.', '3', '6',
      '.', '3', '\n'])
  else none

/-- The body of the download ends after two bytes, unnoticed. -/
def sampleWorld : World where
  binary := "/usr/local/bin/kubelet".toList
  arch := "x86_64".toList
  stateIsDir := true
  answer _ := .response 200 [0x7f, 0x45] true
  written _ := 0

theorem kubelet_installed_unchecked :
    ¬ ∀ (run : Bytes → Option Bytes) (world : World) (faults : Faults Site) (want : Text)
      (before : Files), Pinned run world faults want before := by
  intro hclaim
  let want : Text := ['v', '1', '.', '3', '6', '.', '3']
  have hpinned := hclaim sampleRun sampleWorld calm want ⟨none, none, none, none, 0⟩
  have hrun : ensureKubeletVersion sampleRun sampleWorld want calm ⟨none, none, none, none, 0⟩ =
      .ok true ⟨some [0x7f, 0x45], none, some [0x7f, 0x45], some (encode (want ++ ['\n'])), 1⟩ := by
    rfl
  have hreports := hpinned.reports _ _ hrun
  exact absurd hreports (by decide +kernel)

end Pinned

end PertiskKos.Kubelet
