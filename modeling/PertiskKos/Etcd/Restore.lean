import PertiskKos.Etcd.Manifest
import PertiskKos.Library.Fallible

/-!
# Restoring etcd, and forcing a new cluster

Both operations stop etcd by renaming its manifest to a sidecar, in the live
directory and in the one on STATE, and enable it again at their end.  Between the
two they replace the data directory or rewrite the manifest, and every step may be
the last one: nothing is put back on the way out.
-/

namespace PertiskKos.Etcd

open Strings Fallible

/-- The manifest of etcd in one directory, and its disabled sidecar. -/
structure ManifestDir where
  etcd : Option Text
  disabled : Option Text
  deriving DecidableEq, Repr

inductive DataDir (Data : Type) where
  | absent
  | empty
  | holds (data : Data)
  | damaged
  deriving DecidableEq, Repr

def DataDir.isPresent {Data : Type} : DataDir Data → Bool
  | .absent => false
  | _ => true

/-- The files of both operations.  When `linked` holds, the live directory is a link to
the one on STATE. -/
structure EtcdFiles (Data : Type) where
  linked : Bool
  live : ManifestDir
  state : ManifestDir
  data : DataDir Data
  deriving DecidableEq, Repr

inductive Place where
  | live
  | state
  deriving DecidableEq, Repr

inductive Phase where
  | restore
  | force
  | retry
  | final
  deriving DecidableEq, Repr

inductive RestoreStep where
  | forceRequired
  | snapshotMissing
  | addressRequired
  | noLiveAddress
  | manifestMissing
  | readManifest (phase : Phase)
  | disable (phase : Phase) (place : Place)
  | waitDown (phase : Phase)
  | removeData (phase : Phase)
  | mkdirData (phase : Phase)
  | canonicalize
  | findCtr
  | spawnEtcdutl
  | etcdutl
  | enable (place : Place)
  | cannotEnable
  | writeState (phase : Phase)
  | removeLive (phase : Phase)
  | writeLive (phase : Phase)
  | listenAll (phase : Phase)
  | removeSidecar (phase : Phase) (place : Place)
  | waitUp (phase : Phase)
  deriving DecidableEq, Repr

structure RestoreError where
  step : RestoreStep
  text : Text
  deriving DecidableEq, Repr

section Files

variable {Data : Type}

def EtcdFiles.dir (files : EtcdFiles Data) : Place → ManifestDir
  | .live => if files.linked then files.state else files.live
  | .state => files.state

def EtcdFiles.update (place : Place) (edit : ManifestDir → ManifestDir)
    (files : EtcdFiles Data) : EtcdFiles Data :=
  match place with
  | .live =>
      if files.linked then { files with state := edit files.state }
      else { files with live := edit files.live }
  | .state => { files with state := edit files.state }

def EtcdFiles.setData (data : DataDir Data) (files : EtcdFiles Data) : EtcdFiles Data :=
  { files with data := data }

@[simp]
theorem EtcdFiles.dir_setData (data : DataDir Data) (files : EtcdFiles Data)
    (place : Place) : (files.setData data).dir place = files.dir place := by
  cases place <;> rfl

@[simp]
theorem EtcdFiles.data_setData (data : DataDir Data) (files : EtcdFiles Data) :
    (files.setData data).data = data := rfl

@[simp]
theorem EtcdFiles.data_update (place : Place) (edit : ManifestDir → ManifestDir)
    (files : EtcdFiles Data) : (files.update place edit).data = files.data := by
  cases place <;> cases hlinked : files.linked <;> simp [update, hlinked]

@[simp]
theorem EtcdFiles.linked_update (place : Place) (edit : ManifestDir → ManifestDir)
    (files : EtcdFiles Data) : (files.update place edit).linked = files.linked := by
  cases place <;> cases hlinked : files.linked <;> simp [update, hlinked]

@[simp]
theorem EtcdFiles.dir_update_self (place : Place) (edit : ManifestDir → ManifestDir)
    (files : EtcdFiles Data) :
    (files.update place edit).dir place = edit (files.dir place) := by
  cases place <;> cases hlinked : files.linked <;> simp [update, dir, hlinked]

/-- A change on STATE shows in the live directory if that is a link. -/
theorem EtcdFiles.dir_live_update_state (edit : ManifestDir → ManifestDir)
    (files : EtcdFiles Data) :
    (files.update .state edit).dir .live =
      if files.linked then edit (files.dir .live) else files.dir .live := by
  cases hlinked : files.linked <;> simp [update, dir, hlinked]

theorem EtcdFiles.dir_state_of_linked {files : EtcdFiles Data}
    (hlinked : files.linked = true) : files.dir .state = files.dir .live := by
  simp [dir, hlinked]

/-- The four files in the order in which the manifest is looked for. -/
def EtcdFiles.findManifest (files : EtcdFiles Data) : Option Text :=
  (files.dir .live).etcd.or ((files.dir .live).disabled.or
    ((files.dir .state).etcd.or (files.dir .state).disabled))

end Files

def ManifestDir.disable (dir : ManifestDir) : ManifestDir :=
  { etcd := none, disabled := dir.etcd }

def ManifestDir.enable (dir : ManifestDir) : ManifestDir :=
  { etcd := dir.disabled, disabled := none }

def etcdData : Text := "/var/lib/etcd".toList

def liveManifest : Text := "/etc/kubernetes/manifests/etcd.yaml".toList

section Steps

variable {Data : Type}

abbrev RestoreProg (Data A : Type) := Prog RestoreStep RestoreError (EtcdFiles Data) A

-- the path of the manifest on STATE
variable (stateManifest : Text)

def manifestPath : Place → Text
  | .live => liveManifest
  | .state => stateManifest

def disablePlace (phase : Phase) (place : Place) : RestoreProg Data Unit := do
  let manifest ← inspect fun files => (files.dir place).etcd
  whenever manifest.isSome
    (attempt (.disable phase place)
      ⟨.disable phase place,
        "disable etcd manifest ".toList ++ manifestPath stateManifest place⟩
      (EtcdFiles.update place ManifestDir.disable) id)

def disableEtcdStaticPod (phase : Phase) : RestoreProg Data Unit := do
  disablePlace stateManifest phase .live
  disablePlace stateManifest phase .state

def enablePlace (place : Place) : RestoreProg Data Bool := do
  let sidecar ← inspect fun files => (files.dir place).disabled
  whenever sidecar.isSome
    (attempt (.enable place)
      ⟨.enable place,
        "re-enable etcd manifest ".toList ++ manifestPath stateManifest place⟩
      (EtcdFiles.update place ManifestDir.enable) id)
  pure sidecar.isSome

def enableEtcdStaticPod : RestoreProg Data Unit := do
  let live ← enablePlace stateManifest .live
  let state ← enablePlace stateManifest .state
  let enabled ← inspect fun files => (files.dir .live).etcd.isSome
  whenever (!(live || state) && !enabled)
    (stop ⟨.cannotEnable, "etcd manifest missing; cannot re-enable static pod".toList⟩)

def waitEtcdDown (phase : Phase) : RestoreProg Data Unit :=
  guardSite (.waitDown phase)
    ⟨.waitDown phase,
      "etcd still listening on :2379 after disabling static pod".toList⟩

def waitEtcdUp (phase : Phase) (text : Text) : RestoreProg Data Unit :=
  guardSite (.waitUp phase) ⟨.waitUp phase, text⟩

/-- Remove the data directory if there is one, and make it. -/
def clearData (phase : Phase) (removeText : Text) : RestoreProg Data Unit := do
  let data ← inspect EtcdFiles.data
  whenever data.isPresent
    (attempt (.removeData phase) ⟨.removeData phase, removeText⟩
      (EtcdFiles.setData .absent) (EtcdFiles.setData .damaged))
  attempt (.mkdirData phase) ⟨.mkdirData phase, "mkdir ".toList ++ etcdData⟩
    (EtcdFiles.setData .empty) id

/-- `etcdutl` on the host or in a container. -/
def runEtcdutlRestore (snapshotPath : Text) (onHost : Bool) (restored : Data) :
    RestoreProg Data Unit := do
  guardSite .canonicalize ⟨.canonicalize, "canonicalize ".toList ++ snapshotPath⟩
  guardSite .findCtr
    ⟨.findCtr, "ctr not found (need containerd ctr for etcdutl)".toList⟩
  guardSite .spawnEtcdutl
    ⟨.spawnEtcdutl, (if onHost then "run etcdutl" else "ctr run etcdutl").toList⟩
  attempt .etcdutl
    ⟨.etcdutl, (if onHost then "etcdutl exited" else "ctr etcdutl restore exited").toList⟩
    (EtcdFiles.setData (.holds restored)) (EtcdFiles.setData .damaged)

/-- The arguments of a restore.  `restored` is what `etcdutl` makes of the snapshot,
the member name and its URLs. -/
structure RestoreRequest (Data : Type) where
  force : Bool
  snapshotPath : Text
  snapshotIsFile : Bool
  onHost : Bool
  restored : Data

def etcdRestoreInner (request : RestoreRequest Data) : RestoreProg Data Text := do
  whenever (!request.force)
    (stop ⟨.forceRequired,
      "EtcdRestore requires force=true (destroys local etcd data dir)".toList⟩)
  whenever (!request.snapshotIsFile)
    (stop ⟨.snapshotMissing, "snapshot not found: ".toList ++ request.snapshotPath⟩)
  disableEtcdStaticPod stateManifest .restore
  waitEtcdDown .restore
  clearData .restore ("remove ".toList ++ etcdData)
  runEtcdutlRestore request.snapshotPath request.onHost request.restored
  enableEtcdStaticPod stateManifest
  waitEtcdUp .restore "etcd not healthy after restore".toList
  pure ("restored ".toList ++ request.snapshotPath ++ " into ".toList ++ etcdData ++
    "; etcd static pod re-enabled".toList)

/-- The first of the four files that exists. -/
def readEtcdManifest (phase : Phase) (text : Text) : RestoreProg Data Text := do
  let found ← inspect EtcdFiles.findManifest
  match found with
  | none =>
      stop ⟨.manifestMissing,
        "etcd static pod manifest missing (".toList ++ liveManifest ++ [')']⟩
  | some yaml => do
      guardSite (.readManifest phase) ⟨.readManifest phase, text⟩
      pure yaml

/-- Write the live manifest, after the one on STATE, unless both are one file.
`torn` is what an abandoned write leaves of a text. -/
def writeLiveManifest (torn : Text → Text) (phase : Phase) (contents context : Text) :
    RestoreProg Data Unit := do
  ignore (attempt (.removeLive phase) ()
    (EtcdFiles.update .live fun dir => { dir with etcd := none }) id)
  attempt (.writeLive phase) ⟨.writeLive phase, context⟩
    (EtcdFiles.update .live fun dir => { dir with etcd := some contents })
    (EtcdFiles.update .live fun dir => { dir with etcd := some (torn contents) })

def writeEtcdManifest (torn : Text → Text) (phase : Phase) (contents context : Text) :
    RestoreProg Data Unit := do
  attempt (.writeState phase) ⟨.writeState phase, context⟩
    (EtcdFiles.update .state fun dir => { dir with etcd := some contents })
    (EtcdFiles.update .state fun dir => { dir with etcd := some (torn contents) })
  let linked ← inspect EtcdFiles.linked
  whenever (!linked) (writeLiveManifest torn phase contents context)

/-- Bind etcd to all addresses in the manifest on STATE; errors are dropped. -/
def listenOnAll (torn : Text → Text) (phase : Phase) : RestoreProg Data Unit := do
  let raw ← inspect fun files => (files.dir .state).etcd
  match raw.bind ensureEtcdListenAll with
  | none => pure ()
  | some out =>
      ignore (attempt (.listenAll phase) ()
        (EtcdFiles.update .state fun dir => { dir with etcd := some out })
        (EtcdFiles.update .state fun dir => { dir with etcd := some (torn out) }))

def removeEtcdDisabledSidecars (phase : Phase) : RestoreProg Data Unit := do
  ignore (attempt (.removeSidecar phase .live) ()
    (EtcdFiles.update .live fun dir => { dir with disabled := none }) id)
  ignore (attempt (.removeSidecar phase .state) ()
    (EtcdFiles.update .state fun dir => { dir with disabled := none }) id)

/-- `maybe_rebase_advertise`, as far as this operation sees it: it may edit the
manifests, but it removes none and stays away from the data. -/
structure AdvertiseRebase (Data : Type) where
  rebase : EtcdFiles Data → EtcdFiles Data
  data_rebase : ∀ files, (rebase files).data = files.data
  live_rebase : ∀ files,
    ((rebase files).dir .live).etcd.isSome = (files.dir .live).etcd.isSome

structure ForceRequest (Data : Type) where
  force : Bool
  memberName : Text
  advertiseIp : Text
  detectedIp : Option Text
  maybeRebase : AdvertiseRebase Data
  /-- What an abandoned write leaves of a text. -/
  torn : Text → Text

/-- Put the patched manifest in place and let kubelet start etcd. -/
def enablePatched (torn : Text → Text) (phase : Phase) (patched context : Text) :
    RestoreProg Data Unit := do
  writeEtcdManifest torn phase patched context
  listenOnAll torn phase
  removeEtcdDisabledSidecars phase

/-- The second try, on an erased data directory. -/
def retryForceNew (torn : Text → Text) (patched : Text) : RestoreProg Data Unit := do
  disableEtcdStaticPod stateManifest .retry
  waitEtcdDown .retry
  clearData .retry "wipe /var/lib/etcd for force-new-cluster retry".toList
  enablePatched torn .retry patched "re-write etcd manifest after wipe".toList
  waitEtcdUp .retry "etcd not healthy after force-new-cluster wipe retry".toList

def firstWait (torn : Text → Text) (patched : Text) : RestoreProg Data Unit := do
  let first ← outcome (waitEtcdUp .force "etcd not healthy after restore".toList)
  match first with
  | .ok () => pure ()
  | .error _ => retryForceNew stateManifest torn patched

/-- Stop etcd and start it alone on its own data, then strip the flag again. -/
def runForceNew (torn : Text → Text) (raw name advertise : Text) :
    RestoreProg Data Text := do
  disableEtcdStaticPod stateManifest .force
  waitEtcdDown .force
  let patched := patchEtcdManifestForceNewCluster raw name advertise
  enablePatched torn .force patched
    "write etcd manifest with --force-new-cluster".toList
  firstWait stateManifest torn patched
  let live ← readEtcdManifest .final "re-read etcd manifest".toList
  writeEtcdManifest torn .final
    (finalizeEtcdManifestAfterForceNew live name advertise)
    "strip --force-new-cluster from etcd manifest".toList
  waitEtcdUp .final "etcd not healthy after restore".toList
  pure ("etcd --force-new-cluster as ".toList ++ name ++ '=' :: peerUrl advertise ++
    "; flag stripped after healthy".toList)

def forceName (memberName raw : Text) : Text :=
  if trim memberName = [] then
    (etcdFlagValue raw "--name=".toList).getD "pertisk-cp-1".toList
  else trim memberName

def etcdForceNewClusterInner (request : ForceRequest Data) : RestoreProg Data Text := do
  whenever (!request.force)
    (stop ⟨.forceRequired,
      "EtcdRestore force_new_cluster requires force=true".toList⟩)
  whenever (trim request.advertiseIp = [])
    (stop ⟨.addressRequired,
      "advertise address required for force-new-cluster".toList⟩)
  change request.maybeRebase.rebase
  let raw ← readEtcdManifest .force "read ".toList
  let advertise := trim (request.detectedIp.getD (trim request.advertiseIp))
  whenever (advertise = [])
    (stop ⟨.noLiveAddress,
      "could not determine live advertise IP for force-new-cluster".toList⟩)
  runForceNew stateManifest request.torn raw (forceName request.memberName raw) advertise

end Steps

/-- etcd is switched off: its manifest is in the sidecar. -/
def Parked {Data : Type} (content : Text) (files : EtcdFiles Data) : Prop :=
  files.dir .live = { etcd := none, disabled := some content }

/-- etcd is switched on, with this manifest and no sidecar. -/
def Enabled {Data : Type} (content : Text) (files : EtcdFiles Data) : Prop :=
  files.dir .live = { etcd := some content, disabled := none }

section Specs

variable {Data : Type} {stateManifest : Text} {faults : Faults RestoreStep}
variable {content : Text} {data : DataDir Data}

theorem disablePlace_live {before : EtcdFiles Data} (phase : Phase)
    (hmanifest : (before.dir .live).etcd = some content) :
    Triple faults (· = before) (disablePlace stateManifest phase .live)
      (fun _ files => Parked content files ∧ files.data = before.data)
      fun err files => err.step = .disable phase .live ∧ files = before := by
  apply Triple.bindFact (· = some content) (· = before)
  · apply Triple.inspect
    rintro files rfl
    exact ⟨hmanifest, rfl⟩
  · rintro _ rfl
    apply Triple.attempt
    · rintro - files rfl
      simp [Parked, ManifestDir.disable, hmanifest]
    · exact fun _ files hfiles => ⟨rfl, hfiles⟩
    · exact fun _ files hfiles => ⟨rfl, hfiles⟩

/-- Switching off on STATE leaves the live directory as it is: either it is another
directory, or the manifest is gone from it already. -/
theorem disablePlace_state (phase : Phase) :
    Triple faults (fun files => Parked content files ∧ files.data = data)
      (disablePlace stateManifest phase .state)
      (fun _ files => Parked content files ∧ files.data = data)
      fun err files => err.step = .disable phase .state ∧
        Parked content files ∧ files.data = data := by
  apply Triple.bind fun manifest files =>
    manifest = (files.dir .state).etcd ∧ Parked content files ∧ files.data = data
  · exact Triple.inspect fun files hfiles => ⟨rfl, hfiles⟩
  intro manifest
  cases manifest with
  | none => exact Triple.pure fun _ hfiles => hfiles.2
  | some other =>
      apply Triple.attempt
      · rintro - files ⟨hother, hparked, hdata⟩
        have hlinked : files.linked = false := by
          cases hlinked : files.linked with
          | false => rfl
          | true =>
              rw [EtcdFiles.dir_state_of_linked hlinked, hparked] at hother
              cases hother
        refine ⟨?_, by simpa using hdata⟩
        simpa [Parked, EtcdFiles.dir_live_update_state, hlinked] using hparked
      · exact fun _ files hfiles => ⟨rfl, hfiles.2⟩
      · exact fun _ files hfiles => ⟨rfl, hfiles.2⟩

theorem disableEtcdStaticPod_spec {before : EtcdFiles Data} (phase : Phase)
    (hmanifest : (before.dir .live).etcd = some content) :
    Triple faults (· = before) (disableEtcdStaticPod stateManifest phase)
      (fun _ files => Parked content files ∧ files.data = before.data)
      fun err files => err.step = .disable phase .live ∧ files = before ∨
        err.step = .disable phase .state ∧ Parked content files ∧
          files.data = before.data := by
  apply Triple.bind fun _ files => Parked content files ∧ files.data = before.data
  · exact (disablePlace_live phase hmanifest).weaken (fun _ h => h) (fun _ _ h => h)
      fun _ _ h => .inl h
  · exact fun _ => (disablePlace_state phase).weaken (fun _ h => h) (fun _ _ h => h)
      fun _ _ h => .inr h

theorem enablePlace_live :
    Triple faults (fun files => Parked content files ∧ files.data = data)
      (enablePlace stateManifest .live)
      (fun sidecar files => sidecar = true ∧ Enabled content files ∧ files.data = data)
      fun err files => err.step = .enable .live ∧ Parked content files := by
  apply Triple.bindFact (· = some content)
    fun files => Parked content files ∧ files.data = data
  · apply Triple.inspect
    rintro files ⟨hparked, hdata⟩
    exact ⟨congrArg ManifestDir.disabled hparked, hparked, hdata⟩
  rintro _ rfl
  apply Triple.bind fun _ files => Enabled content files ∧ files.data = data
  · apply Triple.attempt
    · rintro - files ⟨hparked, hdata⟩
      refine ⟨?_, by simpa using hdata⟩
      rw [Enabled, EtcdFiles.dir_update_self, hparked]
      rfl
    · exact fun _ files hfiles => ⟨rfl, hfiles.1⟩
    · exact fun _ files hfiles => ⟨rfl, hfiles.1⟩
  · exact fun _ => Triple.pure fun _ hfiles => ⟨rfl, hfiles⟩

theorem enablePlace_state :
    Triple faults (fun files => Enabled content files ∧ files.data = data)
      (enablePlace stateManifest .state)
      (fun _ files => Enabled content files ∧ files.data = data)
      fun err files => err.step = .enable .state ∧
        Enabled content files ∧ files.data = data := by
  apply Triple.bind fun sidecar files =>
    sidecar = (files.dir .state).disabled ∧ Enabled content files ∧ files.data = data
  · exact Triple.inspect fun files hfiles => ⟨rfl, hfiles⟩
  intro sidecar
  apply Triple.bind fun _ files => Enabled content files ∧ files.data = data
  · cases sidecar with
    | none => exact Triple.pure fun _ hfiles => hfiles.2
    | some other =>
        apply Triple.attempt
        · rintro - files ⟨hother, henabled, hdata⟩
          have hlinked : files.linked = false := by
            cases hlinked : files.linked with
            | false => rfl
            | true =>
                rw [EtcdFiles.dir_state_of_linked hlinked, henabled] at hother
                cases hother
          refine ⟨?_, by simpa using hdata⟩
          simpa [Enabled, EtcdFiles.dir_live_update_state, hlinked] using henabled
        · exact fun _ files hfiles => ⟨rfl, hfiles.2⟩
        · exact fun _ files hfiles => ⟨rfl, hfiles.2⟩
  · exact fun _ => Triple.pure fun _ hfiles => hfiles

theorem enableEtcdStaticPod_spec :
    Triple faults (fun files => Parked content files ∧ files.data = data)
      (enableEtcdStaticPod stateManifest)
      (fun _ files => Enabled content files ∧ files.data = data)
      fun err files => err.step = .enable .live ∧ Parked content files ∨
        err.step = .enable .state ∧ Enabled content files ∧ files.data = data := by
  apply Triple.bindFact (· = true) fun files =>
    Enabled content files ∧ files.data = data
  · exact enablePlace_live.weaken (fun _ h => h) (fun _ _ h => h) fun _ _ h => .inl h
  rintro _ rfl
  apply Triple.bind fun _ files => Enabled content files ∧ files.data = data
  · exact enablePlace_state.weaken (fun _ h => h) (fun _ _ h => h) fun _ _ h => .inr h
  intro state
  apply Triple.bind fun _ files => Enabled content files ∧ files.data = data
  · exact Triple.inspect fun _ hfiles => hfiles
  · exact fun _ => Triple.pure fun _ hfiles => hfiles

theorem clearData_spec (phase : Phase) (removeText : Text) :
    Triple faults (Parked content)
      (clearData phase removeText : RestoreProg Data Unit) (fun _ => Parked content)
      fun err files => (err.step = .removeData phase ∨ err.step = .mkdirData phase) ∧
        Parked content files := by
  have hset : ∀ data (files : EtcdFiles Data), Parked content files →
      Parked content (files.setData data) := by
    intro data files hfiles
    simpa [Parked] using hfiles
  apply Triple.bind fun _ => Parked content
  · exact Triple.inspect fun _ hfiles => hfiles
  intro present
  apply Triple.bind fun _ => Parked content
  · cases present.isPresent with
    | false => exact Triple.pure fun _ hfiles => hfiles
    | true =>
        apply Triple.attempt
        · exact fun _ => hset _
        · exact fun _ _ hfiles => ⟨.inl rfl, hfiles⟩
        · exact fun _ files hfiles => ⟨.inl rfl, hset _ files hfiles⟩
  · intro _
    apply Triple.attempt
    · exact fun _ => hset _
    · exact fun _ _ hfiles => ⟨.inr rfl, hfiles⟩
    · exact fun _ _ hfiles => ⟨.inr rfl, hfiles⟩

/-- How far a restore has come when it stops. -/
inductive RestoreStage where
  | untouched
  | stopped
  | erased
  | enabled
  deriving DecidableEq, Repr

def RestoreStep.restoreStage : RestoreStep → RestoreStage
  | .forceRequired | .snapshotMissing | .disable _ .live => .untouched
  | .disable _ .state | .waitDown _ => .stopped
  | .enable .state | .waitUp _ => .enabled
  | _ => .erased

theorem runEtcdutlRestore_spec (snapshotPath : Text) (onHost : Bool) (restored : Data) :
    Triple faults (Parked content) (runEtcdutlRestore snapshotPath onHost restored)
      (fun _ files => Parked content files ∧ files.data = .holds restored)
      fun err files => err.step.restoreStage = .erased ∧ Parked content files := by
  apply Triple.bind fun _ => Parked content
  · exact Triple.guardSite (fun _ _ h => h) fun _ _ h => ⟨rfl, h⟩
  intro _
  apply Triple.bind fun _ => Parked content
  · exact Triple.guardSite (fun _ _ h => h) fun _ _ h => ⟨rfl, h⟩
  intro _
  apply Triple.bind fun _ => Parked content
  · exact Triple.guardSite (fun _ _ h => h) fun _ _ h => ⟨rfl, h⟩
  intro _
  apply Triple.attempt
  · exact fun _ files hfiles => ⟨by simpa [Parked] using hfiles, rfl⟩
  · exact fun _ files hfiles => ⟨rfl, hfiles⟩
  · exact fun _ files hfiles => ⟨rfl, by simpa [Parked] using hfiles⟩

/-- What a restore that stops with an error has left. -/
def RestoreFailure (before : EtcdFiles Data) (content : Text) (restored : Data)
    (err : RestoreError) (after : EtcdFiles Data) : Prop :=
  match err.step.restoreStage with
  | .untouched => after = before
  | .stopped => Parked content after ∧ after.data = before.data
  | .erased => Parked content after
  | .enabled => Enabled content after ∧ after.data = .holds restored

theorem etcdRestoreInner_spec (request : RestoreRequest Data) {before : EtcdFiles Data}
    (hmanifest : (before.dir .live).etcd = some content) :
    Triple faults (· = before) (etcdRestoreInner stateManifest request)
      (fun _ files => Enabled content files ∧ files.data = .holds request.restored)
      (RestoreFailure before content request.restored) := by
  apply Triple.bind fun _ => (· = before)
  · cases request.force with
    | true => exact Triple.pure fun _ h => h
    | false => exact Triple.stop fun _ h => h
  intro _
  apply Triple.bind fun _ => (· = before)
  · cases request.snapshotIsFile with
    | true => exact Triple.pure fun _ h => h
    | false => exact Triple.stop fun _ h => h
  intro _
  apply Triple.bind fun _ files => Parked content files ∧ files.data = before.data
  · apply (disableEtcdStaticPod_spec .restore hmanifest).weaken (fun _ h => h)
      (fun _ _ h => h)
    rintro ⟨step, text⟩ files (⟨rfl, hfiles⟩ | ⟨rfl, hfiles⟩)
    · exact hfiles
    · exact hfiles
  intro _
  apply Triple.bind fun _ files => Parked content files ∧ files.data = before.data
  · exact Triple.guardSite (fun _ _ h => h) fun _ _ h => h
  intro _
  have herased : ∀ (err : RestoreError) (files : EtcdFiles Data),
      err.step.restoreStage = .erased → Parked content files →
        RestoreFailure before content request.restored err files := by
    intro err files hstage hfiles
    rw [RestoreFailure, hstage]
    exact hfiles
  apply Triple.bind fun _ => Parked content
  · apply (clearData_spec .restore _).weaken (fun _ h => h.1) (fun _ _ h => h)
    rintro err files ⟨hstep | hstep, hfiles⟩
    · exact herased err files (by rw [hstep]; rfl) hfiles
    · exact herased err files (by rw [hstep]; rfl) hfiles
  intro _
  apply Triple.bind fun _ files =>
    Parked content files ∧ files.data = .holds request.restored
  · exact (runEtcdutlRestore_spec _ _ _).weaken (fun _ h => h) (fun _ _ h => h)
      fun err files h => herased err files h.1 h.2
  intro _
  apply Triple.bind fun _ files =>
    Enabled content files ∧ files.data = .holds request.restored
  · apply enableEtcdStaticPod_spec.weaken (fun _ h => h) (fun _ _ h => h)
    rintro ⟨step, text⟩ files (⟨rfl, hfiles⟩ | ⟨rfl, hfiles⟩)
    · exact hfiles
    · exact hfiles
  intro _
  apply Triple.bind fun _ files =>
    Enabled content files ∧ files.data = .holds request.restored
  · exact Triple.guardSite (fun _ _ h => h) fun _ _ h => h
  · exact fun _ => Triple.pure fun _ h => h

end Specs

section ForceSpecs

variable {Data : Type} {stateManifest : Text} {faults : Faults RestoreStep}
-- what is known of the data directory, which the manifests do not touch
variable {known : DataDir Data → Prop}

/-- Some manifest is in place in the live directory. -/
def LiveManifest (files : EtcdFiles Data) : Prop := (files.dir .live).etcd.isSome = true

theorem liveManifest_update {edit : ManifestDir → ManifestDir} (place : Place)
    (hedit : ∀ dir, dir.etcd.isSome = true → (edit dir).etcd.isSome = true)
    {files : EtcdFiles Data} (hlive : LiveManifest files) :
    LiveManifest (files.update place edit) := by
  cases place with
  | live => simpa [LiveManifest] using hedit _ hlive
  | state =>
      rw [LiveManifest, EtcdFiles.dir_live_update_state]
      split
      · exact hedit _ hlive
      · exact hlive

theorem disablePlace_data (phase : Phase) (place : Place) :
    Triple faults (fun files => known files.data) (disablePlace stateManifest phase place)
      (fun _ files => known files.data)
      fun err files => err.step = .disable phase place ∧ known files.data := by
  apply Triple.bind fun _ files => known files.data
  · exact Triple.inspect fun _ h => h
  intro manifest
  cases manifest with
  | none => exact Triple.pure fun _ h => h
  | some text =>
      apply Triple.attempt
      · exact fun _ files h => by simpa using h
      · exact fun _ _ h => ⟨rfl, h⟩
      · exact fun _ _ h => ⟨rfl, h⟩

theorem disableEtcdStaticPod_data (phase : Phase) :
    Triple faults (fun files => known files.data)
      (disableEtcdStaticPod stateManifest phase) (fun _ files => known files.data)
      fun err files => (∃ place, err.step = .disable phase place) ∧
        known files.data := by
  apply Triple.bind fun _ files => known files.data
  · exact (disablePlace_data phase .live).weaken (fun _ h => h) (fun _ _ h => h)
      fun _ _ h => ⟨⟨_, h.1⟩, h.2⟩
  · exact fun _ => (disablePlace_data phase .state).weaken (fun _ h => h)
      (fun _ _ h => h) fun _ _ h => ⟨⟨_, h.1⟩, h.2⟩

theorem writeEtcdManifest_spec (torn : Text → Text) (phase : Phase)
    (contents context : Text) :
    Triple faults (fun files => known files.data)
      (writeEtcdManifest torn phase contents context)
      (fun _ files => LiveManifest files ∧ known files.data)
      fun err files => (err.step = .writeState phase ∨ err.step = .writeLive phase) ∧
        known files.data := by
  apply Triple.bind fun _ files =>
    (files.dir .state).etcd.isSome = true ∧ known files.data
  · apply Triple.attempt
    · exact fun _ files h => ⟨by simp, by simpa using h⟩
    · exact fun _ files h => ⟨.inl rfl, h⟩
    · exact fun _ files h => ⟨.inl rfl, by simpa using h⟩
  intro _
  apply Triple.bind fun linked files =>
    (linked = true → LiveManifest files) ∧ known files.data
  · apply Triple.inspect
    rintro files ⟨hstate, h⟩
    refine ⟨fun hlinked => ?_, h⟩
    rwa [LiveManifest, ← EtcdFiles.dir_state_of_linked hlinked]
  intro linked
  cases linked with
  | true => exact Triple.pure fun _ h => ⟨h.1 rfl, h.2⟩
  | false =>
      apply Triple.bind fun _ files => known files.data
      · apply Triple.ignore
        apply Triple.attempt
        · exact fun _ files h => by simpa using h.2
        · exact fun _ _ h => h.2
        · exact fun _ _ h => h.2
      · intro _
        apply Triple.attempt
        · exact fun _ files h => ⟨by simp [LiveManifest], by simpa using h⟩
        · exact fun _ _ h => ⟨.inr rfl, h⟩
        · exact fun _ files h => ⟨.inr rfl, by simpa using h⟩

/-- Edits of the manifests that remove none, and whose errors are dropped. -/
theorem editManifests_spec {edit edit' : ManifestDir → ManifestDir} (step : RestoreStep)
    (place : Place) {fail : RestoreError → EtcdFiles Data → Prop}
    (hedit : ∀ dir, dir.etcd.isSome = true → (edit dir).etcd.isSome = true)
    (hedit' : ∀ dir, dir.etcd.isSome = true → (edit' dir).etcd.isSome = true) :
    Triple faults (fun files => LiveManifest files ∧ known files.data)
      (ignore (attempt step () (EtcdFiles.update place edit)
        (EtcdFiles.update place edit')) : RestoreProg Data Unit)
      (fun _ files => LiveManifest files ∧ known files.data) fail := by
  apply Triple.ignore
  apply Triple.attempt
  · exact fun _ files h => ⟨liveManifest_update place hedit h.1, by simpa using h.2⟩
  · exact fun _ _ h => h
  · exact fun _ files h => ⟨liveManifest_update place hedit' h.1, by simpa using h.2⟩

theorem listenOnAll_spec (torn : Text → Text) (phase : Phase)
    {fail : RestoreError → EtcdFiles Data → Prop} :
    Triple faults (fun files => LiveManifest files ∧ known files.data)
      (listenOnAll torn phase) (fun _ files => LiveManifest files ∧ known files.data)
      fail := by
  apply Triple.bind fun _ files => LiveManifest files ∧ known files.data
  · exact Triple.inspect fun _ h => h
  intro raw
  cases raw.bind ensureEtcdListenAll with
  | none => exact Triple.pure fun _ h => h
  | some out => exact editManifests_spec _ _ (fun _ _ => rfl) fun _ _ => rfl

theorem removeEtcdDisabledSidecars_spec (phase : Phase)
    {fail : RestoreError → EtcdFiles Data → Prop} :
    Triple faults (fun files => LiveManifest files ∧ known files.data)
      (removeEtcdDisabledSidecars phase)
      (fun _ files => LiveManifest files ∧ known files.data) fail := by
  have hremove : ∀ place (files : EtcdFiles Data), LiveManifest files ∧ known files.data →
      LiveManifest (files.update place fun dir => { dir with disabled := none }) ∧
        known (files.update place fun dir => { dir with disabled := none }).data := by
    intro place files hfiles
    exact ⟨liveManifest_update place (fun dir hsome => by exact hsome) hfiles.1,
      by simpa using hfiles.2⟩
  apply Triple.bind fun _ files => LiveManifest files ∧ known files.data
  · apply Triple.ignore
    exact Triple.attempt (fun _ => hremove .live) (fun _ _ h => h) fun _ _ h => h
  · intro _
    apply Triple.ignore
    exact Triple.attempt (fun _ => hremove .state) (fun _ _ h => h) fun _ _ h => h

theorem enablePatched_spec (torn : Text → Text) (phase : Phase)
    (patched context : Text) :
    Triple faults (fun files => known files.data)
      (enablePatched torn phase patched context)
      (fun _ files => LiveManifest files ∧ known files.data)
      fun err files => (err.step = .writeState phase ∨ err.step = .writeLive phase) ∧
        known files.data := by
  apply Triple.bind fun _ files => LiveManifest files ∧ known files.data
  · exact writeEtcdManifest_spec torn phase patched context
  intro _
  apply Triple.bind fun _ files => LiveManifest files ∧ known files.data
  · exact listenOnAll_spec torn phase
  · exact fun _ => removeEtcdDisabledSidecars_spec phase

/-- How far the operation has come when it stops. -/
inductive ForceStage where
  | untouched
  | stopped
  | started
  | changing
  deriving DecidableEq, Repr

def RestoreStep.forceStage : RestoreStep → ForceStage
  | .forceRequired | .addressRequired | .noLiveAddress | .readManifest .force
  | .disable .force .live => .untouched
  | .disable _ _ | .waitDown _ | .writeState .force | .writeLive .force => .stopped
  | .waitUp _ | .readManifest _ => .started
  | _ => .changing

/-- What a forced new cluster that stops with an error has left.  The data is only
given up when the first wait for etcd fails. -/
def ForceFailure (faults : Faults RestoreStep) (before rebased : EtcdFiles Data)
    (err : RestoreError) (after : EtcdFiles Data) : Prop :=
  match err.step.forceStage with
  | .untouched => after = before ∨ after = rebased
  | .stopped => after.data = before.data
  | .started => LiveManifest after ∧
      (faults (.waitUp .force) = none → after.data = before.data)
  | .changing => faults (.waitUp .force) = none → after.data = before.data

theorem retryForceNew_spec (torn : Text → Text) (patched : Text)
    {before rebased : EtcdFiles Data} (hfirst : faults (.waitUp .force) ≠ none) :
    Triple faults (fun files => files.data = before.data)
      (retryForceNew stateManifest torn patched)
      (fun _ => LiveManifest) (ForceFailure faults before rebased) := by
  have hchanging : ∀ (err : RestoreError) (files : EtcdFiles Data),
      err.step.forceStage = .changing → ForceFailure faults before rebased err files := by
    intro err files hstage
    rw [ForceFailure, hstage]
    exact fun hquiet => absurd hquiet hfirst
  apply Triple.bind fun _ files => files.data = before.data
  · have hdisable := @disableEtcdStaticPod_data Data stateManifest faults
      (· = before.data) .retry
    apply hdisable.weaken (fun _ h => h) (fun _ _ h => h)
    rintro ⟨step, text⟩ files ⟨⟨place, rfl⟩, hdata⟩
    exact hdata
  intro _
  apply Triple.bind fun _ files => files.data = before.data
  · exact Triple.guardSite (fun _ _ h => h) fun _ _ h => h
  intro _
  apply Triple.bind fun _ _ => True
  · apply Triple.bind fun _ _ => True
    · exact Triple.inspect fun _ _ => trivial
    intro present
    apply Triple.bind fun _ _ => True
    · cases present.isPresent with
      | false => exact Triple.pure fun _ _ => trivial
      | true =>
          apply Triple.attempt
          · exact fun _ _ _ => trivial
          · exact fun _ files _ => hchanging _ files rfl
          · exact fun _ _ _ => hchanging _ _ rfl
    · intro _
      apply Triple.attempt
      · exact fun _ _ _ => trivial
      · exact fun _ files _ => hchanging _ files rfl
      · exact fun _ files _ => hchanging _ files rfl
  intro _
  apply Triple.bind fun _ => LiveManifest
  · apply (@enablePatched_spec Data faults (fun _ => True) torn .retry patched _).weaken
      (fun _ h => h) (fun _ _ h => h.1)
    rintro err files ⟨hstep | hstep, -⟩
    · exact hchanging err files (by rw [hstep]; rfl)
    · exact hchanging err files (by rw [hstep]; rfl)
  · intro _
    apply Triple.guardSite
    · exact fun _ _ h => h
    · exact fun _ _ h => ⟨h, fun hquiet => absurd hquiet hfirst⟩

theorem firstWait_spec (torn : Text → Text) (patched : Text)
    {before rebased : EtcdFiles Data} :
    Triple faults (fun files => LiveManifest files ∧ files.data = before.data)
      (firstWait stateManifest torn patched)
      (fun _ files => LiveManifest files ∧
        (faults (.waitUp .force) = none → files.data = before.data))
      (ForceFailure faults before rebased) := by
  apply Triple.bind fun first files =>
    (LiveManifest files ∧ files.data = before.data) ∧
      ∀ err, first = .error err → faults (.waitUp .force) ≠ none
  · apply Triple.outcome
    apply Triple.guardSite
    · exact fun _ _ h => ⟨h, fun _ herr => nomatch herr⟩
    · exact fun hfault _ h => ⟨h, fun _ _ => hfault⟩
  intro first
  cases first with
  | ok _ => exact Triple.pure fun _ h => ⟨h.1.1, fun _ => h.1.2⟩
  | error err =>
      rintro files ⟨⟨-, hdata⟩, hfault⟩
      have hfirst := hfault err rfl
      exact (retryForceNew_spec torn patched hfirst).weaken (fun _ h => h)
        (fun _ _ h => ⟨h, fun hquiet => absurd hquiet hfirst⟩) (fun _ _ h => h) files hdata

theorem readEtcdManifest_live {inv : EtcdFiles Data → Prop} (phase : Phase)
    (text : Text) :
    Triple faults (fun files => LiveManifest files ∧ inv files)
      (readEtcdManifest phase text)
      (fun _ files => LiveManifest files ∧ inv files)
      fun err files => err.step = .readManifest phase ∧
        LiveManifest files ∧ inv files := by
  apply Triple.bind fun found files =>
    found.isSome = true ∧ LiveManifest files ∧ inv files
  · apply Triple.inspect
    rintro files ⟨hlive, hinv⟩
    refine ⟨?_, hlive, hinv⟩
    rw [EtcdFiles.findManifest, Option.isSome_or, hlive]
    rfl
  intro found
  cases found with
  | none => exact Triple.stop fun _ h => nomatch h.1
  | some yaml =>
      apply Triple.bind fun _ files => LiveManifest files ∧ inv files
      · exact Triple.guardSite (fun _ _ h => h.2) fun _ _ h => ⟨rfl, h.2⟩
      · exact fun _ => Triple.pure fun _ h => h

theorem runForceNew_spec (torn : Text → Text) (raw name advertise : Text)
    {before rebased : EtcdFiles Data} (hlive : LiveManifest rebased)
    (hdata : rebased.data = before.data) :
    Triple faults (· = rebased) (runForceNew stateManifest torn raw name advertise)
      (fun _ => LiveManifest) (ForceFailure faults before rebased) := by
  obtain ⟨content, hcontent⟩ := Option.isSome_iff_exists.mp hlive
  apply Triple.bind fun _ files => files.data = before.data
  · apply (disableEtcdStaticPod_spec .force hcontent).weaken (fun _ h => h)
      (fun _ _ h => h.2.trans hdata)
    rintro ⟨step, text⟩ files (⟨rfl, hfiles⟩ | ⟨rfl, hfiles⟩)
    · exact .inr hfiles
    · exact hfiles.2.trans hdata
  intro _
  apply Triple.bind fun _ files => files.data = before.data
  · exact Triple.guardSite (fun _ _ h => h) fun _ _ h => h
  intro _
  apply Triple.bind fun _ files => LiveManifest files ∧ files.data = before.data
  · have henable := @enablePatched_spec Data faults (· = before.data) torn .force
      (patchEtcdManifestForceNewCluster raw name advertise)
      "write etcd manifest with --force-new-cluster".toList
    apply henable.weaken (fun _ h => h) (fun _ _ h => h)
    rintro ⟨step, text⟩ files ⟨hstep | hstep, hfiles⟩
    · subst hstep
      exact hfiles
    · subst hstep
      exact hfiles
  intro _
  apply Triple.bind fun _ files => LiveManifest files ∧
    (faults (.waitUp .force) = none → files.data = before.data)
  · exact firstWait_spec torn _
  intro _
  let kept : DataDir Data → Prop := fun data =>
    faults (.waitUp .force) = none → data = before.data
  apply Triple.bind fun _ files => LiveManifest files ∧ kept files.data
  · apply (@readEtcdManifest_live Data faults (fun files => kept files.data) .final
      _).weaken (fun _ h => h)
      (fun _ _ h => h)
    rintro ⟨step, text⟩ files ⟨rfl, hfiles⟩
    exact hfiles
  intro live
  apply Triple.bind fun _ files => LiveManifest files ∧ kept files.data
  · apply (@writeEtcdManifest_spec Data faults kept torn .final _ _).weaken
      (fun _ h => h.2) (fun _ _ h => h)
    rintro ⟨step, text⟩ files ⟨hstep | hstep, hfiles⟩
    · subst hstep
      exact hfiles
    · subst hstep
      exact hfiles
  intro _
  apply Triple.bind fun _ => LiveManifest
  · exact Triple.guardSite (fun _ _ h => h.1) fun _ _ h => h
  · exact fun _ => Triple.pure fun _ h => h

theorem etcdForceNewClusterInner_spec (request : ForceRequest Data)
    {before : EtcdFiles Data} (hlive : LiveManifest before) :
    Triple faults (· = before) (etcdForceNewClusterInner stateManifest request)
      (fun _ => LiveManifest)
      (ForceFailure faults before (request.maybeRebase.rebase before)) := by
  have hrebased : LiveManifest (request.maybeRebase.rebase before) := by
    rw [LiveManifest, request.maybeRebase.live_rebase]
    exact hlive
  have hdata := request.maybeRebase.data_rebase before
  apply Triple.bind fun _ => (· = before)
  · cases request.force with
    | true => exact Triple.pure fun _ h => h
    | false => exact Triple.stop fun _ h => .inl h
  intro _
  apply Triple.bind fun _ => (· = before)
  · cases decide (trim request.advertiseIp = []) with
    | true => exact Triple.stop fun _ h => .inl h
    | false => exact Triple.pure fun _ h => h
  intro _
  apply Triple.bind fun _ => (· = request.maybeRebase.rebase before)
  · exact Triple.change fun files h => congrArg request.maybeRebase.rebase h
  intro _
  apply Triple.bind fun _ => (· = request.maybeRebase.rebase before)
  · apply (@readEtcdManifest_live Data faults
      (· = request.maybeRebase.rebase before) .force _).weaken
    · rintro files rfl
      exact ⟨hrebased, rfl⟩
    · exact fun _ _ h => h.2
    · rintro ⟨step, text⟩ files ⟨rfl, -, hfiles⟩
      exact .inr hfiles
  intro raw
  apply Triple.bind fun _ => (· = request.maybeRebase.rebase before)
  · cases decide (trim (request.detectedIp.getD (trim request.advertiseIp)) = []) with
    | true => exact Triple.stop fun _ h => .inr h
    | false => exact Triple.pure fun _ h => h
  · exact fun _ => runForceNew_spec _ _ _ _ hrebased hdata

end ForceSpecs

section Failure

variable {Data : Type}

/-- What is promised of a restore that stops with an error: nothing is lost before etcd
is down, the manifest can always be found again, and once it is enabled again the
snapshot is in place. -/
def RestoreRunnable (before : EtcdFiles Data) (content : Text) (restored : Data)
    (err : RestoreError) (after : EtcdFiles Data) : Prop :=
  match err.step.restoreStage with
  | .untouched => after = before
  | .stopped => after.findManifest = some content ∧ after.data = before.data
  | .erased => after.findManifest = some content
  | .enabled => Enabled content after ∧ after.data = .holds restored

theorem Parked.findManifest {content : Text} {files : EtcdFiles Data}
    (hparked : Parked content files) : files.findManifest = some content := by
  rw [EtcdFiles.findManifest, hparked]
  rfl

theorem RestoreFailure.runnable {before after : EtcdFiles Data} {content : Text}
    {restored : Data} {err : RestoreError}
    (hfailure : RestoreFailure before content restored err after) :
    RestoreRunnable before content restored err after := by
  unfold RestoreFailure at hfailure
  unfold RestoreRunnable
  cases hstage : err.step.restoreStage with
  | untouched => simpa only [hstage] using hfailure
  | stopped =>
      simp only [hstage] at hfailure
      exact ⟨hfailure.1.findManifest, hfailure.2⟩
  | erased =>
      simp only [hstage] at hfailure
      exact hfailure.findManifest
  | enabled => simpa only [hstage] using hfailure

/-- What the two operations leave when they fail, whichever steps go wrong. -/
theorem failed_restore_runnable (stateManifest : Text) (faults : Faults RestoreStep)
    (restore : RestoreRequest Data) (force : ForceRequest Data)
    (before : EtcdFiles Data) (content : Text)
    (hmanifest : (before.dir .live).etcd = some content) :
    Triple faults (· = before) (etcdRestoreInner stateManifest restore)
      (fun _ _ => True) (RestoreRunnable before content restore.restored) ∧
    Triple faults (· = before) (etcdForceNewClusterInner stateManifest force)
      (fun _ _ => True)
      (ForceFailure faults before (force.maybeRebase.rebase before)) := by
  constructor
  · exact (etcdRestoreInner_spec restore hmanifest).weaken (fun _ h => h)
      (fun _ _ _ => trivial) fun _ _ hfailure => hfailure.runnable
  · have hlive : LiveManifest before := by
      rw [LiveManifest, hmanifest]
      rfl
    exact (etcdForceNewClusterInner_spec force hlive).weaken (fun _ h => h)
      (fun _ _ _ => trivial) fun _ _ hfailure => hfailure

def labFiles : EtcdFiles Nat where
  linked := true
  live := { etcd := none, disabled := none }
  state := { etcd := some "kind: Pod".toList, disabled := none }
  data := .holds 7

def labRestore : RestoreRequest Nat where
  force := true
  snapshotPath := "/tmp/etcd.db".toList
  snapshotIsFile := true
  onHost := true
  restored := 8

def labForce : ForceRequest Nat where
  force := true
  memberName := []
  advertiseIp := "10.0.0.1".toList
  detectedIp := none
  maybeRebase := { rebase := id, data_rebase := fun _ => rfl, live_rebase := fun _ => rfl }
  torn := fun _ => []

theorem failed_restore_runnable_lab :
    Triple (only .etcdutl .refused) (· = labFiles) (etcdRestoreInner [] labRestore)
      (fun _ _ => True) (RestoreRunnable labFiles "kind: Pod".toList 8) ∧
    Triple (only .etcdutl .refused) (· = labFiles) (etcdForceNewClusterInner [] labForce)
      (fun _ _ => True) (ForceFailure (only .etcdutl .refused) labFiles labFiles) :=
  failed_restore_runnable [] _ labRestore labForce labFiles "kind: Pod".toList rfl

/-- `etcdutl` fails on the snapshot: the old data is erased already, by design of a
destructive restore. -/
theorem failed_restore_stops_etcd :
    ¬ ∀ (faults : Faults RestoreStep) (restore : RestoreRequest Nat)
      (before : EtcdFiles Nat) (content : Text),
      (before.dir .live).etcd = some content →
      Triple faults (· = before) (etcdRestoreInner [] restore) (fun _ _ => True)
        fun _ after => (after.dir .live).etcd = some content ∧
          (after.data = .holds restore.restored ∨ after.data = before.data) := by
  intro hclaim
  have hfailed := (hclaim (only .etcdutl .refused) labRestore labFiles _ rfl).of_error
    rfl rfl
  exact absurd hfailed.2 (by decide)

end Failure

end PertiskKos.Etcd
