import PertiskKos.Library.Runs
import PertiskKos.Mgmt.Jobs
import PertiskKos.Mgmt.OsBundle

/-!
# The catalog of OS packages and the upgrades that use it

Uploads, deletions and upgrade requests run statement by statement, and so do the tasks of
the upgrade jobs, which read the directory of a package once for each node.  A request
stops where a check refuses it or a statement fails.
-/

namespace PertiskKos.Packages

open Strings OsBundle Jobs

structure PackageRow where
  id : Nat
  version : Text
  arch : Text
  /-- The directory, which has the name of the id that was drawn with it. -/
  path : Nat
  deriving DecidableEq

/-- What a job does, as far as the catalog is concerned. -/
inductive Work where
  /-- The `bundle_dir` and the `package_id` of the payload. -/
  | upgradeOs (path : Nat) (package : Option Nat)
  | upgradeCluster
  | other
  deriving DecidableEq

structure JobRow where
  id : Nat
  cluster : Nat
  status : JobStatus
  work : Work
  deriving DecidableEq

def pending (status : JobStatus) : Bool := status = .queued || status = .running

def JobRow.upgradesOs (row : JobRow) (cluster : Nat) : Bool :=
  match row.work with
  | .upgradeOs _ _ => row.cluster = cluster && pending row.status
  | _ => false

def JobRow.upgrades (row : JobRow) (cluster : Nat) : Bool :=
  row.work ≠ .other && row.cluster = cluster && pending row.status

/-- The payload of an upgrade names the package or its directory. -/
def JobRow.uses (row : JobRow) (id : Nat) : Bool :=
  match row.work with
  | .upgradeOs path package => pending row.status && (package = some id || path = id)
  | _ => false

def JobRow.readsFrom (row : JobRow) (path : Nat) : Bool :=
  match row.work with
  | .upgradeOs dir _ => dir = path && pending row.status
  | _ => false

/-! ## Requests -/

/-- What a request loads a package for. -/
inductive Use where
  /-- The route of the catalog also checks the directory. -/
  | apply (clusters : List Nat) (validated : Bool)
  | delete
  deriving DecidableEq

inductive Stmt where
  /-- The directory for a version and an architecture: that of the row, or a new one. -/
  | lookup (src : BundleDir) (version arch : Text)
  | unlink (path : Nat) (file : BundleFile)
  | copy (path : Nat) (file : BundleFile) (bytes : Bytes)
  | save (id path : Nat) (version arch : Text)
  /-- The saved row, from which an upgrade goes on to its job. -/
  | loadSaved (version arch : Text) (cluster : Option Nat)
  | loadPackage (id : Nat) (use : Use)
  | validate (path : Nat)
  | openKernel (path : Nat)
  | countUpgrades (cluster : Nat)
  | insertJob (cluster path : Nat) (package : Option Nat)
  | countBusy (id : Nat)
  | deleteRow (id : Nat)

/-- A request, and what it goes on with if the catalog cannot be updated. -/
structure Thread where
  program : List Stmt
  fallback : List Stmt

def Thread.stop (thread : Thread) : Thread := { program := thread.fallback, fallback := [] }

def bundleFiles : List BundleFile := requiredFiles ++ [.osTrustPk]

def removeDir (path : Nat) : List Stmt := bundleFiles.map (Stmt.unlink path)

/-- The directory is emptied, the files are copied one by one, and the row is written. -/
def replaceDir (src : BundleDir) (id path : Nat) (version arch : Text) : List Stmt :=
  removeDir path ++
    (bundleFiles.filterMap fun file => (src file).map (Stmt.copy path file)) ++
    [.save id path version arch]

def Use.program (row : PackageRow) : Use → List Stmt
  | .apply clusters validated =>
      (if validated then [.validate row.path] else []) ++ clusters.flatMap fun cluster =>
        [.openKernel row.path, .countUpgrades cluster,
          .insertJob cluster row.path (some row.id)]
  | .delete => [.countBusy row.id, .deleteRow row.id] ++ removeDir row.path

/-! ## Tasks -/

inductive TaskStmt where
  | validate
  | ensureKey (fallbacks : List (Option Bytes))
  | checkKey
  | read (node : Text) (file : BundleFile)

structure Task where
  job : Nat
  path : Nat
  program : List TaskStmt

def stageNode (node : Text) : List TaskStmt :=
  [.validate, .checkKey] ++ bundleFiles.map (TaskStmt.read node)

def upgradeProgram (nodes : List Text) (fallbacks : List (Option Bytes)) : List TaskStmt :=
  [.validate, .ensureKey fallbacks] ++ nodes.flatMap stageNode

def TaskStmt.isRead : TaskStmt → Bool
  | .read _ _ => true
  | _ => false

/-! ## States -/

/-- A file that the task of a job has read for a node. -/
structure Read where
  job : Nat
  node : Text
  file : BundleFile
  bytes : Bytes
  deriving DecidableEq

structure State where
  packages : List PackageRow
  /-- A directory that is not there has no files. -/
  dirs : Nat → BundleDir
  jobs : List JobRow
  threads : List Thread
  tasks : List Task
  /-- Ids are drawn in order. -/
  next : Nat
  /-- For an observer: what the directory of a job held when the job was requested. -/
  requested : Nat → BundleDir
  /-- For an observer: the keys that jobs have copied from the host. -/
  added : List Bytes
  reads : List Read

def start : State where
  packages := []
  dirs := fun _ _ => none
  jobs := []
  threads := []
  tasks := []
  next := 0
  requested := fun _ _ => none
  added := []
  reads := []

def State.write (state : State) (path : Nat) (file : BundleFile) (value : Option Bytes) :
    State :=
  { state with
    dirs := Function.update state.dirs path (Function.update (state.dirs path) file value) }

def State.saved (state : State) (version arch : Text) : Option PackageRow :=
  state.packages.find? fun row => row.version = version && row.arch = arch

/-- The version and the architecture are unique. -/
def State.save (state : State) (id path : Nat) (version arch : Text) : State :=
  { state with
    packages :=
      if (state.saved version arch).isSome then
        state.packages.map fun row =>
          if row.version = version && row.arch = arch then { row with path := path } else row
      else state.packages ++ [{ id := id, version := version, arch := arch, path := path }] }

def State.insertJob (state : State) (cluster : Nat) (work : Work) : State :=
  { state with
    jobs := state.jobs ++
      [{ id := state.next, cluster := cluster, status := .queued, work := work }]
    next := state.next + 1 }

section Step

-- The `version` of the JSON text in a manifest.
variable (parse : Bytes → Option Text)

/-- One statement of a request. -/
def exec (state : State) (thread : Thread) (rest : List Stmt) : Stmt → State × Thread
  | .lookup src version arch =>
      match state.saved version arch with
      | some row =>
          (state, { thread with program := replaceDir src row.id row.path version arch ++ rest })
      | none =>
          ({ state with next := state.next + 1 },
            { thread with
              program := replaceDir src state.next state.next version arch ++ rest })
  | .unlink path file => (state.write path file none, { thread with program := rest })
  | .copy path file bytes =>
      (state.write path file (some bytes), { thread with program := rest })
  | .save id path version arch =>
      (state.save id path version arch, { thread with program := rest })
  | .loadSaved version arch cluster =>
      match state.saved version arch, cluster with
      | none, _ => (state, thread.stop)
      | some _, none => (state, { program := rest, fallback := [] })
      | some row, some cluster =>
          (state,
            { program := .insertJob cluster row.path (some row.id) :: rest, fallback := [] })
  | .loadPackage id use =>
      match state.packages.find? fun row => row.id = id with
      | some row => (state, { thread with program := use.program row ++ rest })
      | none => (state, thread.stop)
  | .validate path =>
      if (validateBundleDir parse (state.dirs path)).isSome then
        (state, { thread with program := rest })
      else (state, thread.stop)
  | .openKernel path =>
      if (state.dirs path .kernel).isSome then (state, { thread with program := rest })
      else (state, thread.stop)
  | .countUpgrades cluster =>
      if state.jobs.any (·.upgrades cluster) then (state, thread.stop)
      else (state, { thread with program := rest })
  | .insertJob cluster path package =>
      ({ state.insertJob cluster (.upgradeOs path package) with
          requested := Function.update state.requested state.next (state.dirs path) },
        { thread with program := rest })
  | .countBusy id =>
      if state.jobs.any (·.uses id) then (state, thread.stop)
      else (state, { thread with program := rest })
  | .deleteRow id =>
      ({ state with packages := state.packages.filter fun row => row.id ≠ id },
        { thread with program := rest })

/-- One statement of a task.  If a file is missing, the others of the node are still read
before the job fails. -/
def execTask (state : State) (task : Task) (rest : List TaskStmt) : TaskStmt → State × Task
  | .validate =>
      if (validateBundleDir parse (state.dirs task.path)).isSome then
        (state, { task with program := rest })
      else (state, { task with program := [] })
  | .ensureKey fallbacks =>
      match bundleTrustPk (state.dirs task.path), fallbacks.findSome? id with
      | some _, _ => (state, { task with program := rest })
      | none, some key =>
          ({ state.write task.path .osTrustPk (some key) with added := key :: state.added },
            { task with program := rest })
      | none, none => (state, { task with program := [] })
  | .checkKey =>
      if (bundleTrustPk (state.dirs task.path)).isSome then
        (state, { task with program := rest })
      else (state, { task with program := [] })
  | .read node file =>
      match state.dirs task.path file with
      | some bytes =>
          let read : Read := { job := task.job, node := node, file := file, bytes := bytes }
          ({ state with reads := read :: state.reads }, { task with program := rest })
      | none => (state, { task with program := rest.takeWhile TaskStmt.isRead })

inductive Event where
  /-- A complete bundle has arrived for the catalog. -/
  | upload (src : BundleDir) (arch : Text)
  | delete (package : Nat)
  /-- The routes that upgrade from the catalog. -/
  | apply (package : Nat) (clusters : List Nat) (validated : Bool)
  /-- The route to which the bundle itself is sent. -/
  | osUpgrade (cluster : Nat) (src : BundleDir) (arch : Text)
  | thread (index : Nat)
  /-- So much of the file that a request copies is there already. -/
  | partly (index count : Nat)
  /-- The next statement of a request fails, or a check refuses it. -/
  | refuse (index : Nat)
  | enqueueOther (cluster : Nat) (upgrade : Bool)
  /-- The worker starts a job; the task finds these nodes, and these keys on the host. -/
  | claim (id : Nat) (nodes : List Text) (fallbacks : List (Option Bytes))
  | task (index : Nat)
  | endTask (index : Nat)
  /-- A job is recorded as ended or cancelled. -/
  | settle (id : Nat) (status : JobStatus)
  | dropJobs (cluster : Nat)
  /-- The service starts again and queues what was running. -/
  | restart

def State.request (state : State) (program fallback : List Stmt) : State :=
  { state with threads := state.threads ++ [{ program := program, fallback := fallback }] }

/-- `UPDATE jobs SET status` of some rows. -/
def State.setStatus (state : State) (which : JobRow → Bool) (status : JobStatus) : State :=
  { state with
    jobs := state.jobs.map fun row => if which row then { row with status := status } else row }

def step (state : State) : Event → Option State
  | .upload src arch =>
      (validateBundleDir parse src).map fun version =>
        state.request [.lookup src version arch, .loadSaved version arch none] []
  | .delete package => some (state.request [.loadPackage package .delete] [])
  | .apply package clusters validated =>
      some (state.request [.loadPackage package (.apply clusters validated)] [])
  | .osUpgrade cluster src arch =>
      (validateBundleDir parse src).map fun version =>
        { state.request [.lookup src version arch, .loadSaved version arch (some cluster)]
            [.insertJob cluster state.next none] with
          dirs := Function.update state.dirs state.next src
          next := state.next + 1 }
  | .thread index =>
      match state.threads[index]? with
      | some thread =>
          match thread.program with
          | stmt :: rest =>
              let (after, later) := exec parse state thread rest stmt
              some { after with threads := after.threads.set index later }
          | [] => none
      | none => none
  | .partly index count =>
      match state.threads[index]?.bind fun thread => thread.program.head? with
      | some (.copy path file bytes) => some (state.write path file (some (bytes.take count)))
      | _ => none
  | .refuse index =>
      (state.threads[index]?).map fun thread =>
        { state with threads := state.threads.set index thread.stop }
  | .enqueueOther cluster upgrade =>
      some (state.insertJob cluster (if upgrade then .upgradeCluster else .other))
  | .claim id nodes fallbacks =>
      match state.jobs.find? fun row => row.id = id && row.status = .queued with
      | some row =>
          let claimed :=
            state.setStatus (fun row => row.id = id && row.status = .queued) .running
          match row.work with
          | .upgradeOs path _ =>
              some { claimed with
                tasks := state.tasks ++
                  [{ job := id, path := path, program := upgradeProgram nodes fallbacks }] }
          | _ => some claimed
      | none => none
  | .task index =>
      match state.tasks[index]? with
      | some task =>
          match task.program with
          | stmt :: rest =>
              let (after, later) := execTask parse state task rest stmt
              some { after with tasks := after.tasks.set index later }
          | [] => none
      | none => none
  | .endTask index => some { state with tasks := state.tasks.eraseIdx index }
  | .settle id status => 
      if pending status then none else some (state.setStatus (fun row => row.id = id) status)
  | .dropJobs cluster =>
      some { state with jobs := state.jobs.filter fun row => row.cluster ≠ cluster }
  | .restart =>
      some { state.setStatus (fun row => row.status = .running) .queued with
        threads := []
        tasks := [] }

end Step

/-! ## What a bundle in use is to keep -/

/-- The directory held the file when the job was requested, or it is the key, which it did
not hold and a job has copied from the host. -/
def State.AsRequested (state : State) (job : Nat) (file : BundleFile) (bytes : Bytes) : Prop :=
  state.requested job file = some bytes ∨
    file = .osTrustPk ∧ bundleTrustPk (state.requested job) = none ∧ bytes ∈ state.added

instance decidableAsRequested (state : State) (job : Nat) (file : BundleFile) (bytes : Bytes) :
    Decidable (state.AsRequested job file bytes) :=
  inferInstanceAs (Decidable (_ ∨ _))

structure BundlesKept (state : State) : Prop where
  reads : ∀ read ∈ state.reads, state.AsRequested read.job read.file read.bytes
  single : ∀ cluster, state.jobs.countP (·.upgradesOs cluster) ≤ 1

/-! ## When it does -/

/-- The jobs that are queued, running or still have a task, and read a directory. -/
def State.readers (state : State) (path : Nat) : List Nat :=
  (state.jobs.filter (·.readsFrom path)).map JobRow.id ++
    (state.tasks.filter (·.path = path)).map Task.job

/-- The file that a request copies, or the part of it. -/
def State.copies (state : State) : Event → Option (Nat × BundleFile × Bytes)
  | .thread index =>
      match state.threads[index]?.bind fun thread => thread.program.head? with
      | some (.copy path file bytes) => some (path, file, bytes)
      | _ => none
  | .partly index count =>
      match state.threads[index]?.bind fun thread => thread.program.head? with
      | some (.copy path file bytes) => some (path, file, bytes.take count)
      | _ => none
  | _ => none

/-- The directory to which a task copies a key from the host. -/
def State.addsKey (state : State) : Event → Option (Nat × Bytes)
  | .task index =>
      match state.tasks[index]? with
      | some task =>
          match task.program.head?, bundleTrustPk (state.dirs task.path) with
          | some (.ensureKey fallbacks), none =>
              (fallbacks.findSome? id).map fun key => (task.path, key)
          | _, _ => none
      | none => none
  | _ => none

/-- The cluster for which an upgrade is queued, and its directory. -/
def State.inserts (state : State) : Event → Option (Nat × Nat)
  | .thread index =>
      match state.threads[index]?.bind fun thread => thread.program.head? with
      | some (.insertJob cluster path _) => some (cluster, path)
      | _ => none
  | _ => none

/-- What is copied into a directory is, for each job that still reads it, what the job was
requested with, or a key from the host where there was none; and no upgrade is queued for
a cluster that has one queued or running. -/
structure Undisturbed (state : State) (event : Event) : Prop where
  copies : ∀ copied ∈ state.copies event, ∀ job ∈ state.readers copied.1,
    state.AsRequested job copied.2.1 copied.2.2
  keys : ∀ added ∈ state.addsKey event, ∀ job ∈ state.readers added.1,
    state.requested job .osTrustPk = some added.2 ∨
      bundleTrustPk (state.requested job) = none
  inserts : ∀ inserted ∈ state.inserts event,
    state.jobs.countP (·.upgradesOs inserted.1) = 0

theorem undisturbed_iff {state : State} {event : Event} :
    Undisturbed state event ↔
      (∀ copied ∈ state.copies event, ∀ job ∈ state.readers copied.1,
          state.AsRequested job copied.2.1 copied.2.2) ∧
        (∀ added ∈ state.addsKey event, ∀ job ∈ state.readers added.1,
          state.requested job .osTrustPk = some added.2 ∨
            bundleTrustPk (state.requested job) = none) ∧
        ∀ inserted ∈ state.inserts event,
          state.jobs.countP (·.upgradesOs inserted.1) = 0 :=
  ⟨fun ⟨hcopies, hkeys, hinserts⟩ => ⟨hcopies, hkeys, hinserts⟩,
    fun ⟨hcopies, hkeys, hinserts⟩ => ⟨hcopies, hkeys, hinserts⟩⟩

instance decidableUndisturbed (state : State) (event : Event) :
    Decidable (Undisturbed state event) :=
  decidable_of_iff _ undisturbed_iff.symm

/-! ## What a step can do -/

/-- No job starts to read, and no upgrade becomes pending. -/
structure Settles (state next : State) : Prop where
  readers : ∀ path, next.readers path ⊆ state.readers path
  single : ∀ cluster,
    next.jobs.countP (·.upgradesOs cluster) ≤ state.jobs.countP (·.upgradesOs cluster)
  requested : next.requested = state.requested
  later : state.next ≤ next.next

/-- A step changes one thing of what jobs read and have read. -/
inductive Effect (state : State) (event : Event) (next : State) : Prop where
  | calm (hfiles : ∀ path file bytes, next.dirs path file = some bytes →
        state.dirs path file = some bytes)
      (hsettles : Settles state next) (hadded : next.added = state.added)
      (hreads : next.reads = state.reads)
  | copied {path : Nat} {file : BundleFile} {bytes : Bytes}
      (hcopies : state.copies event = some (path, file, bytes))
      (hdirs : next.dirs = (state.write path file (some bytes)).dirs)
      (hsettles : Settles state next) (hadded : next.added = state.added)
      (hreads : next.reads = state.reads)
  | drawn {src : BundleDir} (hdirs : next.dirs = Function.update state.dirs state.next src)
      (hsettles : Settles state next) (hadded : next.added = state.added)
      (hreads : next.reads = state.reads)
  | inserted {cluster path : Nat} {package : Option Nat}
      (hinserts : state.inserts event = some (cluster, path))
      (hjobs : next.jobs = (state.insertJob cluster (.upgradeOs path package)).jobs)
      (htasks : next.tasks = state.tasks) (hdirs : next.dirs = state.dirs)
      (hrequested : next.requested =
        Function.update state.requested state.next (state.dirs path))
      (hadded : next.added = state.added) (hreads : next.reads = state.reads)
      (hlater : state.next < next.next)
  | keyed {path : Nat} {key : Bytes} (hkeys : state.addsKey event = some (path, key))
      (hdirs : next.dirs = (state.write path .osTrustPk (some key)).dirs)
      (hsettles : Settles state next) (hadded : next.added = key :: state.added)
      (hreads : next.reads = state.reads)
  | read {read : Read} {path : Nat} (hreader : read.job ∈ state.readers path)
      (hfile : state.dirs path read.file = some read.bytes) (hdirs : next.dirs = state.dirs)
      (hsettles : Settles state next) (hadded : next.added = state.added)
      (hreads : next.reads = read :: state.reads)

section Settles

variable {state next after : State} {event : Event}

theorem mem_readers {path job : Nat} :
    job ∈ state.readers path ↔
      (∃ row ∈ state.jobs, row.readsFrom path = true ∧ row.id = job) ∨
        ∃ task ∈ state.tasks, task.path = path ∧ task.job = job := by
  simp only [State.readers, List.mem_append, List.mem_map, List.mem_filter, decide_eq_true_eq,
    and_assoc]

/-- A row may lose its place among the pending ones. -/
structure JobRow.SettlesTo (row later : JobRow) : Prop where
  id : later.id = row.id
  cluster : later.cluster = row.cluster
  work : later.work = row.work
  status : pending later.status = true → pending row.status = true

theorem JobRow.SettlesTo.readsFrom {row later : JobRow} (hsettles : row.SettlesTo later)
    {path : Nat} (hreads : later.readsFrom path = true) : row.readsFrom path = true := by
  unfold JobRow.readsFrom at hreads ⊢
  rw [hsettles.work] at hreads
  cases hwork : row.work with
  | upgradeOs dir package =>
      simp only [hwork, Bool.and_eq_true] at hreads ⊢
      exact ⟨hreads.1, hsettles.status hreads.2⟩
  | upgradeCluster => simp [hwork] at hreads
  | other => simp [hwork] at hreads

theorem JobRow.SettlesTo.upgradesOs {row later : JobRow} (hsettles : row.SettlesTo later)
    {cluster : Nat} (hupgrades : later.upgradesOs cluster = true) :
    row.upgradesOs cluster = true := by
  unfold JobRow.upgradesOs at hupgrades ⊢
  rw [hsettles.work] at hupgrades
  cases hwork : row.work with
  | upgradeOs dir package =>
      simp only [hwork, Bool.and_eq_true, hsettles.cluster] at hupgrades ⊢
      exact ⟨hupgrades.1, hsettles.status hupgrades.2⟩
  | upgradeCluster => simp [hwork] at hupgrades
  | other => simp [hwork] at hupgrades

theorem settlesTo_setStatus {which : JobRow → Bool} {status : JobStatus}
    (hwhich : ∀ row, which row = true → pending status = true → pending row.status = true)
    (row : JobRow) :
    row.SettlesTo (if which row then { row with status := status } else row) := by
  split
  next hrow => exact ⟨rfl, rfl, rfl, hwhich row hrow⟩
  next => exact ⟨rfl, rfl, rfl, id⟩

/-- What the tasks read comes from tasks that were there, or from pending rows. -/
theorem Settles.of_map {change : JobRow → JobRow} (hchange : ∀ row : JobRow, row.SettlesTo (change row))
    (hjobs : next.jobs = state.jobs.map change)
    (htasks : ∀ task ∈ next.tasks, task.job ∈ state.readers task.path)
    (hrequested : next.requested = state.requested) (hlater : state.next ≤ next.next) :
    Settles state next := by
  refine ⟨fun path job hjob => ?_, fun cluster => ?_, hrequested, hlater⟩
  · rcases mem_readers.mp hjob with ⟨row, hrow, hreads, hid⟩ | ⟨task, htask, rfl, rfl⟩
    · rw [hjobs] at hrow
      obtain ⟨before, hbefore, rfl⟩ := List.mem_map.mp hrow
      exact mem_readers.mpr (.inl ⟨before, hbefore, (hchange before).readsFrom hreads,
        (hchange before).id.symm.trans hid⟩)
    · exact htasks task htask
  · rw [hjobs, List.countP_map]
    exact List.countP_mono_left fun row _ => (hchange row).upgradesOs

theorem job_mem_readers {task : Task} (htask : task ∈ state.tasks) :
    task.job ∈ state.readers task.path :=
  mem_readers.mpr (.inr ⟨task, htask, rfl, rfl⟩)

theorem Settles.of_same (hjobs : next.jobs = state.jobs)
    (htasks : ∀ task ∈ next.tasks, task.job ∈ state.readers task.path)
    (hrequested : next.requested = state.requested) (hlater : state.next ≤ next.next) :
    Settles state next :=
  have hchange : ∀ row : JobRow, row.SettlesTo (id row) := fun _ => ⟨rfl, rfl, rfl, id⟩
  .of_map hchange (by rw [hjobs, List.map_id]) htasks hrequested hlater

theorem Settles.setStatus {which : JobRow → Bool} {status : JobStatus}
    (hwhich : ∀ row, which row = true → pending status = true → pending row.status = true)
    (hjobs : next.jobs = (state.setStatus which status).jobs)
    (htasks : ∀ task ∈ next.tasks, task.job ∈ state.readers task.path)
    (hrequested : next.requested = state.requested) (hlater : state.next ≤ next.next) :
    Settles state next :=
  .of_map (settlesTo_setStatus hwhich) hjobs htasks hrequested hlater

theorem Settles.insertOther {cluster : Nat} {work : Work}
    (hwork : ∀ path package, work ≠ .upgradeOs path package) :
    Settles state (state.insertJob cluster work) := by
  have hnew : ∀ row : JobRow, row.work = work →
      (∀ path, row.readsFrom path = false) ∧ ∀ cluster, row.upgradesOs cluster = false := by
    rintro row rfl
    cases hrow : row.work with
    | upgradeOs path package => exact absurd hrow (hwork path package)
    | upgradeCluster => simp [JobRow.readsFrom, JobRow.upgradesOs, hrow]
    | other => simp [JobRow.readsFrom, JobRow.upgradesOs, hrow]
  obtain ⟨hreader, hupgrade⟩ := hnew ⟨state.next, cluster, .queued, work⟩ rfl
  refine ⟨fun path job hjob => ?_, fun other => ?_, rfl, Nat.le_succ _⟩
  · rcases mem_readers.mp hjob with ⟨row, hrow, hreads, hid⟩ | htask
    · rcases List.mem_append.mp hrow with hold | hrow
      · exact mem_readers.mpr (.inl ⟨row, hold, hreads, hid⟩)
      · obtain rfl := List.mem_singleton.mp hrow
        simp [hreader path] at hreads
    · exact mem_readers.mpr (.inr htask)
  · simp [State.insertJob, hupgrade other]

end Settles

section Effects

variable {parse : Bytes → Option Text} {state next after : State} {event : Event}

/-- The threads do not matter for what a step does to the directories and the jobs. -/
theorem Effect.withThreads (heffect : Effect state event after) (threads : List Thread) :
    Effect state event { after with threads := threads } := by
  cases heffect with
  | calm hfiles hsettles hadded hreads =>
      exact .calm hfiles ⟨hsettles.readers, hsettles.single, hsettles.requested,
        hsettles.later⟩ hadded hreads
  | copied hcopies hdirs hsettles hadded hreads =>
      exact .copied hcopies hdirs ⟨hsettles.readers, hsettles.single, hsettles.requested,
        hsettles.later⟩ hadded hreads
  | drawn hdirs hsettles hadded hreads =>
      exact .drawn hdirs ⟨hsettles.readers, hsettles.single, hsettles.requested,
        hsettles.later⟩ hadded hreads
  | inserted hinserts hjobs htasks hdirs hrequested hadded hreads hlater =>
      exact .inserted hinserts hjobs htasks hdirs hrequested hadded hreads hlater
  | keyed hkeys hdirs hsettles hadded hreads =>
      exact .keyed hkeys hdirs ⟨hsettles.readers, hsettles.single, hsettles.requested,
        hsettles.later⟩ hadded hreads
  | read hreader hfile hdirs hsettles hadded hreads =>
      exact .read hreader hfile hdirs ⟨hsettles.readers, hsettles.single, hsettles.requested,
        hsettles.later⟩ hadded hreads

/-- Neither files nor rows of jobs are touched. -/
theorem Effect.idle (hdirs : next.dirs = state.dirs) (hjobs : next.jobs = state.jobs)
    (htasks : ∀ task ∈ next.tasks, task.job ∈ state.readers task.path)
    (hrequested : next.requested = state.requested) (hadded : next.added = state.added)
    (hreads : next.reads = state.reads) (hlater : state.next ≤ next.next) :
    Effect state event next :=
  .calm (fun path file bytes hfile => by rwa [hdirs] at hfile)
    (.of_same hjobs htasks hrequested hlater) hadded hreads

/-- What one statement of a request does. -/
theorem exec_effect (parse : Bytes → Option Text) {thread : Thread} {index : Nat} {stmt : Stmt} {rest : List Stmt}
    (hthread : state.threads[index]? = some thread) (hprogram : thread.program = stmt :: rest) :
    Effect state (.thread index) (exec parse state thread rest stmt).1 := by
  have hhead : (state.threads[index]?.bind fun thread => thread.program.head?) = some stmt := by
    simp [hthread, hprogram]
  have hsame : Effect state (.thread index) state :=
    .idle rfl rfl (fun _ => job_mem_readers) rfl rfl rfl le_rfl
  cases stmt with
  | lookup src version arch =>
      simp only [exec]
      split
      · exact hsame
      · exact .idle rfl rfl (fun _ => job_mem_readers) rfl rfl rfl (Nat.le_succ _)
  | unlink path file =>
      refine .calm (fun other kept bytes hfile => ?_)
        (.of_same rfl (fun _ => job_mem_readers) rfl le_rfl) rfl rfl
      by_cases hpath : other = path
      · subst hpath
        by_cases hkept : kept = file
        · simp [exec, State.write, hkept] at hfile
        · simpa [exec, State.write, hkept] using hfile
      · simpa [exec, State.write, hpath] using hfile
  | copy path file bytes =>
      exact .copied (by simp only [State.copies, hhead]) rfl
        (.of_same rfl (fun _ => job_mem_readers) rfl le_rfl) rfl rfl
  | save id path version arch =>
      exact .idle rfl rfl (fun _ => job_mem_readers) rfl rfl rfl le_rfl
  | loadSaved version arch cluster =>
      simp only [exec]
      split <;> exact hsame
  | loadPackage id use =>
      simp only [exec]
      split <;> exact hsame
  | validate path =>
      simp only [exec]
      split <;> exact hsame
  | openKernel path =>
      simp only [exec]
      split <;> exact hsame
  | countUpgrades cluster =>
      simp only [exec]
      split <;> exact hsame
  | insertJob cluster path package =>
      exact .inserted (by simp only [State.inserts, hhead]) rfl rfl rfl rfl rfl rfl
        (Nat.lt_succ_self _)
  | countBusy id =>
      simp only [exec]
      split <;> exact hsame
  | deleteRow id => exact .idle rfl rfl (fun _ => job_mem_readers) rfl rfl rfl le_rfl

/-- A task keeps its job and its directory. -/
theorem execTask_same (parse : Bytes → Option Text) (state : State) (task : Task)
    (stmt : TaskStmt) (rest : List TaskStmt) :
    (execTask parse state task rest stmt).2.job = task.job ∧
      (execTask parse state task rest stmt).2.path = task.path ∧
      (execTask parse state task rest stmt).1.tasks = state.tasks := by
  cases stmt <;> simp only [execTask] <;> split <;> exact ⟨rfl, rfl, rfl⟩

/-- A task does nothing to requests and to the rows of packages. -/
theorem execTask_rows (parse : Bytes → Option Text) (state : State) (task : Task)
    (stmt : TaskStmt) (rest : List TaskStmt) :
    (execTask parse state task rest stmt).1.packages = state.packages ∧
      (execTask parse state task rest stmt).1.threads = state.threads ∧
      (execTask parse state task rest stmt).1.next = state.next := by
  cases stmt <;> simp only [execTask] <;> split <;> exact ⟨rfl, rfl, rfl⟩

theorem execTask_effect {task : Task} {index : Nat} {stmt : TaskStmt} {rest : List TaskStmt}
    (htask : state.tasks[index]? = some task) (hprogram : task.program = stmt :: rest)
    {tasks : List Task} (htasks : ∀ task ∈ tasks, task.job ∈ state.readers task.path) :
    Effect state (.task index)
      { (execTask parse state task rest stmt).1 with tasks := tasks } := by
  have hidle : Effect state (.task index) { state with tasks := tasks } :=
    .idle rfl rfl htasks rfl rfl rfl le_rfl
  cases stmt with
  | validate =>
      simp only [execTask]
      split <;> exact hidle
  | checkKey =>
      simp only [execTask]
      split <;> exact hidle
  | ensureKey fallbacks =>
      simp only [execTask]
      split
      next => exact hidle
      next key hnone hkey =>
        have hadds : state.addsKey (.task index) = some (task.path, key) := by
          simp only [State.addsKey, htask, hprogram, List.head?_cons, hnone, hkey,
            Option.map_some]
        exact .keyed hadds rfl (.of_same rfl htasks rfl le_rfl) rfl rfl
      next => exact hidle
  | read node file =>
      simp only [execTask]
      split
      next bytes hfile =>
        exact .read (job_mem_readers (List.mem_of_getElem? htask)) hfile rfl
          (.of_same rfl htasks rfl le_rfl) rfl rfl
      next => exact hidle

/-- Everything that one step can do. -/
theorem step_effect (hstep : step parse state event = some next) :
    Effect state event next := by
  cases event with
  | upload src arch =>
      obtain ⟨version, -, rfl⟩ := Option.map_eq_some_iff.mp hstep
      exact .idle rfl rfl (fun _ => job_mem_readers) rfl rfl rfl le_rfl
  | delete package =>
      obtain rfl := Option.some.inj hstep
      exact .idle rfl rfl (fun _ => job_mem_readers) rfl rfl rfl le_rfl
  | apply package clusters validated =>
      obtain rfl := Option.some.inj hstep
      exact .idle rfl rfl (fun _ => job_mem_readers) rfl rfl rfl le_rfl
  | osUpgrade cluster src arch =>
      obtain ⟨version, -, rfl⟩ := Option.map_eq_some_iff.mp hstep
      exact .drawn rfl (.of_same rfl (fun _ => job_mem_readers) rfl (Nat.le_succ _)) rfl rfl
  | thread index =>
      simp only [step] at hstep
      split at hstep
      next thread hthread =>
        split at hstep
        next stmt rest hprogram =>
          obtain rfl := Option.some.inj hstep
          exact (exec_effect parse hthread hprogram).withThreads _
        next => cases hstep
      next => cases hstep
  | partly index count =>
      simp only [step] at hstep
      split at hstep
      next path file bytes hhead =>
        obtain rfl := Option.some.inj hstep
        exact .copied (by simp only [State.copies, hhead]) rfl
          (.of_same rfl (fun _ => job_mem_readers) rfl le_rfl) rfl rfl
      next => cases hstep
  | refuse index =>
      obtain ⟨thread, -, rfl⟩ := Option.map_eq_some_iff.mp hstep
      exact .idle rfl rfl (fun _ => job_mem_readers) rfl rfl rfl le_rfl
  | enqueueOther cluster upgrade =>
      obtain rfl := Option.some.inj hstep
      exact .calm (fun _ _ _ => id)
        (.insertOther fun path package => by cases upgrade <;> simp) rfl rfl
  | claim id nodes fallbacks =>
      simp only [step] at hstep
      have hwhich : ∀ row : JobRow, (row.id = id && row.status = .queued : Bool) = true →
          pending .running = true → pending row.status = true := by
        intro row hrow _
        simp only [Bool.and_eq_true, decide_eq_true_eq] at hrow
        simp [pending, hrow.2]
      split at hstep
      next row hrow =>
        obtain ⟨hfound, hmem⟩ := And.intro (List.find?_some hrow) (List.mem_of_find?_eq_some hrow)
        simp only [Bool.and_eq_true, decide_eq_true_eq] at hfound
        split at hstep
        next path package hwork =>
          obtain rfl := Option.some.inj hstep
          have hreader : id ∈ state.readers path :=
            mem_readers.mpr (.inl ⟨row, hmem, by
              simp [JobRow.readsFrom, hwork, pending, hfound.2], hfound.1⟩)
          refine .calm (fun _ _ _ hfile => hfile)
            (.setStatus hwhich rfl (fun task htask => ?_) rfl le_rfl) rfl rfl
          rcases List.mem_append.mp htask with hold | hnew
          · exact job_mem_readers hold
          · obtain rfl := List.mem_singleton.mp hnew
            exact hreader
        next =>
          obtain rfl := Option.some.inj hstep
          exact .calm (fun _ _ _ hfile => hfile)
            (.setStatus hwhich rfl (fun task (htask : task ∈ state.tasks) =>
              job_mem_readers htask) rfl le_rfl) rfl rfl
      next => cases hstep
  | task index =>
      simp only [step] at hstep
      split at hstep
      next task htask =>
        split at hstep
        next stmt rest hprogram =>
          obtain rfl := Option.some.inj hstep
          obtain ⟨hjob, hpath, hsame⟩ :=
            execTask_same parse state task stmt rest
          refine execTask_effect htask hprogram fun other hother => ?_
          rw [hsame] at hother
          rcases List.mem_or_eq_of_mem_set hother with hold | rfl
          · exact job_mem_readers hold
          · rw [hjob, hpath]
            exact job_mem_readers (List.mem_of_getElem? htask)
        next => cases hstep
      next => cases hstep
  | endTask index =>
      obtain rfl := Option.some.inj hstep
      exact .idle rfl rfl (fun task htask => job_mem_readers (List.mem_of_mem_eraseIdx htask))
        rfl rfl rfl le_rfl
  | settle id status =>
      simp only [step] at hstep
      split at hstep
      next => cases hstep
      next hended =>
        obtain rfl := Option.some.inj hstep
        exact .calm (fun _ _ _ hfile => hfile)
          (.setStatus (fun row _ hpending => absurd hpending hended) rfl
            (fun task (htask : task ∈ state.tasks) => job_mem_readers htask) rfl le_rfl)
          rfl rfl
  | dropJobs cluster =>
      obtain rfl := Option.some.inj hstep
      refine .calm (fun _ _ _ hfile => hfile) ⟨fun path job hjob => ?_, fun other => ?_, rfl,
        le_rfl⟩ rfl rfl
      · rcases mem_readers.mp hjob with ⟨row, hrow, hreads, hid⟩ | htask
        · exact mem_readers.mpr (.inl ⟨row, (List.mem_filter.mp hrow).1, hreads, hid⟩)
        · exact mem_readers.mpr (.inr htask)
      · exact List.Sublist.countP_le List.filter_sublist
  | restart =>
      obtain rfl := Option.some.inj hstep
      refine .calm (fun _ _ _ hfile => hfile)
        (.setStatus (fun row hrow _ => ?_) rfl (fun _ hnone => absurd hnone List.not_mem_nil)
          rfl le_rfl) rfl rfl
      simp only [decide_eq_true_eq] at hrow
      simp [pending, hrow]

end Effects

/-! ## The names of directories -/

/-- A directory that the statement may give to a row was drawn before. -/
def Stmt.Below (bound : Nat) : Stmt → Prop
  | .save _ path _ _ => path < bound
  | .insertJob _ path _ => path < bound
  | _ => True

def Thread.Below (bound : Nat) (thread : Thread) : Prop :=
  ∀ stmt ∈ thread.program ++ thread.fallback, stmt.Below bound

/-- Rows, requests and jobs name directories that were drawn before. -/
structure Named (state : State) : Prop where
  packages : ∀ row ∈ state.packages, row.path < state.next
  threads : ∀ thread ∈ state.threads, thread.Below state.next
  readers : ∀ path, ∀ job ∈ state.readers path, path < state.next ∧ job < state.next
  reads : ∀ read ∈ state.reads, read.job < state.next

section Names

variable {parse : Bytes → Option Text} {state next : State} {event : Event}

theorem Stmt.Below.mono {stmt : Stmt} {bound larger : Nat} (hbelow : stmt.Below bound)
    (hle : bound ≤ larger) : stmt.Below larger := by
  cases stmt <;> simp only [Stmt.Below] at hbelow ⊢ <;> omega

theorem Thread.Below.mono {thread : Thread} {bound larger : Nat} (hbelow : thread.Below bound)
    (hle : bound ≤ larger) : thread.Below larger :=
  fun stmt hstmt => (hbelow stmt hstmt).mono hle

theorem Thread.Below.stop {thread : Thread} {bound : Nat} (hbelow : thread.Below bound) :
    thread.stop.Below bound := by
  intro stmt hstmt
  exact hbelow stmt (List.mem_append_right _ (by simpa [Thread.stop] using hstmt))

theorem replaceDir_below {src : BundleDir} {id path bound : Nat} {version arch : Text}
    (hpath : path < bound) : ∀ stmt ∈ replaceDir src id path version arch, stmt.Below bound := by
  intro stmt hstmt
  simp only [replaceDir, removeDir, List.mem_append, List.mem_map, List.mem_filterMap,
    Option.map_eq_some_iff, List.mem_singleton] at hstmt
  rcases hstmt with (⟨file, -, rfl⟩ | ⟨file, -, bytes, -, rfl⟩) | rfl
  · trivial
  · trivial
  · exact hpath

theorem program_below {row : PackageRow} {use : Use} {bound : Nat} (hpath : row.path < bound) :
    ∀ stmt ∈ use.program row, stmt.Below bound := by
  intro stmt hstmt
  cases use with
  | delete =>
      simp only [Use.program, removeDir, List.mem_append, List.mem_cons, List.not_mem_nil,
        or_false, List.mem_map] at hstmt
      rcases hstmt with (rfl | rfl) | ⟨file, -, rfl⟩ <;> trivial
  | apply clusters validated =>
      simp only [Use.program, List.mem_append, List.mem_flatMap, List.mem_cons,
        List.not_mem_nil, or_false] at hstmt
      rcases hstmt with hcheck | ⟨cluster, -, rfl | rfl | rfl⟩
      · cases validated with
        | true =>
            obtain rfl := List.mem_singleton.mp hcheck
            trivial
        | false => cases hcheck
      · trivial
      · trivial
      · exact hpath

theorem saved_mem {version arch : Text} {row : PackageRow}
    (hsaved : state.saved version arch = some row) : row ∈ state.packages :=
  List.mem_of_find?_eq_some hsaved

/-- What is left of a thread, with what a statement puts before it. -/
theorem Thread.Below.extend {thread : Thread} {bound : Nat} {stmt : Stmt}
    {rest more : List Stmt} (hbelow : thread.Below bound)
    (hprogram : thread.program = stmt :: rest) (hmore : ∀ stmt ∈ more, stmt.Below bound) :
    ({ thread with program := more ++ rest } : Thread).Below bound := by
  intro other hother
  simp only [List.mem_append] at hother
  rcases hother with (hmem | hmem) | hmem
  · exact hmore other hmem
  · exact hbelow other (by simp [hprogram, hmem])
  · exact hbelow other (List.mem_append_right _ hmem)

theorem exec_named (parse : Bytes → Option Text) (hnamed : Named state) {thread : Thread} {stmt : Stmt} {rest : List Stmt}
    (hthread : thread.Below state.next) (hprogram : thread.program = stmt :: rest) :
    (∀ row ∈ (exec parse state thread rest stmt).1.packages,
        row.path < (exec parse state thread rest stmt).1.next) ∧
      (exec parse state thread rest stmt).2.Below
        (exec parse state thread rest stmt).1.next ∧
      (exec parse state thread rest stmt).1.threads = state.threads := by
  have hrest : ({ thread with program := rest } : Thread).Below state.next :=
    hthread.extend hprogram fun _ hnone => absurd hnone List.not_mem_nil
  have hstays : (∀ row ∈ state.packages, row.path < state.next) ∧
      ({ thread with program := rest } : Thread).Below state.next ∧
        state.threads = state.threads := ⟨hnamed.packages, hrest, rfl⟩
  have hstops : (∀ row ∈ state.packages, row.path < state.next) ∧
      thread.stop.Below state.next ∧ state.threads = state.threads :=
    ⟨hnamed.packages, hthread.stop, rfl⟩
  cases stmt with
  | lookup src version arch =>
      simp only [exec]
      split
      next row hsaved =>
        exact ⟨hnamed.packages, hthread.extend hprogram
          (replaceDir_below (hnamed.packages row (saved_mem hsaved))), rfl⟩
      next =>
        refine ⟨fun row hrow => Nat.lt_succ_of_lt (hnamed.packages row hrow), ?_, rfl⟩
        exact (hthread.mono (Nat.le_succ _)).extend hprogram
          (replaceDir_below (Nat.lt_succ_self _))
  | unlink path file => exact hstays
  | copy path file bytes => exact hstays
  | save id path version arch =>
      have hpath : path < state.next :=
        hthread (.save id path version arch) (by simp [hprogram])
      refine ⟨fun row hrow => ?_, hrest, rfl⟩
      simp only [exec, State.save] at hrow
      split at hrow
      next =>
        obtain ⟨before, hbefore, rfl⟩ := List.mem_map.mp hrow
        split
        · exact hpath
        · exact hnamed.packages before hbefore
      next =>
        rcases List.mem_append.mp hrow with hold | hnew
        · exact hnamed.packages row hold
        · obtain rfl := List.mem_singleton.mp hnew
          exact hpath
  | loadSaved version arch cluster =>
      simp only [exec]
      split
      next => exact hstops
      next =>
        refine ⟨hnamed.packages, fun stmt hstmt => hrest stmt ?_, rfl⟩
        simp only [List.append_nil] at hstmt
        exact List.mem_append_left _ hstmt
      next row cluster hsaved =>
        refine ⟨hnamed.packages, fun stmt hstmt => ?_, rfl⟩
        simp only [List.append_nil, List.mem_cons] at hstmt
        rcases hstmt with rfl | hstmt
        · exact hnamed.packages row (saved_mem hsaved)
        · exact hrest stmt (List.mem_append_left _ hstmt)
  | loadPackage id use =>
      simp only [exec]
      split
      next row hrow =>
        exact ⟨hnamed.packages, hthread.extend hprogram
          (program_below (hnamed.packages row (List.mem_of_find?_eq_some hrow))), rfl⟩
      next => exact hstops
  | validate path =>
      simp only [exec]
      split <;> assumption
  | openKernel path =>
      simp only [exec]
      split <;> assumption
  | countUpgrades cluster =>
      simp only [exec]
      split <;> assumption
  | insertJob cluster path package =>
      exact ⟨fun row hrow => Nat.lt_succ_of_lt (hnamed.packages row hrow),
        hrest.mono (Nat.le_succ _), rfl⟩
  | countBusy id =>
      simp only [exec]
      split <;> assumption
  | deleteRow id =>
      exact ⟨fun row hrow => hnamed.packages row (List.mem_filter.mp hrow).1, hrest, rfl⟩

/-- A pending row that is new is that of the upgrade that was queued. -/
theorem mem_readers_inserted {cluster path other job : Nat} {package : Option Nat}
    (hjobs : next.jobs = (state.insertJob cluster (.upgradeOs path package)).jobs)
    (htasks : next.tasks = state.tasks) (hjob : job ∈ next.readers other) :
    job ∈ state.readers other ∨ job = state.next ∧ other = path := by
  rcases mem_readers.mp hjob with ⟨row, hrow, hreads, hid⟩ | ⟨task, htask, hpath, hid⟩
  · rw [hjobs] at hrow
    rcases List.mem_append.mp hrow with hold | hnew
    · exact .inl (mem_readers.mpr (.inl ⟨row, hold, hreads, hid⟩))
    · obtain rfl := List.mem_singleton.mp hnew
      simp only [JobRow.readsFrom, Bool.and_eq_true, decide_eq_true_eq] at hreads
      exact .inr ⟨hid.symm, hreads.1.symm⟩
  · exact .inl (mem_readers.mpr (.inr ⟨task, htasks ▸ htask, hpath, hid⟩))

theorem inserts_below (hnamed : Named state) {cluster path : Nat}
    (hinserts : state.inserts event = some (cluster, path)) : path < state.next := by
  cases event with
  | thread index =>
      simp only [State.inserts] at hinserts
      split at hinserts
      next other dir package hhead =>
        obtain ⟨-, rfl⟩ : other = cluster ∧ dir = path := by simpa using hinserts
        obtain ⟨thread, hthread, hfirst⟩ := Option.bind_eq_some_iff.mp hhead
        exact hnamed.threads thread (List.mem_of_getElem? hthread) (.insertJob other dir package)
          (List.mem_append_left _ (List.mem_of_head? hfirst))
      next => cases hinserts
  | _ => cases hinserts

theorem Settles.named (hnamed : Named state) (hsettles : Settles state next) (path : Nat) :
    ∀ job ∈ next.readers path, path < next.next ∧ job < next.next := by
  intro job hjob
  obtain ⟨hpath, hid⟩ := hnamed.readers path job (hsettles.readers path hjob)
  have hlater := hsettles.later
  omega

theorem Settles.namedReads (hnamed : Named state) (hsettles : Settles state next)
    (hreads : next.reads = state.reads) : ∀ read ∈ next.reads, read.job < next.next := by
  intro read hread
  rw [hreads] at hread
  exact (hnamed.reads read hread).trans_le hsettles.later

theorem Effect.named (hnamed : Named state) (heffect : Effect state event next) :
    (∀ path, ∀ job ∈ next.readers path, path < next.next ∧ job < next.next) ∧
      ∀ read ∈ next.reads, read.job < next.next := by
  cases heffect with
  | calm hfiles hsettles hadded hreads =>
      exact ⟨hsettles.named hnamed, hsettles.namedReads hnamed hreads⟩
  | copied hcopies hdirs hsettles hadded hreads =>
      exact ⟨hsettles.named hnamed, hsettles.namedReads hnamed hreads⟩
  | drawn hdirs hsettles hadded hreads =>
      exact ⟨hsettles.named hnamed, hsettles.namedReads hnamed hreads⟩
  | keyed hkeys hdirs hsettles hadded hreads =>
      exact ⟨hsettles.named hnamed, hsettles.namedReads hnamed hreads⟩
  | inserted hinserts hjobs htasks hdirs hrequested hadded hreads hlater =>
      have hpath := inserts_below hnamed hinserts
      refine ⟨fun other job hjob => ?_, fun read hread => ?_⟩
      · rcases mem_readers_inserted hjobs htasks hjob with hold | ⟨rfl, rfl⟩
        · have hbelow := hnamed.readers other job hold
          omega
        · omega
      · rw [hreads] at hread
        exact (hnamed.reads read hread).trans hlater
  | read hreader hfile hdirs hsettles hadded hreads =>
      refine ⟨hsettles.named hnamed, fun other hother => ?_⟩
      rw [hreads] at hother
      rcases List.mem_cons.mp hother with rfl | hold
      · exact (hnamed.readers _ _ hreader).2.trans_le hsettles.later
      · exact (hnamed.reads other hold).trans_le hsettles.later

/-- Requests and rows of packages name what was drawn. -/
theorem named_step (hnamed : Named state) (hstep : step parse state event = some next) :
    Named next := by
  obtain ⟨hreaders, hreads⟩ := (step_effect hstep).named hnamed
  have hstays : ∀ threads : List Thread, (∀ thread ∈ threads, thread.Below state.next) →
      (∀ row ∈ state.packages, row.path < state.next) ∧
        ∀ thread ∈ threads, thread.Below state.next :=
    fun threads hthreads => ⟨hnamed.packages, hthreads⟩
  have hrequest : ∀ (program fallback : List Stmt) (bound : Nat), state.next ≤ bound →
      ({ program := program, fallback := fallback } : Thread).Below bound →
        ∀ thread ∈ (state.request program fallback).threads, thread.Below bound := by
    intro program fallback bound hle hnew thread hthread
    rcases List.mem_append.mp hthread with hold | hthread
    · exact (hnamed.threads thread hold).mono hle
    · obtain rfl := List.mem_singleton.mp hthread
      exact hnew
  suffices hkeeps : (∀ row ∈ next.packages, row.path < next.next) ∧
      ∀ thread ∈ next.threads, thread.Below next.next from
    ⟨hkeeps.1, hkeeps.2, hreaders, hreads⟩
  cases event with
  | upload src arch =>
      obtain ⟨version, -, rfl⟩ := Option.map_eq_some_iff.mp hstep
      exact hstays _ (hrequest _ _ _ le_rfl (by simp [Thread.Below, Stmt.Below]))
  | delete package =>
      obtain rfl := Option.some.inj hstep
      exact hstays _ (hrequest _ _ _ le_rfl (by simp [Thread.Below, Stmt.Below]))
  | apply package clusters validated =>
      obtain rfl := Option.some.inj hstep
      exact hstays _ (hrequest _ _ _ le_rfl (by simp [Thread.Below, Stmt.Below]))
  | osUpgrade cluster src arch =>
      obtain ⟨version, -, rfl⟩ := Option.map_eq_some_iff.mp hstep
      exact ⟨fun row hrow => Nat.lt_succ_of_lt (hnamed.packages row hrow),
        hrequest _ _ _ (Nat.le_succ _) (by simp [Thread.Below, Stmt.Below])⟩
  | thread index =>
      simp only [step] at hstep
      split at hstep
      next thread hthread =>
        split at hstep
        next stmt rest hprogram =>
          obtain rfl := Option.some.inj hstep
          have heffect := exec_effect parse hthread hprogram
          obtain ⟨hpackages, hbelow, hsame⟩ := exec_named parse hnamed
            (hnamed.threads thread (List.mem_of_getElem? hthread)) hprogram
          refine ⟨hpackages, fun other hother => ?_⟩
          rcases List.mem_or_eq_of_mem_set hother with hold | rfl
          · rw [hsame] at hold
            refine (hnamed.threads other hold).mono ?_
            cases heffect with
            | inserted _ _ _ _ _ _ _ hlater => exact hlater.le
            | calm _ hsettles | copied _ _ hsettles | drawn _ hsettles | keyed _ _ hsettles
            | read _ _ _ hsettles => exact hsettles.later
          · exact hbelow
        next => cases hstep
      next => cases hstep
  | partly index count =>
      simp only [step] at hstep
      split at hstep
      next =>
        obtain rfl := Option.some.inj hstep
        exact hstays _ hnamed.threads
      next => cases hstep
  | refuse index =>
      obtain ⟨thread, hthread, rfl⟩ := Option.map_eq_some_iff.mp hstep
      refine hstays _ fun other hother => ?_
      rcases List.mem_or_eq_of_mem_set hother with hold | rfl
      · exact hnamed.threads other hold
      · exact (hnamed.threads thread (List.mem_of_getElem? hthread)).stop
  | enqueueOther cluster upgrade =>
      obtain rfl := Option.some.inj hstep
      exact ⟨fun row hrow => Nat.lt_succ_of_lt (hnamed.packages row hrow),
        fun thread hthread => (hnamed.threads thread hthread).mono (Nat.le_succ _)⟩
  | claim id nodes fallbacks =>
      simp only [step] at hstep
      split at hstep
      next =>
        split at hstep <;>
          (obtain rfl := Option.some.inj hstep
           exact hstays _ hnamed.threads)
      next => cases hstep
  | task index =>
      simp only [step] at hstep
      split at hstep
      next task htask =>
        split at hstep
        next stmt rest hprogram =>
          obtain rfl := Option.some.inj hstep
          obtain ⟨hpackages, hthreads, hnext⟩ :=
            execTask_rows parse state task stmt rest
          simp only [hpackages, hthreads, hnext]
          exact hstays _ hnamed.threads
        next => cases hstep
      next => cases hstep
  | endTask index =>
      obtain rfl := Option.some.inj hstep
      exact hstays _ hnamed.threads
  | settle id status =>
      simp only [step] at hstep
      split at hstep
      next => cases hstep
      next =>
        obtain rfl := Option.some.inj hstep
        exact hstays _ hnamed.threads
  | dropJobs cluster =>
      obtain rfl := Option.some.inj hstep
      exact hstays _ hnamed.threads
  | restart =>
      obtain rfl := Option.some.inj hstep
      exact hstays _ fun _ hnone => absurd hnone List.not_mem_nil

end Names

/-! ## Bundles in use -/

/-- What a job may still read is what it was requested with. -/
structure Inv (state : State) : Prop where
  named : Named state
  kept : BundlesKept state
  intact : ∀ path, ∀ job ∈ state.readers path, ∀ file bytes,
    state.dirs path file = some bytes → state.AsRequested job file bytes

section Kept

variable {parse : Bytes → Option Text} {state next : State} {event : Event}

theorem State.AsRequested.carry {job : Nat} {file : BundleFile} {bytes : Bytes}
    (has : state.AsRequested job file bytes) (hrequested : next.requested job = state.requested job)
    (hadded : state.added ⊆ next.added) : next.AsRequested job file bytes := by
  unfold State.AsRequested at has ⊢
  rw [hrequested]
  rcases has with hsame | ⟨hkey, hnone, hmem⟩
  · exact .inl hsame
  · exact .inr ⟨hkey, hnone, hadded hmem⟩

theorem write_dirs {path other : Nat} {file kept : BundleFile} {bytes found : Bytes}
    (hfile : (state.write path file (some bytes)).dirs other kept = some found) :
    other = path ∧ kept = file ∧ bytes = found ∨ state.dirs other kept = some found := by
  by_cases hpath : other = path
  · subst hpath
    by_cases hkept : kept = file
    · subst hkept
      refine .inl ⟨rfl, rfl, ?_⟩
      simpa [State.write] using hfile
    · refine .inr ?_
      simpa [State.write, hkept] using hfile
  · refine .inr ?_
    simpa [State.write, hpath] using hfile

/-- Steps that queue nothing keep what was read and the number of upgrades. -/
theorem Settles.kept (hinv : Inv state) (hsettles : Settles state next)
    (hadded : state.added ⊆ next.added)
    (hreads : ∀ read ∈ next.reads, read ∈ state.reads ∨
      state.AsRequested read.job read.file read.bytes) : BundlesKept next := by
  refine ⟨fun read hread => ?_, fun cluster => ?_⟩
  · have has : state.AsRequested read.job read.file read.bytes := by
      rcases hreads read hread with hold | hnew
      · exact hinv.kept.reads read hold
      · exact hnew
    exact has.carry (congrFun hsettles.requested read.job) hadded
  · exact (hsettles.single cluster).trans (hinv.kept.single cluster)

/-- One case for each thing that a step can do. -/
theorem inv_step (hinv : Inv state) (hundisturbed : Undisturbed state event)
    (hstep : step parse state event = some next) : Inv next := by
  have hnamed := named_step hinv.named hstep
  cases step_effect hstep with
  | calm hfiles hsettles hadded hreads =>
      have hsub : state.added ⊆ next.added := hadded ▸ List.Subset.refl _
      refine ⟨hnamed, hsettles.kept hinv hsub fun read hread => .inl (hreads ▸ hread), ?_⟩
      intro path job hjob file bytes hfile
      exact (hinv.intact path job (hsettles.readers path hjob) file bytes
        (hfiles path file bytes hfile)).carry (congrFun hsettles.requested job) hsub
  | @copied path file bytes hcopies hdirs hsettles hadded hreads =>
      have hsub : state.added ⊆ next.added := hadded ▸ List.Subset.refl _
      refine ⟨hnamed, hsettles.kept hinv hsub fun read hread => .inl (hreads ▸ hread), ?_⟩
      intro other job hjob kept found hfile
      have hreader := hsettles.readers other hjob
      rw [hdirs] at hfile
      refine State.AsRequested.carry ?_ (congrFun hsettles.requested job) hsub
      rcases write_dirs hfile with ⟨rfl, rfl, rfl⟩ | hold
      · exact hundisturbed.copies _ hcopies job hreader
      · exact hinv.intact other job hreader kept found hold
  | @drawn src hdirs hsettles hadded hreads =>
      have hsub : state.added ⊆ next.added := hadded ▸ List.Subset.refl _
      refine ⟨hnamed, hsettles.kept hinv hsub fun read hread => .inl (hreads ▸ hread), ?_⟩
      intro path job hjob file bytes hfile
      have hreader := hsettles.readers path hjob
      have hpath := (hinv.named.readers path job hreader).1
      rw [hdirs, Function.update_of_ne hpath.ne] at hfile
      exact (hinv.intact path job hreader file bytes hfile).carry
        (congrFun hsettles.requested job) hsub
  | @inserted cluster path package hinserts hjobs htasks hdirs hrequested hadded hreads hlater =>
      have hsub : state.added ⊆ next.added := hadded ▸ List.Subset.refl _
      have hold : ∀ job, job < state.next → next.requested job = state.requested job := by
        intro job hjob
        rw [hrequested, Function.update_of_ne hjob.ne]
      refine ⟨hnamed, ⟨fun read hread => ?_, fun other => ?_⟩, ?_⟩
      · rw [hreads] at hread
        exact (hinv.kept.reads read hread).carry (hold _ (hinv.named.reads read hread)) hsub
      · have hnone : state.jobs.countP (·.upgradesOs cluster) = 0 :=
          hundisturbed.inserts _ hinserts
        have hsingle := hinv.kept.single other
        rw [hjobs, State.insertJob, List.countP_append]
        by_cases hsame : cluster = other
        · subst hsame
          rw [hnone, Nat.zero_add]
          exact List.countP_le_length
        · simpa [JobRow.upgradesOs, hsame] using hsingle
      · intro other job hjob file bytes hfile
        rw [hdirs] at hfile
        rcases mem_readers_inserted hjobs htasks hjob with hreader | ⟨rfl, rfl⟩
        · exact (hinv.intact other job hreader file bytes hfile).carry
            (hold job (hinv.named.readers other job hreader).2) hsub
        · refine .inl ?_
          rw [hrequested, Function.update_self]
          exact hfile
  | @keyed path key hkeys hdirs hsettles hadded hreads =>
      have hsub : state.added ⊆ next.added := hadded ▸ List.subset_cons_self _ _
      refine ⟨hnamed, hsettles.kept hinv hsub fun read hread => .inl (hreads ▸ hread), ?_⟩
      intro other job hjob kept found hfile
      have hreader := hsettles.readers other hjob
      rw [hdirs] at hfile
      rcases write_dirs hfile with ⟨rfl, rfl, rfl⟩ | hold
      · have hrequested := congrFun hsettles.requested job
        rcases hundisturbed.keys _ hkeys job hreader with hsame | hnone
        · exact .inl (by rw [hrequested]; exact hsame)
        · refine .inr ⟨rfl, by rw [hrequested]; exact hnone, ?_⟩
          rw [hadded]
          exact List.mem_cons_self
      · exact (hinv.intact other job hreader kept found hold).carry
          (congrFun hsettles.requested job) hsub
  | @read read path hreader hfile hdirs hsettles hadded hreads =>
      have hsub : state.added ⊆ next.added := hadded ▸ List.Subset.refl _
      refine ⟨hnamed, hsettles.kept hinv hsub fun other hother => ?_, ?_⟩
      · rw [hreads] at hother
        rcases List.mem_cons.mp hother with rfl | hold
        · exact .inr (hinv.intact path _ hreader _ _ hfile)
        · exact .inl hold
      · intro other job hjob file bytes hfound
        rw [hdirs] at hfound
        exact (hinv.intact other job (hsettles.readers other hjob) file bytes hfound).carry
          (congrFun hsettles.requested job) hsub

theorem inv_start : Inv start where
  named :=
    { packages := by simp [start]
      threads := by simp [start]
      readers := by simp [start, State.readers]
      reads := by simp [start] }
  kept :=
    { reads := by simp [start]
      single := by simp [start] }
  intact := by simp [start]

end Kept

def bundle (kernel : Bytes) : BundleDir := fun file =>
  if file = .kernel then some kernel else some [1]

def version (_ : Bytes) : Option Text := some ['1', '.', '2']

def arch : Text := ['a', 'r', 'm']

/-- A package is uploaded and applied to a cluster of two nodes. -/
def applied : List Event :=
  [Event.upload (bundle [1]) arch] ++ List.replicate 13 (Event.thread 0) ++
    [Event.apply 0 [1] true] ++ List.replicate 5 (Event.thread 1) ++
    [Event.claim 1 [['w'], ['c']] []] ++ List.replicate 16 (Event.task 0) ++
    [Event.endTask 0, Event.settle 1 .succeeded]

end PertiskKos.Packages
