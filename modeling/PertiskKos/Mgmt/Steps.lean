import PertiskKos.Mgmt.Worker

/-!
# What steps leave alone

Statements of tasks and threads do not touch the worker, and they neither make a job
queued nor move it to another cluster.  An entry leaves the running map only after its
task has ended.
-/

namespace PertiskKos.Jobs

/-- What may become of a row. -/
structure Follows (old row : JobRow) : Prop where
  id : row.id = old.id
  kind : row.kind = old.kind
  cluster : row.cluster = old.cluster ∨ row.cluster = none
  queued : row.status = .queued → old.status = .queued
  running : row.status = .running → old.status = .running ∨ old.status = .queued

theorem Follows.refl (row : JobRow) : Follows row row :=
  ⟨rfl, rfl, .inl rfl, fun hqueued => hqueued, .inl⟩

theorem Follows.trans {first second third : JobRow} (hleft : Follows first second)
    (hright : Follows second third) : Follows first third where
  id := hright.id.trans hleft.id
  kind := hright.kind.trans hleft.kind
  cluster := by
    rcases hright.cluster with hsame | hnone
    · rw [hsame]
      exact hleft.cluster
    · exact .inr hnone
  queued hqueued := hleft.queued (hright.queued hqueued)
  running hrunning := by
    rcases hright.running hrunning with hmiddle | hmiddle
    · exact hleft.running hmiddle
    · exact .inr (hleft.queued hmiddle)

/-- A change of status that never goes back. -/
def Forward (move : JobStatus → Option JobStatus) : Prop :=
  ∀ status, move status ≠ some .queued ∧ (move status = some .running → status = .queued)

instance (move : JobStatus → Option JobStatus) : Decidable (Forward move) :=
  decidable_of_iff
    (∀ status ∈ [JobStatus.queued, .running, .succeeded, .failed, .cancelled],
      move status ≠ some .queued ∧ (move status = some .running → status = .queued))
    ⟨fun hall status => hall status (by cases status <;> simp),
      fun hforward status _ => hforward status⟩

/-- Every row was there before, or is new. -/
structure Evolves (state next : State) : Prop where
  rows : ∀ row ∈ next.jobs,
    (∃ old ∈ state.jobs, Follows old row) ∨
      state.nextJob ≤ row.id ∧ row.id < next.nextJob
  nextJob : state.nextJob ≤ next.nextJob
  distinct : (∀ row ∈ state.jobs, row.id < state.nextJob) →
    (state.jobs.map JobRow.id).Nodup → (next.jobs.map JobRow.id).Nodup

theorem Evolves.of_sublist {state next : State} (hjobs : next.jobs.Sublist state.jobs)
    (hnext : next.nextJob = state.nextJob) : Evolves state next where
  rows row hrow := .inl ⟨row, hjobs.mem hrow, .refl row⟩
  nextJob := hnext.ge
  distinct _ hdistinct := hdistinct.sublist (hjobs.map JobRow.id)

theorem Evolves.of_same {state next : State} (hjobs : next.jobs = state.jobs)
    (hnext : next.nextJob = state.nextJob) : Evolves state next :=
  .of_sublist (hjobs ▸ List.Sublist.refl _) hnext

/-- Rows are changed in place. -/
theorem Evolves.of_map {state next : State} {change : JobRow → JobRow}
    (hjobs : next.jobs = state.jobs.map change)
    (hchange : ∀ row ∈ state.jobs, Follows row (change row))
    (hnext : next.nextJob = state.nextJob) : Evolves state next where
  rows row hrow := by
    obtain ⟨old, hold, rfl⟩ := List.mem_map.mp (hjobs ▸ hrow)
    exact .inl ⟨old, hold, hchange old hold⟩
  nextJob := hnext.ge
  distinct _ hdistinct := by
    have hids : next.jobs.map JobRow.id = state.jobs.map JobRow.id := by
      rw [hjobs, List.map_map]
      exact List.map_congr_left fun row hrow => (hchange row hrow).id
    rwa [hids]

theorem Evolves.fresh {state next : State} (hevolves : Evolves state next)
    (hfresh : ∀ row ∈ state.jobs, row.id < state.nextJob) :
    ∀ row ∈ next.jobs, row.id < next.nextJob := by
  intro row hrow
  rcases hevolves.rows row hrow with ⟨old, hold, hfollows⟩ | hnew
  · exact hfollows.id ▸ (hfresh old hold).trans_le hevolves.nextJob
  · exact hnew.2

theorem Evolves.trans {first second third : State} (hleft : Evolves first second)
    (hright : Evolves second third) : Evolves first third where
  rows row hrow := by
    rcases hright.rows row hrow with ⟨middle, hmiddle, hfollows⟩ | hnew
    · rcases hleft.rows middle hmiddle with ⟨old, hold, hrest⟩ | hfresh
      · exact .inl ⟨old, hold, hrest.trans hfollows⟩
      · have hid := hfollows.id
        have hmono := hright.nextJob
        exact .inr (by omega)
    · have hmono := hleft.nextJob
      exact .inr (by omega)
  nextJob := hleft.nextJob.trans hright.nextJob
  distinct hfresh hdistinct :=
    hright.distinct (hleft.fresh hfresh) (hleft.distinct hfresh hdistinct)

namespace State

variable (state : State) (id cluster : Nat)

@[simp] theorem moveJob_tasks (move) : (state.moveJob id move).tasks = state.tasks := rfl
@[simp] theorem moveJob_threads (move) : (state.moveJob id move).threads = state.threads := rfl
@[simp] theorem moveJob_running (move) : (state.moveJob id move).running = state.running := rfl
@[simp] theorem moveJob_finished (move) :
    (state.moveJob id move).finished = state.finished := rfl
@[simp] theorem moveJob_worker (move) : (state.moveJob id move).worker = state.worker := rfl
@[simp] theorem moveJob_clusters (move) :
    (state.moveJob id move).clusters = state.clusters := rfl
@[simp] theorem moveJob_nextJob (move) : (state.moveJob id move).nextJob = state.nextJob := rfl
@[simp] theorem moveJob_asked (move) :
    (state.moveJob id move).history.asked = state.history.asked := rfl

@[simp] theorem setStatus_tasks (allowed status error) :
    (state.setStatus cluster allowed status error).tasks = state.tasks := rfl
@[simp] theorem setStatus_threads (allowed status error) :
    (state.setStatus cluster allowed status error).threads = state.threads := rfl
@[simp] theorem setStatus_running (allowed status error) :
    (state.setStatus cluster allowed status error).running = state.running := rfl
@[simp] theorem setStatus_finished (allowed status error) :
    (state.setStatus cluster allowed status error).finished = state.finished := rfl
@[simp] theorem setStatus_worker (allowed status error) :
    (state.setStatus cluster allowed status error).worker = state.worker := rfl
@[simp] theorem setStatus_jobs (allowed status error) :
    (state.setStatus cluster allowed status error).jobs = state.jobs := rfl
@[simp] theorem setStatus_nextJob (allowed status error) :
    (state.setStatus cluster allowed status error).nextJob = state.nextJob := rfl
@[simp] theorem setStatus_history (allowed status error) :
    (state.setStatus cluster allowed status error).history = state.history := rfl

/-- Only the history learns of an admission. -/
theorem admitJob_eq (owner : Option Nat) (kind : Kind) :
    ∃ admitted, state.admitJob id owner kind =
      { state with history := { state.history with admitted } } := by
  unfold admitJob
  split
  · exact ⟨_, rfl⟩
  · exact ⟨_, rfl⟩

theorem note_eq :
    ∃ overrun, state.note id = { state with history := { state.history with overrun } } := by
  unfold note
  split
  · exact ⟨_, rfl⟩
  · exact ⟨_, rfl⟩

/-- A statement that moves a job never makes it queued. -/
theorem moveJob_evolves (move : JobStatus → Option JobStatus) (hmove : Forward move) :
    Evolves state (state.moveJob id move) := by
  refine .of_map rfl (fun old _ => ?_) rfl
  split
  · cases hto : move old.status with
    | none => exact .refl old
    | some status =>
        refine ⟨rfl, rfl, .inl rfl, fun hqueued => ?_, fun hrunning => .inr ?_⟩
        · exact absurd (hto.trans (congrArg some hqueued)) (hmove _).1
        · exact (hmove _).2 (hto.trans (congrArg some hrunning))
  · exact .refl old

/-- A job that was moved away is not queued. -/
theorem moveJob_unqueued {move : JobStatus → Option JobStatus} (hmove : Forward move)
    (haway : (move .queued).isSome)
    {row : JobRow} (hrow : row ∈ (state.moveJob id move).jobs) (hid : row.id = id) :
    row.status ≠ .queued := by
  obtain ⟨old, -, rfl⟩ := List.mem_map.mp hrow
  obtain ⟨status, hstatus⟩ := Option.isSome_iff_exists.mp haway
  split at hid
  · rename_i hold
    rw [if_pos hold]
    intro hqueued
    cases hto : move old.status with
    | none =>
        have hsame : old.status = .queued := by simpa [hto] using hqueued
        rw [hsame, hstatus] at hto
        cases hto
    | some next =>
        rw [show ({ old with status := (move old.status).getD old.status } : JobRow).status
          = next from by simp [hto]] at hqueued
        exact (hmove _).1 (hto.trans (congrArg some hqueued))
  · rename_i hold
    exact absurd hid hold

theorem insertJob_evolves (kind : Kind) : Evolves state (state.insertJob cluster kind) := by
  unfold insertJob
  split
  · set middle : State :=
      { state with
        jobs := state.jobs ++ [⟨state.nextJob, some cluster, kind, .queued⟩]
        nextJob := state.nextJob + 1 } with hmiddle
    obtain ⟨admitted, hadmitted⟩ := middle.admitJob_eq state.nextJob (some cluster) kind
    rw [hadmitted]
    refine ⟨fun row hrow => ?_, Nat.le_succ _, fun hfresh hdistinct => ?_⟩
    · rcases List.mem_append.mp hrow with hold | hnew
      · exact .inl ⟨row, hold, .refl row⟩
      · rw [List.mem_singleton.mp hnew]
        exact .inr ⟨le_rfl, Nat.lt_succ_self _⟩
    · simp only [hmiddle, List.map_append, List.map_cons, List.map_nil]
      refine List.nodup_append.mpr ⟨hdistinct, List.nodup_singleton _, ?_⟩
      intro old hold new hnew
      obtain ⟨row, hrow, rfl⟩ := List.mem_map.mp hold
      rw [List.mem_singleton.mp hnew]
      exact (hfresh row hrow).ne
  · exact .of_same rfl rfl

/-- All that a new job touches are the jobs and the history. -/
theorem insertJob_eq (kind : Kind) :
    ∃ jobs nextJob admitted, state.insertJob cluster kind =
      { state with jobs, nextJob, history := { state.history with admitted } } := by
  unfold insertJob
  split
  · obtain ⟨admitted, hadmitted⟩ := State.admitJob_eq
      { state with
        jobs := state.jobs ++ [⟨state.nextJob, some cluster, kind, .queued⟩]
        nextJob := state.nextJob + 1 } state.nextJob (some cluster) kind
    exact ⟨_, _, admitted, hadmitted⟩
  · exact ⟨_, _, _, rfl⟩

/-- What the tasks and the threads still have to do. -/
def programs (state : State) : List (List Stmt) :=
  state.threads ++ state.tasks.map Task.program

/-- The task of the job has ended, and the running map may still have to be told. -/
def Retired (state : State) (id : Nat) : Prop :=
  id ∈ state.finished.map Prod.fst ∨ ∃ program ∈ state.programs, .unregister id ∈ program

end State

/-- What a statement leaves alone. -/
structure Executed (state : State) (stmt : Stmt) (next : State) : Prop where
  evolves : Evolves state next
  entries : next.tasks.map Task.entry = state.tasks.map Task.entry
  programs : next.tasks.map Task.program = state.tasks.map Task.program
  worker : next.worker = state.worker
  finished : next.finished = state.finished
  threads : next.threads = state.threads
  asked : next.history.asked = state.history.asked
  running : ∃ gone : List Nat,
    next.running = state.running.filter (fun entry => entry.id ∉ gone) ∧
      ∀ id ∈ gone, stmt = .unregister id

theorem running_unchanged (state : State) (stmt : Stmt) :
    ∃ gone : List Nat,
      state.running = state.running.filter (fun entry => entry.id ∉ gone) ∧
        ∀ id ∈ gone, stmt = .unregister id :=
  ⟨[], by simp, by simp⟩

variable {state next : State} {stmt : Stmt} {rest program : List Stmt}

/-- A statement that touches neither the running map nor the tasks. -/
theorem Executed.of_evolves (hevolves : Evolves state next) (htasks : next.tasks = state.tasks)
    (hworker : next.worker = state.worker) (hfinished : next.finished = state.finished)
    (hthreads : next.threads = state.threads)
    (hasked : next.history.asked = state.history.asked)
    (hrunning : next.running = state.running) : Executed state stmt next where
  evolves := hevolves
  entries := by rw [htasks]
  programs := by rw [htasks]
  worker := hworker
  finished := hfinished
  threads := hthreads
  asked := hasked
  running := hrunning ▸ running_unchanged state stmt

/-- One case per statement. -/
theorem exec_executed (hexec : exec state stmt rest = some (next, program)) :
    Executed state stmt next := by
  cases stmt with
  | writeStatus required cluster status error =>
      obtain ⟨rfl, -⟩ := Prod.mk.inj (Option.some.inj hexec)
      exact .of_evolves (.of_same rfl rfl) rfl rfl rfl rfl rfl rfl
  | writeCreated cluster error =>
      obtain ⟨rfl, -⟩ := Prod.mk.inj (Option.some.inj hexec)
      exact .of_evolves (.of_same rfl rfl) rfl rfl rfl rfl rfl rfl
  | keepReady cluster =>
      obtain ⟨rfl, -⟩ := Prod.mk.inj (Option.some.inj hexec)
      exact .of_evolves (.of_same rfl rfl) rfl rfl rfl rfl rfl rfl
  | markDeleting cluster =>
      obtain ⟨rfl, -⟩ := Prod.mk.inj (Option.some.inj hexec)
      exact .of_evolves (.of_same rfl rfl) rfl rfl rfl rfl rfl rfl
  | insertCluster =>
      obtain ⟨rfl, -⟩ := Prod.mk.inj (Option.some.inj hexec)
      exact .of_evolves (.of_same rfl rfl) rfl rfl rfl rfl rfl rfl
  | insertJob cluster kind =>
      obtain ⟨rfl, -⟩ := Prod.mk.inj (Option.some.inj hexec)
      have hevolves := state.insertJob_evolves cluster kind
      obtain ⟨jobs, nextJob, admitted, hinsert⟩ := state.insertJob_eq cluster kind
      rw [hinsert] at hevolves ⊢
      exact .of_evolves hevolves rfl rfl rfl rfl rfl rfl
  | checkNotDeleting cluster =>
      simp only [exec] at hexec
      split at hexec
      all_goals
        obtain ⟨rfl, -⟩ := Prod.mk.inj (Option.some.inj hexec)
        exact .of_evolves (.of_same rfl rfl) rfl rfl rfl rfl rfl rfl
  | latestJob cluster status error =>
      obtain ⟨rfl, -⟩ := Prod.mk.inj (Option.some.inj hexec)
      exact .of_evolves (.of_same rfl rfl) rfl rfl rfl rfl rfl rfl
  | record id cluster kind ok =>
      obtain ⟨rfl, -⟩ := Prod.mk.inj (Option.some.inj hexec)
      have hmoved := state.moveJob_evolves id
        (fun _ => some (if ok then .succeeded else .failed)) (by cases ok <;> decide)
      exact .of_evolves ⟨hmoved.rows, hmoved.nextJob, hmoved.distinct⟩
        rfl rfl rfl rfl rfl rfl
  | removeJob id =>
      obtain ⟨rfl, -⟩ := Prod.mk.inj (Option.some.inj hexec)
      exact .of_evolves (.of_sublist List.filter_sublist rfl)
        rfl rfl rfl rfl rfl rfl
  | abortJobs cluster =>
      obtain ⟨rfl, -⟩ := Prod.mk.inj (Option.some.inj hexec)
      refine ⟨.of_same rfl rfl, ?_, ?_, rfl, rfl, rfl, rfl, running_unchanged state _⟩
      · simp only [List.map_map]
        refine List.map_congr_left fun task _ => ?_
        simp only [Function.comp_apply]
        split <;> rfl
      · simp only [List.map_map]
        refine List.map_congr_left fun task _ => ?_
        simp only [Function.comp_apply]
        split <;> rfl
  | selectJobs cluster stopped =>
      obtain ⟨rfl, -⟩ := Prod.mk.inj (Option.some.inj hexec)
      exact .of_evolves (.of_same rfl rfl) rfl rfl rfl rfl rfl rfl
  | cancelJobs ids stopped =>
      cases ids with
      | nil =>
          obtain ⟨rfl, -⟩ := Prod.mk.inj (Option.some.inj hexec)
          exact .of_evolves (.of_same rfl rfl) rfl rfl rfl rfl rfl rfl
      | cons id ids =>
          obtain ⟨rfl, -⟩ := Prod.mk.inj (Option.some.inj hexec)
          exact .of_evolves (state.moveJob_evolves id _ (by decide)) rfl rfl rfl rfl rfl rfl
  | readCluster cluster =>
      obtain ⟨rfl, -⟩ := Prod.mk.inj (Option.some.inj hexec)
      exact .of_evolves (.of_same rfl rfl) rfl rfl rfl rfl rfl rfl
  | dropJobs cluster =>
      obtain ⟨rfl, -⟩ := Prod.mk.inj (Option.some.inj hexec)
      exact .of_evolves (.of_sublist List.filter_sublist rfl)
        rfl rfl rfl rfl rfl rfl
  | dropCluster cluster =>
      obtain ⟨rfl, -⟩ := Prod.mk.inj (Option.some.inj hexec)
      refine .of_evolves (.of_map rfl (fun row _ => ?_) rfl) rfl rfl rfl rfl rfl rfl
      split
      · exact ⟨rfl, rfl, .inr rfl, fun hqueued => hqueued, .inl⟩
      · exact .refl row
  | dropDeletes =>
      obtain ⟨rfl, -⟩ := Prod.mk.inj (Option.some.inj hexec)
      exact .of_evolves (.of_sublist List.filter_sublist rfl)
        rfl rfl rfl rfl rfl rfl
  | join id =>
      simp only [exec] at hexec
      split at hexec
      · obtain ⟨rfl, -⟩ := Prod.mk.inj (Option.some.inj hexec)
        exact .of_evolves (.of_same rfl rfl) rfl rfl rfl rfl rfl rfl
      · obtain ⟨rfl, -⟩ := Prod.mk.inj (Option.some.inj hexec)
        exact .of_evolves (.of_same rfl rfl) rfl rfl rfl rfl rfl rfl
      · cases hexec
  | unregister id =>
      obtain ⟨rfl, -⟩ := Prod.mk.inj (Option.some.inj hexec)
      exact ⟨.of_same rfl rfl, rfl, rfl, rfl, rfl, rfl, rfl, [id], by simp, by simp⟩
  | closeAborted id =>
      obtain ⟨rfl, -⟩ := Prod.mk.inj (Option.some.inj hexec)
      exact .of_evolves (state.moveJob_evolves id _ (by decide))
        rfl rfl rfl rfl rfl rfl
  | watched id =>
      obtain ⟨rfl, -⟩ := Prod.mk.inj (Option.some.inj hexec)
      exact .of_evolves (.of_same rfl rfl) rfl rfl rfl rfl rfl rfl

/-- What a statement puts in front of the rest of its program. -/
inductive Continues (state : State) : Stmt → Stmt → Prop where
  | creates : Continues state .insertCluster (.insertJob state.nextCluster .createCluster)
  | repairs (cluster : Nat) (status : ClusterStatus) (error : Bool) :
      Continues state (.latestJob cluster status error) (.keepReady cluster)
  | selects (cluster : Nat) :
      Continues state (.abortJobs cluster) (.selectJobs cluster (victims state cluster))
  | cancels (cluster : Nat) (stopped : List Nat) :
      Continues state (.selectJobs cluster stopped) (.cancelJobs (victims state cluster) stopped)
  | loops (id : Nat) (ids stopped : List Nat) :
      Continues state (.cancelJobs (id :: ids) stopped) (.cancelJobs ids stopped)
  | joins {id : Nat} {aborted : Bool} (hdone : (id, aborted) ∈ state.finished) {stmt : Stmt}
      (hstmt : stmt ∈ [.unregister id, .closeAborted id, .watched id]) :
      Continues state (.join id) stmt

theorem mem_of_lookup {id : Nat} {aborted : Bool} {finished : List (Nat × Bool)}
    (hlookup : finished.lookup id = some aborted) : (id, aborted) ∈ finished := by
  obtain ⟨before, after, hsplit, -⟩ := List.lookup_eq_some_iff.mp hlookup
  simp [hsplit]

/-- What is left to do was left before, or continues the statement. -/
theorem exec_mem (hexec : exec state stmt rest = some (next, program)) {other : Stmt}
    (hmem : other ∈ program) : other ∈ rest ∨ Continues state stmt other := by
  cases stmt with
  | checkNotDeleting cluster =>
      simp only [exec] at hexec
      split at hexec <;> obtain ⟨-, rfl⟩ := Prod.mk.inj (Option.some.inj hexec)
      · split at hmem
        · cases hmem
        · exact .inl hmem
      · cases hmem
  | latestJob cluster status error =>
      obtain ⟨-, rfl⟩ := Prod.mk.inj (Option.some.inj hexec)
      split at hmem
      · rcases List.mem_cons.mp hmem with rfl | hrest
        · exact .inr (.repairs cluster status error)
        · exact .inl hrest
      · exact .inl hmem
  | insertCluster =>
      obtain ⟨-, rfl⟩ := Prod.mk.inj (Option.some.inj hexec)
      rcases List.mem_cons.mp hmem with rfl | hrest
      · exact .inr .creates
      · exact .inl hrest
  | abortJobs cluster =>
      obtain ⟨-, rfl⟩ := Prod.mk.inj (Option.some.inj hexec)
      rcases List.mem_cons.mp hmem with rfl | hrest
      · exact .inr (.selects cluster)
      · exact .inl hrest
  | selectJobs cluster stopped =>
      obtain ⟨-, rfl⟩ := Prod.mk.inj (Option.some.inj hexec)
      rcases List.mem_cons.mp hmem with rfl | hrest
      · exact .inr (.cancels cluster stopped)
      · exact .inl hrest
  | cancelJobs ids stopped =>
      cases ids with
      | nil =>
          obtain ⟨-, rfl⟩ := Prod.mk.inj (Option.some.inj hexec)
          exact .inl hmem
      | cons first ids =>
          obtain ⟨-, rfl⟩ := Prod.mk.inj (Option.some.inj hexec)
          rcases List.mem_cons.mp hmem with rfl | hrest
          · exact .inr (.loops first ids stopped)
          · exact .inl hrest
  | readCluster cluster =>
      obtain ⟨-, rfl⟩ := Prod.mk.inj (Option.some.inj hexec)
      split at hmem
      · exact .inl hmem
      · exact .inl ((List.dropWhile_sublist _).mem hmem)
  | join id =>
      simp only [exec] at hexec
      split at hexec
      iterate 2
        rename_i hlookup
        obtain ⟨-, rfl⟩ := Prod.mk.inj (Option.some.inj hexec)
        rcases List.mem_append.mp hmem with hnew | hrest
        · exact .inr (.joins (mem_of_lookup hlookup) (by simp at hnew ⊢; tauto))
        · exact .inl hrest
      cases hexec
  | _ =>
      obtain ⟨-, rfl⟩ := Prod.mk.inj (Option.some.inj hexec)
      exact .inl hmem

/-- Only a join that succeeds adds a removal from the running map. -/
theorem exec_unregister (hexec : exec state stmt rest = some (next, program)) {id : Nat}
    (hmem : .unregister id ∈ program) :
    .unregister id ∈ rest ∨ id ∈ state.finished.map Prod.fst := by
  refine (exec_mem hexec hmem).imp_right fun hcontinues => ?_
  cases hcontinues with
  | joins hdone hstmt =>
      simp only [List.mem_cons, Stmt.unregister.injEq, reduceCtorEq, List.not_mem_nil,
        or_false] at hstmt
      exact hstmt ▸ List.mem_map_of_mem hdone

theorem mem_dropWhile {α : Type*} {test : α → Bool} {xs : List α} {x : α} (hmem : x ∈ xs)
    (htest : test x = false) : x ∈ xs.dropWhile test := by
  induction xs with
  | nil => cases hmem
  | cons head tail ih =>
      rw [List.dropWhile_cons]
      split
      · rename_i hhead
        rcases List.mem_cons.mp hmem with rfl | htail
        · simp [htest] at hhead
        · exact ih htail
      · exact hmem

/-- What is left to do stays, unless it is a part of a purge that is not needed. -/
theorem exec_keeps (hexec : exec state stmt rest = some (next, program))
    (hcheck : ∀ cluster, stmt ≠ .checkNotDeleting cluster) {other : Stmt}
    (hmem : other ∈ rest) (hpurge : isPurge other = false) : other ∈ program := by
  cases stmt with
  | checkNotDeleting cluster => exact absurd rfl (hcheck cluster)
  | latestJob cluster status error =>
      obtain ⟨-, rfl⟩ := Prod.mk.inj (Option.some.inj hexec)
      split
      · exact List.mem_cons_of_mem _ hmem
      · exact hmem
  | insertCluster | abortJobs | selectJobs =>
      obtain ⟨-, rfl⟩ := Prod.mk.inj (Option.some.inj hexec)
      exact List.mem_cons_of_mem _ hmem
  | cancelJobs ids stopped =>
      cases ids <;> obtain ⟨-, rfl⟩ := Prod.mk.inj (Option.some.inj hexec)
      · exact hmem
      · exact List.mem_cons_of_mem _ hmem
  | readCluster cluster =>
      obtain ⟨-, rfl⟩ := Prod.mk.inj (Option.some.inj hexec)
      split
      · exact hmem
      · exact mem_dropWhile hmem hpurge
  | join id =>
      simp only [exec] at hexec
      split at hexec
      iterate 2
        obtain ⟨-, rfl⟩ := Prod.mk.inj (Option.some.inj hexec)
        exact List.mem_append_right _ hmem
      cases hexec
  | _ =>
      obtain ⟨-, rfl⟩ := Prod.mk.inj (Option.some.inj hexec)
      exact hmem

/-- A step of anyone but the worker, and not the end of a task. -/
structure Calm (state next : State) : Prop where
  evolves : Evolves state next
  entries : next.tasks.map Task.entry = state.tasks.map Task.entry
  worker : next.worker = state.worker
  asked : next.history.asked = state.history.asked
  running : ∃ gone : List Nat,
    next.running = state.running.filter (fun entry => entry.id ∉ gone) ∧
      ∀ id ∈ gone, state.Retired id
  retired : ∀ id, next.Retired id → state.Retired id

/-- A step that changes programs only, and adds no removal from the running map. -/
theorem Calm.of_programs (hevolves : Evolves state next)
    (hentries : next.tasks.map Task.entry = state.tasks.map Task.entry)
    (hworker : next.worker = state.worker) (hfinished : next.finished = state.finished)
    (hasked : next.history.asked = state.history.asked)
    (hrunning : next.running = state.running)
    (hprograms : ∀ program ∈ next.programs, ∀ id, .unregister id ∈ program →
      state.Retired id) : Calm state next where
  evolves := hevolves
  entries := hentries
  worker := hworker
  asked := hasked
  running := ⟨[], by simp [hrunning], by simp⟩
  retired id hretired := by
    rcases hretired with hdone | ⟨program, hprogram, hid⟩
    · exact .inl (hfinished ▸ hdone)
    · exact hprograms program hprogram id hid

theorem State.Retired.of_program {state : State} {program : List Stmt} {id : Nat}
    (hprogram : program ∈ state.programs) (hid : .unregister id ∈ program) :
    state.Retired id := .inr ⟨program, hprogram, hid⟩

theorem mem_programs_of_thread {index : Nat} {program : List Stmt}
    (hthread : state.threads[index]? = some program) : program ∈ state.programs :=
  List.mem_append_left _ (List.mem_of_getElem? hthread)

theorem mem_programs_of_task {index : Nat} {task : Task}
    (htask : state.tasks[index]? = some task) : task.program ∈ state.programs :=
  List.mem_append_right _ (List.mem_map_of_mem (List.mem_of_getElem? htask))

/-- After a statement its program is the new one, and all others are as they were. -/
theorem programs_setThread {index : Nat} {other : List Stmt}
    (hthreads : next.threads = state.threads)
    (hprograms : next.tasks.map Task.program = state.tasks.map Task.program)
    (hmem : other ∈ (next.setThread index program).programs) :
    other = program ∨ other ∈ state.programs := by
  simp only [State.programs, State.setThread, hthreads, hprograms] at hmem ⊢
  rcases List.mem_append.mp hmem with hthread | htask
  · rcases List.mem_or_eq_of_mem_set hthread with hold | hnew
    · exact .inr (List.mem_append_left _ hold)
    · exact .inl hnew
  · exact .inr (List.mem_append_right _ htask)

theorem programs_setTask {index : Nat} (task : Task) {other : List Stmt}
    (hthreads : next.threads = state.threads)
    (hprograms : next.tasks.map Task.program = state.tasks.map Task.program)
    (hmem : other ∈ (next.setTask index task).programs) :
    other = task.program ∨ other ∈ state.programs := by
  simp only [State.programs, State.setTask, hthreads, List.map_set, hprograms] at hmem ⊢
  rcases List.mem_append.mp hmem with hthread | htask
  · exact .inr (List.mem_append_left _ hthread)
  · rcases List.mem_or_eq_of_mem_set htask with hold | hnew
    · exact .inr (List.mem_append_right _ hold)
    · exact .inl hnew

/-- A program that is there, after its next statement was run. -/
theorem Executed.calm {after : State} (hexecuted : Executed state stmt next)
    (hexec : exec state stmt rest = some (next, program))
    (hmem : stmt :: rest ∈ state.programs)
    (hprograms : ∀ other ∈ after.programs, other = program ∨ other ∈ state.programs)
    (hentries : after.tasks.map Task.entry = next.tasks.map Task.entry)
    (hsame : after.jobs = next.jobs ∧ after.nextJob = next.nextJob ∧
      after.worker = next.worker ∧ after.finished = next.finished ∧
      after.running = next.running ∧ after.history.asked = next.history.asked) :
    Calm state after where
  evolves := hexecuted.evolves.trans (.of_same hsame.1 hsame.2.1)
  entries := hentries.trans hexecuted.entries
  worker := hsame.2.2.1.trans hexecuted.worker
  asked := hsame.2.2.2.2.2.trans hexecuted.asked
  running := by
    obtain ⟨gone, hgone, hids⟩ := hexecuted.running
    refine ⟨gone, hsame.2.2.2.2.1.trans hgone, fun id hid => ?_⟩
    exact .of_program hmem (hids id hid ▸ List.mem_cons_self)
  retired id hretired := by
    rcases hretired with hdone | ⟨other, hother, hid⟩
    · exact .inl ((hsame.2.2.2.1.trans hexecuted.finished) ▸ hdone)
    · rcases hprograms other hother with rfl | hold
      · rcases exec_unregister hexec hid with hrest | hdone
        · exact .of_program hmem (List.mem_cons_of_mem _ hrest)
        · exact .inl hdone
      · exact .of_program hold hid

theorem skip_sublist (hskip : skip stmt rest = some program) : program = rest := by
  unfold skip at hskip
  split at hskip <;> simp_all

/-- What only the watcher of a task runs. -/
def isWatch : Stmt → Bool
  | .join _ | .unregister _ | .closeAborted _ | .watched _ => true
  | _ => false

/-- The statements of a cancellation that depend on what it has read. -/
def isCancel : Stmt → Bool
  | .selectJobs _ _ | .cancelJobs _ _ => true
  | _ => false

/-- A request does nothing, or begins a program. -/
theorem request_cases (state : State) (request : Request) :
    state.request request = state ∨
      ∃ program, state.request request = state.begin program ∧
        ∀ stmt ∈ program, isWatch stmt = false ∧ isCancel stmt = false := by
  cases request with
  | create => exact .inr ⟨_, rfl, by simp [isWatch, isCancel]⟩
  | queue cluster kind =>
      simp only [State.request]
      split
      · exact .inl rfl
      · exact .inr ⟨_, rfl, by simp [isWatch, isCancel]⟩
  | upgrade cluster => exact .inr ⟨_, rfl, by simp [isWatch, isCancel]⟩
  | delete cluster =>
      simp only [State.request]
      split
      · exact .inl rfl
      · refine .inr ⟨_, rfl, ?_⟩
        split <;> simp [purge, purgeDb, isWatch, isCancel]
  | getOne cluster =>
      simp only [State.request]
      split
      · exact .inl rfl
      · exact .inr ⟨_, rfl, by simp [isWatch, isCancel]⟩

/-- A request starts without removals from the running map. -/
theorem request_calm (request : Request) : Calm state (state.request request) := by
  rcases request_cases state request with hsame | ⟨program, hbegin, hplain⟩
  · rw [hsame]
    exact .of_programs (.of_same rfl rfl) rfl rfl rfl rfl rfl
      fun other hother id hid => .of_program hother hid
  · rw [hbegin]
    refine .of_programs (.of_same rfl rfl) rfl rfl rfl rfl rfl fun other hother id hid => ?_
    simp only [State.programs, State.begin, List.mem_append, List.mem_singleton] at hother
    rcases hother with (hold | rfl) | htask
    · exact .of_program (List.mem_append_left _ hold) hid
    · simpa [isWatch] using (hplain _ hid).1
    · exact .of_program (List.mem_append_right _ htask) hid

@[simp] theorem note_jobs (state : State) (id : Nat) : (state.note id).jobs = state.jobs := by
  unfold State.note
  split <;> rfl

/-! ## What a step does -/

theorem step_thread {index : Nat} (hstep : step state (.thread index) = some next) :
    ∃ stmt rest middle program, state.threads[index]? = some (stmt :: rest) ∧
      exec state stmt rest = some (middle, program) ∧ next = middle.setThread index program := by
  simp only [step] at hstep
  split at hstep
  · rename_i stmt rest hthread
    obtain ⟨⟨middle, program⟩, hexec, rfl⟩ := Option.map_eq_some_iff.mp hstep
    exact ⟨stmt, rest, middle, program, hthread, hexec, rfl⟩
  · cases hstep

theorem step_threadSkips {index : Nat} (hstep : step state (.threadSkips index) = some next) :
    ∃ stmt rest, state.threads[index]? = some (stmt :: rest) ∧ skip stmt rest = some rest ∧
      next = state.setThread index rest := by
  simp only [step] at hstep
  split at hstep
  · rename_i stmt rest hthread
    obtain ⟨program, hskip, rfl⟩ := Option.map_eq_some_iff.mp hstep
    obtain rfl := skip_sublist hskip
    exact ⟨stmt, program, hthread, hskip, rfl⟩
  · cases hstep

theorem step_threadDies {index : Nat} (hstep : step state (.threadDies index) = some next) :
    ∃ stmt rest, state.threads[index]? = some (stmt :: rest) ∧
      next = state.setThread index [] := by
  simp only [step] at hstep
  split at hstep
  · rename_i stmt rest hthread
    split at hstep
    iterate 4 cases hstep
    exact ⟨stmt, rest, hthread, (Option.some.inj hstep).symm⟩
  · cases hstep

theorem step_task {index : Nat} (hstep : step state (.task index) = some next) :
    ∃ task stmt rest middle program, state.tasks[index]? = some task ∧
      task.program = stmt :: rest ∧ exec state stmt rest = some (middle, program) ∧
      next = (middle.setTask index
        { task with
          program := program
          aborted := (middle.tasks[index]?).elim task.aborted Task.aborted }).note
        task.entry.id := by
  simp only [step] at hstep
  split at hstep
  · rename_i task htask
    split at hstep
    · rename_i stmt rest hprogram
      obtain ⟨⟨middle, program⟩, hexec, rfl⟩ := Option.map_eq_some_iff.mp hstep
      exact ⟨task, stmt, rest, middle, program, htask, hprogram, hexec, rfl⟩
    · cases hstep
  · cases hstep

theorem step_taskSkips {index : Nat} (hstep : step state (.taskSkips index) = some next) :
    ∃ task stmt rest, state.tasks[index]? = some task ∧ task.program = stmt :: rest ∧
      skip stmt rest = some rest ∧
      next = (state.setTask index { task with program := rest }).note task.entry.id := by
  simp only [step] at hstep
  split at hstep
  · rename_i task htask
    split at hstep
    · rename_i stmt rest hprogram
      obtain ⟨program, hskip, rfl⟩ := Option.map_eq_some_iff.mp hstep
      obtain rfl := skip_sublist hskip
      exact ⟨task, stmt, program, htask, hprogram, hskip, rfl⟩
    · cases hstep
  · cases hstep

theorem step_taskReturns {index : Nat} (hstep : step state (.taskReturns index) = some next) :
    ∃ task, state.tasks[index]? = some task ∧ task.program = [] ∧
      next = state.finish index task.entry.id false := by
  simp only [step] at hstep
  split at hstep
  · rename_i task htask
    split at hstep
    · rename_i hdone
      exact ⟨task, htask, hdone, (Option.some.inj hstep).symm⟩
    · cases hstep
  · cases hstep

theorem step_taskStops {index : Nat} (hstep : step state (.taskStops index) = some next) :
    ∃ task, state.tasks[index]? = some task ∧
      next = state.finish index task.entry.id true := by
  simp only [step] at hstep
  split at hstep
  · rename_i task htask
    split at hstep
    · exact ⟨task, htask, (Option.some.inj hstep).symm⟩
    · cases hstep
  · cases hstep

/-! ## Steps of requests and tasks -/

theorem thread_calm {index : Nat} (hstep : step state (.thread index) = some next) :
    Calm state next := by
  obtain ⟨stmt, rest, middle, program, hthread, hexec, rfl⟩ := step_thread hstep
  have hexecuted := exec_executed hexec
  exact hexecuted.calm hexec (mem_programs_of_thread hthread)
    (fun other hother => programs_setThread hexecuted.threads hexecuted.programs hother)
    rfl ⟨rfl, rfl, rfl, rfl, rfl, rfl⟩

theorem setThread_calm {index : Nat} {before : List Stmt}
    (hthread : state.threads[index]? = some before) (hsub : ∀ stmt ∈ program, stmt ∈ before) :
    Calm state (state.setThread index program) := by
  refine .of_programs (.of_same rfl rfl) rfl rfl rfl rfl rfl fun other hother id hid => ?_
  rcases programs_setThread rfl rfl hother with rfl | hold
  · exact .of_program (mem_programs_of_thread hthread) (hsub _ hid)
  · exact .of_program hold hid

theorem threadSkips_calm {index : Nat} (hstep : step state (.threadSkips index) = some next) :
    Calm state next := by
  obtain ⟨stmt, rest, hthread, -, rfl⟩ := step_threadSkips hstep
  exact setThread_calm hthread fun other hother => List.mem_cons_of_mem _ hother

theorem threadDies_calm {index : Nat} (hstep : step state (.threadDies index) = some next) :
    Calm state next := by
  obtain ⟨stmt, rest, hthread, rfl⟩ := step_threadDies hstep
  exact setThread_calm hthread (by simp)

/-- A task goes on with another program. -/
theorem entries_setTask {index : Nat} (task other : Task)
    (htask : (state.tasks.map Task.entry)[index]? = some task.entry)
    (hentry : other.entry = task.entry) :
    (state.setTask index other).tasks.map Task.entry = state.tasks.map Task.entry := by
  simp only [State.setTask, List.map_set, hentry]
  refine List.ext_getElem? fun position => ?_
  rw [List.getElem?_set]
  split
  · rename_i heq
    subst heq
    split
    · exact htask.symm
    · rename_i hlong
      exact (List.getElem?_eq_none (not_lt.mp hlong)).symm
  · rfl

theorem task_calm {index : Nat} (hstep : step state (.task index) = some next) :
    Calm state next := by
  obtain ⟨task, stmt, rest, middle, program, htask, hprogram, hexec, rfl⟩ := step_task hstep
  set after : Task :=
    { task with
      program := program
      aborted := (middle.tasks[index]?).elim task.aborted Task.aborted }
  obtain ⟨overrun, hnote⟩ := (middle.setTask index after).note_eq task.entry.id
  rw [hnote]
  have hexecuted := exec_executed hexec
  have hentry : (middle.tasks.map Task.entry)[index]? = some task.entry := by
    rw [hexecuted.entries, List.getElem?_map, htask]
    rfl
  refine hexecuted.calm hexec (hprogram ▸ mem_programs_of_task htask)
    (fun other hother => programs_setTask after hexecuted.threads hexecuted.programs hother)
    (entries_setTask task after hentry rfl) ⟨rfl, rfl, rfl, rfl, rfl, rfl⟩

theorem taskSkips_calm {index : Nat} (hstep : step state (.taskSkips index) = some next) :
    Calm state next := by
  obtain ⟨task, stmt, rest, htask, hprogram, -, rfl⟩ := step_taskSkips hstep
  obtain ⟨overrun, hnote⟩ :=
    (state.setTask index { task with program := rest }).note_eq task.entry.id
  rw [hnote]
  refine .of_programs (.of_same rfl rfl)
    (entries_setTask task _ (by rw [List.getElem?_map, htask]; rfl) rfl) rfl rfl rfl rfl
    fun other hother id hid => ?_
  rcases programs_setTask _ (rfl : state.threads = _) rfl hother with rfl | hold
  · exact .of_program (mem_programs_of_task htask) (hprogram ▸ List.mem_cons_of_mem _ hid)
  · exact .of_program hold hid

theorem taskLabours_calm {index : Nat} (hstep : step state (.taskLabours index) = some next) :
    Calm state next := by
  obtain ⟨task, htask, rfl⟩ := Option.map_eq_some_iff.mp hstep
  obtain ⟨overrun, hnote⟩ := state.note_eq task.entry.id
  rw [hnote]
  exact .of_programs (.of_same rfl rfl) rfl rfl rfl rfl rfl
    fun other hother id hid => .of_program hother hid

/-- What a step can be: one of a request or a task, the end of a task, or one of the
worker. -/
inductive Move (state : State) : State → Prop where
  | calm {next : State} : Calm state next → Move state next
  | ends {index : Nat} {task : Task} (aborted : Bool) :
      state.tasks[index]? = some task → Move state (state.finish index task.entry.id aborted)
  | works {next : State} : state.work state.worker = some next → Move state next
  | skips {row : Entry} : state.worker = .provisioning row →
      Move state { state with worker := .logging row }
  | fails {next : State} : state.failWork state.worker = some next → Move state next
  | spawns {row : Entry} (addons : Nat) (outcome : Outcome) :
      state.worker = .returned row →
      Move state
        { state with
          tasks := state.tasks ++ [⟨row, executeJob row addons outcome, false⟩]
          worker := .spawned row }

theorem step_move {event : Event} (hstep : step state event = some next) :
    Move state next := by
  cases event with
  | requests request =>
      obtain rfl := Option.some.inj hstep
      exact .calm (request_calm request)
  | thread index => exact .calm (thread_calm hstep)
  | threadSkips index => exact .calm (threadSkips_calm hstep)
  | threadDies index => exact .calm (threadDies_calm hstep)
  | task index => exact .calm (task_calm hstep)
  | taskSkips index => exact .calm (taskSkips_calm hstep)
  | taskLabours index => exact .calm (taskLabours_calm hstep)
  | taskReturns index =>
      obtain ⟨task, htask, -, rfl⟩ := step_taskReturns hstep
      exact .ends false htask
  | taskDies index =>
      obtain ⟨task, htask, rfl⟩ := Option.map_eq_some_iff.mp hstep
      exact .ends false htask
  | taskStops index =>
      obtain ⟨task, htask, rfl⟩ := step_taskStops hstep
      exact .ends true htask
  | works => exact .works hstep
  | workerSkips =>
      simp only [step] at hstep
      split at hstep
      · rename_i row hworker
        obtain rfl := Option.some.inj hstep
        exact .skips hworker
      · cases hstep
  | workerFails => exact .fails hstep
  | spawns addons outcome =>
      simp only [step] at hstep
      split at hstep
      · rename_i row hworker
        obtain rfl := Option.some.inj hstep
        exact .spawns addons outcome hworker
      · cases hstep

/-- The check with which an upgrade request ends early. -/
def isCheck : Stmt → Bool
  | .checkNotDeleting _ => true
  | _ => false

/-- A statement that the task of a job may start with. -/
def isPlain (stmt : Stmt) : Bool := !isWatch stmt && !isCancel stmt && !isCheck stmt

theorem isPlain_body (kind : Kind) (cluster addons : Nat) :
    ∀ stmt ∈ body kind cluster addons, isPlain stmt = true := by
  cases kind <;>
    simp [body, isPlain, isWatch, isCancel, isCheck, purge, purgeDb, List.mem_replicate]

theorem isPlain_failedBody (kind : Kind) (cluster addons reach : Nat) (message : Bool) :
    ∀ stmt ∈ failedBody kind cluster addons reach message, isPlain stmt = true := by
  intro stmt hstmt
  unfold failedBody at hstmt
  split at hstmt
  iterate 2
    have hmem := (List.take_sublist _ _).mem hstmt
    simp only [List.mem_cons, List.not_mem_nil, or_false] at hmem
    rcases hmem with rfl | rfl <;> rfl
  exact isPlain_body kind cluster addons stmt ((List.take_sublist _ _).mem hstmt)

theorem isPlain_ending (entry : Entry) (outcome : Outcome) :
    ∀ stmt ∈ ending entry outcome, isPlain stmt = true := by
  intro stmt hstmt
  cases outcome with
  | ok =>
      simp only [ending] at hstmt
      split at hstmt
      · rw [List.mem_singleton.mp hstmt]
        rfl
      · rcases List.mem_cons.mp hstmt with rfl | hlast
        · rfl
        · obtain ⟨cluster, -, rfl⟩ := List.mem_map.mp hlast
          split <;> rfl
  | fails reach message purged =>
      simp only [ending] at hstmt
      rcases List.mem_cons.mp hstmt with rfl | hrest
      · rfl
      · split at hrest
        · rcases List.mem_append.mp hrest with hpurge | hlast
          · obtain ⟨cluster, -, hmem⟩ :=
              List.mem_flatMap.mp ((List.take_sublist _ _).mem hpurge)
            simp only [purgeDb, List.mem_cons, List.not_mem_nil, or_false] at hmem
            rcases hmem with rfl | rfl | rfl <;> rfl
          · rw [List.mem_singleton.mp hlast]
            rfl
        · obtain ⟨cluster, -, rfl⟩ := List.mem_map.mp hrest
          split <;> rfl

theorem isPlain_executeJob (entry : Entry) (addons : Nat) (outcome : Outcome) :
    ∀ stmt ∈ executeJob entry addons outcome, isPlain stmt = true := by
  intro stmt hstmt
  unfold executeJob at hstmt
  split at hstmt
  · exact isPlain_ending _ _ stmt hstmt
  · rcases List.mem_append.mp hstmt with hbody | hending
    · exact isPlain_body _ _ _ stmt hbody
    · exact isPlain_ending _ _ stmt hending
  · rcases List.mem_append.mp hstmt with hbody | hending
    · exact isPlain_failedBody _ _ _ _ _ stmt hbody
    · exact isPlain_ending _ _ stmt hending

end PertiskKos.Jobs
