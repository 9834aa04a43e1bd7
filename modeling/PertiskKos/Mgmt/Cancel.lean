import PertiskKos.Mgmt.Scheduling

/-!
# The life of a job

A job is claimed, registered in the running map, aborted and recorded in steps of
different tasks.  Its status goes one way as long as a task records its end only while the
job is running, and no cancellation returns before the tasks it is about are gone.
-/

namespace PertiskKos.Jobs

/-- The changes of a job's status that are in order. -/
def isLegal : JobStatus × JobStatus → Bool
  | (.queued, .running) | (.queued, .cancelled) | (.running, .succeeded)
  | (.running, .failed) | (.running, .cancelled) => true
  | _ => false

/-- The job's row is there, and running. -/
def State.isRunning (state : State) (id : Nat) : Bool :=
  state.jobs.any fun row => row.id = id && row.status = .running

/-- A job is recorded while it is running; and when a cancellation returns, no job it is
about has a task left, or is claimed and without a task yet. -/
def keptStmt (state : State) : Stmt → Bool
  | .record id _ _ _ => state.jobs.all fun row => row.id ≠ id || row.status = .running
  | .cancelJobs [] stopped =>
      stopped.all fun id => state.tasks.all (fun task => task.entry.id ≠ id) &&
        state.worker.claimed.all fun entry => entry.id ≠ id
  | _ => true

/-- No statement that is to end a running job fails silently. -/
def keptSkip (state : State) : Stmt → Bool
  | .removeJob id | .closeAborted id => !state.isRunning id
  | _ => true

/-- The row that is about to be claimed still has its cluster. -/
def keptClaim (state : State) : Worker → Bool
  | .claiming row _ _ _ _ =>
      state.jobs.all fun job =>
        job.id ≠ row.id || job.status ≠ .queued || job.kind = .deleteCluster ||
          job.cluster.isSome
  | _ => true

/-- A task does not panic, or stop at an error of its own, while its job is running. -/
def kept (state : State) : Event → Bool
  | .thread index => (state.threads[index]?.bind List.head?).all (keptStmt state)
  | .threadSkips index => (state.threads[index]?.bind List.head?).all (keptSkip state)
  | .task index =>
      (state.tasks[index]?.bind fun task => task.program.head?).all (keptStmt state)
  | .taskSkips index =>
      (state.tasks[index]?.bind fun task => task.program.head?).all (keptSkip state)
  | .taskDies index => state.tasks[index]?.all fun task => !state.isRunning task.entry.id
  | .works => keptClaim state state.worker
  | _ => true

/-! ## The invariant -/

/-- The job's row will never be queued or running again. -/
def State.Over (state : State) (id : Nat) : Prop :=
  state.Taken id ∧ state.isRunning id = false

/-- The job's row will never be claimed, unless its cluster is gone. -/
def State.Dead (state : State) (id : Nat) : Prop :=
  id < state.nextJob ∧ ∀ row ∈ state.jobs, row.id = id → row.status = .queued →
    row.cluster = none ∧ row.kind ≠ .deleteCluster

/-- The job is one of the cluster, but for a deletion. -/
def State.Owned (state : State) (cluster id : Nat) : Prop :=
  id < state.nextJob ∧ ∀ row ∈ state.jobs, row.id = id →
    row.kind ≠ .deleteCluster ∧ (row.cluster = some cluster ∨ row.cluster = none)

/-- The job does not run on. -/
structure State.Barred (state : State) (id : Nat) : Prop where
  dead : state.Dead id
  live : ∀ task ∈ state.tasks, task.entry.id ≠ id
  claimed : ∀ entry ∈ state.worker.claimed, entry.id ≠ id

/-- Whatever a cancellation under way is about, it will reach. -/
def State.Selected (state : State) : Stmt → Prop
  | .selectJobs cluster stopped => ∀ id ∈ stopped, state.Owned cluster id
  | .cancelJobs ids stopped =>
      ∀ id ∈ stopped, id < state.nextJob ∧ (id ∈ ids ∨ state.Dead id)
  | _ => True

/-- The statement ends the job. -/
def closes (id : Nat) : Stmt → Bool
  | .record other _ _ _ | .removeJob other => other = id
  | _ => false

structure State.TaskFits (state : State) (task : Task) : Prop where
  plain : ∀ stmt ∈ task.program, isWatch stmt = false ∧ isCheck stmt = false
  closing : state.Over task.entry.id ∨ ∃ stmt ∈ task.program, closes task.entry.id stmt = true
  selected : ∀ stmt ∈ task.program, state.Selected stmt

/-- The watcher of a task: what it has to do after the task was aborted, or ended. -/
inductive State.Watches (state : State) (id : Nat) : List Stmt → Prop where
  | waits : Watches state id [.join id]
  | unregisters (htaken : state.Taken id) :
      Watches state id [.unregister id, .closeAborted id, .watched id]
  | closing (htaken : state.Taken id) : Watches state id [.closeAborted id, .watched id]
  | ended (hover : state.Over id) : Watches state id [.unregister id, .watched id]
  | watched (hover : state.Over id) : Watches state id [.watched id]

structure State.ThreadFits (state : State) (program : List Stmt) : Prop where
  shape : (∀ stmt ∈ program, isWatch stmt = false) ∨ ∃ id, state.Watches id program
  selected : ∀ stmt ∈ program, state.Selected stmt

structure Tidy (state : State) : Prop where
  scheduled : Scheduled state
  tasks : ∀ task ∈ state.tasks, state.TaskFits task
  threads : ∀ program ∈ state.threads, state.ThreadFits program
  returned : ∀ id, (id, false) ∈ state.finished → state.Over id
  ended : ∀ id ∈ state.history.ended, state.Over id
  barred : ∀ id ∈ state.history.barred, state.Barred id
  moves : ∀ move ∈ state.history.moves, isLegal move = true
  overrun : state.history.overrun = []

section Evolution

variable {state next : State} {id : Nat}

theorem not_isRunning : state.isRunning id = false ↔
    ∀ row ∈ state.jobs, row.id = id → row.status ≠ .running := by
  simp [State.isRunning]

theorem State.Over.evolves (hover : state.Over id) (hevolves : Evolves state next) :
    next.Over id := by
  refine ⟨hover.1.evolves hevolves, not_isRunning.mpr fun row hrow hid hrunning => ?_⟩
  rcases hevolves.rows row hrow with ⟨old, hold, hfollows⟩ | hnew
  · have hsame : old.id = id := hfollows.id ▸ hid
    rcases hfollows.running hrunning with hstill | hqueued
    · exact not_isRunning.mp hover.2 old hold hsame hstill
    · exact hover.1.2 old hold hsame hqueued
  · have hlt := hover.1.1
    omega

theorem State.Dead.evolves (hdead : state.Dead id) (hevolves : Evolves state next) :
    next.Dead id := by
  refine ⟨hdead.1.trans_le hevolves.nextJob, fun row hrow hid hqueued => ?_⟩
  rcases hevolves.rows row hrow with ⟨old, hold, hfollows⟩ | hnew
  · obtain ⟨hnone, hkind⟩ := hdead.2 old hold (hfollows.id ▸ hid) (hfollows.queued hqueued)
    refine ⟨?_, hfollows.kind ▸ hkind⟩
    rcases hfollows.cluster with hsame | hgone
    · exact hsame.trans hnone
    · exact hgone
  · have hlt := hdead.1
    omega

theorem State.Owned.evolves {cluster : Nat} (howned : state.Owned cluster id)
    (hevolves : Evolves state next) : next.Owned cluster id := by
  refine ⟨howned.1.trans_le hevolves.nextJob, fun row hrow hid => ?_⟩
  rcases hevolves.rows row hrow with ⟨old, hold, hfollows⟩ | hnew
  · obtain ⟨hkind, hcluster⟩ := howned.2 old hold (hfollows.id ▸ hid)
    refine ⟨hfollows.kind ▸ hkind, ?_⟩
    rcases hfollows.cluster with hsame | hgone
    · exact hsame ▸ hcluster
    · exact .inr hgone
  · have hlt := howned.1
    omega

theorem State.Taken.dead (htaken : state.Taken id) : state.Dead id :=
  ⟨htaken.1, fun row hrow hid hqueued => absurd hqueued (htaken.2 row hrow hid)⟩

theorem State.Selected.evolves {stmt : Stmt} (hselected : state.Selected stmt)
    (hevolves : Evolves state next) : next.Selected stmt := by
  cases stmt with
  | selectJobs cluster stopped =>
      exact fun id hid => State.Owned.evolves (hselected id hid) hevolves
  | cancelJobs ids stopped =>
      exact fun id hid =>
        ⟨(hselected id hid).1.trans_le hevolves.nextJob,
          (hselected id hid).2.imp_right fun hdead => State.Dead.evolves hdead hevolves⟩
  | _ => trivial

theorem State.TaskFits.evolves {task : Task} (hfits : state.TaskFits task)
    (hevolves : Evolves state next) : next.TaskFits task where
  plain := hfits.plain
  closing := hfits.closing.imp_left fun hover => hover.evolves hevolves
  selected stmt hstmt := (hfits.selected stmt hstmt).evolves hevolves

theorem State.Watches.evolves {program : List Stmt} (hwatches : state.Watches id program)
    (hevolves : Evolves state next) : next.Watches id program := by
  cases hwatches with
  | waits => exact .waits
  | unregisters htaken => exact .unregisters (htaken.evolves hevolves)
  | closing htaken => exact .closing (htaken.evolves hevolves)
  | ended hover => exact .ended (hover.evolves hevolves)
  | watched hover => exact .watched (hover.evolves hevolves)

theorem State.ThreadFits.evolves {program : List Stmt} (hfits : state.ThreadFits program)
    (hevolves : Evolves state next) : next.ThreadFits program where
  shape := hfits.shape.imp_right fun ⟨id, hwatches⟩ => ⟨id, hwatches.evolves hevolves⟩
  selected stmt hstmt := (hfits.selected stmt hstmt).evolves hevolves

theorem State.Barred.evolves (hbarred : state.Barred id) (hevolves : Evolves state next)
    (hlive : next.tasks.map Task.entry ⊆ state.tasks.map Task.entry)
    (hclaimed : next.worker.claimed ⊆ state.worker.claimed) : next.Barred id where
  dead := hbarred.dead.evolves hevolves
  live task htask := by
    obtain ⟨old, hold, hsame⟩ := List.mem_map.mp (hlive (List.mem_map_of_mem htask))
    exact hsame ▸ hbarred.live old hold
  claimed entry hentry := hbarred.claimed entry (hclaimed hentry)

end Evolution

variable {state next : State} {stmt : Stmt} {rest program : List Stmt}

/-! ## What one statement adds -/

theorem moveJob_moves (state : State) (id : Nat) (move : JobStatus → Option JobStatus)
    (hlegal : ∀ row ∈ state.jobs, row.id = id → ∀ status, move row.status = some status →
      isLegal (row.status, status) = true) :
    ∀ change ∈ (state.moveJob id move).history.moves,
      change ∈ state.history.moves ∨ isLegal change = true := by
  intro change hchange
  rcases List.mem_append.mp hchange with hold | hnew
  · exact .inl hold
  · obtain ⟨row, hrow, hmoved⟩ := List.mem_filterMap.mp hnew
    split at hmoved
    · rename_i hid
      obtain ⟨status, hstatus, rfl⟩ := Option.map_eq_some_iff.mp hmoved
      exact .inr (hlegal row hrow hid status hstatus)
    · cases hmoved

/-- Changes that look at the old status are in order. -/
theorem isLegal_of_guarded {status after : JobStatus}
    (hmove : toCancelled status = some after ∨ whenRunning .cancelled status = some after ∨
      whenQueued .cancelled status = some after ∨ whenQueued .running status = some after) :
    isLegal (status, after) = true := by
  cases status <;> simp_all [toCancelled, whenRunning, whenQueued, isLegal] <;>
    rcases hmove with rfl | rfl <;> rfl

/-- A statement leaves the history in order, ends the job it says, and bars the jobs that
its call was about. -/
structure Told (state : State) (stmt : Stmt) (next : State) : Prop where
  moves : keptStmt state stmt = true → ∀ change ∈ next.history.moves,
    change ∈ state.history.moves ∨ isLegal change = true
  ended : ∀ id ∈ next.history.ended, id ∈ state.history.ended ∨ stmt = .watched id
  barred : ∀ id ∈ next.history.barred, id ∈ state.history.barred ∨
    ∃ stopped, stmt = .cancelJobs [] stopped ∧ id ∈ stopped
  overrun : next.history.overrun = state.history.overrun

theorem Told.of_moves
    (hmoves : keptStmt state stmt = true → ∀ change ∈ next.history.moves,
      change ∈ state.history.moves ∨ isLegal change = true)
    (hended : next.history.ended = state.history.ended)
    (hbarred : next.history.barred = state.history.barred)
    (hoverrun : next.history.overrun = state.history.overrun) : Told state stmt next where
  moves := hmoves
  ended _ hid := .inl (hended ▸ hid)
  barred _ hid := .inl (hbarred ▸ hid)
  overrun := hoverrun

theorem Told.of_same (hmoves : next.history.moves = state.history.moves)
    (hended : next.history.ended = state.history.ended)
    (hbarred : next.history.barred = state.history.barred)
    (hoverrun : next.history.overrun = state.history.overrun) : Told state stmt next :=
  .of_moves (fun _ _ hchange => .inl (hmoves ▸ hchange)) hended hbarred hoverrun

theorem exec_told (hexec : exec state stmt rest = some (next, program)) :
    Told state stmt next := by
  cases stmt with
  | insertJob cluster kind =>
      obtain ⟨rfl, -⟩ := Prod.mk.inj (Option.some.inj hexec)
      obtain ⟨jobs, nextJob, admitted, hinsert⟩ := state.insertJob_eq cluster kind
      rw [hinsert]
      exact .of_same rfl rfl rfl rfl
  | checkNotDeleting cluster =>
      simp only [exec] at hexec
      split at hexec
      all_goals
        obtain ⟨rfl, -⟩ := Prod.mk.inj (Option.some.inj hexec)
        exact .of_same rfl rfl rfl rfl
  | record id cluster kind ok =>
      obtain ⟨rfl, -⟩ := Prod.mk.inj (Option.some.inj hexec)
      refine .of_moves (fun hkept => moveJob_moves state id
        (fun _ => some (if ok then .succeeded else .failed)) ?_) rfl rfl rfl
      intro row hrow hid status hstatus
      obtain rfl := Option.some.inj hstatus
      have hrunning : row.status = .running := by
        simpa [hid] using List.all_eq_true.mp hkept row hrow
      rw [hrunning]
      cases ok <;> rfl
  | cancelJobs ids stopped =>
      cases ids with
      | nil =>
          obtain ⟨rfl, -⟩ := Prod.mk.inj (Option.some.inj hexec)
          refine ⟨fun _ _ hchange => .inl hchange, fun _ hid => .inl hid, fun id hid => ?_, rfl⟩
          exact (List.mem_append.mp hid).imp_right fun hnew => ⟨stopped, rfl, hnew⟩
      | cons id ids =>
          obtain ⟨rfl, -⟩ := Prod.mk.inj (Option.some.inj hexec)
          exact .of_moves (fun _ => moveJob_moves state id _ fun _ _ _ _ hmove =>
            isLegal_of_guarded (.inl hmove)) rfl rfl rfl
  | join id =>
      simp only [exec] at hexec
      split at hexec
      · obtain ⟨rfl, -⟩ := Prod.mk.inj (Option.some.inj hexec)
        exact .of_same rfl rfl rfl rfl
      · obtain ⟨rfl, -⟩ := Prod.mk.inj (Option.some.inj hexec)
        exact .of_same rfl rfl rfl rfl
      · cases hexec
  | closeAborted id =>
      obtain ⟨rfl, -⟩ := Prod.mk.inj (Option.some.inj hexec)
      exact .of_moves (fun _ => moveJob_moves state id _ fun _ _ _ _ hmove =>
        isLegal_of_guarded (.inr (.inl hmove))) rfl rfl rfl
  | watched id =>
      obtain ⟨rfl, -⟩ := Prod.mk.inj (Option.some.inj hexec)
      refine ⟨fun _ _ hchange => .inl hchange, fun other hother => ?_, fun _ hid => .inl hid, rfl⟩
      refine (List.mem_append.mp hother).imp_right fun hnew => ?_
      rw [List.mem_singleton.mp hnew]
  | _ =>
      obtain ⟨rfl, -⟩ := Prod.mk.inj (Option.some.inj hexec)
      exact .of_same rfl rfl rfl rfl

/-- A job that was moved away from queued and running is over. -/
theorem over_moveJob (state : State) {id : Nat} (hid : id < state.nextJob)
    (move : JobStatus → Option JobStatus) (hmove : Forward move)
    (haway : (move .queued).isSome) (hquiet : ∀ status, move status ≠ some .running)
    (hleft : (move .running).isSome) : (state.moveJob id move).Over id := by
  refine ⟨⟨hid, fun row hrow hsame =>
    state.moveJob_unqueued id hmove haway hrow hsame⟩, not_isRunning.mpr ?_⟩
  intro row hrow hsame hrunning
  obtain ⟨old, -, rfl⟩ := List.mem_map.mp hrow
  split at hsame
  · rename_i hold
    rw [if_pos hold] at hrunning
    cases hto : move old.status with
    | none =>
        have hstill : old.status = .running := by simpa [hto] using hrunning
        rw [hstill] at hto
        simp [hto] at hleft
    | some status =>
        have hstatus : status = .running := by simpa [hto] using hrunning
        exact hquiet _ (hstatus ▸ hto)
  · rename_i hold
    exact hold hsame

/-- Whatever continues a statement of a cancellation, it reaches what it is about. -/
theorem exec_selected (hrows : (state.jobs.map JobRow.id).Nodup)
    (hfresh : ∀ row ∈ state.jobs, row.id < state.nextJob)
    (hexec : exec state stmt rest = some (next, program))
    (hselected : ∀ other ∈ stmt :: rest, state.Selected other) :
    ∀ other ∈ program, next.Selected other := by
  intro other hother
  have hevolves := (exec_executed hexec).evolves
  rcases exec_mem hexec hother with hrest | hcontinues
  · exact (hselected other (List.mem_cons_of_mem _ hrest)).evolves hevolves
  · have hfirst := hselected stmt List.mem_cons_self
    cases hcontinues with
    | creates => trivial
    | repairs => trivial
    | selects cluster =>
        intro id hid
        obtain ⟨row, hrow, rfl⟩ := List.mem_map.mp hid
        obtain ⟨hmem, hvictim⟩ := List.mem_filter.mp hrow
        refine State.Owned.evolves ⟨hfresh row hmem, fun old hold hsame => ?_⟩ hevolves
        obtain rfl := List.inj_on_of_nodup_map hrows hold hmem hsame
        simp only [isVictim, Bool.and_eq_true, decide_eq_true_eq] at hvictim
        exact ⟨hvictim.1.2, .inl hvictim.1.1⟩
    | cancels cluster stopped =>
        intro id hid
        have howned := hfirst id hid
        refine ⟨howned.1.trans_le hevolves.nextJob, ?_⟩
        by_cases hvictim : id ∈ victims state cluster
        · exact .inl hvictim
        · refine .inr (State.Dead.evolves ⟨howned.1, fun row hrow hsame hqueued => ?_⟩ hevolves)
          obtain ⟨hkind, howner | hnone⟩ := howned.2 row hrow hsame
          · refine absurd (List.mem_map.mpr ⟨row, List.mem_filter.mpr ⟨hrow, ?_⟩, hsame⟩) hvictim
            simp [isVictim, howner, hkind, hqueued]
          · exact ⟨hnone, hkind⟩
    | loops first ids stopped =>
        intro id hid
        obtain ⟨rfl, -⟩ := Prod.mk.inj (Option.some.inj hexec)
        obtain ⟨hlow, hids | hdead⟩ := hfirst id hid
        · refine ⟨hlow, ?_⟩
          rcases List.mem_cons.mp hids with rfl | hrest
          · refine .inr (State.Taken.dead ⟨hlow, fun row hrow hsame => ?_⟩)
            exact state.moveJob_unqueued id (by decide) rfl hrow hsame
          · exact .inl hrest
        · exact ⟨hlow, .inr (hdead.evolves hevolves)⟩
    | joins hdone hstmt =>
        simp only [List.mem_cons, List.not_mem_nil, or_false] at hstmt
        rcases hstmt with rfl | rfl | rfl <;> trivial

/-- A task that is there after a statement was there before it. -/
theorem Executed.task_of_mem (hexecuted : Executed state stmt next) {task : Task}
    (htask : task ∈ next.tasks) :
    ∃ old ∈ state.tasks, old.entry = task.entry ∧ old.program = task.program := by
  obtain ⟨index, hindex⟩ := List.mem_iff_getElem?.mp htask
  have hentry : (state.tasks.map Task.entry)[index]? = some task.entry := by
    rw [← hexecuted.entries, List.getElem?_map, hindex]
    rfl
  have hprogram : (state.tasks.map Task.program)[index]? = some task.program := by
    rw [← hexecuted.programs, List.getElem?_map, hindex]
    rfl
  rw [List.getElem?_map] at hentry hprogram
  obtain ⟨old, hold, hsame⟩ := Option.map_eq_some_iff.mp hentry
  refine ⟨old, List.mem_of_getElem? hold, hsame, ?_⟩
  simpa [hold] using hprogram

/-- The statement that ends a job leaves it over. -/
theorem exec_closes (hexec : exec state stmt rest = some (next, program)) {id : Nat}
    (hid : state.Taken id) (hcloses : closes id stmt = true) : next.Over id := by
  cases stmt with
  | record other cluster kind ok =>
      obtain rfl : other = id := by simpa [closes] using hcloses
      obtain ⟨rfl, -⟩ := Prod.mk.inj (Option.some.inj hexec)
      have hover := over_moveJob state hid.1
        (fun _ => some (if ok then .succeeded else .failed))
        (by cases ok <;> decide) (by cases ok <;> rfl) (by cases ok <;> simp)
        (by cases ok <;> rfl)
      exact hover.evolves (.of_same rfl rfl)
  | removeJob other =>
      obtain rfl : other = id := by simpa [closes] using hcloses
      obtain ⟨rfl, -⟩ := Prod.mk.inj (Option.some.inj hexec)
      refine ⟨hid.evolves (.of_sublist List.filter_sublist rfl), not_isRunning.mpr ?_⟩
      intro row hrow hsame
      simpa [hsame] using (List.mem_filter.mp hrow).2
  | _ => simp [closes] at hcloses

theorem isPurge_of_closes {id : Nat} {other : Stmt} (hcloses : closes id other = true) :
    isPurge other = false := by
  cases other <;> simp_all [closes, isPurge]

/-- What a task has to do still fits after its next statement. -/
theorem State.TaskFits.exec {task after : Task} (hfits : state.TaskFits task)
    (hscheduled : Scheduled state) (htask : task ∈ state.tasks)
    (hprogram : task.program = stmt :: rest)
    (hexec : exec state stmt rest = some (next, program))
    (hentry : after.entry = task.entry) (hafter : after.program = program) :
    next.TaskFits after := by
  have hevolves := (exec_executed hexec).evolves
  have htaken := hscheduled.taken _ (hscheduled.held htask)
  have hplain := hfits.plain
  have hselected := hfits.selected
  rw [hprogram] at hplain hselected
  have hcheck : ∀ cluster, stmt ≠ .checkNotDeleting cluster := by
    rintro cluster rfl
    simpa [isCheck] using (hplain _ List.mem_cons_self).2
  refine ⟨fun other hother => ?_, ?_, ?_⟩
  · rw [hafter] at hother
    rcases exec_mem hexec hother with hrest | hcontinues
    · exact hplain other (List.mem_cons_of_mem _ hrest)
    · cases hcontinues with
      | joins => simpa [isWatch] using (hplain _ List.mem_cons_self).1
      | _ => exact ⟨rfl, rfl⟩
  · rw [hentry, hafter]
    rcases hfits.closing with hover | ⟨other, hother, hcloses⟩
    · exact .inl (hover.evolves hevolves)
    · rw [hprogram] at hother
      rcases List.mem_cons.mp hother with rfl | hrest
      · exact .inl (exec_closes hexec htaken hcloses)
      · exact .inr ⟨other, exec_keeps hexec hcheck hrest (isPurge_of_closes hcloses), hcloses⟩
  · rw [hafter]
    exact exec_selected hscheduled.rows hscheduled.fresh hexec hselected

/-- What a thread has to do still fits after its next statement. -/
theorem State.ThreadFits.exec (hfits : state.ThreadFits (stmt :: rest)) (htidy : Tidy state)
    (hexec : exec state stmt rest = some (next, program)) : next.ThreadFits program := by
  have hevolves := (exec_executed hexec).evolves
  refine ⟨?_, exec_selected htidy.scheduled.rows htidy.scheduled.fresh hexec hfits.selected⟩
  rcases hfits.shape with hplain | ⟨id, hwatches⟩
  · refine .inl fun other hother => ?_
    rcases exec_mem hexec hother with hrest | hcontinues
    · exact hplain other (List.mem_cons_of_mem _ hrest)
    · cases hcontinues with
      | joins => simpa [isWatch] using hplain _ List.mem_cons_self
      | _ => rfl
  · cases hwatches with
    | waits =>
        simp only [PertiskKos.Jobs.exec] at hexec
        split at hexec
        · rename_i hlookup
          obtain ⟨-, rfl⟩ := Prod.mk.inj (Option.some.inj hexec)
          have hdone : id ∈ state.finished.map Prod.fst :=
            List.mem_map_of_mem (mem_of_lookup hlookup)
          have htaken := (htidy.scheduled.retired id (.inl hdone)).1
          exact .inr ⟨id, .unregisters (htaken.evolves hevolves)⟩
        · rename_i hlookup
          obtain ⟨-, rfl⟩ := Prod.mk.inj (Option.some.inj hexec)
          have hover := htidy.returned id (mem_of_lookup hlookup)
          exact .inr ⟨id, .ended (hover.evolves hevolves)⟩
        · cases hexec
    | unregisters htaken =>
        obtain ⟨-, rfl⟩ := Prod.mk.inj (Option.some.inj hexec)
        exact .inr ⟨id, .closing (htaken.evolves hevolves)⟩
    | closing htaken =>
        obtain ⟨rfl, rfl⟩ := Prod.mk.inj (Option.some.inj hexec)
        refine .inr ⟨id, .watched ⟨htaken.evolves hevolves, not_isRunning.mpr ?_⟩⟩
        intro row hrow hid hrunning
        obtain ⟨old, -, rfl⟩ := List.mem_map.mp hrow
        split at hid
        · rename_i hsame
          rw [if_pos hsame] at hrunning
          cases hstatus : old.status <;> simp [hstatus, whenRunning] at hrunning
        · rename_i hother
          exact hother hid
    | ended hover =>
        obtain ⟨-, rfl⟩ := Prod.mk.inj (Option.some.inj hexec)
        exact .inr ⟨id, .watched (hover.evolves hevolves)⟩
    | watched hover =>
        obtain ⟨-, rfl⟩ := Prod.mk.inj (Option.some.inj hexec)
        exact .inl (by simp)

/-! ## Steps keep the invariant -/

/-- The records after a statement of a program that was there. -/
theorem Tidy.told {after : State} (htidy : Tidy state) (hcalm : Calm state after)
    (htold : Told state stmt next) (hkept : keptStmt state stmt = true)
    (hselected : state.Selected stmt) (hwatched : ∀ id, stmt = .watched id → state.Over id)
    (hmoves : after.history.moves = next.history.moves)
    (hended : after.history.ended = next.history.ended)
    (hbarred : after.history.barred = next.history.barred) :
    (∀ id ∈ after.history.ended, after.Over id) ∧
      (∀ id ∈ after.history.barred, after.Barred id) ∧
        ∀ change ∈ after.history.moves, isLegal change = true := by
  have hlive : after.tasks.map Task.entry ⊆ state.tasks.map Task.entry := by
    rw [hcalm.entries]
    exact List.Subset.refl _
  have hclaimed : after.worker.claimed ⊆ state.worker.claimed := by
    rw [hcalm.worker]
    exact List.Subset.refl _
  refine ⟨fun id hid => ?_, fun id hid => ?_, fun change hchange => ?_⟩
  · rcases htold.ended id (hended ▸ hid) with hold | hnew
    · exact (htidy.ended id hold).evolves hcalm.evolves
    · exact (hwatched id hnew).evolves hcalm.evolves
  · rcases htold.barred id (hbarred ▸ hid) with hold | ⟨stopped, rfl, hstopped⟩
    · exact (htidy.barred id hold).evolves hcalm.evolves hlive hclaimed
    · have hdead := (hselected id hstopped).2.resolve_left (by simp)
      have hgone := List.all_eq_true.mp hkept id hstopped
      simp only [Bool.and_eq_true, List.all_eq_true, decide_eq_true_eq] at hgone
      exact State.Barred.evolves ⟨hdead, hgone.1, hgone.2⟩ hcalm.evolves hlive hclaimed
  · rcases htold.moves hkept change (hmoves ▸ hchange) with hold | hlegal
    · exact htidy.moves change hold
    · exact hlegal

/-- Only the watcher of a task waits for its end. -/
theorem State.ThreadFits.over_of_watched {id : Nat}
    (hfits : state.ThreadFits (.watched id :: rest)) : state.Over id := by
  rcases hfits.shape with hplain | ⟨other, hwatches⟩
  · simpa [isWatch] using hplain _ List.mem_cons_self
  · cases hwatches with
    | watched hover => exact hover

theorem kept_thread {index : Nat} {stmt : Stmt}
    (hthread : state.threads[index]? = some (stmt :: rest)) :
    kept state (.thread index) = keptStmt state stmt := by
  change (state.threads[index]?.bind List.head?).all (keptStmt state) = _
  rw [hthread]
  rfl

theorem kept_threadSkips {index : Nat} {stmt : Stmt}
    (hthread : state.threads[index]? = some (stmt :: rest)) :
    kept state (.threadSkips index) = keptSkip state stmt := by
  change (state.threads[index]?.bind List.head?).all (keptSkip state) = _
  rw [hthread]
  rfl

theorem kept_task {index : Nat} {task : Task} {stmt : Stmt}
    (htask : state.tasks[index]? = some task) (hprogram : task.program = stmt :: rest) :
    kept state (.task index) = keptStmt state stmt := by
  change (state.tasks[index]?.bind fun task => task.program.head?).all (keptStmt state) = _
  rw [htask, Option.bind_some, hprogram]
  rfl

theorem kept_taskSkips {index : Nat} {task : Task} {stmt : Stmt}
    (htask : state.tasks[index]? = some task) (hprogram : task.program = stmt :: rest) :
    kept state (.taskSkips index) = keptSkip state stmt := by
  change (state.tasks[index]?.bind fun task => task.program.head?).all (keptSkip state) = _
  rw [htask, Option.bind_some, hprogram]
  rfl

theorem kept_taskDies {index : Nat} {task : Task} (htask : state.tasks[index]? = some task) :
    kept state (.taskDies index) = !state.isRunning task.entry.id := by
  change (state.tasks[index]?.all fun task => !state.isRunning task.entry.id) = _
  rw [htask]
  rfl

theorem Tidy.thread (htidy : Tidy state) {index : Nat}
    (hkept : kept state (.thread index) = true) (hstep : step state (.thread index) = some next) :
    Tidy next := by
  have hscheduled := htidy.scheduled.step hstep
  have hcalm := thread_calm hstep
  obtain ⟨stmt, rest, middle, program, hthread, hexec, rfl⟩ := step_thread hstep
  have hfits := htidy.threads _ (List.mem_of_getElem? hthread)
  have hstmt : keptStmt state stmt = true := (kept_thread hthread).symm.trans hkept
  have hexecuted := exec_executed hexec
  have htold := exec_told hexec
  obtain ⟨hended, hbarred, hmoves⟩ := htidy.told hcalm htold hstmt
    (hfits.selected stmt List.mem_cons_self)
    (by rintro id rfl; exact hfits.over_of_watched) rfl rfl rfl
  have hsame : Evolves middle (middle.setThread index program) := .of_same rfl rfl
  refine ⟨hscheduled, fun task htask => ?_, fun other hother => ?_, fun id hid => ?_,
    hended, hbarred, hmoves, htold.overrun.trans htidy.overrun⟩
  · obtain ⟨old, hold, hentry, hprogram⟩ := hexecuted.task_of_mem htask
    have hold' := (htidy.tasks old hold).evolves (hexecuted.evolves.trans hsame)
    exact ⟨hprogram ▸ hold'.plain, hprogram ▸ hentry ▸ hold'.closing,
      hprogram ▸ hold'.selected⟩
  · rw [State.setThread, hexecuted.threads] at hother
    rcases List.mem_or_eq_of_mem_set hother with hold | rfl
    · exact (htidy.threads other hold).evolves (hexecuted.evolves.trans hsame)
    · exact (hfits.exec htidy hexec).evolves hsame
  · have hdone : (id, false) ∈ state.finished := hexecuted.finished ▸ hid
    exact (htidy.returned id hdone).evolves (hexecuted.evolves.trans hsame)

/-- Only the threads change, and what is left of one still fits. -/
theorem Tidy.setThread (htidy : Tidy state) {index : Nat}
    (hscheduled : Scheduled (state.setThread index program)) (hfits : state.ThreadFits program) :
    Tidy (state.setThread index program) := by
  have hsame : Evolves state (state.setThread index program) := .of_same rfl rfl
  refine ⟨hscheduled, fun task htask => (htidy.tasks task htask).evolves hsame,
    fun other hother => ?_, fun id hid => (htidy.returned id hid).evolves hsame,
    fun id hid => (htidy.ended id hid).evolves hsame,
    fun id hid => (htidy.barred id hid).evolves hsame (List.Subset.refl _) (List.Subset.refl _),
    htidy.moves, htidy.overrun⟩
  rcases List.mem_or_eq_of_mem_set hother with hold | rfl
  · exact (htidy.threads other hold).evolves hsame
  · exact hfits.evolves hsame

theorem Tidy.threadSkips (htidy : Tidy state) {index : Nat}
    (hkept : kept state (.threadSkips index) = true)
    (hstep : step state (.threadSkips index) = some next) : Tidy next := by
  have hscheduled := htidy.scheduled.step hstep
  obtain ⟨stmt, rest, hthread, hskip, rfl⟩ := step_threadSkips hstep
  have hfits := htidy.threads _ (List.mem_of_getElem? hthread)
  have hstmt : keptSkip state stmt = true := (kept_threadSkips hthread).symm.trans hkept
  refine htidy.setThread hscheduled ⟨?_, fun other hother =>
    hfits.selected other (List.mem_cons_of_mem _ hother)⟩
  rcases hfits.shape with hplain | ⟨id, hwatches⟩
  · exact .inl fun other hother => hplain other (List.mem_cons_of_mem _ hother)
  · cases hwatches with
    | closing htaken =>
        exact .inr ⟨id, .watched ⟨htaken, by simpa [keptSkip] using hstmt⟩⟩
    | _ => simp [skip] at hskip

theorem Tidy.threadDies (htidy : Tidy state) {index : Nat}
    (hstep : step state (.threadDies index) = some next) : Tidy next := by
  have hscheduled := htidy.scheduled.step hstep
  obtain ⟨stmt, rest, -, rfl⟩ := step_threadDies hstep
  exact htidy.setThread hscheduled ⟨.inl (by simp), by simp⟩

/-- A job that is not barred goes on without a trace. -/
theorem note_of_notMem {id : Nat} (hid : id ∉ state.history.barred) : state.note id = state := by
  simp [State.note, hid]

theorem Tidy.task (htidy : Tidy state) {index : Nat}
    (hkept : kept state (.task index) = true) (hstep : step state (.task index) = some next) :
    Tidy next := by
  have hscheduled := htidy.scheduled.step hstep
  have hcalm := task_calm hstep
  obtain ⟨task, stmt, rest, middle, program, htask, hprogram, hexec, rfl⟩ := step_task hstep
  have hmem := List.mem_of_getElem? htask
  have hfits := htidy.tasks task hmem
  have hstmt : keptStmt state stmt = true := (kept_task htask hprogram).symm.trans hkept
  set after : Task :=
    { task with
      program := program
      aborted := (middle.tasks[index]?).elim task.aborted Task.aborted } with hafter
  have hexecuted := exec_executed hexec
  have htold := exec_told hexec
  have hplain : isWatch stmt = false := (hfits.plain stmt (hprogram ▸ List.mem_cons_self)).1
  have hunbarred : task.entry.id ∉ (middle.setTask index after).history.barred := by
    intro hbarred
    rcases htold.barred _ hbarred with hold | ⟨stopped, rfl, hstopped⟩
    · exact (htidy.barred _ hold).live task hmem rfl
    · have hgone := List.all_eq_true.mp hstmt _ hstopped
      simp only [Bool.and_eq_true, List.all_eq_true, decide_eq_true_eq] at hgone
      exact hgone.1 task hmem rfl
  rw [note_of_notMem hunbarred] at hscheduled hcalm ⊢
  obtain ⟨hended, hbarred, hmoves⟩ := htidy.told hcalm htold hstmt
    (hfits.selected stmt (hprogram ▸ List.mem_cons_self))
    (by rintro id rfl; simp [isWatch] at hplain) rfl rfl rfl
  have hsame : Evolves middle (middle.setTask index after) := .of_same rfl rfl
  refine ⟨hscheduled, fun other hother => ?_, fun other hother => ?_, fun id hid => ?_,
    hended, hbarred, hmoves, htold.overrun.trans htidy.overrun⟩
  · rcases List.mem_or_eq_of_mem_set hother with hold | rfl
    · obtain ⟨old, hold', hentry, hprogram'⟩ := hexecuted.task_of_mem hold
      have hfits' := (htidy.tasks old hold').evolves (hexecuted.evolves.trans hsame)
      exact ⟨hprogram' ▸ hfits'.plain, hprogram' ▸ hentry ▸ hfits'.closing,
        hprogram' ▸ hfits'.selected⟩
    · have hafterFits : middle.TaskFits after :=
        hfits.exec htidy.scheduled hmem hprogram hexec rfl rfl
      exact hafterFits.evolves hsame
  · have hold : other ∈ state.threads := hexecuted.threads ▸ hother
    exact (htidy.threads other hold).evolves (hexecuted.evolves.trans hsame)
  · have hdone : (id, false) ∈ state.finished := hexecuted.finished ▸ hid
    exact (htidy.returned id hdone).evolves (hexecuted.evolves.trans hsame)

theorem Tidy.taskSkips (htidy : Tidy state) {index : Nat}
    (hkept : kept state (.taskSkips index) = true)
    (hstep : step state (.taskSkips index) = some next) : Tidy next := by
  have hscheduled := htidy.scheduled.step hstep
  obtain ⟨task, stmt, program, htask, hprogram, hskip, rfl⟩ := step_taskSkips hstep
  have hmem := List.mem_of_getElem? htask
  have hfits := htidy.tasks task hmem
  have hstmt : keptSkip state stmt = true :=
    (kept_taskSkips htask hprogram).symm.trans hkept
  have htaken := htidy.scheduled.taken _ (htidy.scheduled.held hmem)
  have hunbarred : task.entry.id ∉ state.history.barred := fun hbarred =>
    (htidy.barred _ hbarred).live task hmem rfl
  set after : Task := { task with program := program } with hafter
  have hnote : (state.setTask index after).note task.entry.id =
      state.setTask index after := note_of_notMem hunbarred
  rw [hnote] at hscheduled ⊢
  have hsame : Evolves state (state.setTask index after) := .of_same rfl rfl
  have hfitsAfter : state.TaskFits after := by
    refine ⟨fun other hother => hfits.plain other (hprogram ▸ List.mem_cons_of_mem _ hother),
      ?_, fun other hother =>
        hfits.selected other (hprogram ▸ List.mem_cons_of_mem _ hother)⟩
    rcases hfits.closing with hover | ⟨other, hother, hcloses⟩
    · exact .inl hover
    · rw [hprogram] at hother
      rcases List.mem_cons.mp hother with rfl | hrest
      · left
        cases other with
        | removeJob id =>
            obtain rfl : id = task.entry.id := by simpa [closes] using hcloses
            exact ⟨htaken, by simpa [keptSkip] using hstmt⟩
        | record => simp [skip] at hskip
        | _ => simp [closes] at hcloses
      · exact .inr ⟨other, hrest, hcloses⟩
  have hlive : ((state.setTask index after).tasks.map Task.entry) ⊆
      state.tasks.map Task.entry := by
    rw [entries_setTask task after (by rw [List.getElem?_map, htask]; rfl) rfl]
    exact List.Subset.refl _
  refine ⟨hscheduled, fun other hother => ?_, fun other hother =>
    (htidy.threads other hother).evolves hsame,
    fun id hid => (htidy.returned id hid).evolves hsame,
    fun id hid => (htidy.ended id hid).evolves hsame,
    fun id hid => (htidy.barred id hid).evolves hsame hlive (List.Subset.refl _),
    htidy.moves, htidy.overrun⟩
  rcases List.mem_or_eq_of_mem_set hother with hold | rfl
  · exact (htidy.tasks other hold).evolves hsame
  · exact hfitsAfter.evolves hsame

theorem Tidy.taskLabours (htidy : Tidy state) {index : Nat}
    (hstep : step state (.taskLabours index) = some next) : Tidy next := by
  obtain ⟨task, htask, rfl⟩ := Option.map_eq_some_iff.mp hstep
  have hunbarred : task.entry.id ∉ state.history.barred := fun hbarred =>
    (htidy.barred _ hbarred).live task (List.mem_of_getElem? htask) rfl
  rwa [note_of_notMem hunbarred]

/-- A task is over; unless it was aborted, its job is over as well. -/
theorem Tidy.finish (htidy : Tidy state) {index : Nat} {task : Task} {aborted : Bool}
    (htask : state.tasks[index]? = some task)
    (hover : aborted = false → state.Over task.entry.id) :
    Tidy (state.finish index task.entry.id aborted) := by
  have hsub : (state.tasks.eraseIdx index).Sublist state.tasks := List.eraseIdx_sublist _ _
  have hsame : Evolves state (state.finish index task.entry.id aborted) := .of_same rfl rfl
  refine ⟨htidy.scheduled.ends htask aborted,
    fun other hother => (htidy.tasks other (hsub.mem hother)).evolves hsame,
    fun other hother => (htidy.threads other hother).evolves hsame, fun id hid => ?_,
    fun id hid => (htidy.ended id hid).evolves hsame,
    fun id hid => (htidy.barred id hid).evolves hsame
      (hsub.map Task.entry).subset (List.Subset.refl _), htidy.moves, htidy.overrun⟩
  rcases List.mem_append.mp hid with hold | hnew
  · exact (htidy.returned id hold).evolves hsame
  · obtain ⟨rfl, rfl⟩ := Prod.mk.inj (List.mem_singleton.mp hnew)
    exact (hover rfl).evolves hsame

theorem Tidy.taskReturns (htidy : Tidy state) {index : Nat}
    (hstep : step state (.taskReturns index) = some next) : Tidy next := by
  obtain ⟨task, htask, hdone, rfl⟩ := step_taskReturns hstep
  refine htidy.finish htask fun _ => ?_
  rcases (htidy.tasks task (List.mem_of_getElem? htask)).closing with hover | hcloses
  · exact hover
  · simp [hdone] at hcloses

theorem Tidy.taskDies (htidy : Tidy state) {index : Nat}
    (hkept : kept state (.taskDies index) = true)
    (hstep : step state (.taskDies index) = some next) : Tidy next := by
  obtain ⟨task, htask, rfl⟩ := Option.map_eq_some_iff.mp hstep
  have hmem := List.mem_of_getElem? htask
  have hstill : (!state.isRunning task.entry.id) = true := (kept_taskDies htask).symm.trans hkept
  exact htidy.finish htask fun _ =>
    ⟨htidy.scheduled.taken _ (htidy.scheduled.held hmem), by simpa using hstill⟩

theorem Tidy.taskStops (htidy : Tidy state) {index : Nat}
    (hstep : step state (.taskStops index) = some next) : Tidy next := by
  obtain ⟨task, htask, rfl⟩ := step_taskStops hstep
  exact htidy.finish htask (by simp)

/-- A request is not the watcher of a task. -/
theorem Tidy.requests (htidy : Tidy state) (request : Request) :
    Tidy (state.request request) := by
  have hscheduled := htidy.scheduled.calm (request_calm request)
  rcases request_cases state request with hsame | ⟨program, hbegin, hplain⟩
  · rwa [hsame]
  · rw [hbegin] at hscheduled ⊢
    have hsame : Evolves state (state.begin program) := .of_same rfl rfl
    refine ⟨hscheduled, fun task htask => (htidy.tasks task htask).evolves hsame,
      fun other hother => ?_, fun id hid => (htidy.returned id hid).evolves hsame,
      fun id hid => (htidy.ended id hid).evolves hsame,
      fun id hid => (htidy.barred id hid).evolves hsame (List.Subset.refl _)
        (List.Subset.refl _), htidy.moves, htidy.overrun⟩
    rcases List.mem_append.mp hother with hold | hnew
    · exact (htidy.threads other hold).evolves hsame
    · rw [List.mem_singleton.mp hnew]
      refine ⟨.inl fun stmt hstmt => (hplain stmt hstmt).1, fun stmt hstmt => ?_⟩
      have hcancel := (hplain stmt hstmt).2
      cases stmt with
      | selectJobs | cancelJobs => cases hcancel
      | _ => trivial

/-- The worker goes on, and claims nothing. -/
theorem Tidy.of_worker (htidy : Tidy state) (hscheduled : Scheduled next)
    (hevolves : Evolves state next) (htasks : next.tasks = state.tasks)
    (hthreads : ∀ program ∈ next.threads, next.ThreadFits program)
    (hfinished : next.finished = state.finished)
    (hclaimed : next.worker.claimed ⊆ state.worker.claimed)
    (hended : next.history.ended = state.history.ended)
    (hbarred : next.history.barred = state.history.barred)
    (hmoves : ∀ change ∈ next.history.moves,
      change ∈ state.history.moves ∨ isLegal change = true)
    (hoverrun : next.history.overrun = state.history.overrun) : Tidy next where
  scheduled := hscheduled
  tasks task htask := (htidy.tasks task (htasks ▸ htask)).evolves hevolves
  threads := hthreads
  returned id hid := (htidy.returned id (hfinished ▸ hid)).evolves hevolves
  ended id hid := (htidy.ended id (hended ▸ hid)).evolves hevolves
  barred id hid := (htidy.barred id (hbarred ▸ hid)).evolves hevolves
    (by rw [htasks]; exact List.Subset.refl _) hclaimed
  moves change hchange := by
    rcases hmoves change hchange with hold | hlegal
    · exact htidy.moves change hold
    · exact hlegal
  overrun := hoverrun.trans htidy.overrun

/-- The worker goes on without a change of the tables. -/
theorem Tidy.reads (htidy : Tidy state) {worker : Worker} {asked : List Nat}
    (hscheduled : Scheduled
      { state with worker := worker, history := { state.history with asked } })
    (hclaimed : worker.claimed ⊆ state.worker.claimed) :
    Tidy { state with worker := worker, history := { state.history with asked } } :=
  htidy.of_worker hscheduled (.of_same rfl rfl) rfl
    (fun program hprogram => (htidy.threads program hprogram).evolves (.of_same rfl rfl)) rfl
    hclaimed rfl rfl (fun _ hchange => .inl hchange) rfl

/-- A claimed row is not barred. -/
theorem Tidy.claims (htidy : Tidy state) {row : Entry} {worker : Worker}
    {admitted : List Nat} (hqueued : ∃ job ∈ state.jobs, job.id = row.id ∧
      job.status = .queued ∧ (job.kind = .deleteCluster ∨ job.cluster.isSome))
    (hclaimed : worker.claimed = [row])
    (hscheduled : Scheduled
      { state.moveJob row.id (whenQueued .running) with
        history := { (state.moveJob row.id (whenQueued .running)).history with admitted }
        worker }) :
    Tidy
      { state.moveJob row.id (whenQueued .running) with
        history := { (state.moveJob row.id (whenQueued .running)).history with admitted }
        worker } := by
  have hmoved := state.moveJob_evolves row.id (whenQueued .running) (by decide)
  have hevolves : Evolves state
      { state.moveJob row.id (whenQueued .running) with
        history := { (state.moveJob row.id (whenQueued .running)).history with admitted }
        worker } := hmoved.trans (.of_same rfl rfl)
  refine ⟨hscheduled, fun task htask => (htidy.tasks task htask).evolves hevolves,
    fun program hprogram => (htidy.threads program hprogram).evolves hevolves,
    fun id hid => (htidy.returned id hid).evolves hevolves,
    fun id hid => (htidy.ended id hid).evolves hevolves, fun id hid => ?_,
    fun change hchange => ?_, htidy.overrun⟩
  · have hbarred := htidy.barred id hid
    refine ⟨hbarred.dead.evolves hevolves, hbarred.live, fun entry hentry => ?_⟩
    obtain ⟨job, hjob, hid', hstatus, hcluster⟩ := hqueued
    rw [show ({ state.moveJob row.id (whenQueued .running) with
        history := { (state.moveJob row.id (whenQueued .running)).history with admitted }
        worker } : State).worker.claimed = [row] from hclaimed] at hentry
    rw [List.mem_singleton.mp hentry]
    rintro rfl
    obtain ⟨hnone, hkind⟩ := hbarred.dead.2 job hjob hid' hstatus
    rcases hcluster with hdelete | hsome
    · exact hkind hdelete
    · simp [hnone] at hsome
  · rcases moveJob_moves state row.id (whenQueued .running) (fun _ _ _ _ hmove =>
      isLegal_of_guarded (.inr (.inr (.inr hmove)))) change hchange with hold | hlegal
    · exact htidy.moves change hold
    · exact hlegal

theorem Tidy.works (htidy : Tidy state) (hkept : keptClaim state state.worker = true)
    (hwork : state.work state.worker = some next) : Tidy next := by
  have hscheduled := htidy.scheduled.works hwork
  have hthreads : ∀ {after : State}, Evolves state after → ∀ program ∈ state.threads,
      after.ThreadFits program := fun hevolves program hprogram =>
    (htidy.threads program hprogram).evolves hevolves
  cases hworker : state.worker with
  | idle =>
      rw [hworker] at hwork
      obtain rfl := Option.some.inj hwork
      exact htidy.reads hscheduled (by simp [Worker.claimed])
  | fetched rows =>
      rw [hworker] at hwork
      cases rows <;> obtain rfl := Option.some.inj hwork
      · exact htidy.reads hscheduled (by simp [Worker.claimed])
      · exact htidy.reads hscheduled (by simp [Worker.claimed])
  | scanning rows seen running dropped =>
      rw [hworker] at hwork
      cases rows <;> obtain rfl := Option.some.inj hwork
      · exact htidy.reads hscheduled (by simp [Worker.claimed])
      · refine htidy.reads hscheduled ?_
        split_ifs <;> simp [Worker.claimed]
  | dropping row rows seen running =>
      rw [hworker] at hwork
      obtain rfl := Option.some.inj hwork
      have hmoved := state.moveJob_evolves row.id (whenQueued .cancelled) (by decide)
      have hevolves : Evolves state
          { state.moveJob row.id (whenQueued .cancelled) with
            worker := .scanning rows (seen ++ [row]) running true } :=
        hmoved.trans (.of_same rfl rfl)
      exact htidy.of_worker hscheduled hevolves rfl (hthreads hevolves) rfl
        (by simp [Worker.claimed]) rfl rfl
        (moveJob_moves state row.id (whenQueued .cancelled) fun _ _ _ _ hmove =>
          isLegal_of_guarded (.inr (.inr (.inl hmove)))) rfl
  | claiming row rows seen running dropped =>
      rw [hworker] at hwork hkept
      obtain rfl := Option.some.inj hwork
      unfold State.claim at hscheduled ⊢
      split at hscheduled
      · rename_i hany
        rw [if_pos hany]
        obtain ⟨job, hjob, hqueued⟩ := List.any_eq_true.mp hany
        simp only [Bool.and_eq_true, decide_eq_true_eq] at hqueued
        have hcluster : job.kind = .deleteCluster ∨ job.cluster.isSome := by
          simpa [hqueued.1, hqueued.2] using List.all_eq_true.mp hkept job hjob
        obtain ⟨admitted, hadmitted⟩ := State.admitJob_eq
          (state.moveJob row.id (whenQueued .running)) row.id row.cluster row.kind
        rw [hadmitted] at hscheduled ⊢
        refine htidy.claims ⟨job, hjob, hqueued.1, hqueued.2, hcluster⟩ ?_ hscheduled
        split <;> rfl
      · rename_i hnone
        rw [if_neg hnone]
        exact htidy.reads hscheduled (by simp [Worker.claimed])
  | provisioning row =>
      rw [hworker] at hwork
      obtain rfl := Option.some.inj hwork
      cases hcluster : row.cluster with
      | none =>
          simp only [hcluster] at hscheduled
          exact htidy.reads hscheduled (by simp [hworker, Worker.claimed])
      | some cluster =>
          simp only [hcluster] at hscheduled
          exact htidy.of_worker hscheduled (.of_same rfl rfl) rfl
            (hthreads (.of_same rfl rfl)) rfl (by simp [hworker, Worker.claimed]) rfl rfl
            (fun _ hchange => .inl hchange) rfl
  | logging row =>
      rw [hworker] at hwork
      obtain rfl := Option.some.inj hwork
      exact htidy.reads hscheduled (by simp [hworker, Worker.claimed])
  | returned row =>
      rw [hworker] at hwork
      cases hwork
  | spawned row =>
      rw [hworker] at hwork
      obtain rfl := Option.some.inj hwork
      refine htidy.of_worker hscheduled (.of_same rfl rfl) rfl (fun program hprogram => ?_) rfl
        (by simp [Worker.claimed]) rfl rfl (fun _ hchange => .inl hchange) rfl
      rcases List.mem_append.mp hprogram with hold | hnew
      · exact (htidy.threads program hold).evolves (.of_same rfl rfl)
      · rw [List.mem_singleton.mp hnew]
        exact ⟨.inr ⟨row.id, .waits⟩, by simp [State.Selected]⟩

/-- Every job ends with a statement that says so. -/
theorem exists_closes_executeJob (entry : Entry) (addons : Nat) (outcome : Outcome) :
    ∃ stmt ∈ executeJob entry addons outcome, closes entry.id stmt = true := by
  have hending : ∀ outcome, ∃ stmt ∈ ending entry outcome, closes entry.id stmt = true := by
    intro outcome
    cases outcome with
    | ok =>
        by_cases hdelete : entry.kind = .deleteCluster
        · exact ⟨.removeJob entry.id, by simp [ending, hdelete], by simp [closes]⟩
        · exact ⟨.record entry.id entry.cluster entry.kind true, by simp [ending, hdelete],
            by simp [closes]⟩
    | fails reach message purged =>
        exact ⟨.record entry.id entry.cluster entry.kind false, List.mem_cons_self,
          by simp [closes]⟩
  unfold executeJob
  split
  · exact hending _
  · obtain ⟨stmt, hstmt, hcloses⟩ := hending .ok
    exact ⟨stmt, List.mem_append_right _ hstmt, hcloses⟩
  · rename_i reach message purged _
    obtain ⟨stmt, hstmt, hcloses⟩ := hending (.fails reach message purged)
    exact ⟨stmt, List.mem_append_right _ hstmt, hcloses⟩

theorem Tidy.spawns (htidy : Tidy state) {row : Entry} (hworker : state.worker = .returned row)
    (addons : Nat) (outcome : Outcome) :
    Tidy
      { state with
        tasks := state.tasks ++ [⟨row, executeJob row addons outcome, false⟩]
        worker := .spawned row } := by
  refine ⟨htidy.scheduled.spawns hworker addons outcome, fun task htask => ?_,
    fun program hprogram => (htidy.threads program hprogram).evolves (.of_same rfl rfl),
    fun id hid => (htidy.returned id hid).evolves (.of_same rfl rfl),
    fun id hid => (htidy.ended id hid).evolves (.of_same rfl rfl), fun id hid => ?_,
    htidy.moves, htidy.overrun⟩
  · rcases List.mem_append.mp htask with hold | hnew
    · exact (htidy.tasks task hold).evolves (.of_same rfl rfl)
    · rw [List.mem_singleton.mp hnew]
      have hplain := isPlain_executeJob row addons outcome
      refine ⟨fun stmt hstmt => ?_, .inr (exists_closes_executeJob row addons outcome),
        fun stmt hstmt => ?_⟩
      · have hone := hplain stmt hstmt
        simp only [isPlain, Bool.and_eq_true, Bool.not_eq_true'] at hone
        exact ⟨hone.1.1, hone.2⟩
      · have hone := hplain stmt hstmt
        cases stmt with
        | selectJobs | cancelJobs => simp [isPlain, isCancel] at hone
        | _ => trivial
  · have hbarred := htidy.barred id hid
    refine ⟨hbarred.dead.evolves (.of_same rfl rfl), fun task htask => ?_,
      by simp [Worker.claimed]⟩
    rcases List.mem_append.mp htask with hold | hnew
    · exact hbarred.live task hold
    · rw [List.mem_singleton.mp hnew]
      exact hbarred.claimed row (by simp [hworker, Worker.claimed])

/-- Every step that meets the condition keeps the invariant. -/
theorem Tidy.step (htidy : Tidy state) {event : Event} (hkept : kept state event = true)
    (hstep : step state event = some next) : Tidy next := by
  cases event with
  | requests request =>
      obtain rfl := Option.some.inj hstep
      exact htidy.requests request
  | thread index => exact htidy.thread hkept hstep
  | threadSkips index => exact htidy.threadSkips hkept hstep
  | threadDies index => exact htidy.threadDies hstep
  | task index => exact htidy.task hkept hstep
  | taskSkips index => exact htidy.taskSkips hkept hstep
  | taskLabours index => exact htidy.taskLabours hstep
  | taskReturns index => exact htidy.taskReturns hstep
  | taskDies index => exact htidy.taskDies hkept hstep
  | taskStops index => exact htidy.taskStops hstep
  | works => exact htidy.works hkept hstep
  | workerSkips =>
      have hscheduled := htidy.scheduled.step hstep
      simp only [PertiskKos.Jobs.step] at hstep
      split at hstep
      · rename_i row hworker
        obtain rfl := Option.some.inj hstep
        exact htidy.reads hscheduled (by simp [hworker, Worker.claimed])
      · cases hstep
  | workerFails =>
      have hscheduled := htidy.scheduled.step hstep
      simp only [PertiskKos.Jobs.step, State.failWork] at hstep
      split at hstep
      · cases hstep
      · cases hstep
      · obtain rfl := Option.some.inj hstep
        exact htidy.reads hscheduled (by simp [Worker.claimed])
  | spawns addons outcome =>
      simp only [PertiskKos.Jobs.step] at hstep
      split at hstep
      · rename_i row hworker
        obtain rfl := Option.some.inj hstep
        exact htidy.spawns hworker addons outcome
      · cases hstep

end PertiskKos.Jobs
