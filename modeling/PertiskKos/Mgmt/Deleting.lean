import PertiskKos.Mgmt.Steps

/-!
# Clusters that are being deleted

Which steps touch the rows of clusters, and when a cluster that is being deleted keeps
that status until its row is gone.
-/

namespace PertiskKos.Jobs

variable {state next : State} {event : Event}

/-! ## The steps that touch clusters -/

/-- Nothing that is said of clusters has changed. -/
structure SameClusters (state next : State) : Prop where
  clusters : next.clusters = state.clusters
  nextCluster : next.nextCluster = state.nextCluster
  doomed : next.history.doomed = state.history.doomed
  admitted : next.history.admitted = state.history.admitted
  built : next.history.built = state.history.built
  created : next.history.created = state.history.created

theorem SameClusters.refl (state : State) : SameClusters state state :=
  ⟨rfl, rfl, rfl, rfl, rfl, rfl⟩

theorem SameClusters.note (state : State) (id : Nat) : SameClusters state (state.note id) := by
  obtain ⟨overrun, hnote⟩ := state.note_eq id
  rw [hnote]
  exact ⟨rfl, rfl, rfl, rfl, rfl, rfl⟩

/-- The statement that a step of a thread or a task runs. -/
def State.nextStmt (state : State) : Event → Option Stmt
  | .thread index => state.threads[index]?.bind List.head?
  | .task index => state.tasks[index]?.bind fun task => task.program.head?
  | _ => none

/-- The row that a step of the worker claims. -/
def State.claims (state : State) : Event → Option Entry
  | .works =>
      match state.worker with
      | .claiming row _ _ _ _ =>
          if state.jobs.any fun job => job.id = row.id && job.status = .queued then some row
          else none
      | _ => none
  | _ => none

/-- The cluster that a step of the worker calls provisioning. -/
def State.provisions (state : State) : Event → Option Nat
  | .works =>
      match state.worker with
      | .provisioning row => row.cluster
      | _ => none
  | _ => none

/-- A step runs a statement, claims a row, marks the cluster of a claimed row, or leaves
the clusters alone. -/
inductive Touches (state : State) (event : Event) (next : State) : Prop where
  | statement {stmt : Stmt} {rest program : List Stmt} {middle : State}
      (hstmt : state.nextStmt event = some stmt)
      (hother : state.claims event = none ∧ state.provisions event = none)
      (hexec : exec state stmt rest = some (middle, program))
      (hsame : SameClusters middle next)
  | claim {row : Entry} {middle : State} (hclaims : state.claims event = some row)
      (hother : state.nextStmt event = none ∧ state.provisions event = none)
      (hbefore : SameClusters state middle)
      (hsame : SameClusters (middle.admitJob row.id row.cluster row.kind) next)
  | provision {cluster : Nat} (hprovisions : state.provisions event = some cluster)
      (hother : state.nextStmt event = none ∧ state.claims event = none)
      (hsame : SameClusters
        (state.setStatus cluster (fun _ => true) .provisioning (some false)) next)
  | nothing (hother : state.nextStmt event = none ∧ state.claims event = none ∧
      state.provisions event = none) (hsame : SameClusters state next)

theorem touches_works (hwork : state.work state.worker = some next) :
    Touches state .works next := by
  cases hworker : state.worker with
  | idle =>
      rw [hworker] at hwork
      obtain rfl := Option.some.inj hwork
      exact .nothing (by simp [State.nextStmt, State.claims, State.provisions, hworker])
        ⟨rfl, rfl, rfl, rfl, rfl, rfl⟩
  | fetched rows =>
      rw [hworker] at hwork
      cases rows <;>
        (obtain rfl := Option.some.inj hwork
         exact .nothing (by simp [State.nextStmt, State.claims, State.provisions, hworker])
           ⟨rfl, rfl, rfl, rfl, rfl, rfl⟩)
  | scanning rows seen running dropped =>
      rw [hworker] at hwork
      cases rows <;>
        (obtain rfl := Option.some.inj hwork
         exact .nothing (by simp [State.nextStmt, State.claims, State.provisions, hworker])
           ⟨rfl, rfl, rfl, rfl, rfl, rfl⟩)
  | dropping row rows seen running =>
      rw [hworker] at hwork
      obtain rfl := Option.some.inj hwork
      exact .nothing (by simp [State.nextStmt, State.claims, State.provisions, hworker])
        ⟨rfl, rfl, rfl, rfl, rfl, rfl⟩
  | claiming row rows seen running dropped =>
      rw [hworker] at hwork
      obtain rfl := Option.some.inj hwork
      by_cases hany : state.jobs.any fun job => job.id = row.id && job.status = .queued
      · have hclaims : state.claims .works = some row := by
          simp only [State.claims, hworker, if_pos hany]
        have hbefore : SameClusters state (state.moveJob row.id (whenQueued .running)) :=
          ⟨rfl, rfl, rfl, rfl, rfl, rfl⟩
        refine .claim hclaims (by simp [State.nextStmt, State.provisions, hworker]) hbefore ?_
        rw [State.claim, if_pos hany]
        exact ⟨rfl, rfl, rfl, rfl, rfl, rfl⟩
      · refine .nothing ⟨rfl, by simp only [State.claims, hworker, if_neg hany],
          by simp [State.provisions, hworker]⟩ ?_
        rw [State.claim, if_neg hany]
        exact ⟨rfl, rfl, rfl, rfl, rfl, rfl⟩
  | provisioning row =>
      rw [hworker] at hwork
      obtain rfl := Option.some.inj hwork
      cases hcluster : row.cluster with
      | none =>
          exact .nothing
            (by simp [State.nextStmt, State.claims, State.provisions, hworker, hcluster])
            ⟨rfl, rfl, rfl, rfl, rfl, rfl⟩
      | some cluster =>
          exact .provision (by simp only [State.provisions, hworker, hcluster])
            (by simp [State.nextStmt, State.claims, hworker]) ⟨rfl, rfl, rfl, rfl, rfl, rfl⟩
  | logging row =>
      rw [hworker] at hwork
      obtain rfl := Option.some.inj hwork
      exact .nothing (by simp [State.nextStmt, State.claims, State.provisions, hworker])
        ⟨rfl, rfl, rfl, rfl, rfl, rfl⟩
  | returned row =>
      rw [hworker] at hwork
      cases hwork
  | spawned row =>
      rw [hworker] at hwork
      obtain rfl := Option.some.inj hwork
      exact .nothing (by simp [State.nextStmt, State.claims, State.provisions, hworker])
        ⟨rfl, rfl, rfl, rfl, rfl, rfl⟩

theorem step_touches (hstep : step state event = some next) : Touches state event next := by
  have hnone : ∀ {event : Event} {next : State}, state.nextStmt event = none →
      state.claims event = none → state.provisions event = none → SameClusters state next →
      Touches state event next := fun hstmt hclaims hprovisions hsame =>
    .nothing ⟨hstmt, hclaims, hprovisions⟩ hsame
  cases event with
  | requests request =>
      obtain rfl := Option.some.inj hstep
      refine hnone rfl rfl rfl ?_
      rcases request_cases state request with hsame | ⟨program, hbegin, -⟩
      · rw [hsame]
        exact .refl state
      · rw [hbegin]
        exact ⟨rfl, rfl, rfl, rfl, rfl, rfl⟩
  | thread index =>
      obtain ⟨stmt, rest, middle, program, hthread, hexec, rfl⟩ := step_thread hstep
      exact .statement (by simp [State.nextStmt, hthread]) ⟨rfl, rfl⟩ hexec
        ⟨rfl, rfl, rfl, rfl, rfl, rfl⟩
  | threadSkips index =>
      obtain ⟨stmt, rest, -, -, rfl⟩ := step_threadSkips hstep
      exact hnone rfl rfl rfl ⟨rfl, rfl, rfl, rfl, rfl, rfl⟩
  | threadDies index =>
      obtain ⟨stmt, rest, -, rfl⟩ := step_threadDies hstep
      exact hnone rfl rfl rfl ⟨rfl, rfl, rfl, rfl, rfl, rfl⟩
  | task index =>
      obtain ⟨task, stmt, rest, middle, program, htask, hprogram, hexec, rfl⟩ := step_task hstep
      refine .statement (by simp [State.nextStmt, htask, hprogram]) ⟨rfl, rfl⟩ hexec ?_
      have hnote := SameClusters.note (middle.setTask index
        { task with
          program := program
          aborted := (middle.tasks[index]?).elim task.aborted Task.aborted })
        task.entry.id
      exact ⟨hnote.clusters, hnote.nextCluster, hnote.doomed, hnote.admitted,
        hnote.built, hnote.created⟩
  | taskSkips index =>
      obtain ⟨task, stmt, rest, -, -, -, rfl⟩ := step_taskSkips hstep
      have hnote := SameClusters.note (state.setTask index { task with program := rest })
        task.entry.id
      exact hnone rfl rfl rfl ⟨hnote.clusters, hnote.nextCluster, hnote.doomed,
        hnote.admitted, hnote.built, hnote.created⟩
  | taskLabours index =>
      obtain ⟨task, -, rfl⟩ := Option.map_eq_some_iff.mp hstep
      exact hnone rfl rfl rfl (SameClusters.note state task.entry.id)
  | taskReturns index =>
      obtain ⟨task, -, -, rfl⟩ := step_taskReturns hstep
      exact hnone rfl rfl rfl ⟨rfl, rfl, rfl, rfl, rfl, rfl⟩
  | taskStops index =>
      obtain ⟨task, -, rfl⟩ := step_taskStops hstep
      exact hnone rfl rfl rfl ⟨rfl, rfl, rfl, rfl, rfl, rfl⟩
  | taskDies index =>
      obtain ⟨task, -, rfl⟩ := Option.map_eq_some_iff.mp hstep
      exact hnone rfl rfl rfl ⟨rfl, rfl, rfl, rfl, rfl, rfl⟩
  | works => exact touches_works hstep
  | workerSkips =>
      simp only [step] at hstep
      split at hstep
      · obtain rfl := Option.some.inj hstep
        exact hnone rfl rfl rfl ⟨rfl, rfl, rfl, rfl, rfl, rfl⟩
      · cases hstep
  | workerFails =>
      simp only [step, State.failWork] at hstep
      split at hstep
      · cases hstep
      · cases hstep
      · obtain rfl := Option.some.inj hstep
        exact hnone rfl rfl rfl ⟨rfl, rfl, rfl, rfl, rfl, rfl⟩
  | spawns addons outcome =>
      simp only [step] at hstep
      split at hstep
      · obtain rfl := Option.some.inj hstep
        exact hnone rfl rfl rfl ⟨rfl, rfl, rfl, rfl, rfl, rfl⟩
      · cases hstep

/-! ## Deleting is final -/

/-- A cluster that was marked for deletion keeps that status, and no job but a deletion is
queued or claimed for it. -/
structure DeletingFinal (state : State) : Prop where
  status : ∀ row ∈ state.clusters, row.id ∈ state.history.doomed → row.status = .deleting
  admitted : state.history.admitted = []

/-- The statement does not change the status of a cluster that is being deleted, and
queues no job for one. -/
def finalStmt (state : State) : Stmt → Bool
  | .writeStatus _ cluster status _ =>
      status = .deleting || !state.isDoomed (some cluster)
  | .writeCreated cluster _ => !state.isDoomed (some cluster)
  | .insertJob cluster kind => kind = .deleteCluster || !state.isDoomed (some cluster)
  | _ => true

/-- The condition on a step. -/
def keepsFinal (state : State) (event : Event) : Bool :=
  (state.nextStmt event).all (finalStmt state) &&
    (state.claims event).all (fun row =>
      row.kind = .deleteCluster || !state.isDoomed row.cluster) &&
      (state.provisions event).all fun cluster => !state.isDoomed (some cluster)

/-- The numbers of clusters that were marked are not used again. -/
structure Deletion (state : State) : Prop where
  final : DeletingFinal state
  fresh : ∀ row ∈ state.clusters, row.id < state.nextCluster
  marked : ∀ id ∈ state.history.doomed, id < state.nextCluster

theorem isDoomed_iff {owner : Option Nat} : state.isDoomed owner = true ↔
    ∃ row ∈ state.clusters, some row.id = owner ∧ row.id ∈ state.history.doomed := by
  simp [State.isDoomed]

theorem SameClusters.isDoomed (hsame : SameClusters state next) (owner : Option Nat) :
    next.isDoomed owner = state.isDoomed owner := by
  simp [State.isDoomed, hsame.clusters, hsame.doomed]

theorem Deletion.of_same (hstate : Deletion state) (hsame : SameClusters state next) :
    Deletion next where
  final :=
    { status := by
        rw [hsame.clusters, hsame.doomed]
        exact hstate.final.status
      admitted := hsame.admitted.trans hstate.final.admitted }
  fresh := by
    rw [hsame.clusters, hsame.nextCluster]
    exact hstate.fresh
  marked := by
    rw [hsame.doomed, hsame.nextCluster]
    exact hstate.marked

theorem DeletingFinal.of_same (hfinal : DeletingFinal next) (hsame : SameClusters state next) :
    DeletingFinal state where
  status := by
    rw [← hsame.clusters, ← hsame.doomed]
    exact hfinal.status
  admitted := hsame.admitted.symm.trans hfinal.admitted

section SetStatus

variable {cluster : Nat} {allowed : ClusterStatus → Bool} {status : ClusterStatus}
variable {error : Option Bool}

theorem mem_setStatus {row : ClusterRow}
    (hrow : row ∈ (state.setStatus cluster allowed status error).clusters) :
    ∃ old ∈ state.clusters, row.id = old.id ∧
      (old.id = cluster ∧ allowed old.status = true ∧ row.status = status ∨
        ¬ (old.id = cluster ∧ allowed old.status = true) ∧ row = old) := by
  obtain ⟨old, hold, rfl⟩ := List.mem_map.mp hrow
  refine ⟨old, hold, ?_⟩
  split
  · rename_i hthis
    exact ⟨rfl, .inl ⟨hthis.1, hthis.2, rfl⟩⟩
  · rename_i hother
    exact ⟨rfl, .inr ⟨hother, rfl⟩⟩

/-- A status that may be written to a cluster being deleted, if any. -/
theorem Deletion.setStatus (hstate : Deletion state)
    (hkept : state.isDoomed (some cluster) = true → allowed .deleting = true →
      status = .deleting) :
    Deletion (state.setStatus cluster allowed status error) where
  final :=
    { status := fun row hrow hdoomed => by
        obtain ⟨old, hold, hid, hchange⟩ := mem_setStatus hrow
        have hdeleting := hstate.final.status old hold (hid ▸ hdoomed)
        rcases hchange with ⟨hcluster, hallowed, hstatus⟩ | ⟨-, rfl⟩
        · rw [hdeleting] at hallowed
          rw [hstatus]
          exact hkept (isDoomed_iff.mpr ⟨old, hold, by rw [hcluster], hid ▸ hdoomed⟩) hallowed
        · exact hdeleting
      admitted := hstate.final.admitted }
  fresh row hrow := by
    obtain ⟨old, hold, hid, -⟩ := mem_setStatus hrow
    exact hid ▸ hstate.fresh old hold
  marked := hstate.marked

end SetStatus

theorem Deletion.admitJob (hstate : Deletion state) {id : Nat} {owner : Option Nat} {kind : Kind}
    (hkept : kind = .deleteCluster ∨ state.isDoomed owner = false) :
    Deletion (state.admitJob id owner kind) := by
  have hnone : state.admitJob id owner kind = state := by
    rcases hkept with hdelete | hdoomed
    · simp [State.admitJob, hdelete]
    · simp [State.admitJob, hdoomed]
  rwa [hnone]

section Statements

variable {stmt : Stmt} {rest program : List Stmt}

theorem Deletion.exec (hstate : Deletion state)
    (hexec : exec state stmt rest = some (next, program))
    (hkept : finalStmt state stmt = true) : Deletion next := by
  cases stmt with
  | writeStatus required cluster status error =>
      obtain ⟨rfl, -⟩ := Prod.mk.inj (Option.some.inj hexec)
      refine hstate.setStatus fun hdoomed _ => ?_
      simpa [finalStmt, hdoomed] using hkept
  | writeCreated cluster error =>
      obtain ⟨rfl, -⟩ := Prod.mk.inj (Option.some.inj hexec)
      have hundoomed : state.isDoomed (some cluster) = false := by simpa [finalStmt] using hkept
      have hwritten : Deletion (state.setStatus cluster (fun _ => true) .ready error) :=
        hstate.setStatus fun hdoomed _ => by simp [hundoomed] at hdoomed
      exact ⟨⟨hwritten.final.status, hwritten.final.admitted⟩, hwritten.fresh, hwritten.marked⟩
  | keepReady cluster =>
      obtain ⟨rfl, -⟩ := Prod.mk.inj (Option.some.inj hexec)
      exact hstate.setStatus fun _ hallowed => by simp at hallowed
  | markDeleting cluster =>
      obtain ⟨rfl, -⟩ := Prod.mk.inj (Option.some.inj hexec)
      have hwritten : Deletion (state.setStatus cluster (fun _ => true) .deleting none) :=
        hstate.setStatus fun _ _ => rfl
      have hrow : ∀ id ∈ (state.cluster? cluster).toList.map ClusterRow.id,
          id = cluster ∧ id < state.nextCluster := by
        intro id hid
        obtain ⟨row, hfound, rfl⟩ := List.mem_map.mp hid
        have hfind := Option.mem_toList.mp hfound
        refine ⟨by simpa using List.find?_some hfind, ?_⟩
        exact hstate.fresh row (List.mem_of_find?_eq_some hfind)
      refine ⟨⟨fun row hrow' hdoomed => ?_, hwritten.final.admitted⟩, hwritten.fresh,
        fun id hid => ?_⟩
      · rcases List.mem_append.mp hdoomed with hold | hnew
        · exact hwritten.final.status row hrow' hold
        · have hthere : row ∈
              (state.setStatus cluster (fun _ => true) .deleting none).clusters := hrow'
          obtain ⟨old, -, hid, ⟨-, -, hstatus⟩ | ⟨hother, rfl⟩⟩ := mem_setStatus hthere
          · exact hstatus
          · exact absurd ⟨(hrow _ hnew).1, rfl⟩ hother
      · rcases List.mem_append.mp hid with hold | hnew
        · exact hstate.marked id hold
        · exact (hrow id hnew).2
  | insertCluster =>
      obtain ⟨rfl, -⟩ := Prod.mk.inj (Option.some.inj hexec)
      refine ⟨⟨fun row hrow hdoomed => ?_, hstate.final.admitted⟩, fun row hrow => ?_,
        fun id hid => Nat.lt_succ_of_lt (hstate.marked id hid)⟩
      · rcases List.mem_append.mp hrow with hold | hnew
        · exact hstate.final.status row hold hdoomed
        · rw [List.mem_singleton.mp hnew] at hdoomed
          exact absurd (hstate.marked _ hdoomed) (lt_irrefl _)
      · rcases List.mem_append.mp hrow with hold | hnew
        · exact Nat.lt_succ_of_lt (hstate.fresh row hold)
        · rw [List.mem_singleton.mp hnew]
          exact Nat.lt_succ_self _
  | insertJob cluster kind =>
      obtain ⟨rfl, -⟩ := Prod.mk.inj (Option.some.inj hexec)
      unfold State.insertJob
      split
      · change Deletion (State.admitJob _ state.nextJob (some cluster) kind)
        refine Deletion.admitJob ?_ ?_
        · exact hstate.of_same ⟨rfl, rfl, rfl, rfl, rfl, rfl⟩
        · have hfree : kind = .deleteCluster ∨ state.isDoomed (some cluster) = false := by
            simpa [finalStmt] using hkept
          exact hfree
      · exact hstate
  | dropCluster cluster =>
      obtain ⟨rfl, -⟩ := Prod.mk.inj (Option.some.inj hexec)
      exact ⟨⟨fun row hrow => hstate.final.status row (List.mem_filter.mp hrow).1,
        hstate.final.admitted⟩, fun row hrow => hstate.fresh row (List.mem_filter.mp hrow).1,
        hstate.marked⟩
  | checkNotDeleting cluster =>
      simp only [PertiskKos.Jobs.exec] at hexec
      split at hexec
      all_goals
        obtain ⟨rfl, -⟩ := Prod.mk.inj (Option.some.inj hexec)
        exact hstate
  | cancelJobs ids stopped =>
      cases ids <;>
        (obtain ⟨rfl, -⟩ := Prod.mk.inj (Option.some.inj hexec)
         exact hstate.of_same ⟨rfl, rfl, rfl, rfl, rfl, rfl⟩)
  | join id =>
      simp only [PertiskKos.Jobs.exec] at hexec
      split at hexec
      iterate 2
        obtain ⟨rfl, -⟩ := Prod.mk.inj (Option.some.inj hexec)
        exact hstate
      cases hexec
  | record id cluster kind ok =>
      obtain ⟨rfl, -⟩ := Prod.mk.inj (Option.some.inj hexec)
      exact ⟨⟨hstate.final.status, hstate.final.admitted⟩, hstate.fresh, hstate.marked⟩
  | _ =>
      obtain ⟨rfl, -⟩ := Prod.mk.inj (Option.some.inj hexec)
      exact hstate.of_same ⟨rfl, rfl, rfl, rfl, rfl, rfl⟩

end Statements

theorem Deletion.step (hstate : Deletion state) (hkept : keepsFinal state event = true)
    (hstep : PertiskKos.Jobs.step state event = some next) : Deletion next := by
  simp only [keepsFinal, Bool.and_eq_true] at hkept
  obtain ⟨⟨hstmtKept, hclaimKept⟩, hprovisionKept⟩ := hkept
  cases step_touches hstep with
  | statement hstmt hother hexec hsame =>
      rw [hstmt] at hstmtKept
      exact (hstate.exec hexec hstmtKept).of_same hsame
  | claim hclaims hother hbefore hsame =>
      rw [hclaims] at hclaimKept
      refine ((hstate.of_same hbefore).admitJob ?_).of_same hsame
      rw [hbefore.isDoomed]
      simpa using hclaimKept
  | provision hprovisions hother hsame =>
      rw [hprovisions] at hprovisionKept
      refine (hstate.setStatus fun hdoomed _ => ?_).of_same hsame
      simp [hdoomed] at hprovisionKept
  | nothing hother hsame => exact hstate.of_same hsame

end PertiskKos.Jobs
