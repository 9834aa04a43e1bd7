import PertiskKos.Mgmt.Deleting

/-!
# Ready clusters

Which writes of `ready` are for a cluster that a job has created.  The body of a creation
writes `ready` itself, a few statements before its job is recorded; both counts, with and
without that window, are stated.
-/

namespace PertiskKos.Jobs

variable {state next : State} {event : Event} {window : Bool}

/-- A creation of the cluster has succeeded, or (in the window) has written its result. -/
def State.isMade (state : State) (window : Bool) (cluster : Nat) : Bool :=
  cluster ∈ state.history.created || window && cluster ∈ state.history.built

/-- Whatever is ready was made. -/
def ReadyMade (window : Bool) (state : State) : Prop :=
  ∀ row ∈ state.clusters, row.status = .ready → state.isMade window row.id = true

/-- Nothing is called ready, where the row's status allows it, that was not made. -/
def State.mayReady (state : State) (window : Bool) (cluster : Nat)
    (allowed : ClusterStatus → Bool) : Bool :=
  state.clusters.all fun row =>
    row.id ≠ cluster || !allowed row.status || state.isMade window row.id

/-- The statement does not call a cluster ready that was not made. -/
def readyStmt (window : Bool) (state : State) : Stmt → Bool
  | .writeStatus _ cluster status _ =>
      status ≠ .ready || state.mayReady window cluster fun _ => true
  | .writeCreated cluster _ => window || state.mayReady window cluster fun _ => true
  | .keepReady cluster => state.mayReady window cluster (· ≠ .deleting)
  | _ => true

/-- The condition on a step. -/
def keepsReady (window : Bool) (state : State) (event : Event) : Bool :=
  (state.nextStmt event).all (readyStmt window state)

theorem SameClusters.isMade (hsame : SameClusters state next) (id : Nat) :
    next.isMade window id = state.isMade window id := by
  simp [State.isMade, hsame.created, hsame.built]

theorem readyMade_congr (hsame : SameClusters state next) :
    ReadyMade window next ↔ ReadyMade window state := by
  unfold ReadyMade
  rw [hsame.clusters]
  exact forall₃_congr fun row _ _ => by rw [hsame.isMade]

section SetStatus

variable {cluster : Nat} {allowed : ClusterStatus → Bool} {status : ClusterStatus}
variable {error : Option Bool}

@[simp] theorem isMade_setStatus (id : Nat) :
    (state.setStatus cluster allowed status error).isMade window id =
      state.isMade window id := rfl

theorem ReadyMade.setStatus (hmade : ReadyMade window state)
    (hkept : status = .ready → state.mayReady window cluster allowed = true) :
    ReadyMade window (state.setStatus cluster allowed status error) := by
  intro row hrow hready
  obtain ⟨old, hold, hid, ⟨hcluster, hallowed, hstatus⟩ | ⟨-, rfl⟩⟩ := mem_setStatus hrow
  · have hmay := List.all_eq_true.mp (hkept (hstatus ▸ hready)) old hold
    rw [hid, isMade_setStatus]
    simpa [hcluster, hallowed] using hmay
  · exact hmade row hold hready

end SetStatus

section Statements

variable {stmt : Stmt} {rest program : List Stmt}

theorem ReadyMade.exec (hmade : ReadyMade window state)
    (hexec : exec state stmt rest = some (next, program))
    (hkept : readyStmt window state stmt = true) : ReadyMade window next := by
  cases stmt with
  | writeStatus required cluster status error =>
      obtain ⟨rfl, -⟩ := Prod.mk.inj (Option.some.inj hexec)
      refine hmade.setStatus fun hready => ?_
      simpa [readyStmt, hready] using hkept
  | writeCreated cluster error =>
      obtain ⟨rfl, -⟩ := Prod.mk.inj (Option.some.inj hexec)
      intro row hrow hready
      cases window with
      | false =>
          have hwritten : ReadyMade false
              (state.setStatus cluster (fun _ => true) .ready error) :=
            hmade.setStatus fun _ => by simpa [readyStmt] using hkept
          exact hwritten row hrow hready
      | true =>
          have hthere : row ∈ (state.setStatus cluster (fun _ => true) .ready error).clusters :=
            hrow
          obtain ⟨old, hold, hid, ⟨hcluster, -, -⟩ | ⟨-, rfl⟩⟩ := mem_setStatus hthere
          · simp [State.isMade, hid, hcluster]
          · have hold' := hmade row hold hready
            simp only [State.isMade, Bool.true_and, Bool.or_eq_true,
              decide_eq_true_eq] at hold' ⊢
            exact hold'.imp_right fun hbuilt => List.mem_append_left _ hbuilt
  | keepReady cluster =>
      obtain ⟨rfl, -⟩ := Prod.mk.inj (Option.some.inj hexec)
      exact hmade.setStatus fun _ => hkept
  | markDeleting cluster =>
      obtain ⟨rfl, -⟩ := Prod.mk.inj (Option.some.inj hexec)
      have hwritten : ReadyMade window
          (state.setStatus cluster (fun _ => true) .deleting none) :=
        hmade.setStatus fun hready => by simp at hready
      exact hwritten
  | insertCluster =>
      obtain ⟨rfl, -⟩ := Prod.mk.inj (Option.some.inj hexec)
      intro row hrow hready
      rcases List.mem_append.mp hrow with hold | hnew
      · exact hmade row hold hready
      · rw [List.mem_singleton.mp hnew] at hready
        cases hready
  | insertJob cluster kind =>
      obtain ⟨rfl, -⟩ := Prod.mk.inj (Option.some.inj hexec)
      obtain ⟨jobs, nextJob, admitted, hinsert⟩ := state.insertJob_eq cluster kind
      rw [hinsert]
      exact hmade
  | checkNotDeleting cluster =>
      simp only [PertiskKos.Jobs.exec] at hexec
      split at hexec
      all_goals
        obtain ⟨rfl, -⟩ := Prod.mk.inj (Option.some.inj hexec)
        exact hmade
  | record id owner kind ok =>
      obtain ⟨rfl, -⟩ := Prod.mk.inj (Option.some.inj hexec)
      intro row hrow hready
      have hold := hmade row hrow hready
      simp only [State.isMade, Bool.or_eq_true, decide_eq_true_eq] at hold ⊢
      exact hold.imp_left fun hcreated => List.mem_append_left _ hcreated
  | cancelJobs ids stopped =>
      cases ids <;>
        (obtain ⟨rfl, -⟩ := Prod.mk.inj (Option.some.inj hexec)
         exact hmade)
  | dropCluster cluster =>
      obtain ⟨rfl, -⟩ := Prod.mk.inj (Option.some.inj hexec)
      exact fun row hrow => hmade row (List.mem_filter.mp hrow).1
  | join id =>
      simp only [PertiskKos.Jobs.exec] at hexec
      split at hexec
      iterate 2
        obtain ⟨rfl, -⟩ := Prod.mk.inj (Option.some.inj hexec)
        exact hmade
      cases hexec
  | _ =>
      obtain ⟨rfl, -⟩ := Prod.mk.inj (Option.some.inj hexec)
      exact hmade

end Statements

theorem ReadyMade.step (hmade : ReadyMade window state)
    (hkept : keepsReady window state event = true)
    (hstep : PertiskKos.Jobs.step state event = some next) : ReadyMade window next := by
  cases step_touches hstep with
  | statement hstmt hother hexec hsame =>
      rw [keepsReady, hstmt] at hkept
      exact (readyMade_congr hsame).mpr (hmade.exec hexec hkept)
  | claim hclaims hother hbefore hsame =>
      refine (readyMade_congr hsame).mpr ?_
      rename_i row middle
      obtain ⟨admitted, hadmitted⟩ := middle.admitJob_eq row.id row.cluster row.kind
      rw [hadmitted]
      exact (readyMade_congr hbefore).mpr hmade
  | provision hprovisions hother hsame =>
      refine (readyMade_congr hsame).mpr (hmade.setStatus fun hready => ?_)
      cases hready
  | nothing hother hsame => exact (readyMade_congr hsame).mpr hmade

end PertiskKos.Jobs
