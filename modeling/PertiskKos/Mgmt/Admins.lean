import PertiskKos.Library.Runs
import PertiskKos.Library.Strings
import PertiskKos.Library.Tables

/-!
# The last administrator

A request may change the role of a user, disable the user and change the email address.  The
administrators are counted in one statement and the row is changed in another; the requests
that are served at the same time take turns statement by statement.
-/

namespace PertiskKos.Users

open Strings Runs

inductive Role where
  | admin
  | operator
  | viewer
  deriving DecidableEq, Repr

def Role.parse (s : Text) : Option Role :=
  if s = "admin".toList then some .admin
  else if s = "operator".toList then some .operator
  else if s = "viewer".toList then some .viewer
  else none

def Role.isAdmin (role : Role) : Bool := role = .admin

structure UserRecord where
  role : Role
  disabled : Bool
  email : Option Text
  deriving DecidableEq, Repr

abbrev Table := AList fun _ : Nat => UserRecord

def UserRecord.enabledAdmin (user : UserRecord) : Bool := user.role.isAdmin && !user.disabled

def countEnabledAdmins (users : Table) : Nat := Tables.count UserRecord.enabledAdmin users

/-- The check: a user who is an enabled administrator is not the only one. -/
def ensureNotLastEnabledAdmin (users : Table) (user : UserRecord) : Bool :=
  if user.enabledAdmin then 1 < countEnabledAdmins users else true

structure UpdateUserReq where
  role : Option Text
  disabled : Option Bool
  email : Option Text
  deriving DecidableEq, Repr

/-- The next statement of a request, with the copy of the row that it has read. -/
inductive Stage where
  | reads
  | checksRole (user : UserRecord) (role : Role)
  | writesRole (user : UserRecord) (role : Role)
  | checksDisabled (user : UserRecord)
  | writesDisabled (user : UserRecord) (disabled : Bool)
  | writesEmail (email : Option Text)
  | answers
  deriving DecidableEq, Repr

structure Call where
  target : Nat
  body : UpdateUserReq
  stage : Stage
  deriving DecidableEq, Repr

structure State where
  users : Table
  calls : AList fun _ : Nat => Call

inductive Event where
  /-- A request with the role that the session of its sender has. -/
  | request (id : Nat) (actor : Role) (target : Nat) (body : UpdateUserReq)
  /-- The next statement of a request; it may fail. -/
  | statement (id : Nat) (ok : Bool)
  deriving DecidableEq, Repr

def toEmail (body : UpdateUserReq) : Stage :=
  match body.email with
  | some email => .writesEmail (some (trim email) |>.filter (· ≠ []))
  | none => .answers

def toDisabled (body : UpdateUserReq) (user : UserRecord) : Stage :=
  match body.disabled with
  | some disabled =>
      if disabled && !user.disabled && user.enabledAdmin then .checksDisabled user
      else .writesDisabled user disabled
  | none => toEmail body

/-- What follows once the row is read; `none` when the role is none. -/
def toRole (body : UpdateUserReq) (user : UserRecord) : Option Stage :=
  match body.role with
  | some text =>
      (Role.parse text).map fun role =>
        if user.role.isAdmin && !role.isAdmin && user.enabledAdmin then .checksRole user role
        else .writesRole user role
  | none => some (toDisabled body user)

/-- `UPDATE users … WHERE id = ?` -/
def updateRow (users : Table) (id : Nat) (change : UserRecord → UserRecord) : Table :=
  match users.lookup id with
  | some user => users.insert id (change user)
  | none => users

namespace State

def finish (state : State) (id : Nat) : State := { state with calls := state.calls.erase id }

def goOn (state : State) (id : Nat) (call : Call) (stage : Stage) : State :=
  { state with calls := state.calls.insert id { call with stage } }

/-- One statement, and the code up to the next one. -/
def execute (state : State) (id : Nat) (call : Call) : State :=
  match call.stage with
  | .reads =>
      match (state.users.lookup call.target).bind (toRole call.body) with
      | some stage => state.goOn id call stage
      | none => state.finish id
  | .checksRole user role =>
      if countEnabledAdmins state.users ≤ 1 then state.finish id
      else state.goOn id call (.writesRole user role)
  | .writesRole user role =>
      { state with users := updateRow state.users call.target ({ · with role }) }.goOn id call
        (toDisabled call.body { user with role })
  | .checksDisabled user =>
      if countEnabledAdmins state.users ≤ 1 then state.finish id
      else state.goOn id call (.writesDisabled user true)
  | .writesDisabled _ disabled =>
      { state with users := updateRow state.users call.target ({ · with disabled }) }.goOn id call
        (toEmail call.body)
  | .writesEmail email =>
      { state with users := updateRow state.users call.target ({ · with email }) }.goOn id call
        .answers
  | .answers => state.finish id

end State

def step (state : State) : Event → Option State
  | .request id actor target body =>
      if (state.calls.lookup id).isSome then none
      else if actor.isAdmin then
        some { state with calls := state.calls.insert id { target, body, stage := .reads } }
      else some state
  | .statement id ok =>
      (state.calls.lookup id).map fun call =>
        if ok then state.execute id call else state.finish id

/-- Some user is an administrator and not disabled. -/
def HasAdmin (state : State) : Prop :=
  ∃ id user, state.users.lookup id = some user ∧ user.enabledAdmin = true

/-- The check, asked again about a row as it is. -/
def StillNotLast (users : Table) (target : Nat) : Prop :=
  ∀ user ∈ users.lookup target, ensureNotLastEnabledAdmin users user = true

instance (users : Table) (target : Nat) : Decidable (StillNotLast users target) :=
  inferInstanceAs (Decidable (∀ user ∈ users.lookup target,
    ensureNotLastEnabledAdmin users user = true))

/-- A write that demotes or disables would pass the check once more. -/
def Rechecked (users : Table) (call : Call) : Prop :=
  match call.stage with
  | .writesRole _ role => role.isAdmin = false → StillNotLast users call.target
  | .writesDisabled _ disabled => disabled = true → StillNotLast users call.target
  | _ => True

def Kept (state : State) : Event → Prop
  | .statement id true => ∀ call ∈ state.calls.lookup id, Rechecked state.users call
  | _ => True

instance (users : Table) : ∀ call, Decidable (Rechecked users call)
  | ⟨target, _, .writesRole _ role⟩ =>
      inferInstanceAs (Decidable (role.isAdmin = false → StillNotLast users target))
  | ⟨target, _, .writesDisabled _ disabled⟩ =>
      inferInstanceAs (Decidable (disabled = true → StillNotLast users target))
  | ⟨_, _, .reads⟩ | ⟨_, _, .checksRole _ _⟩ | ⟨_, _, .checksDisabled _⟩
  | ⟨_, _, .writesEmail _⟩ | ⟨_, _, .answers⟩ => .isTrue trivial

instance : ∀ state event, Decidable (Kept state event)
  | state, .statement id true =>
      inferInstanceAs (Decidable (∀ call ∈ state.calls.lookup id, Rechecked state.users call))
  | _, .statement _ false | _, .request _ _ _ _ => .isTrue trivial

section Counting

variable {users : Table} {target : Nat}

theorem hasAdmin_iff (state : State) : HasAdmin state ↔ 0 < countEnabledAdmins state.users :=
  Tables.count_pos_iff.symm

theorem count_update {user : UserRecord} (hrow : users.lookup target = some user)
    (user' : UserRecord) :
    countEnabledAdmins (users.insert target user') + (if user.enabledAdmin then 1 else 0) =
      countEnabledAdmins users + if user'.enabledAdmin then 1 else 0 :=
  Tables.count_insert_over hrow

/-- After a change that leaves no administrator of the user, there is one exactly if the
check would have passed. -/
theorem update_iff (hsome : 0 < countEnabledAdmins users) {change : UserRecord → UserRecord}
    (hchange : ∀ user, (change user).enabledAdmin = false) :
    0 < countEnabledAdmins (updateRow users target change) ↔ StillNotLast users target := by
  rw [updateRow, StillNotLast]
  cases hrow : users.lookup target with
  | none => simpa using hsome
  | some user =>
      have hcount := count_update hrow (change user)
      rw [hchange user] at hcount
      simp only [Option.mem_def, Option.some.injEq, forall_eq', ensureNotLastEnabledAdmin]
      cases huser : user.enabledAdmin with
      | true =>
          rw [huser] at hcount
          simp only [if_true, Bool.false_eq_true, if_false, decide_eq_true_eq] at hcount ⊢
          omega
      | false =>
          rw [huser] at hcount
          simp only [Bool.false_eq_true, if_false, iff_true] at hcount ⊢
          omega

/-- A change that makes no administrator less of one. -/
theorem update_pos (hsome : 0 < countEnabledAdmins users) {change : UserRecord → UserRecord}
    (hchange : ∀ user, user.enabledAdmin = true → (change user).enabledAdmin = true) :
    0 < countEnabledAdmins (updateRow users target change) := by
  rw [updateRow]
  cases hrow : users.lookup target with
  | none => exact hsome
  | some user =>
      have hcount := count_update hrow (change user)
      dsimp only
      cases huser : user.enabledAdmin with
      | true =>
          rw [huser, hchange user huser] at hcount
          exact Nat.add_right_cancel hcount ▸ hsome
      | false =>
          rw [huser] at hcount
          simp only [Bool.false_eq_true, if_false] at hcount
          omega

end Counting

section Steps

variable {state next : State}

/-- A write leaves an administrator exactly if it passes the check once more. -/
theorem execute_iff (hadmin : HasAdmin state) (id : Nat) (call : Call) :
    HasAdmin (state.execute id call) ↔ Rechecked state.users call := by
  obtain ⟨target, body, stage⟩ := call
  have hsome := (hasAdmin_iff state).mp hadmin
  rw [State.execute]
  cases stage with
  | reads =>
      refine iff_of_true ?_ trivial
      dsimp only
      split <;> exact hadmin
  | checksRole user role =>
      refine iff_of_true ?_ trivial
      dsimp only
      split <;> exact hadmin
  | checksDisabled user =>
      refine iff_of_true ?_ trivial
      dsimp only
      split <;> exact hadmin
  | writesRole user role =>
      rw [hasAdmin_iff]
      cases hrole : role.isAdmin with
      | false =>
          refine (update_iff hsome fun user => ?_).trans ?_
          · simp [UserRecord.enabledAdmin, hrole]
          · simp [Rechecked, hrole]
      | true =>
          refine iff_of_true (update_pos hsome fun user huser => ?_) ?_
          · simp only [UserRecord.enabledAdmin, Bool.and_eq_true, hrole, true_and] at huser ⊢
            exact huser.2
          · simp [Rechecked, hrole]
  | writesDisabled user disabled =>
      rw [hasAdmin_iff]
      cases disabled with
      | true =>
          refine (update_iff hsome fun user => ?_).trans ?_
          · simp [UserRecord.enabledAdmin]
          · simp [Rechecked]
      | false =>
          refine iff_of_true (update_pos hsome fun user huser => ?_) ?_
          · simp only [UserRecord.enabledAdmin, Bool.and_eq_true] at huser ⊢
            exact ⟨huser.1, rfl⟩
          · simp [Rechecked]
  | writesEmail email =>
      rw [hasAdmin_iff]
      exact iff_of_true (update_pos hsome fun user huser => huser) trivial
  | answers => exact iff_of_true hadmin trivial

theorem step_iff {event : Event} (hadmin : HasAdmin state)
    (hnext : step state event = some next) : HasAdmin next ↔ Kept state event := by
  cases event with
  | request id actor target body =>
      refine iff_of_true ?_ trivial
      rw [step] at hnext
      split at hnext
      · cases hnext
      · split at hnext <;> cases hnext <;> exact hadmin
  | statement id ok =>
      rw [step] at hnext
      obtain ⟨call, hcall, rfl⟩ := Option.map_eq_some_iff.mp hnext
      cases ok with
      | false => exact iff_of_true hadmin trivial
      | true =>
          simp only [Kept, hcall, Option.mem_def, Option.some.injEq, forall_eq', if_true]
          exact execute_iff hadmin id call

/-- There is an administrator throughout a run exactly when each statement that demotes or
disables a user would pass the check of its request once more. -/
theorem always_an_admin_iff {start final : State} {events : List Event}
    (hadmin : HasAdmin start) (hrun : run step start events = some final) :
    Throughout step HasAdmin start events ↔ Guarded step Kept start events := by
  apply throughout_iff_guarded HasAdmin (fun _ => id) _ _ hadmin hrun
  · exact fun state event next hadmin hkept hnext => (step_iff hadmin hnext).mpr hkept
  · exact fun state event next hadmin hbreaks hnext => mt (step_iff hadmin hnext).mp hbreaks

end Steps

/-! ## One request at a time -/

section Serial

/-- The copy that a request has read is what the row holds, and what it has checked still
holds. -/
def Fresh (users : Table) (call : Call) : Prop :=
  match call.stage with
  | .checksRole user _ | .checksDisabled user => users.lookup call.target = some user
  | .writesRole user role => users.lookup call.target = some user ∧
      (role.isAdmin = false → ensureNotLastEnabledAdmin users user = true)
  | .writesDisabled user disabled => users.lookup call.target = some user ∧
      (disabled = true → ensureNotLastEnabledAdmin users user = true)
  | _ => True

/-- At most one request is served, and it is fresh. -/
structure Serial (state : State) : Prop where
  admin : HasAdmin state
  fresh : ∀ id call, state.calls.lookup id = some call → Fresh state.users call
  alone : ∀ id call id' call', state.calls.lookup id = some call →
    state.calls.lookup id' = some call' → id = id'

/-- A request is taken up when no other is served. -/
def Alone (state : State) : Event → Prop
  | .request _ _ _ _ => state.calls = ∅
  | .statement _ _ => True

variable {users : Table} {target : Nat} {body : UpdateUserReq} {user : UserRecord}

theorem ensure_of_not_enabledAdmin (huser : user.enabledAdmin = false) :
    ensureNotLastEnabledAdmin users user = true := by
  rw [ensureNotLastEnabledAdmin, huser]
  rfl

theorem toEmail_fresh : Fresh users ⟨target, body, toEmail body⟩ := by
  rw [toEmail]
  cases body.email <;> trivial

theorem toDisabled_fresh (hrow : users.lookup target = some user) :
    Fresh users ⟨target, body, toDisabled body user⟩ := by
  rw [toDisabled]
  cases body.disabled with
  | none => exact toEmail_fresh
  | some disabled =>
      dsimp only
      split
      · exact hrow
      · next hskips =>
          refine ⟨hrow, ?_⟩
          rintro rfl
          apply ensure_of_not_enabledAdmin
          rw [UserRecord.enabledAdmin] at hskips ⊢
          cases hdisabled : user.disabled <;> simp_all

theorem toRole_fresh (hrow : users.lookup target = some user) {stage : Stage}
    (hstage : toRole body user = some stage) : Fresh users ⟨target, body, stage⟩ := by
  rw [toRole] at hstage
  cases hrole : body.role with
  | none =>
      rw [hrole] at hstage
      cases hstage
      exact toDisabled_fresh hrow
  | some text =>
      rw [hrole] at hstage
      obtain ⟨role, -, rfl⟩ := Option.map_eq_some_iff.mp hstage
      split
      · exact hrow
      · next hskips =>
          refine ⟨hrow, fun hother => ensure_of_not_enabledAdmin ?_⟩
          rw [UserRecord.enabledAdmin] at hskips ⊢
          cases hadmin : user.role.isAdmin <;> simp_all

theorem Fresh.rechecked {call : Call} (hfresh : Fresh users call) : Rechecked users call := by
  obtain ⟨target, body, stage⟩ := call
  have hsame : ∀ {user}, users.lookup target = some user →
      ensureNotLastEnabledAdmin users user = true → StillNotLast users target := by
    intro user hrow hcheck other hother
    rw [hrow] at hother
    exact Option.some.inj hother ▸ hcheck
  cases stage with
  | writesRole user role => exact fun hother => hsame hfresh.1 (hfresh.2 hother)
  | writesDisabled user disabled => exact fun hdisables => hsame hfresh.1 (hfresh.2 hdisables)
  | _ => trivial

variable {state next : State}

theorem Serial.kept (hserial : Serial state) (event : Event) : Kept state event := by
  cases event with
  | request id actor target body => trivial
  | statement id ok =>
      cases ok with
      | false => trivial
      | true => exact fun call hcall => (hserial.fresh id call hcall).rechecked

/-- The only request goes on, with a table that it may have changed. -/
theorem Serial.goOn (hserial : Serial state) {id : Nat} {call call' : Call}
    (hcall : state.calls.lookup id = some call) {users : Table}
    (hadmin : HasAdmin ⟨users, state.calls⟩) (hfresh : Fresh users call') :
    Serial ⟨users, state.calls.insert id call'⟩ := by
  have honly : ∀ other call'', (state.calls.insert id call').lookup other = some call'' →
      other = id := by
    intro other call'' hother
    by_contra hne
    rw [AList.lookup_insert_ne hne] at hother
    exact hne (hserial.alone other call'' id call hother hcall)
  refine ⟨hadmin, ?_, ?_⟩
  · intro other call'' hother
    obtain rfl := honly other call'' hother
    rw [AList.lookup_insert] at hother
    exact Option.some.inj hother ▸ hfresh
  · intro one call'' other call''' hone hother
    exact (honly one call'' hone).trans (honly other call''' hother).symm

theorem Serial.finish (hserial : Serial state) (id : Nat) : Serial (state.finish id) := by
  have hkept : ∀ {other call}, (state.calls.erase id).lookup other = some call →
      state.calls.lookup other = some call := by
    intro other call hother
    by_cases hsame : other = id
    · rw [hsame, AList.lookup_erase] at hother
      cases hother
    · rwa [AList.lookup_erase_ne hsame] at hother
  exact ⟨hserial.admin, fun other call hother => hserial.fresh other call (hkept hother),
    fun one call other call' hone hother =>
      hserial.alone one call other call' (hkept hone) (hkept hother)⟩

theorem lookup_updateRow (hrow : users.lookup target = some user)
    (change : UserRecord → UserRecord) :
    (updateRow users target change).lookup target = some (change user) := by
  rw [updateRow, hrow]
  exact AList.lookup_insert users

theorem ensure_of_count (hcount : ¬ countEnabledAdmins users ≤ 1) (user : UserRecord) :
    ensureNotLastEnabledAdmin users user = true := by
  rw [ensureNotLastEnabledAdmin]
  split
  · exact decide_eq_true (Nat.lt_of_not_le hcount)
  · rfl

theorem Serial.execute (hserial : Serial state) {id : Nat} {call : Call}
    (hcall : state.calls.lookup id = some call) : Serial (state.execute id call) := by
  have hfresh := hserial.fresh id call hcall
  have hadmin := (execute_iff hserial.admin id call).mpr hfresh.rechecked
  obtain ⟨target, body, stage⟩ := call
  rw [State.execute] at hadmin ⊢
  cases stage with
  | reads =>
      dsimp only at hadmin ⊢
      split
      · next stage hstage =>
          obtain ⟨user, hrow, hrole⟩ := Option.bind_eq_some_iff.mp hstage
          exact hserial.goOn hcall hserial.admin (toRole_fresh hrow hrole)
      · exact hserial.finish id
  | checksRole user role =>
      dsimp only at hadmin ⊢
      split
      · exact hserial.finish id
      · next hcount =>
          exact hserial.goOn hcall hserial.admin ⟨hfresh, fun _ => ensure_of_count hcount user⟩
  | checksDisabled user =>
      dsimp only at hadmin ⊢
      split
      · exact hserial.finish id
      · next hcount =>
          exact hserial.goOn hcall hserial.admin ⟨hfresh, fun _ => ensure_of_count hcount user⟩
  | writesRole user role =>
      exact hserial.goOn hcall hadmin (toDisabled_fresh (lookup_updateRow hfresh.1 _))
  | writesDisabled user disabled => exact hserial.goOn hcall hadmin toEmail_fresh
  | writesEmail email => exact hserial.goOn hcall hadmin trivial
  | answers => exact hserial.finish id

theorem Serial.step (hserial : Serial state) {event : Event} (halone : Alone state event)
    (hnext : step state event = some next) : Serial next := by
  cases event with
  | request id actor target body =>
      rw [Users.step] at hnext
      split at hnext
      · cases hnext
      · split at hnext
        · cases hnext
          have hnone : state.calls = ∅ := halone
          have honly : ∀ {other call}, (state.calls.insert id ⟨target, body, .reads⟩).lookup
              other = some call → other = id ∧ call.stage = .reads := by
            intro other call hother
            by_cases hsame : other = id
            · rw [hsame, AList.lookup_insert] at hother
              exact ⟨hsame, Option.some.inj hother ▸ rfl⟩
            · rw [AList.lookup_insert_ne hsame, hnone] at hother
              cases hother
          refine ⟨hserial.admin, fun other call hother => ?_, fun one call other call' h h' => ?_⟩
          · rw [Fresh, (honly hother).2]
            trivial
          · exact (honly h).1.trans (honly h').1.symm
        · cases hnext
          exact hserial
  | statement id ok =>
      rw [Users.step] at hnext
      obtain ⟨call, hcall, rfl⟩ := Option.map_eq_some_iff.mp hnext
      cases ok with
      | false => exact hserial.finish id
      | true => exact hserial.execute hcall

/-- While requests are served one at a time, the check keeps an administrator. -/
theorem one_at_a_time {users : Table} (hadmin : HasAdmin ⟨users, ∅⟩) {events : List Event}
    (halone : Guarded step Alone ⟨users, ∅⟩ events) :
    Throughout step HasAdmin ⟨users, ∅⟩ events := by
  have hserial : Serial ⟨users, ∅⟩ := ⟨hadmin, by simp, by simp⟩
  exact throughout_of_guarded (fun _ hserial => hserial.admin)
    (fun _ _ _ hserial halone hnext => hserial.step halone hnext) hserial halone

end Serial

section Lab

def labAdmin : UserRecord := { role := .admin, disabled := false, email := none }

/-- Two administrators. -/
def labUsers : Table := (AList.insert 1 labAdmin ∅).insert 2 labAdmin

/-- `disabled: true` -/
def disables : UpdateUserReq := { role := none, disabled := some true, email := none }

/-- Each disables the other; the second request comes after the first. -/
def labInTurn : List Event :=
  [.request 10 .admin 2 disables, .statement 10 true, .statement 10 true, .statement 10 true,
    .statement 10 true, .request 20 .admin 1 disables, .statement 20 true, .statement 20 true]

/-- Both count before either writes. -/
def labAtOnce : List Event :=
  [.request 10 .admin 2 disables, .request 20 .admin 1 disables, .statement 10 true,
    .statement 20 true, .statement 10 true, .statement 20 true, .statement 10 true,
    .statement 20 true]

theorem labUsers_hasAdmin : HasAdmin ⟨labUsers, ∅⟩ := ⟨2, labAdmin, rfl, rfl⟩

theorem always_an_admin_in_turn : Throughout step HasAdmin ⟨labUsers, ∅⟩ labInTurn :=
  (always_an_admin_iff labUsers_hasAdmin rfl).mpr (by decide +kernel)

/-- Both requests pass the check, and both users are disabled. -/
theorem no_admin_left :
    ¬ ∀ (users : Table) (events : List Event), HasAdmin ⟨users, ∅⟩ →
      Throughout step HasAdmin ⟨users, ∅⟩ events := by
  intro hclaim
  have hends : (run step ⟨labUsers, ∅⟩ labAtOnce).isSome = true := by decide +kernel
  have hnone : ∀ final ∈ run step ⟨labUsers, ∅⟩ labAtOnce,
      countEnabledAdmins final.users = 0 := by decide +kernel
  obtain ⟨final, hfinal⟩ := Option.isSome_iff_exists.mp hends
  have hadmin := (hclaim labUsers labAtOnce labUsers_hasAdmin).last hfinal
  rw [hasAdmin_iff, hnone final hfinal] at hadmin
  exact absurd hadmin (Nat.lt_irrefl 0)

end Lab

end PertiskKos.Users
