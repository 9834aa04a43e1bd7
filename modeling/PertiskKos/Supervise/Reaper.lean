import Mathlib
import PertiskKos.Library.Runs

/-!
# The process table of PID 1

The supervisor reaps every child that has exited, whoever started it.  A child that was
started through a handle is also waited for through it, and the handle signals its child by
number.  A number is used again once its process has been reaped, so a handle whose child was
reaped by someone else knows neither the exit status nor whom it signals.
-/

namespace PertiskKos.Supervise

open Runs

/-! ## The table -/

inductive Status where
  | exited (code : Nat)
  | signaled (signal : Nat)
  deriving DecidableEq, Repr

structure Process where
  /-- Which process it is; its number may have been used before. -/
  serial : Nat
  /-- Whether PID 1 is its parent. -/
  child : Bool
  /-- How it ended, if it is a zombie. -/
  exit : Option Status
  deriving DecidableEq, Repr

/-- `std::process::Child`: the number of the process and the status, once it is known. -/
structure Handle where
  pid : Nat
  /-- The process that was started. -/
  serial : Nat
  status : Option Status
  deriving DecidableEq, Repr

structure Kernel where
  procs : Nat → Option Process
  /-- The handles that are in use, in whichever thread. -/
  handles : Nat → Option Handle
  /-- The serial number of the next process. -/
  next : Nat
  /-- How each process ended. -/
  ended : Nat → Option Status
  /-- What the calls of `wait` and `try_wait` that found an end gave, with the process that
  was meant; `none` is ECHILD. -/
  answers : List (Nat × Option Status)
  /-- The signals that were delivered: the process that was meant and the one that got it. -/
  signals : List (Nat × Nat)

def boot : Kernel :=
  { procs := fun _ => none
    handles := fun _ => none
    next := 0
    ended := fun _ => none
    answers := []
    signals := [] }

/-- What `waitpid` on one process says. -/
inductive Waited where
  | stillAlive
  | reaped (status : Status)
  | noChild

def Kernel.waitpid (kernel : Kernel) (pid : Nat) : Waited :=
  match kernel.procs pid with
  | some ⟨_, true, none⟩ => .stillAlive
  | some ⟨_, true, some status⟩ => .reaped status
  | _ => .noChild

def Kernel.remove (kernel : Kernel) (pid : Nat) : Kernel :=
  { kernel with procs := Function.update kernel.procs pid none }

/-- A process gets a free number. -/
def Kernel.enter (kernel : Kernel) (pid : Nat) (child : Bool) : Kernel :=
  { kernel with
    procs := Function.update kernel.procs pid (some ⟨kernel.next, child, none⟩)
    next := kernel.next + 1 }

/-! ## Calls on a handle -/

/-- `Child::try_wait`. -/
def Kernel.tryWait (kernel : Kernel) (name : Nat) (handle : Handle) : Kernel :=
  match handle.status with
  | some status => { kernel with answers := (handle.serial, some status) :: kernel.answers }
  | none =>
      match kernel.waitpid handle.pid with
      | .stillAlive => kernel
      | .reaped status =>
          { kernel.remove handle.pid with
            handles := Function.update kernel.handles name
              (some { handle with status := some status })
            answers := (handle.serial, some status) :: kernel.answers }
      | .noChild => { kernel with answers := (handle.serial, none) :: kernel.answers }

/-- `Child::kill`: no signal is sent once the status is known. -/
def Kernel.kill (kernel : Kernel) (handle : Handle) : Kernel :=
  match handle.status, kernel.procs handle.pid with
  | none, some process =>
      { kernel with signals := (handle.serial, process.serial) :: kernel.signals }
  | _, _ => kernel

inductive Op where
  /-- `Command::spawn`, also the one inside `status` and `output`. -/
  | spawn (name pid : Nat)
  /-- A process that was started by none of these calls. -/
  | appear (pid : Nat) (child : Bool)
  /-- A process whose parent has gone is given to PID 1. -/
  | adopt (pid : Nat)
  | exit (pid : Nat) (status : Status)
  /-- Another parent waits for its child. -/
  | collect (pid : Nat)
  /-- One turn of the loop of `reap_zombies`: `waitpid(-1)` takes this child. -/
  | reap (pid : Nat)
  /-- `is_alive`, and `wait` as often as it looks. -/
  | tryWait (name : Nat)
  /-- The first half of `stop`. -/
  | kill (name : Nat)
  /-- The owner is done with its handle. -/
  | drop (name : Nat)
  deriving DecidableEq, Repr

/-- One step.  A call that is not possible, or has to wait, changes nothing. -/
def act (kernel : Kernel) : Op → Kernel
  | .spawn name pid =>
      if kernel.procs pid = none ∧ kernel.handles name = none then
        { kernel.enter pid true with
          handles := Function.update kernel.handles name (some ⟨pid, kernel.next, none⟩) }
      else kernel
  | .appear pid child => if kernel.procs pid = none then kernel.enter pid child else kernel
  | .adopt pid =>
      match kernel.procs pid with
      | some process =>
          { kernel with
            procs := Function.update kernel.procs pid (some { process with child := true }) }
      | none => kernel
  | .exit pid status =>
      match kernel.procs pid with
      | some ⟨serial, child, none⟩ =>
          { kernel with
            procs := Function.update kernel.procs pid (some ⟨serial, child, some status⟩)
            ended := Function.update kernel.ended serial (some status) }
      | _ => kernel
  | .collect pid =>
      match kernel.procs pid with
      | some ⟨_, false, some _⟩ => kernel.remove pid
      | _ => kernel
  | .reap pid =>
      match kernel.waitpid pid with
      | .reaped _ => kernel.remove pid
      | _ => kernel
  | .tryWait name =>
      match kernel.handles name with
      | some handle => kernel.tryWait name handle
      | none => kernel
  | .kill name =>
      match kernel.handles name with
      | some handle => kernel.kill handle
      | none => kernel
  | .drop name => { kernel with handles := Function.update kernel.handles name none }

def step (kernel : Kernel) (op : Op) : Option Kernel := some (act kernel op)

/-! ## What is claimed -/

/-- Every call gave the status of its own child.  The child of an owner that has not learned
the status yet is still there to be waited for.  Every signal went to the sender's child. -/
structure Owned (kernel : Kernel) : Prop where
  answered : ∀ answer ∈ kernel.answers,
    ∃ status, answer.2 = some status ∧ kernel.ended answer.1 = some status
  waiting : ∀ name handle, kernel.handles name = some handle → handle.status = none →
    ∃ process, kernel.procs handle.pid = some process ∧ process.serial = handle.serial ∧
      process.child = true
  delivered : ∀ signal ∈ kernel.signals, signal.1 = signal.2

/-- The reaper takes no child whose owner has not learned the status. -/
def Meets (kernel : Kernel) : Op → Prop
  | .reap pid =>
      (∃ process, kernel.procs pid = some process ∧ process.child = true ∧
        process.exit ≠ none) →
      ∀ name handle, kernel.handles name = some handle → handle.pid = pid →
        handle.status ≠ none
  | _ => True

/-! ## The invariant -/

structure Inv (kernel : Kernel) : Prop where
  serials : ∀ pid process, kernel.procs pid = some process → process.serial < kernel.next
  history : ∀ pid process, kernel.procs pid = some process →
    kernel.ended process.serial = process.exit
  unique : ∀ pid pid' process process', kernel.procs pid = some process →
    kernel.procs pid' = some process' → process.serial = process'.serial → pid = pid'
  started : ∀ name handle, kernel.handles name = some handle → handle.serial < kernel.next
  single : ∀ name name' handle handle', kernel.handles name = some handle →
    kernel.handles name' = some handle' → handle.serial = handle'.serial → name = name'
  known : ∀ name handle status, kernel.handles name = some handle →
    handle.status = some status → kernel.ended handle.serial = some status
  future : ∀ serial, kernel.next ≤ serial → kernel.ended serial = none
  owned : Owned kernel

theorem inv_boot : Inv boot := by
  refine ⟨?_, ?_, ?_, ?_, ?_, ?_, fun _ _ => rfl, ?_, ?_, ?_⟩ <;>
    intros <;> simp_all [boot]

section Steps

variable {kernel : Kernel}

theorem waitpid_reaped {pid : Nat} {status : Status}
    (hwaited : kernel.waitpid pid = .reaped status) :
    ∃ serial, kernel.procs pid = some ⟨serial, true, some status⟩ := by
  rw [Kernel.waitpid] at hwaited
  split at hwaited
  · cases hwaited
  · next serial status' hprocs =>
      cases hwaited
      exact ⟨serial, hprocs⟩
  · cases hwaited

theorem inv_enter (hinv : Inv kernel) {pid : Nat} (hfree : kernel.procs pid = none)
    (child : Bool) : Inv (kernel.enter pid child) := by
  obtain ⟨hserials, hhistory, hunique, hstarted, hsingle, hknown, hfuture,
    hanswered, hwaiting, hdelivered⟩ := hinv
  refine ⟨?_, ?_, ?_, ?_, hsingle, hknown, ?_, hanswered, ?_, hdelivered⟩ <;>
    simp only [Kernel.enter] <;> grind [Function.update_apply]

theorem handles_cases {name other : Nat} {fresh handle : Handle}
    (hhandle : Function.update kernel.handles name (some fresh) other = some handle) :
    other = name ∧ handle = fresh ∨ other ≠ name ∧ kernel.handles other = some handle := by
  grind [Function.update_apply]

theorem inv_spawn (hinv : Inv kernel) {pid : Nat} (hfree : kernel.procs pid = none)
    (name : Nat) :
    Inv { kernel.enter pid true with
      handles := Function.update kernel.handles name (some ⟨pid, kernel.next, none⟩) } := by
  have holder : ∀ other handle, kernel.handles other = some handle →
      handle.serial < kernel.next := hinv.started
  have hentered := inv_enter hinv hfree true
  refine ⟨hentered.serials, hentered.history, hentered.unique, ?_, ?_, ?_, hentered.future,
    hinv.owned.answered, ?_, hinv.owned.delivered⟩
  · intro other handle hhandle
    rcases handles_cases hhandle with ⟨-, rfl⟩ | ⟨-, hold⟩
    · exact Nat.lt_succ_self _
    · exact hentered.started other handle hold
  · intro left right handle handle' hleft hright hserial
    rcases handles_cases hleft with ⟨rfl, rfl⟩ | ⟨-, holdLeft⟩ <;>
      rcases handles_cases hright with ⟨rfl, rfl⟩ | ⟨-, holdRight⟩
    · rfl
    · exact absurd hserial (holder right handle' holdRight).ne'
    · exact absurd hserial (holder left handle holdLeft).ne
    · exact hinv.single left right handle handle' holdLeft holdRight hserial
  · intro other handle status hhandle hstatus
    rcases handles_cases hhandle with ⟨-, rfl⟩ | ⟨-, hold⟩
    · cases hstatus
    · exact hinv.known other handle status hold hstatus
  · intro other handle hhandle hstatus
    rcases handles_cases hhandle with ⟨-, rfl⟩ | ⟨-, hold⟩
    · exact ⟨_, Function.update_self .., rfl, rfl⟩
    · exact hentered.owned.waiting other handle hold hstatus

theorem inv_adopt (hinv : Inv kernel) {pid : Nat} {process : Process}
    (hprocs : kernel.procs pid = some process) :
    Inv { kernel with
      procs := Function.update kernel.procs pid (some { process with child := true }) } := by
  obtain ⟨hserials, hhistory, hunique, hstarted, hsingle, hknown, hfuture,
    hanswered, hwaiting, hdelivered⟩ := hinv
  refine ⟨?_, ?_, ?_, hstarted, hsingle, hknown, hfuture, hanswered, ?_, hdelivered⟩ <;>
    grind [Function.update_apply]

/-- A process that ends was not known to have ended, so no answer was given for it. -/
theorem inv_exit (hinv : Inv kernel) {pid serial : Nat} {child : Bool}
    (hprocs : kernel.procs pid = some ⟨serial, child, none⟩) (status : Status) :
    Inv { kernel with
      procs := Function.update kernel.procs pid (some ⟨serial, child, some status⟩)
      ended := Function.update kernel.ended serial (some status) } := by
  have halive : kernel.ended serial = none := hinv.history pid _ hprocs
  obtain ⟨hserials, hhistory, hunique, hstarted, hsingle, hknown, hfuture,
    hanswered, hwaiting, hdelivered⟩ := hinv
  refine ⟨?_, ?_, ?_, hstarted, hsingle, ?_, ?_, ?_, ?_, hdelivered⟩ <;>
    grind [Function.update_apply]

/-- A number becomes free that no handle waits for. -/
theorem inv_remove (hinv : Inv kernel) {pid : Nat}
    (hfree : ∀ name handle, kernel.handles name = some handle → handle.pid = pid →
      handle.status ≠ none) : Inv (kernel.remove pid) := by
  obtain ⟨hserials, hhistory, hunique, hstarted, hsingle, hknown, hfuture,
    hanswered, hwaiting, hdelivered⟩ := hinv
  refine ⟨?_, ?_, ?_, hstarted, hsingle, hknown, hfuture, hanswered, ?_, hdelivered⟩ <;>
    simp only [Kernel.remove] <;> grind [Function.update_apply]

/-- The owner takes the status of its own child, and no other handle means that child. -/
theorem inv_tryWait (hinv : Inv kernel) {name : Nat} {handle : Handle}
    (hhandle : kernel.handles name = some handle) : Inv (kernel.tryWait name handle) := by
  have hown := hinv.owned.waiting name handle hhandle
  have hknownStatus := hinv.known name handle
  have hended := hinv.history handle.pid
  obtain ⟨hserials, hhistory, hunique, hstarted, hsingle, hknown, hfuture,
    hanswered, hwaiting, hdelivered⟩ := hinv
  rw [Kernel.tryWait]
  split
  · next status hstatus =>
      refine ⟨hserials, hhistory, hunique, hstarted, hsingle, hknown, hfuture, ?_, hwaiting,
        hdelivered⟩
      grind
  · next hstatus =>
      obtain ⟨process, hprocs, hserial, hchild⟩ := hown hstatus
      split
      · exact ⟨hserials, hhistory, hunique, hstarted, hsingle, hknown, hfuture, hanswered,
          hwaiting, hdelivered⟩
      · next status hwaited =>
          obtain ⟨serial, hzombie⟩ := waitpid_reaped hwaited
          refine ⟨?_, ?_, ?_, ?_, ?_, ?_, hfuture, ?_, ?_, hdelivered⟩ <;>
            simp only [Kernel.remove] <;> grind [Function.update_apply]
      · next hnoChild =>
          obtain ⟨serial, child, exit⟩ := process
          obtain rfl : child = true := hchild
          cases exit <;> simp [Kernel.waitpid, hprocs] at hnoChild

theorem inv_kill (hinv : Inv kernel) {name : Nat} {handle : Handle}
    (hhandle : kernel.handles name = some handle) : Inv (kernel.kill handle) := by
  have hown := hinv.owned.waiting name handle hhandle
  obtain ⟨hserials, hhistory, hunique, hstarted, hsingle, hknown, hfuture,
    hanswered, hwaiting, hdelivered⟩ := hinv
  rw [Kernel.kill]
  split
  · next process hstatus hprocs =>
      refine ⟨hserials, hhistory, hunique, hstarted, hsingle, hknown, hfuture, hanswered,
        hwaiting, ?_⟩
      grind
  · exact ⟨hserials, hhistory, hunique, hstarted, hsingle, hknown, hfuture, hanswered,
      hwaiting, hdelivered⟩

theorem inv_drop (hinv : Inv kernel) (name : Nat) :
    Inv { kernel with handles := Function.update kernel.handles name none } := by
  obtain ⟨hserials, hhistory, hunique, hstarted, hsingle, hknown, hfuture,
    hanswered, hwaiting, hdelivered⟩ := hinv
  refine ⟨hserials, hhistory, hunique, ?_, ?_, ?_, hfuture, hanswered, ?_, hdelivered⟩ <;>
    grind [Function.update_apply]

/-- A child that another parent has to wait for is not waited for through a handle. -/
theorem handle_of_foreign (hinv : Inv kernel) {pid serial : Nat} {exit : Option Status}
    (hprocs : kernel.procs pid = some ⟨serial, false, exit⟩) :
    ∀ name handle, kernel.handles name = some handle → handle.pid = pid →
      handle.status ≠ none := by
  rintro name handle hhandle rfl hstatus
  obtain ⟨process, hown, -, hchild⟩ := hinv.owned.waiting name handle hhandle hstatus
  rw [hprocs] at hown
  cases hown
  cases hchild

/-- A step that meets the condition keeps the invariant. -/
theorem inv_act {op : Op} (hinv : Inv kernel) (hmeets : Meets kernel op) :
    Inv (act kernel op) := by
  cases op with
  | spawn name pid =>
      simp only [act]
      split
      · next hfree => exact inv_spawn hinv hfree.1 name
      · exact hinv
  | appear pid child =>
      simp only [act]
      split
      · next hfree => exact inv_enter hinv hfree child
      · exact hinv
  | adopt pid =>
      simp only [act]
      split
      · next process hprocs => exact inv_adopt hinv hprocs
      · exact hinv
  | exit pid status =>
      simp only [act]
      split
      · next serial child hprocs => exact inv_exit hinv hprocs status
      · exact hinv
  | collect pid =>
      simp only [act]
      split
      · next serial status hprocs => exact inv_remove hinv (handle_of_foreign hinv hprocs)
      · exact hinv
  | reap pid =>
      simp only [act]
      split
      · next status hwaited =>
          obtain ⟨serial, hprocs⟩ := waitpid_reaped hwaited
          exact inv_remove hinv (hmeets ⟨_, hprocs, rfl, fun h => by cases h⟩)
      · exact hinv
  | tryWait name =>
      simp only [act]
      split
      · next handle hhandle => exact inv_tryWait hinv hhandle
      · exact hinv
  | kill name =>
      simp only [act]
      split
      · next handle hhandle => exact inv_kill hinv hhandle
      · exact hinv
  | drop name => exact inv_drop hinv name

/-- Once the reaper takes it, the child of a handle that has not learned the status is gone. -/
theorem not_owned_act {op : Op} (hmeets : ¬ Meets kernel op) : ¬ Owned (act kernel op) := by
  cases op with
  | reap pid =>
      rw [Meets] at hmeets
      push Not at hmeets
      obtain ⟨⟨⟨serial, child, exit⟩, hprocs, hchild, hexit⟩, name, handle, hhandle, hpid,
        hstatus⟩ := hmeets
      obtain rfl : child = true := hchild
      obtain ⟨status, rfl⟩ := Option.ne_none_iff_exists'.mp hexit
      have hact : act kernel (.reap pid) = kernel.remove pid := by
        simp only [act, Kernel.waitpid, hprocs]
      rw [hact]
      intro howned
      obtain ⟨process, hgone, -, -⟩ := howned.waiting name handle hhandle hstatus
      rw [Kernel.remove, hpid] at hgone
      simp at hgone
  | _ => exact absurd trivial hmeets

end Steps

/-! ## Runs -/

theorem step_total (kernel : Kernel) (op : Op) : ∃ next, step kernel op = some next := ⟨_, rfl⟩

/-- Exit statuses and signals reach their owner, in every interleaving of exits, calls and
reuse of numbers, exactly as long as the reaper takes no child that a handle still waits for. -/
theorem statuses_reach_owner_iff (ops : List Op) :
    Throughout step Owned boot ops ↔ Guarded step Meets boot ops := by
  obtain ⟨final, hrun⟩ := run_total step_total boot ops
  refine throughout_iff_guarded Inv (fun _ hinv => hinv.owned) ?_ ?_ inv_boot hrun
  · intro kernel op next hinv hmeets hstep
    exact Option.some.inj hstep ▸ inv_act hinv hmeets
  · intro kernel op next _ hmeets hstep
    exact Option.some.inj hstep ▸ not_owned_act hmeets

/-- `KubeletHandle::stop`. -/
def stop (name : Nat) : List Op := [.kill name, .tryWait name, .drop name]

/-- kubelet exits, the supervisor reaps it, its number goes to another process, and a reload
stops kubelet. -/
def reuseAndStop : List Op :=
  [.spawn 0 7, .exit 7 (.exited 1), .reap 7, .appear 7 true] ++ stop 0

theorem stop_kills_other : ¬ ∀ ops, Throughout step Owned boot ops := by
  intro hclaim
  obtain ⟨final, hrun⟩ := run_total step_total boot reuseAndStop
  have howned := (hclaim reuseAndStop).last hrun
  have hsignals : (run step boot reuseAndStop).map Kernel.signals = some [(0, 1)] := by
    decide +kernel
  rw [hrun, Option.map_some, Option.some.injEq] at hsignals
  have hsame := howned.delivered (0, 1) (hsignals ▸ List.mem_cons_self)
  cases hsame

end PertiskKos.Supervise
