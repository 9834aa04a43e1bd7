import Mathlib.Data.List.Basic
import PertiskKos.Library.Runs

/-!
# Waiting for a public IPv6 address

A dual-stack guest that has come up with a synthetic address is polled until a router has
given it a public one.  The polls become rarer and never stop on their own, and the kubelet is
restarted when the address is promoted.
-/

namespace PertiskKos.DualStack

open Runs

/-- `DualStackIpv6Outcome` -/
inductive Outcome where
  | disabled
  | noIpv4
  | ula
  | gua
  | guaPromoted
  deriving DecidableEq, Repr

/-- `DualStackV6Watch` -/
structure Watch where
  enabled : Bool
  awaitingGua : Bool
  attempts : Nat
  deriving DecidableEq, Repr

def Watch.new (dualStack : Bool) : Watch := ⟨dualStack, dualStack, 0⟩

def Watch.active (watch : Watch) : Bool := watch.enabled && watch.awaitingGua

def intervalSecs (attempts : Nat) : Nat :=
  if attempts < 12 then 5 else if attempts < 80 then 15 else 60

def Watch.nextIntervalSecs (watch : Watch) : Nat := intervalSecs watch.attempts

/-- The watch after an outcome, and whether the kubelet is restarted. -/
def Watch.onOutcome (watch : Watch) (outcome : Outcome) : Watch × Bool :=
  let watch := { watch with attempts := min (watch.attempts + 1) (2 ^ 32 - 1) }
  match outcome with
  | .guaPromoted => ({ watch with awaitingGua := false }, true)
  | .gua => ({ watch with awaitingGua := false }, false)
  | .ula => ({ watch with awaitingGua := true }, false)
  | .disabled => ({ watch with enabled := false, awaitingGua := false }, false)
  | .noIpv4 => (watch, false)

/-- A poll at some second; `none` is an error. -/
abbrev Poll := Nat × Option Outcome

/-- What the supervise loop has of the watch, with the polls since the configuration was
loaded, the latest first. -/
structure Polling where
  watch : Watch
  reconcileAt : Nat
  restarts : Nat
  dualStack : Bool
  polls : List Poll
  deriving DecidableEq, Repr

def Polling.start (dualStack : Bool) (now : Nat) : Polling where
  watch := .new dualStack
  reconcileAt := now
  restarts := 0
  dualStack := dualStack
  polls := []

inductive Event where
  /-- The loop comes by, and a reconciliation would answer this. -/
  | passes (now : Nat) (answer : Option Outcome)
  | loads (dualStack : Bool) (now : Nat)
  deriving DecidableEq, Repr

def Polling.poll (polling : Polling) (now : Nat) (answer : Option Outcome) : Polling :=
  let result := (answer.map polling.watch.onOutcome).getD (polling.watch, false)
  { polling with
    watch := result.1
    reconcileAt := now + result.1.nextIntervalSecs
    restarts := polling.restarts + result.2.toNat
    polls := (now, answer) :: polling.polls }

def step (polling : Polling) : Event → Option Polling
  | .passes now answer =>
      some (if polling.watch.active && polling.reconcileAt ≤ now then polling.poll now answer
        else polling)
  | .loads dualStack now => some (.start dualStack now)

/-! ## What the polls say -/

/-- The guest has a public address, or IPv6 is off. -/
def settles : Option Outcome → Bool
  | some .gua | some .guaPromoted | some .disabled => true
  | some .ula | some .noIpv4 | none => false

def answered (polls : List Poll) : Nat := polls.countP fun poll => poll.2.isSome

def promotions (polls : List Poll) : Nat := polls.countP fun poll => poll.2 = some .guaPromoted

/-- Each poll comes after the interval that goes with the answers so far. -/
def Spaced : List Poll → Prop
  | later :: earlier :: rest =>
      earlier.1 + intervalSecs (min (answered (earlier :: rest)) (2 ^ 32 - 1)) ≤ later.1 ∧
        Spaced (earlier :: rest)
  | _ => True

theorem answered_cons (poll : Poll) (polls : List Poll) :
    answered (poll :: polls) = answered polls + if poll.2.isSome then 1 else 0 :=
  List.countP_cons

structure Inv (polling : Polling) : Prop where
  attempts : polling.watch.attempts = min (answered polling.polls) (2 ^ 32 - 1)
  active : polling.watch.active = (polling.dualStack &&
    polling.polls.all fun poll => !settles poll.2)
  restarts : polling.restarts = promotions polling.polls
  earlier : ∀ poll ∈ polling.polls.tail, settles poll.2 = false
  spaced : Spaced polling.polls
  due : ∀ poll ∈ polling.polls.head?,
    polling.reconcileAt = poll.1 + polling.watch.nextIntervalSecs

variable {polling next : Polling}

theorem inv_start (dualStack : Bool) (now : Nat) : Inv (.start dualStack now) where
  attempts := rfl
  active := by cases dualStack <;> rfl
  restarts := rfl
  earlier poll hpoll := by cases hpoll
  spaced := trivial
  due poll hpoll := by cases hpoll

theorem attempts_poll (now : Nat) (answer : Option Outcome) :
    (polling.poll now answer).watch.attempts =
      if answer.isSome then min (polling.watch.attempts + 1) (2 ^ 32 - 1)
      else polling.watch.attempts := by
  cases answer with
  | none => rfl
  | some outcome => cases outcome <;> rfl

theorem active_poll (hactive : polling.watch.active = true) (now : Nat)
    (answer : Option Outcome) :
    (polling.poll now answer).watch.active = !settles answer := by
  simp only [Watch.active, Bool.and_eq_true] at hactive
  cases answer with
  | none => simp [Polling.poll, Watch.active, hactive, settles]
  | some outcome =>
      cases outcome <;> simp [Polling.poll, Watch.onOutcome, Watch.active, hactive, settles]

theorem restarts_poll (now : Nat) (answer : Option Outcome) :
    (polling.poll now answer).restarts =
      polling.restarts + if answer = some .guaPromoted then 1 else 0 := by
  cases answer with
  | none => rfl
  | some outcome => cases outcome <;> rfl

/-- A poll happens only while nothing has settled the watch, and when it is due. -/
theorem Inv.poll (hinv : Inv polling) {now : Nat} (hactive : polling.watch.active = true)
    (hdue : polling.reconcileAt ≤ now) (answer : Option Outcome) :
    Inv (polling.poll now answer) := by
  have hopen := hinv.active
  rw [hactive] at hopen
  obtain ⟨hdual, hunsettled⟩ := (Bool.and_eq_true _ _).mp hopen.symm
  have hall : ∀ poll ∈ polling.polls, settles poll.2 = false := by
    simpa using hunsettled
  refine ⟨?_, ?_, ?_, hall, ?_, ?_⟩
  · rw [attempts_poll, hinv.attempts]
    change _ = min (answered ((now, answer) :: polling.polls)) _
    rw [answered_cons]
    cases answer with
    | none => rfl
    | some outcome =>
        simp only [Option.isSome_some, if_true]
        omega
  · rw [active_poll hactive]
    change _ = (polling.dualStack && ((now, answer) :: polling.polls).all _)
    rw [hdual, List.all_cons, hunsettled]
    simp
  · rw [restarts_poll, hinv.restarts]
    change _ = promotions ((now, answer) :: polling.polls)
    rw [promotions, promotions, List.countP_cons]
    simp
  · change Spaced ((now, answer) :: polling.polls)
    cases hpolls : polling.polls with
    | nil => trivial
    | cons earlier rest =>
        refine ⟨?_, hpolls ▸ hinv.spaced⟩
        have hlast := hinv.due earlier (by rw [hpolls]; rfl)
        rw [Watch.nextIntervalSecs, hinv.attempts, hpolls] at hlast
        omega
  · intro poll hpoll
    cases Option.some.inj hpoll
    rfl

theorem Inv.step {event : Event} (hinv : Inv polling)
    (hstep : step polling event = some next) : Inv next := by
  cases event with
  | passes now answer =>
      cases hstep
      split
      · next hpolls =>
          simp only [Bool.and_eq_true, decide_eq_true_eq] at hpolls
          exact hinv.poll hpolls.1 hpolls.2 answer
      · exact hinv
  | loads dualStack now =>
      cases hstep
      exact inv_start dualStack now

end PertiskKos.DualStack
