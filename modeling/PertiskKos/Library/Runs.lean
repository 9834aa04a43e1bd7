import Mathlib

/-!
# Runs of a partial step function

A system is given by a step function that may refuse an operation.  A run is a
list of operations, none of them refused.  Two predicates speak about a whole
run: `Guarded` about the operations it issues, `Throughout` about the states it
passes.  The rules below lift what one step preserves to what a run preserves.
-/

namespace PertiskKos.Runs

variable {State Op : Type*}

/-- The state a run ends in; `none` as soon as one operation is refused. -/
def run (step : State → Op → Option State) : State → List Op → Option State
  | state, [] => some state
  | state, op :: ops =>
      match step state op with
      | some next => run step next ops
      | none => none

/-- Every operation meets `guard` in the state it is issued in. -/
def Guarded (step : State → Op → Option State) (guard : State → Op → Prop) :
    State → List Op → Prop
  | _, [] => True
  | state, op :: ops =>
      guard state op ∧
        match step state op with
        | some next => Guarded step guard next ops
        | none => True

/-- Every state of the run satisfies `good`, the first and the last included. -/
def Throughout (step : State → Op → Option State) (good : State → Prop) :
    State → List Op → Prop
  | state, [] => good state
  | state, op :: ops =>
      good state ∧
        match step state op with
        | some next => Throughout step good next ops
        | none => True

variable {step : State → Op → Option State} {guard : State → Op → Prop}
variable {good : State → Prop}

instance decidableGuarded [∀ state op, Decidable (guard state op)] :
    ∀ state ops, Decidable (Guarded step guard state ops)
  | _, [] => isTrue trivial
  | state, op :: ops =>
      match hnext : step state op with
      | some next =>
          have := decidableGuarded next ops
          decidable_of_iff (guard state op ∧ Guarded step guard next ops)
            (by simp only [Guarded, hnext])
      | none =>
          decidable_of_iff (guard state op) (by simp only [Guarded, hnext, and_true])

theorem run_of_step {state next : State} {op : Op} {ops : List Op}
    (hstep : step state op = some next) : run step state (op :: ops) = run step next ops := by
  change (match step state op with
    | some next => run step next ops
    | none => none) = _
  rw [hstep]

theorem run_of_refused {state : State} {op : Op} {ops : List Op}
    (hstep : step state op = none) : run step state (op :: ops) = none := by
  change (match step state op with
    | some next => run step next ops
    | none => none) = _
  rw [hstep]

theorem run_cons {state final : State} {op : Op} {ops : List Op}
    (hrun : run step state (op :: ops) = some final) :
    ∃ next, step state op = some next ∧ run step next ops = some final := by
  cases hstep : step state op with
  | none =>
      rw [run_of_refused hstep] at hrun
      cases hrun
  | some next => exact ⟨next, rfl, (run_of_step hstep).symm.trans hrun⟩

/-- No operation of a total step function is refused. -/
theorem run_total (htotal : ∀ state op, ∃ next, step state op = some next) (state : State)
    (ops : List Op) : ∃ final, run step state ops = some final := by
  induction ops generalizing state with
  | nil => exact ⟨state, rfl⟩
  | cons op ops ih =>
      obtain ⟨next, hnext⟩ := htotal state op
      obtain ⟨final, hfinal⟩ := ih next
      exact ⟨final, (run_of_step hnext).trans hfinal⟩

/-- Run rule: an invariant that every guarded step preserves holds wherever a
guarded run ends. -/
theorem inv_run {inv : State → Prop}
    (hstep : ∀ state op next, inv state → guard state op →
      step state op = some next → inv next)
    {state final : State} {ops : List Op} (hinv : inv state)
    (hguard : Guarded step guard state ops)
    (hrun : run step state ops = some final) : inv final := by
  induction ops generalizing state with
  | nil => exact Option.some.inj hrun ▸ hinv
  | cons op ops ih =>
      obtain ⟨next, hnext, hrest⟩ := run_cons hrun
      simp only [Guarded, hnext] at hguard
      exact ih (hstep state op next hinv hguard.1 hnext) hguard.2 hrest

/-- A run that meets the trivial guard is any run. -/
theorem guarded_true (state : State) (ops : List Op) :
    Guarded step (fun _ _ => True) state ops := by
  induction ops generalizing state with
  | nil => trivial
  | cons op ops ih =>
      refine ⟨trivial, ?_⟩
      cases step state op with
      | none => trivial
      | some next => exact ih next

/-- A guarded run stays inside whatever its invariant implies. -/
theorem throughout_of_guarded {inv : State → Prop}
    (hgood : ∀ state, inv state → good state)
    (hstep : ∀ state op next, inv state → guard state op →
      step state op = some next → inv next)
    {state : State} (hinv : inv state) {ops : List Op} (hguard : Guarded step guard state ops) :
    Throughout step good state ops := by
  induction ops generalizing state with
  | nil => exact hgood state hinv
  | cons op ops ih =>
      refine ⟨hgood state hinv, ?_⟩
      have hrest := hguard.2
      cases hnext : step state op with
      | none => trivial
      | some next =>
          simp only [hnext] at hrest
          exact ih (hstep state op next hinv hguard.1 hnext) hrest

/-- Every run stays inside whatever an invariant of all steps implies. -/
theorem throughout_of_inv {inv : State → Prop} (hgood : ∀ state, inv state → good state)
    (hstep : ∀ state op next, inv state → step state op = some next → inv next)
    {state : State} (hinv : inv state) (ops : List Op) :
    Throughout step good state ops := by
  have hany : ∀ state op next, inv state → True → step state op = some next →
      inv next := fun state op next hstate _ => hstep state op next hstate
  exact throughout_of_guarded hgood hany hinv (guarded_true state ops)

/-- Guards weaken pointwise along a run. -/
theorem Guarded.mono {other : State → Op → Prop}
    (himp : ∀ state op, guard state op → other state op)
    {state : State} {ops : List Op} (hguard : Guarded step guard state ops) :
    Guarded step other state ops := by
  induction ops generalizing state with
  | nil => trivial
  | cons op ops ih =>
      refine ⟨himp state op hguard.1, ?_⟩
      have hrest := hguard.2
      cases hnext : step state op with
      | none => trivial
      | some next =>
          simp only [hnext] at hrest
          exact ih hrest

/-- Two guards that agree under an invariant of all steps guard the same runs. -/
theorem guarded_iff_guarded {other : State → Op → Prop} (inv : State → Prop)
    (hagree : ∀ state op, inv state → (guard state op ↔ other state op))
    (hstep : ∀ state op next, inv state → step state op = some next → inv next)
    {state : State} (hinv : inv state) (ops : List Op) :
    Guarded step guard state ops ↔ Guarded step other state ops := by
  induction ops generalizing state with
  | nil => exact Iff.rfl
  | cons op ops ih =>
      simp only [Guarded, hagree state op hinv]
      apply and_congr_right
      intro _
      cases hnext : step state op with
      | none => exact Iff.rfl
      | some next => exact ih (hstep state op next hinv hnext)

/-- Exact run rule.  If the guarded steps keep an invariant that implies `good`,
and an unguarded step always ends outside `good`, then a run stays inside `good`
exactly when each of its operations is guarded. -/
theorem throughout_iff_guarded (inv : State → Prop)
    (hgood : ∀ state, inv state → good state)
    (hstep : ∀ state op next, inv state → guard state op →
      step state op = some next → inv next)
    (hbreak : ∀ state op next, inv state → ¬ guard state op →
      step state op = some next → ¬ good next)
    {state final : State} {ops : List Op} (hinv : inv state)
    (hrun : run step state ops = some final) :
    Throughout step good state ops ↔ Guarded step guard state ops := by
  induction ops generalizing state with
  | nil => exact ⟨fun _ => trivial, fun _ => hgood state hinv⟩
  | cons op ops ih =>
      obtain ⟨next, hnext, hrest⟩ := run_cons hrun
      simp only [Throughout, Guarded, hnext]
      by_cases hop : guard state op
      · rw [ih (hstep state op next hinv hop hnext) hrest]
        exact ⟨fun h => ⟨hop, h.2⟩, fun h => ⟨hgood state hinv, h.2⟩⟩
      · have hbad := hbreak state op next hinv hop hnext
        have hfirst : Throughout step good next ops → good next := by
          cases ops with
          | nil => exact id
          | cons _ _ => exact fun h => h.1
        exact ⟨fun h => absurd (hfirst h.2) hbad, fun h => absurd h.1 hop⟩

theorem Throughout.last {state final : State} {ops : List Op}
    (hthroughout : Throughout step good state ops)
    (hrun : run step state ops = some final) : good final := by
  induction ops generalizing state with
  | nil => exact Option.some.inj hrun ▸ hthroughout
  | cons op ops ih =>
      obtain ⟨next, hnext, hrest⟩ := run_cons hrun
      have htail := hthroughout.2
      simp only [hnext] at htail
      exact ih htail hrest

theorem Guarded.last {state middle : State} {ops : List Op} {op : Op}
    (hguard : Guarded step guard state (ops ++ [op]))
    (hrun : run step state ops = some middle) : guard middle op := by
  induction ops generalizing state with
  | nil => exact Option.some.inj hrun ▸ hguard.1
  | cons first ops ih =>
      obtain ⟨next, hnext, hrest⟩ := run_cons hrun
      have htail := hguard.2
      simp only [hnext] at htail
      exact ih htail hrest

end PertiskKos.Runs
