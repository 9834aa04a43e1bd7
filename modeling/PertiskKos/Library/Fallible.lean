import Mathlib

/-!
# Programs over a store whose operations can fail

Every fallible operation carries a label, its site.  The environment decides for
each site whether the operation goes through, is refused before it does anything,
or is torn: abandoned half-way with whatever it has left behind.  A program that
stops early keeps the store as it is at that point; nothing is undone.

`Triple` is partial correctness with one postcondition for each way a program can
stop.  It quantifies over nothing but the store, so a statement about every
environment is a triple for every `faults`.
-/

namespace PertiskKos.Fallible

inductive Fault where
  | refused
  | torn
  deriving DecidableEq, Repr

abbrev Faults (Site : Type) := Site → Option Fault

abbrev Prog (Site Err Store A : Type) :=
  ReaderT (Faults Site) (EStateM Err Store) A

variable {Site Err Store A B : Type}

/-- The environment in which everything goes through. -/
def calm : Faults Site := fun _ => none

/-- The environment in which exactly one site goes wrong. -/
def only [DecidableEq Site] (site : Site) (fault : Fault) : Faults Site :=
  fun other => if other = site then some fault else none

/-- One fallible operation: `done` when it goes through, `torn` when it is
abandoned half-way. -/
def attempt (site : Site) (err : Err) (done torn : Store → Store) :
    Prog Site Err Store Unit := fun faults store =>
  match faults site with
  | none => .ok () (done store)
  | some .refused => .error err store
  | some .torn => .error err (torn store)

/-- A fallible operation that leaves the store alone, such as a read. -/
def guardSite (site : Site) (err : Err) : Prog Site Err Store Unit :=
  attempt site err id id

def inspect (read : Store → A) : Prog Site Err Store A :=
  fun _ store => .ok (read store) store

/-- An update that cannot fail. -/
def change (act : Store → Store) : Prog Site Err Store Unit :=
  fun _ store => .ok () (act store)

def stop (err : Err) : Prog Site Err Store A := fun _ store => .error err store

/-- Run a program only if `cond` holds. -/
def whenever (cond : Bool) (prog : Prog Site Err Store Unit) :
    Prog Site Err Store Unit :=
  if cond then prog else pure ()

@[simp]
theorem whenever_true (prog : Prog Site Err Store Unit) :
    whenever true prog = prog := rfl

@[simp]
theorem whenever_false (prog : Prog Site Err Store Unit) :
    whenever false prog = pure () := rfl

/-- Take over the result of a computation that touches nothing. -/
def ofExcept {Err' : Type} (convert : Err' → Err) :
    Except Err' A → Prog Site Err Store A
  | .ok value => pure value
  | .error err => stop (convert err)

/-- Convert the error of a called program, as `?` does through `From`. -/
def mapErr {Err' : Type} (convert : Err → Err') (prog : Prog Site Err Store A) :
    Prog Site Err' Store A := fun faults store =>
  match prog faults store with
  | .ok value after => .ok value after
  | .error err after => .error (convert err) after

/-- Run a program for its effect and drop its result, error included. -/
def ignore {Err' : Type} (prog : Prog Site Err Store A) :
    Prog Site Err' Store Unit := fun faults store =>
  match prog faults store with
  | .ok _ after => .ok () after
  | .error _ after => .ok () after

/-- Run a program and continue with its error as a value. -/
def outcome {Err' : Type} (prog : Prog Site Err Store A) :
    Prog Site Err' Store (Except Err A) := fun faults store =>
  match prog faults store with
  | .ok value after => .ok (.ok value) after
  | .error err after => .ok (.error err) after

/-- A file or directory.  `damaged` is what an abandoned write leaves: something
is there, but it is not what any complete write puts there. -/
inductive File (Content : Type) where
  | absent
  | holds (content : Content)
  | damaged
  deriving DecidableEq, Repr

def File.isPresent {Content : Type} : File Content → Bool
  | .absent => false
  | .holds _ => true
  | .damaged => true

/-- Write `content` to the file that `put` updates. -/
def write {Content : Type} (site : Site) (err : Err) (content : Content)
    (put : File Content → Store → Store) : Prog Site Err Store Unit :=
  attempt site err (put (.holds content)) (put .damaged)

/-- Copy a file.  A missing source is found out before the target is touched. -/
def copy {Content : Type} (site : Site) (missing err : Err)
    (source : File Content) (put : File Content → Store → Store) :
    Prog Site Err Store Unit :=
  match source with
  | .absent => stop missing
  | file => attempt site err (put file) (put .damaged)

/-- Read a file. -/
def read {Content : Type} (site : Site) (missing err : Err)
    (file : File Content) : Prog Site Err Store Content := fun faults store =>
  match faults site, file with
  | none, .holds content => .ok content store
  | none, .absent => .error missing store
  | _, _ => .error err store

/-- A request to a server, which answers with its new state or an error.  The server
may not be reached, or its answer may be lost after it has acted; the client sees
`lost` in both cases. -/
def request (site : Site) (lost : Err) (act : Store → Except Err Store) :
    Prog Site Err Store Unit := fun faults store =>
  match faults site, act store with
  | none, .ok after => .ok () after
  | none, .error err => .error err store
  | some .torn, .ok after => .error lost after
  | _, _ => .error lost store

/-- Partial correctness: started in `pre`, the program either returns in `post`
or stops with an error in `fail`. -/
def Triple (faults : Faults Site) (pre : Store → Prop)
    (prog : Prog Site Err Store A) (post : A → Store → Prop)
    (fail : Err → Store → Prop) : Prop :=
  ∀ store, pre store →
    match prog faults store with
    | .ok value after => post value after
    | .error err after => fail err after

section Evaluation

variable (faults : Faults Site) (store : Store)

@[simp]
theorem pure_apply (value : A) :
    (pure value : Prog Site Err Store A) faults store = .ok value store := rfl

@[simp]
theorem bind_apply (prog : Prog Site Err Store A)
    (next : A → Prog Site Err Store B) :
    (prog >>= next) faults store =
      match prog faults store with
      | .ok value after => next value faults after
      | .error err after => .error err after := by
  change EStateM.bind (prog faults) (fun value => next value faults) store = _
  unfold EStateM.bind
  cases prog faults store <;> rfl

@[simp]
theorem inspect_apply (read : Store → A) :
    (inspect read : Prog Site Err Store A) faults store =
      .ok (read store) store := rfl

@[simp]
theorem change_apply (act : Store → Store) :
    (change act : Prog Site Err Store Unit) faults store = .ok () (act store) := rfl

@[simp]
theorem stop_apply (err : Err) :
    (stop err : Prog Site Err Store A) faults store = .error err store := rfl

/-- An operation at an undisturbed site goes through. -/
theorem attempt_of_quiet {site : Site} (hquiet : faults site = none) (err : Err)
    (done torn : Store → Store) :
    attempt site err done torn faults store = .ok () (done store) := by
  simp only [attempt, hquiet]

theorem copy_of_quiet {Content : Type} {site : Site}
    (hquiet : faults site = none) (missing err : Err) {source : File Content}
    (hsource : source.isPresent = true) (put : File Content → Store → Store) :
    copy site missing err source put faults store = .ok () (put source store) := by
  cases source with
  | absent => simp [File.isPresent] at hsource
  | holds content => exact attempt_of_quiet faults store hquiet err _ _
  | damaged => exact attempt_of_quiet faults store hquiet err _ _

theorem guardSite_of_quiet {site : Site} (hquiet : faults site = none) (err : Err) :
    (guardSite site err : Prog Site Err Store Unit) faults store = .ok () store :=
  attempt_of_quiet faults store hquiet err id id

theorem guardSite_of_fault {site : Site} (hfault : faults site ≠ none) (err : Err) :
    (guardSite site err : Prog Site Err Store Unit) faults store = .error err store := by
  cases hsite : faults site with
  | none => exact absurd hsite hfault
  | some fault => cases fault <;> simp only [guardSite, attempt, hsite, id]

@[simp]
theorem outcome_apply {Err' : Type} (prog : Prog Site Err Store A) :
    (outcome prog : Prog Site Err' Store (Except Err A)) faults store =
      match prog faults store with
      | .ok value after => .ok (.ok value) after
      | .error err after => .ok (.error err) after := rfl

@[simp]
theorem ignore_apply {Err' : Type} (prog : Prog Site Err Store A) :
    (ignore prog : Prog Site Err' Store Unit) faults store =
      match prog faults store with
      | .ok _ after => .ok () after
      | .error _ after => .ok () after := rfl

@[simp]
theorem mapErr_apply {Err' : Type} (convert : Err → Err')
    (prog : Prog Site Err Store A) :
    (mapErr convert prog) faults store =
      match prog faults store with
      | .ok value after => .ok value after
      | .error err after => .error (convert err) after := rfl

end Evaluation

namespace Triple

variable {faults : Faults Site} {pre pre' : Store → Prop}
variable {post post' : A → Store → Prop} {fail fail' : Err → Store → Prop}
variable {prog : Prog Site Err Store A}

theorem of_ok (htriple : Triple faults pre prog post fail) {store after : Store}
    {value : A} (hpre : pre store) (hrun : prog faults store = .ok value after) :
    post value after := by
  simpa only [hrun] using htriple store hpre

theorem of_error (htriple : Triple faults pre prog post fail)
    {store after : Store} {err : Err} (hpre : pre store)
    (hrun : prog faults store = .error err after) : fail err after := by
  simpa only [hrun] using htriple store hpre

/-- Rule of consequence. -/
theorem weaken (htriple : Triple faults pre prog post fail)
    (hpre : ∀ store, pre' store → pre store)
    (hpost : ∀ value store, post value store → post' value store)
    (hfail : ∀ err store, fail err store → fail' err store) :
    Triple faults pre' prog post' fail' := by
  intro store hstore
  have hrun := htriple store (hpre store hstore)
  cases hresult : prog faults store with
  | ok value after =>
      simp only [hresult] at hrun
      exact hpost value after hrun
  | error err after =>
      simp only [hresult] at hrun
      exact hfail err after hrun

/-- A triple about what holds anyway. -/
theorem always (hpost : ∀ value store, post value store)
    (hfail : ∀ err store, fail err store) : Triple faults pre prog post fail := by
  intro store _
  cases prog faults store with
  | ok value after => exact hpost value after
  | error err after => exact hfail err after

theorem pure {value : A} (h : ∀ store, pre store → post value store) :
    Triple faults pre (Pure.pure value) post fail := h

theorem stop {err : Err} (h : ∀ store, pre store → fail err store) :
    Triple faults pre (Fallible.stop err) post fail := h

theorem ofExcept {Err' : Type} {convert : Err' → Err} {result : Except Err' A}
    (hok : ∀ value, result = .ok value → ∀ store, pre store → post value store)
    (herror : ∀ err, result = .error err →
      ∀ store, pre store → fail (convert err) store) :
    Triple faults pre (Fallible.ofExcept convert result) post fail := by
  cases hresult : result with
  | ok value => exact pure (hok value hresult)
  | error err => exact stop (herror err hresult)

theorem inspect {read : Store → A}
    (h : ∀ store, pre store → post (read store) store) :
    Triple faults pre (Fallible.inspect read) post fail := h

theorem change {act : Store → Store} {post : Unit → Store → Prop}
    (h : ∀ store, pre store → post () (act store)) :
    Triple faults pre (Fallible.change act) post fail := h

/-- Sequencing: what the first program establishes is the precondition of the
second, and both may stop early. -/
theorem bind {next : A → Prog Site Err Store B} {post : B → Store → Prop}
    (mid : A → Store → Prop)
    (hfirst : Triple faults pre prog mid fail)
    (hnext : ∀ value, Triple faults (mid value) (next value) post fail) :
    Triple faults pre (prog >>= next) post fail := by
  intro store hstore
  have hrun := hfirst store hstore
  rw [bind_apply]
  cases hresult : prog faults store with
  | ok value after =>
      simp only [hresult] at hrun
      exact hnext value after hrun
  | error err after => simpa only [hresult] using hrun

/-- Sequencing when the first program also establishes a fact about its result
that does not mention the store. -/
theorem bindFact {next : A → Prog Site Err Store B} {post : B → Store → Prop}
    (fact : A → Prop) (mid : Store → Prop)
    (hfirst : Triple faults pre prog
      (fun value store => fact value ∧ mid store) fail)
    (hnext : ∀ value, fact value → Triple faults mid (next value) post fail) :
    Triple faults pre (prog >>= next) post fail := by
  apply bind (fun value store => fact value ∧ mid store) hfirst
  intro value store hstore
  exact hnext value hstore.1 store hstore.2

/-- A fallible operation: its three outcomes, each with what the environment
said about its site. -/
theorem attempt {site : Site} {err : Err} {done torn : Store → Store}
    {post : Unit → Store → Prop}
    (hdone : faults site = none → ∀ store, pre store → post () (done store))
    (hrefused : faults site = some .refused →
      ∀ store, pre store → fail err store)
    (htorn : faults site = some .torn →
      ∀ store, pre store → fail err (torn store)) :
    Triple faults pre (Fallible.attempt site err done torn) post fail := by
  intro store hstore
  cases hsite : faults site with
  | none => simpa only [Fallible.attempt, hsite] using hdone hsite store hstore
  | some fault =>
      cases fault with
      | refused =>
          simpa only [Fallible.attempt, hsite] using hrefused hsite store hstore
      | torn => simpa only [Fallible.attempt, hsite] using htorn hsite store hstore

theorem guardSite {site : Site} {err : Err} {post : Unit → Store → Prop}
    (hdone : faults site = none → ∀ store, pre store → post () store)
    (hfail : faults site ≠ none → ∀ store, pre store → fail err store) :
    Triple faults pre (Fallible.guardSite site err) post fail := by
  apply attempt hdone
  · exact fun hsite => hfail (by simp [hsite])
  · exact fun hsite => hfail (by simp [hsite])

theorem write {Content : Type} {site : Site} {err : Err} {content : Content}
    {put : File Content → Store → Store} {post : Unit → Store → Prop}
    (hdone : faults site = none →
      ∀ store, pre store → post () (put (.holds content) store))
    (hrefused : faults site = some .refused →
      ∀ store, pre store → fail err store)
    (htorn : faults site = some .torn →
      ∀ store, pre store → fail err (put .damaged store)) :
    Triple faults pre (Fallible.write site err content put) post fail :=
  attempt hdone hrefused htorn

theorem copy {Content : Type} {site : Site} {missing err : Err}
    {source : File Content} {put : File Content → Store → Store}
    {post : Unit → Store → Prop}
    (hdone : faults site = none → source.isPresent = true →
      ∀ store, pre store → post () (put source store))
    (hmissing : source = .absent → ∀ store, pre store → fail missing store)
    (hrefused : ∀ store, pre store → fail err store)
    (htorn : ∀ store, pre store → fail err (put .damaged store)) :
    Triple faults pre (Fallible.copy site missing err source put) post fail := by
  cases source with
  | absent => exact stop (hmissing rfl)
  | holds content =>
      exact attempt (fun hquiet => hdone hquiet rfl) (fun _ => hrefused)
        (fun _ => htorn)
  | damaged =>
      exact attempt (fun hquiet => hdone hquiet rfl) (fun _ => hrefused)
        (fun _ => htorn)

theorem read {Content : Type} {site : Site} {missing err : Err}
    {file : File Content} {post : Content → Store → Prop}
    (hdone : ∀ content, faults site = none → file = .holds content →
      ∀ store, pre store → post content store)
    (hfail : ∀ err store, pre store → fail err store) :
    Triple faults pre (Fallible.read site missing err file) post fail := by
  intro store hstore
  unfold Fallible.read
  cases hsite : faults site <;> cases hfile : file <;>
    first
    | exact hfail _ store hstore
    | exact hdone _ hsite hfile store hstore

/-- A request: answered, rejected, not received, or received without an answer. -/
theorem request {site : Site} {lost : Err} {act : Store → Except Err Store}
    {post : Unit → Store → Prop}
    (hdone : ∀ store after, pre store → act store = .ok after → post () after)
    (hrejected : ∀ store err, pre store → act store = .error err → fail err store)
    (hlost : ∀ store, pre store → fail lost store)
    (htorn : ∀ store after, pre store → act store = .ok after → fail lost after) :
    Triple faults pre (Fallible.request site lost act) post fail := by
  intro store hstore
  unfold Fallible.request
  cases hsite : faults site with
  | none =>
      cases hact : act store with
      | ok after => exact hdone store after hstore hact
      | error err => exact hrejected store err hstore hact
  | some fault =>
      cases fault with
      | refused => exact hlost store hstore
      | torn =>
          cases hact : act store with
          | ok after => exact htorn store after hstore hact
          | error err => exact hlost store hstore

theorem mapErr {Err' : Type} {convert : Err → Err'} {fail : Err' → Store → Prop}
    (htriple : Triple faults pre prog post
      (fun err store => fail (convert err) store)) :
    Triple faults pre (Fallible.mapErr convert prog) post fail := by
  intro store hstore
  have hrun := htriple store hstore
  unfold Fallible.mapErr
  cases hresult : prog faults store <;>
    simpa only [hresult] using hrun

theorem ignore {Err' : Type} {post : Unit → Store → Prop}
    {fail : Err' → Store → Prop}
    (htriple : Triple faults pre prog (fun _ store => post () store)
      (fun _ store => post () store)) :
    Triple faults pre (Fallible.ignore prog) post fail := by
  intro store hstore
  have hrun := htriple store hstore
  unfold Fallible.ignore
  cases hresult : prog faults store <;>
    simpa only [hresult] using hrun

theorem outcome {Err' : Type} {post : Except Err A → Store → Prop}
    {fail : Err' → Store → Prop}
    (htriple : Triple faults pre prog (fun value store => post (.ok value) store)
      (fun err store => post (.error err) store)) :
    Triple faults pre (Fallible.outcome prog) post fail := by
  intro store hstore
  have hrun := htriple store hstore
  unfold Fallible.outcome
  cases hresult : prog faults store <;>
    simpa only [hresult] using hrun

/-- The strongest triple: the program stops as it does. -/
theorem exact (faults : Faults Site) (prog : Prog Site Err Store A)
    (before : Store) :
    Triple faults (· = before) prog
      (fun value after => prog faults before = .ok value after)
      (fun err after => prog faults before = .error err after) := by
  intro store hstore
  rw [hstore]
  cases prog faults before <;> rfl

/-- Two triples about one program hold together. -/
theorem both {other : A → Store → Prop}
    (hleft : Triple faults pre prog post fail)
    (hright : Triple faults pre' prog other fail') :
    Triple faults (fun store => pre store ∧ pre' store) prog
      (fun value store => post value store ∧ other value store)
      (fun err store => fail err store ∧ fail' err store) := by
  intro store hstore
  have hfirst := hleft store hstore.1
  have hsecond := hright store hstore.2
  cases hresult : prog faults store <;>
    simp only [hresult] at hfirst hsecond ⊢ <;>
    exact ⟨hfirst, hsecond⟩

/-- A program always stops somewhere. -/
theorem elim (htriple : Triple faults pre prog (fun _ _ => False) fun _ _ => False)
    {store : Store} (hstore : pre store) : False := by
  have hrun := htriple store hstore
  cases hresult : prog faults store <;> simp only [hresult] at hrun

end Triple

/-- The program keeps `inv`, wherever it stops. -/
def Keeps (faults : Faults Site) (inv : Store → Prop) (prog : Prog Site Err Store A) :
    Prop :=
  Triple faults inv prog (fun _ => inv) (fun _ => inv)

namespace Keeps

variable {faults : Faults Site} {inv : Store → Prop}
variable {prog : Prog Site Err Store A}

theorem pure (value : A) :
    Keeps faults inv (Pure.pure value : Prog Site Err Store A) :=
  Triple.pure fun _ h => h

theorem stop (err : Err) :
    Keeps faults inv (Fallible.stop err : Prog Site Err Store A) :=
  Triple.stop fun _ h => h

theorem guardSite (site : Site) (err : Err) :
    Keeps faults inv (Fallible.guardSite site err) :=
  Triple.guardSite (fun _ _ h => h) fun _ _ h => h

theorem inspect (read : Store → A) :
    Keeps faults inv (Fallible.inspect read : Prog Site Err Store A) :=
  Triple.inspect fun _ h => h

theorem bind {next : A → Prog Site Err Store B} (hfirst : Keeps faults inv prog)
    (hnext : ∀ value, Keeps faults inv (next value)) :
    Keeps faults inv (prog >>= next) :=
  Triple.bind (fun _ => inv) hfirst hnext

theorem attempt {site : Site} {err : Err} {done torn : Store → Store}
    (hdone : ∀ store, inv store → inv (done store))
    (htorn : ∀ store, inv store → inv (torn store)) :
    Keeps faults inv (Fallible.attempt site err done torn) :=
  Triple.attempt (fun _ => hdone) (fun _ _ h => h) fun _ => htorn

theorem write {Content : Type} {site : Site} {err : Err} {content : Content}
    {put : File Content → Store → Store}
    (hput : ∀ file store, inv store → inv (put file store)) :
    Keeps faults inv (Fallible.write site err content put) :=
  attempt (hput _) (hput _)

theorem copy {Content : Type} {site : Site} {missing err : Err}
    {source : File Content} {put : File Content → Store → Store}
    (hput : ∀ file store, inv store → inv (put file store)) :
    Keeps faults inv (Fallible.copy site missing err source put) :=
  Triple.copy (fun _ _ => hput source) (fun _ _ h => h) (fun _ h => h) (hput _)

theorem ite {cond : Prop} [Decidable cond] {left right : Prog Site Err Store A}
    (hleft : Keeps faults inv left) (hright : Keeps faults inv right) :
    Keeps faults inv (if cond then left else right) := by
  by_cases hcond : cond
  · rwa [if_pos hcond]
  · rwa [if_neg hcond]

theorem whenever {cond : Bool} {prog : Prog Site Err Store Unit}
    (hprog : Keeps faults inv prog) :
    Keeps faults inv (Fallible.whenever cond prog) :=
  ite hprog (pure ())

/-- Loop rule for a program run over every element of a list. -/
theorem forM {Item : Type} {items : List Item}
    {body : Item → Prog Site Err Store PUnit}
    (hbody : ∀ item ∈ items, Keeps faults inv (body item)) :
    Keeps faults inv (items.forM body) := by
  induction items with
  | nil => exact pure _
  | cons item items ih =>
      apply bind (hbody item List.mem_cons_self)
      intro _
      exact ih fun other hother => hbody other (List.mem_cons_of_mem _ hother)

end Keeps

/-- The program goes through from every store. -/
def Succeeds (faults : Faults Site) (prog : Prog Site Err Store A) : Prop :=
  ∀ store, ∃ value after, prog faults store = .ok value after

namespace Succeeds

variable {faults : Faults Site} {prog : Prog Site Err Store A}

theorem pure (value : A) :
    Succeeds faults (Pure.pure value : Prog Site Err Store A) :=
  fun store => ⟨value, store, rfl⟩

theorem bind {next : A → Prog Site Err Store B} (hfirst : Succeeds faults prog)
    (hnext : ∀ value, Succeeds faults (next value)) :
    Succeeds faults (prog >>= next) := by
  intro store
  obtain ⟨value, middle, hprog⟩ := hfirst store
  rw [bind_apply, hprog]
  exact hnext value middle

theorem attempt {site : Site} (hquiet : faults site = none) (err : Err)
    (done torn : Store → Store) :
    Succeeds faults (Fallible.attempt site err done torn) :=
  fun store => ⟨(), done store, attempt_of_quiet faults store hquiet err done torn⟩

theorem guardSite {site : Site} (hquiet : faults site = none) (err : Err) :
    Succeeds faults (Fallible.guardSite site err : Prog Site Err Store Unit) :=
  attempt hquiet err id id

theorem write {Content : Type} {site : Site} (hquiet : faults site = none)
    (err : Err) (content : Content) (put : File Content → Store → Store) :
    Succeeds faults (Fallible.write site err content put) :=
  attempt hquiet err _ _

theorem copy {Content : Type} {site : Site} (hquiet : faults site = none)
    (missing err : Err) {source : File Content} (hsource : source.isPresent = true)
    (put : File Content → Store → Store) :
    Succeeds faults (Fallible.copy site missing err source put) :=
  fun store => ⟨(), put source store,
    copy_of_quiet faults store hquiet missing err hsource put⟩

theorem whenever {cond : Bool} {prog : Prog Site Err Store Unit}
    (hprog : cond = true → Succeeds faults prog) :
    Succeeds faults (Fallible.whenever cond prog) := by
  cases cond with
  | true => exact hprog rfl
  | false => exact pure ()

theorem forM {Item : Type} {items : List Item}
    {body : Item → Prog Site Err Store PUnit}
    (hbody : ∀ item ∈ items, Succeeds faults (body item)) :
    Succeeds faults (items.forM body) := by
  induction items with
  | nil => exact pure _
  | cons item items ih =>
      apply bind (hbody item List.mem_cons_self)
      intro _
      exact ih fun other hother => hbody other (List.mem_cons_of_mem _ hother)

/-- A program that goes through and keeps an invariant ends in it. -/
theorem ends {inv : Store → Prop} (hsucceeds : Succeeds faults prog)
    (hkeeps : Keeps faults inv prog) {store : Store} (hstore : inv store) :
    ∃ value after, prog faults store = .ok value after ∧ inv after := by
  obtain ⟨value, after, hrun⟩ := hsucceeds store
  exact ⟨value, after, hrun, Triple.of_ok hkeeps hstore hrun⟩

end Succeeds

end PertiskKos.Fallible
