import Mathlib.Data.List.Basic
import PertiskKos.Library.Runs
import PertiskKos.Library.Strings

/-!
# Configuration calls and the supervise loop

The Machine API writes the configuration and raises a flag; the supervise loop takes the flag
down and reads the file.  The calls run side by side with the loop and with each other, and a
file that is being written is truncated first.  The state that both share is changed under
its lock, one handler at a time.
-/

namespace PertiskKos.Reload

open Strings Runs

/-! ## The shared state -/

/-- `PowerAction` -/
inductive PowerAction where
  | none
  | reboot
  | shutdown
  deriving DecidableEq, Repr

/-- `NodeState`, with what the handlers and the loop change of it. -/
structure NodeState where
  containerd : Text
  kubelet : Text
  containerdPid : Nat
  kubeletPid : Nat
  power : PowerAction
  configReload : Bool
  kubeletReload : Bool
  stateMounted : Bool
  ready : Bool
  message : Text
  deriving DecidableEq, Repr

def NodeState.new : NodeState where
  containerd := "absent".toList
  kubelet := "absent".toList
  containerdPid := 0
  kubeletPid := 0
  power := .none
  configReload := false
  kubeletReload := false
  stateMounted := false
  ready := true
  message := "booting".toList

def NodeState.setRuntimeStatus (containerd kubelet : Text) (containerdPid kubeletPid : Nat)
    (shared : NodeState) : NodeState :=
  { shared with
    containerd := containerd
    kubelet := kubelet
    containerdPid := containerdPid
    kubeletPid := kubeletPid
    message := "containerd=".toList ++ containerd ++ " kubelet=".toList ++ kubelet
    ready := decide (shared.power = .none) }

/-- A handler that asks for a power action. -/
def NodeState.askPower (power : PowerAction) (message : Text) (shared : NodeState) : NodeState :=
  { shared with power := power, ready := false, message := message }

/-! ## The calls and the loop -/

/-- A call of `apply_configuration`, between its steps. -/
inductive ApplyCall where
  | asked (yaml : Text)
  | merged (text : Text)
  | opened (text : Text)
  | written
  deriving DecidableEq, Repr

/-- The file is not what it was, and the flag is not up yet. -/
def ApplyCall.midway : ApplyCall → Bool
  | .opened _ | .written => true
  | .asked _ | .merged _ => false

def ApplyCall.isOpened : ApplyCall → Bool
  | .opened _ => true
  | .asked _ | .merged _ | .written => false

inductive Loop where
  | polling
  | reloading
  | ended
  deriving DecidableEq, Repr

structure Node (Config : Type) where
  shared : NodeState
  file : Option Text
  calls : List ApplyCall
  loop : Loop
  config : Option Config
  deriving DecidableEq, Repr

inductive NodeEvent where
  -- the steps of a call
  | asks (yaml : Text)
  | merges (index : Nat)
  | opens (index : Nat)
  | writes (index : Nat)
  | fails (index : Nat)
  | flags (index : Nat)
  -- the other handlers, each in one step
  | reboots
  | shutsDown
  | upgraded (version : Text) (reboot : Bool)
  | bootstrapped (message : Text)
  | resets (reboot : Bool)
  -- the supervise loop
  | takes
  | reloads
  | takesKubelet
  | refreshes (containerd kubelet : Text) (containerdPid kubeletPid : Nat)
  | powers
  deriving DecidableEq, Repr

variable {Config : Type}

/-- What a write at the start of a file leaves of what was there. -/
def overwrite (text old : Text) : Text := text ++ old.drop text.length

section Step

-- what a text is parsed to, and what a patch over the text of the file is written as
variable (fromYaml : Text → Option Config) (merged : Text → Option Text → Option Text)

def stepCall (node : Node Config) (index : Nat) :
    NodeEvent → ApplyCall → Option (Node Config)
  | .merges _, .asked yaml =>
      match merged yaml node.file with
      | some text => some { node with calls := node.calls.set index (.merged text) }
      | none => some { node with calls := node.calls.eraseIdx index }
  | .opens _, .merged text =>
      some { node with file := some [], calls := node.calls.set index (.opened text) }
  | .writes _, .opened text =>
      some
        { node with
          file := some (overwrite text (node.file.getD []))
          calls := node.calls.set index .written }
  | .fails _, .merged _ | .fails _, .opened _ =>
      some { node with calls := node.calls.eraseIdx index }
  | .flags _, .written =>
      some
        { node with
          shared :=
            { node.shared with configReload := true, message := "configuration applied".toList }
          calls := node.calls.eraseIdx index }
  | _, _ => none

/-- A file that does not parse leaves the loop with the configuration it has. -/
def reload (node : Node Config) : Node Config :=
  { node with config := (node.file.bind fromYaml).or node.config, loop := .polling }

def step (node : Node Config) (event : NodeEvent) : Option (Node Config) :=
  match event with
  | .asks yaml =>
      if node.shared.stateMounted then
        some { node with calls := node.calls ++ [.asked yaml] }
      else none
  | .merges index | .opens index | .writes index | .fails index | .flags index =>
      (node.calls[index]?).bind (stepCall merged node index event)
  | .reboots =>
      some { node with shared := node.shared.askPower .reboot "reboot requested".toList }
  | .shutsDown =>
      some { node with shared := node.shared.askPower .shutdown "shutdown requested".toList }
  | .upgraded version reboot =>
      if reboot then
        some
          { node with
            shared := node.shared.askPower .reboot
              ("upgrade to ".toList ++ version ++ " staged; rebooting".toList) }
      else some node
  | .bootstrapped message =>
      some { node with shared := { node.shared with message := message, kubeletReload := true } }
  | .resets reboot =>
      if node.shared.stateMounted then
        some
          { node with
            file := none
            shared :=
              if reboot then
                node.shared.askPower .reboot "soft reset complete; reboot scheduled".toList
              else
                { node.shared with
                  ready := false
                  message := "soft reset complete (no reboot)".toList } }
      else none
  | .takes =>
      if node.loop = .polling then
        if node.shared.configReload then
          some
            { node with
              shared := { node.shared with configReload := false }
              loop := .reloading }
        else some node
      else none
  | .reloads => if node.loop = .reloading then some (reload fromYaml node) else none
  | .takesKubelet =>
      if node.loop = .polling then
        some { node with shared := { node.shared with kubeletReload := false } }
      else none
  | .refreshes containerd kubelet containerdPid kubeletPid =>
      if node.loop = .polling then
        some
          { node with
            shared := node.shared.setRuntimeStatus containerd kubelet containerdPid kubeletPid }
      else none
  | .powers =>
      if node.loop = .polling then
        some (if node.shared.power = .none then node else { node with loop := .ended })
      else none

end Step

/-! ## No call is lost -/

/-- What the file parses to is what the loop runs. -/
def Node.Loaded (fromYaml : Text → Option Config) (node : Node Config) : Prop :=
  ∀ config, node.file.bind fromYaml = some config → node.config = some config

/-- The flag is down, the loop is between its steps and no call is midway. -/
def Node.Quiet (node : Node Config) : Prop :=
  node.shared.configReload = false ∧ node.loop = .polling ∧
    ∀ call ∈ node.calls, call.midway = false

/-- The file is written to the end once it is open, and not removed. -/
def completes (node : Node Config) : NodeEvent → Bool
  | .fails index => (node.calls[index]?).all fun call => !call.isOpened
  | .resets _ => false
  | _ => true

/-- Somebody is still to notice that the file has changed. -/
inductive Node.Noticed (fromYaml : Text → Option Config) (node : Node Config) : Prop
  | flagged (hflag : node.shared.configReload = true)
  | reloading (hloop : node.loop = .reloading)
  | ended (hloop : node.loop = .ended)
  | midway {call : ApplyCall} (hcall : call ∈ node.calls) (hmidway : call.midway = true)
  | loaded (hloaded : node.Loaded fromYaml)

section Notice

variable {fromYaml : Text → Option Config} {merged : Text → Option Text → Option Text}
variable {node next : Node Config}

/-- The flag stays up, the loop stays where it is, and so do the calls that are midway. -/
theorem Node.Noticed.of_same (hnoticed : node.Noticed fromYaml)
    (hflag : node.shared.configReload = true → next.shared.configReload = true)
    (hloop : node.loop ≠ .polling → next.loop = node.loop)
    (hcalls : ∀ call ∈ node.calls, call.midway = true → call ∈ next.calls)
    (hfile : next.file = node.file) (hconfig : next.config = node.config) :
    next.Noticed fromYaml := by
  cases hnoticed with
  | flagged hup => exact .flagged (hflag hup)
  | reloading hother =>
      exact .reloading ((hloop (by rw [hother]; decide)).trans hother)
  | ended hother => exact .ended ((hloop (by rw [hother]; decide)).trans hother)
  | midway hcall hmidway => exact .midway (hcalls _ hcall hmidway) hmidway
  | loaded hloaded =>
      refine .loaded fun config hparse => ?_
      rw [hconfig]
      exact hloaded config (hfile ▸ hparse)

theorem mem_set_of_ne {calls : List ApplyCall} {index : Nat} {call old new : ApplyCall}
    (hold : calls[index]? = some old) (hcall : call ∈ calls) (hne : call ≠ old) :
    call ∈ calls.set index new := by
  obtain ⟨place, hplace⟩ := List.mem_iff_getElem?.mp hcall
  have hother : index ≠ place := by
    rintro rfl
    exact hne (Option.some.inj (hplace.symm.trans hold))
  exact List.mem_iff_getElem?.mpr ⟨place, by rw [List.getElem?_set_ne hother, hplace]⟩

theorem mem_eraseIdx_of_ne {calls : List ApplyCall} {index : Nat} {call old : ApplyCall}
    (hold : calls[index]? = some old) (hcall : call ∈ calls) (hne : call ≠ old) :
    call ∈ calls.eraseIdx index := by
  obtain ⟨place, hplace⟩ := List.mem_iff_getElem?.mp hcall
  refine List.mem_eraseIdx_iff_getElem?.mpr ⟨place, ?_, hplace⟩
  rintro rfl
  exact hne (Option.some.inj (hplace.symm.trans hold))

theorem mem_set_self {calls : List ApplyCall} {index : Nat} {old : ApplyCall}
    (hold : calls[index]? = some old) (new : ApplyCall) : new ∈ calls.set index new :=
  List.mem_iff_getElem?.mpr
    ⟨index, by
      obtain ⟨hlt, -⟩ := List.getElem?_eq_some_iff.mp hold
      exact List.getElem?_set_self hlt⟩

/-- What a step of a call can be. -/
inductive CallStep (merged : Text → Option Text → Option Text) (node : Node Config)
    (index : Nat) : NodeEvent → ApplyCall → Node Config → Prop
  | merges {place : Nat} {yaml text : Text} (hmerged : merged yaml node.file = some text) :
      CallStep merged node index (.merges place) (.asked yaml)
        { node with calls := node.calls.set index (.merged text) }
  | refuses {place : Nat} {yaml : Text} (hmerged : merged yaml node.file = none) :
      CallStep merged node index (.merges place) (.asked yaml)
        { node with calls := node.calls.eraseIdx index }
  | opens {place : Nat} {text : Text} :
      CallStep merged node index (.opens place) (.merged text)
        { node with file := some [], calls := node.calls.set index (.opened text) }
  | writes {place : Nat} {text : Text} :
      CallStep merged node index (.writes place) (.opened text)
        { node with
          file := some (overwrite text (node.file.getD []))
          calls := node.calls.set index .written }
  | stops {place : Nat} {text : Text} :
      CallStep merged node index (.fails place) (.merged text)
        { node with calls := node.calls.eraseIdx index }
  | breaks {place : Nat} {text : Text} :
      CallStep merged node index (.fails place) (.opened text)
        { node with calls := node.calls.eraseIdx index }
  | flags {place : Nat} :
      CallStep merged node index (.flags place) .written
        { node with
          shared :=
            { node.shared with configReload := true, message := "configuration applied".toList }
          calls := node.calls.eraseIdx index }

theorem stepCall_cases {index : Nat} {event : NodeEvent} {call : ApplyCall}
    (hstep : stepCall merged node index event call = some next) :
    CallStep merged node index event call next := by
  unfold stepCall at hstep
  split at hstep
  · split at hstep
    · next hmerged =>
        cases hstep
        exact .merges hmerged
    · next hmerged =>
        cases hstep
        exact .refuses hmerged
  · cases hstep
    exact .opens
  · cases hstep
    exact .writes
  · cases hstep
    exact .stops
  · cases hstep
    exact .breaks
  · cases hstep
    exact .flags
  · cases hstep

/-- A step of a call: what is midway stays midway, or the flag goes up. -/
theorem Node.Noticed.callStep {index : Nat} {event : NodeEvent} {call : ApplyCall}
    (hnoticed : node.Noticed fromYaml) (hcall : node.calls[index]? = some call)
    (hcompletes : ∀ place, event = .fails place → call.isOpened = false)
    (hstep : CallStep merged node index event call next) : next.Noticed fromYaml := by
  have hset : ∀ new : ApplyCall, call.midway = false → ∀ other ∈ node.calls,
      other.midway = true → other ∈ node.calls.set index new := by
    intro new hplain other hother hmidway
    refine mem_set_of_ne hcall hother ?_
    rintro rfl
    exact absurd (hplain.symm.trans hmidway) (by decide)
  have herase : call.midway = false → ∀ other ∈ node.calls,
      other.midway = true → other ∈ node.calls.eraseIdx index := by
    intro hplain other hother hmidway
    refine mem_eraseIdx_of_ne hcall hother ?_
    rintro rfl
    exact absurd (hplain.symm.trans hmidway) (by decide)
  cases hstep with
  | merges hmerged => exact hnoticed.of_same id (fun _ => rfl) (hset _ rfl) rfl rfl
  | refuses hmerged => exact hnoticed.of_same id (fun _ => rfl) (herase rfl) rfl rfl
  | opens => exact .midway (mem_set_self hcall _) rfl
  | writes => exact .midway (mem_set_self hcall .written) rfl
  | stops => exact hnoticed.of_same id (fun _ => rfl) (herase rfl) rfl rfl
  | breaks => exact absurd (hcompletes _ rfl) (by simp [ApplyCall.isOpened])
  | flags => exact .flagged rfl

/-- Step lemma: unless a file is left half written or removed, a change of it is noticed. -/
theorem Node.Noticed.step {event : NodeEvent} (hnoticed : node.Noticed fromYaml)
    (hcompletes : completes node event = true)
    (hstep : step fromYaml merged node event = some next) : next.Noticed fromYaml := by
  have hcalls : ∀ index, (∀ place, event = .fails place → place = index) →
      (node.calls[index]?).bind (stepCall merged node index event) = some next →
        next.Noticed fromYaml := by
    intro index hplace hbind
    obtain ⟨call, hcall, hnext⟩ := Option.bind_eq_some_iff.mp hbind
    refine hnoticed.callStep hcall (fun place hevent => ?_) (stepCall_cases hnext)
    obtain rfl := hplace place hevent
    rw [hevent] at hcompletes
    simpa [completes, hcall] using hcompletes
  cases event with
  | asks yaml =>
      obtain ⟨-, ⟨⟩⟩ := Option.ite_none_right_eq_some.mp hstep
      exact hnoticed.of_same id (fun _ => rfl)
        (fun call hcall _ => List.mem_append_left _ hcall) rfl rfl
  | merges index => exact hcalls index (by rintro place ⟨⟩) hstep
  | opens index => exact hcalls index (by rintro place ⟨⟩) hstep
  | writes index => exact hcalls index (by rintro place ⟨⟩) hstep
  | fails index => exact hcalls index (by rintro place ⟨⟩; rfl) hstep
  | flags index => exact hcalls index (by rintro place ⟨⟩) hstep
  | reboots | shutsDown | bootstrapped message =>
      cases hstep
      exact hnoticed.of_same id (fun _ => rfl) (fun _ hcall _ => hcall) rfl rfl
  | upgraded version reboot =>
      cases reboot <;> cases hstep
      · exact hnoticed
      · exact hnoticed.of_same id (fun _ => rfl) (fun _ hcall _ => hcall) rfl rfl
  | resets reboot => cases hcompletes
  | takes =>
      obtain ⟨hloop, hnext⟩ := Option.ite_none_right_eq_some.mp hstep
      by_cases hflag : node.shared.configReload = true
      · rw [if_pos hflag] at hnext
        cases hnext
        exact .reloading rfl
      · rw [if_neg hflag] at hnext
        cases hnext
        exact hnoticed
  | reloads =>
      obtain ⟨-, ⟨⟩⟩ := Option.ite_none_right_eq_some.mp hstep
      refine .loaded fun config hparse => ?_
      change (node.file.bind fromYaml).or node.config = some config
      rw [show node.file.bind fromYaml = some config from hparse]
      rfl
  | takesKubelet =>
      obtain ⟨-, ⟨⟩⟩ := Option.ite_none_right_eq_some.mp hstep
      exact hnoticed.of_same id (fun _ => rfl) (fun _ hcall _ => hcall) rfl rfl
  | refreshes containerd kubelet containerdPid kubeletPid =>
      obtain ⟨-, ⟨⟩⟩ := Option.ite_none_right_eq_some.mp hstep
      exact hnoticed.of_same id (fun _ => rfl) (fun _ hcall _ => hcall) rfl rfl
  | powers =>
      obtain ⟨-, ⟨⟩⟩ := Option.ite_none_right_eq_some.mp hstep
      by_cases hpower : node.shared.power = .none
      · rw [if_pos hpower]
        exact hnoticed
      · rw [if_neg hpower]
        exact .ended rfl

end Notice

section Lab

def labYaml (text : Text) : Option Nat := if text = [] then none else some text.length

end Lab

/-! ## Power actions -/

/-- How a step may change what is known about the power action. -/
structure Node.Evolves (node next : Node Config) : Prop where
  power : node.shared.power ≠ .none → next.shared.power ≠ .none
  ready : (node.shared.power ≠ .none → node.shared.ready = false) →
    next.shared.power ≠ .none → next.shared.ready = false
  ended : node.loop = .ended → next.loop = .ended ∧ next.config = node.config
  ends : next.loop = .ended → node.loop = .ended ∨ next.shared.power ≠ .none

section Power

variable {fromYaml : Text → Option Config} {merged : Text → Option Text → Option Text}
variable {node next : Node Config}

theorem Node.Evolves.of_same (hpower : next.shared.power = node.shared.power)
    (hready : next.shared.ready = node.shared.ready) (hloop : next.loop = node.loop)
    (hconfig : next.config = node.config) : node.Evolves next where
  power hasked := hpower ▸ hasked
  ready hnode hasked := hready ▸ hnode (hpower ▸ hasked)
  ended hended := ⟨hloop.trans hended, hconfig⟩
  ends hended := .inl (hloop ▸ hended)

theorem Node.Evolves.askPower {power : PowerAction} (hpower : power ≠ .none) (message : Text)
    (hshared : next.shared = node.shared.askPower power message)
    (hloop : next.loop = node.loop) (hconfig : next.config = node.config) :
    node.Evolves next where
  power _ := hshared ▸ hpower
  ready _ _ := by rw [hshared]; rfl
  ended hended := ⟨hloop.trans hended, hconfig⟩
  ends hended := .inl (hloop ▸ hended)

theorem CallStep.evolves {index : Nat} {event : NodeEvent} {call : ApplyCall}
    (hstep : CallStep merged node index event call next) : node.Evolves next := by
  cases hstep <;> exact .of_same rfl rfl rfl rfl

end Power

/-- A node that has been asked for a power action is not ready, and a loop that has ended has
been asked for one. -/
structure Node.Powered (node : Node Config) : Prop where
  ready : node.shared.power ≠ .none → node.shared.ready = false
  ended : node.loop = .ended → node.shared.power ≠ .none

theorem Node.Powered.evolves {node next : Node Config} (hpowered : node.Powered)
    (hevolves : node.Evolves next) : next.Powered where
  ready := hevolves.ready hpowered.ready
  ended hended := by
    rcases hevolves.ends hended with hold | hasked
    · exact hevolves.power (hpowered.ended hold)
    · exact hasked

/-- What has been accepted since the start of a run stands. -/
structure Node.Stands (start node : Node Config) : Prop where
  powered : node.Powered
  power : start.shared.power ≠ .none → node.shared.power ≠ .none
  ended : start.loop = .ended → node.loop = .ended ∧ node.config = start.config

theorem Node.Stands.evolves {start node next : Node Config} (hstands : start.Stands node)
    (hevolves : node.Evolves next) : start.Stands next where
  powered := hstands.powered.evolves hevolves
  power hasked := hevolves.power (hstands.power hasked)
  ended hended := by
    obtain ⟨hloop, hconfig⟩ := hstands.ended hended
    obtain ⟨hstays, hsame⟩ := hevolves.ended hloop
    exact ⟨hstays, hsame.trans hconfig⟩

end PertiskKos.Reload
