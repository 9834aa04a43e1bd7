import PertiskKos.Mgmt.NodeRows

/-!
# Removed control planes and etcd's member list

The removal of a control plane is allowed by a counter of node rows.  The member list of
etcd grows when a control plane joins and is never made shorter, so it also counts those
that are gone.
-/

namespace PertiskKos.Quorum

open Strings Nodes Runs

/-- An entry of the member list, with the machine that runs under it. -/
structure Member where
  machine : Nat
  name : Text
  peerUrl : Text
  deriving DecidableEq, Repr

structure State where
  row : ClusterRow
  /-- The control planes that have a row. -/
  rows : List Nat
  /-- The machines that exist. -/
  machines : List Nat
  members : List Member
  nextMachine : Nat
  deriving DecidableEq, Repr

/-- How far the addition of a control plane comes once its counter is written. -/
inductive Addition where
  | unrecorded
  | unmade
  | unjoined
  /-- The machine has joined the member list. -/
  | joined (peerUrl : Text)
  deriving DecidableEq, Repr

/-- How far a removal comes that its guard lets pass. -/
inductive Removal where
  | uncounted
  | counted (destroyed rowDeleted : Bool)
  deriving DecidableEq, Repr

/-- A URL that is in the list is not added again: the machine there is a new one. -/
def etcdMemberAdd (members : List Member) (member : Member) : List Member :=
  if members.any fun other => other.peerUrl = member.peerUrl then
    members.map fun other => if other.peerUrl = member.peerUrl then member else other
  else members ++ [member]

/-- The first entry of the given name gets the URL. -/
def syncThisMemberPeerUrl (name peerUrl : Text) : List Member → List Member
  | [] => []
  | member :: members =>
      if member.name = name then { member with peerUrl } :: members
      else member :: syncThisMemberPeerUrl name peerUrl members

namespace State

def addNode (state : State) (addition : Addition) : State :=
  let chosen := Nodes.State.choose state.row .controlplane state.row
  let machine := state.nextMachine
  let counted := { state with row := chosen.1, nextMachine := machine + 1 }
  match addition with
  | .unrecorded => counted
  | .unmade => { counted with rows := state.rows ++ [machine] }
  | .unjoined =>
      { counted with
        rows := state.rows ++ [machine]
        machines := state.machines ++ [machine] }
  | .joined peerUrl =>
      { counted with
        rows := state.rows ++ [machine]
        machines := state.machines ++ [machine]
        members := etcdMemberAdd state.members ⟨machine, chosen.2.1, peerUrl⟩ }

def removeOneNode (state : State) (machine : Nat) (removal : Removal) : State :=
  match removal with
  | .uncounted => state
  | .counted destroyed rowDeleted =>
      { state with
        row := Nodes.State.uncount .controlplane state.row
        rows := if rowDeleted then state.rows.filter (· ≠ machine) else state.rows
        machines :=
          if destroyed then state.machines.filter (· ≠ machine) else state.machines }

/-- The entries whose machine still exists. -/
def live (state : State) : Nat :=
  state.members.countP fun member => member.machine ∈ state.machines

end State

inductive Event where
  | adds (addition : Addition)
  | removes (machine : Nat) (removal : Removal)
  | syncs (name peerUrl : Text)
  deriving DecidableEq

/-- The steps that jobs make for one node each.  A removal needs the row of a control
plane, and has to pass the guard. -/
def step (state : State) : Event → Option State
  | .adds addition => some (state.addNode addition)
  | .removes machine removal =>
      if machine ∈ state.rows ∧ Nodes.State.removable .controlplane state.row then
        some (state.removeOneNode machine removal)
      else none
  | .syncs name peerUrl =>
      some { state with members := syncThisMemberPeerUrl name peerUrl state.members }

/-- Of the member list, less than half is gone when the removed machine is. -/
def Kept (state : State) : Event → Prop
  | .removes machine (.counted true _) =>
      2 * state.members.countP (fun member =>
        member.machine ∉ state.machines ∨ member.machine = machine) < state.members.length
  | _ => True

instance : ∀ state event, Decidable (Kept state event)
  | state, .removes machine (.counted true _) => inferInstanceAs
      (Decidable (2 * state.members.countP (fun member =>
        member.machine ∉ state.machines ∨ member.machine = machine) <
          state.members.length))
  | _, .removes _ (.counted false _) | _, .removes _ .uncounted | _, .adds _
  | _, .syncs _ _ => isTrue trivial

section Members

variable {members : List Member} {machines : List Nat}

end Members

section Steps

variable {state next : State}

end Steps

end PertiskKos.Quorum
