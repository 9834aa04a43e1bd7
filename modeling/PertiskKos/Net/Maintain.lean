import PertiskKos.Library.Runs
import PertiskKos.Net.Lease

/-!
# The loop that keeps a lease

The loop waits for the times of the lease, asks the server, applies what it grants and
starts over when the lease is over.  Servers, the clock and the interface can do anything
between two of its steps.
-/

namespace PertiskKos.Dhcp

open Ip Net

/-- How a lease is kept: from its server, or from any. -/
inductive Kind where
  | renew
  | rebind
  deriving DecidableEq, Repr

inductive Phase where
  | starting
  | top
  /-- A lease was just acquired. -/
  | acquired
  /-- The address of the saved lease is asked for. -/
  | initReboot
  | discover
  /-- An acknowledged lease is put on the interface; the loop had none, or keeps one. -/
  | applying (lease : Lease) (kind : Option Kind)
  | requesting (kind : Kind)
  /-- The request is out. -/
  | waiting (kind : Kind)
  | sleeping (wake : Nat)
  /-- The long sleep of an infinite lease. -/
  | dozing (wake : Nat)
  | stopped
  deriving DecidableEq

/-- What the client has been granted for an address. -/
structure Grant where
  ends : Option Nat
  refused : Bool
  deriving DecidableEq

structure Client where
  now : Nat
  /-- The address on the interface, with its prefix. -/
  address : Option (Ipv4Addr × Nat)
  lease : Option Lease
  phase : Phase
  stop : Bool
  /-- A lease that was acquired before the loop. -/
  seeded : Option Lease
  /-- The address in the saved lease. -/
  persisted : Option Ipv4Addr
  /-- The address that the last step has sent a request from. -/
  request : Option Ipv4Addr
  /-- The last grant of each address. -/
  grants : Ipv4Addr → Option Grant

/-- How putting a lease on the interface can end. -/
inductive ApplyOutcome where
  | applied
  /-- The old address is off, and the new one is not on. -/
  | removed
  /-- Nothing has changed. -/
  | unchanged
  /-- The address is on, and is not found there. -/
  | unseen
  deriving DecidableEq, Repr

inductive Event where
  | tick (ticks : Nat)
  | stopRequested
  | addressLost
  | begins (listed : Bool)
  | decides
  | acquireAck (ack : Ack) (server : Ipv4Addr)
  | acquireFails
  | sends
  | sendFails
  | keepAck (ack : Ack)
  | keepNak
  | noAnswer
  | applies (outcome : ApplyOutcome) (persisted : Bool)
  | wakes (listed : Bool)
  deriving DecidableEq

namespace Client

/-- A step inside the loop. -/
def goto (client : Client) (phase : Phase) (lease : Option Lease) : Client :=
  { client with phase, lease, request := none }

def grant (client : Client) (lease : Lease) : Client :=
  { client with
    grants := Function.update client.grants lease.ip
      (some { ends := lease.ends, refused := false }) }

/-- The server has refused the lease. -/
def refuse (client : Client) (ip : Ipv4Addr) : Client :=
  { client with
    grants := Function.update client.grants ip
      (some { ends := (client.grants ip).bind Grant.ends, refused := true }) }

/-- Before the loop: a lease that was just acquired, or one for the address that is
there. -/
def begins (client : Client) (listed : Bool) : Client :=
  match client.seeded with
  | some lease => { client with seeded := none }.goto .top (some lease)
  | none =>
      match client.address with
      | some (ip, prefixLen) =>
          if listed then
            (client.grant (adoptedLease ip prefixLen client.now)).goto .top
              (some (adoptedLease ip prefixLen client.now))
          else client.goto .top none
      | none => client.goto .top none

def acquiring (client : Client) : Client :=
  match client.persisted with
  | some ip =>
      if isUnspecified ip || isBroadcast ip then client.goto .discover none
      else client.goto .initReboot none
  | none => client.goto .discover none

/-- What a lease asks for at this time. -/
def keeps (client : Client) (cur : Lease) : Client :=
  if cur.isInfinite then client.goto (.dozing (client.now + 3600 * second)) (some cur)
  else if client.now < cur.renewAt then
    client.goto (.sleeping (client.now + min (cur.renewAt - client.now) (60 * second)))
      (some cur)
  else if client.now < cur.rebindAt then
    if isUnspecified cur.server || isBroadcast cur.server then
      client.goto (.sleeping (client.now + min (cur.rebindAt - client.now) (30 * second)))
        (some cur)
    else client.goto (.requesting .renew) (some cur)
  else if client.now < cur.expireAt then client.goto (.requesting .rebind) (some cur)
  else client.goto .top none

/-- The head of the loop. -/
def decides (client : Client) : Client :=
  if client.stop = true ∧ client.phase = .top then client.goto .stopped client.lease
  else
    match client.lease with
    | none => client.acquiring
    | some cur => client.keeps cur

/-- No lease could be acquired, in the given way. -/
def acquireFails (client : Client) : Phase → Option Client
  | .initReboot => some (client.goto .discover none)
  | .discover => some (client.goto (.sleeping (client.now + 15 * second)) none)
  | _ => none

/-- A lease could not be kept: sleep, and give it up if it is over. -/
def keepFails (client : Client) (kind : Kind) (cur : Lease) : Client :=
  match kind with
  | .renew =>
      client.goto (.sleeping (client.now + min (cur.rebindAt - client.now) (30 * second)))
        (some cur)
  | .rebind =>
      if cur.expireAt - client.now = 0 then client.goto .top none
      else
        client.goto (.sleeping (client.now + min (cur.expireAt - client.now) (15 * second)))
          (some cur)

/-- An acknowledgement is taken up, if it can be read. -/
def acked (client : Client) (kind : Option Kind) (lease : Option Lease) (failed : Client) :
    Client :=
  match lease with
  | some granted => (client.grant granted).goto (.applying granted kind) client.lease
  | none => failed

/-- The address on the interface after an attempt to apply a lease. -/
def addressAfter (client : Client) (lease : Lease) :
    ApplyOutcome → Option (Ipv4Addr × Nat)
  | .applied => some (lease.ip, lease.prefixLen)
  | .unseen => some (lease.ip, lease.prefixLen)
  | .removed => none
  | .unchanged => client.address

/-- Where the loop goes on after an attempt to apply a lease. -/
def afterApply (client : Client) (lease : Lease) (kind : Option Kind)
    (outcome : ApplyOutcome) : Phase × Option Lease :=
  match outcome, kind with
  | .applied, none => (.acquired, some lease)
  | .applied, some _ => (.top, some lease)
  | _, none => (.sleeping (client.now + 15 * second), none)
  | _, some _ => (.top, client.lease)

def applies (client : Client) (lease : Lease) (kind : Option Kind) (outcome : ApplyOutcome)
    (persisted : Bool) : Client :=
  let next := client.afterApply lease kind outcome
  { client with
    address := client.addressAfter lease outcome
    persisted :=
      if outcome = ApplyOutcome.applied ∧ persisted = true then some lease.ip
      else client.persisted
    }.goto next.1 next.2

/-- The loop is woken up, or told to stop. -/
def wakes (client : Client) (listed : Bool) : Option Client :=
  match client.phase with
  | .sleeping wake =>
      if wake ≤ client.now ∨ client.stop = true then some (client.goto .top client.lease)
      else none
  | .dozing wake =>
      if wake ≤ client.now ∨ client.stop = true then
        if listed ∧ client.address.isSome then some (client.goto .top client.lease)
        else some (client.goto .top none)
      else none
  | _ => none

/-- A request is sent from the address of the lease, which has to be there. -/
def sends (client : Client) (kind : Kind) (cur : Lease) : Option Client :=
  if client.address.map Prod.fst = some cur.ip then
    some { client.goto (.waiting kind) (some cur) with request := some cur.ip }
  else none

end Client

/-- One event, if it can happen. -/
def step (client : Client) : Event → Option Client
  | .tick ticks => some { client with now := client.now + ticks, request := none }
  | .stopRequested => some { client with stop := true, request := none }
  | .addressLost => some { client with address := none, request := none }
  | .begins listed => if client.phase = .starting then some (client.begins listed) else none
  | .decides =>
      if client.phase = .top ∨ client.phase = .acquired then some client.decides else none
  | .acquireAck ack server => do
      let failed ← client.acquireFails client.phase
      let server := if client.phase = .initReboot then ack.siaddr else server
      some (client.acked none (leaseFromAck ack server client.now) failed)
  | .acquireFails => client.acquireFails client.phase
  | .sends =>
      match client.phase, client.lease with
      | .requesting kind, some cur => client.sends kind cur
      | _, _ => none
  | .sendFails =>
      match client.phase, client.lease with
      | .requesting kind, some cur => some (client.keepFails kind cur)
      | _, _ => none
  | .keepAck ack =>
      match client.phase, client.lease with
      | .waiting kind, some cur =>
          some (client.acked (some kind) (leaseFromAck ack cur.server client.now)
            (client.keepFails kind cur))
      | _, _ => none
  | .keepNak =>
      match client.phase, client.lease with
      | .waiting kind, some cur => some ((client.refuse cur.ip).keepFails kind cur)
      | _, _ => none
  | .noAnswer =>
      match client.phase, client.lease with
      | .waiting kind, some cur => some (client.keepFails kind cur)
      | _, _ => none
  | .applies outcome persisted =>
      match client.phase with
      | .applying lease kind => some (client.applies lease kind outcome persisted)
      | _ => none
  | .wakes listed => client.wakes listed

/-- A loop that is about to start on an interface. -/
def Client.start (now : Nat) (address : Option (Ipv4Addr × Nat)) (seeded : Option Lease)
    (persisted : Option Ipv4Addr) : Client where
  now := now
  address := address
  lease := none
  phase := .starting
  stop := false
  seeded := seeded
  persisted := persisted
  request := none
  grants := fun ip =>
    seeded.bind fun lease =>
      if lease.ip = ip then some { ends := lease.ends, refused := false } else none

end PertiskKos.Dhcp
