import PertiskKos.Net.Maintain

/-!
# The end of a lease

A lease is over when its time has passed or a server has refused it.  The loop takes an
address off the interface only to put another one on, so an address outlives its lease
whenever a lease comes to an end.
-/

namespace PertiskKos.Dhcp

open Ip Net Runs

def Grant.isOver (grant : Grant) (now : Nat) : Bool :=
  grant.refused ||
    match grant.ends with
    | some ends => ends ≤ now
    | none => false

namespace Client

/-- What was granted for an address is over at the given time. -/
def isOver (client : Client) (now : Nat) (ip : Ipv4Addr) : Bool :=
  match client.grants ip with
  | some grant => grant.isOver now
  | none => false

/-- The address on the interface. -/
def held (client : Client) : Option Ipv4Addr := client.address.map Prod.fst

end Client

/-- The lease of the address on the interface is not over. -/
def Sound (client : Client) : Prop :=
  ∀ ip ∈ client.held, client.isOver client.now ip = false

/-- Neither is the address of a finished lease on the interface, nor was a request sent
from it. -/
def Good (client : Client) : Prop :=
  Sound client ∧ ∀ ip ∈ client.request, client.isOver client.now ip = false

/-- The event does not bring the lease of the address on the interface to its end, and
puts no address of a finished lease there. -/
def Kept (client : Client) : Event → Prop
  | .tick ticks => ∀ ip ∈ client.held, client.isOver (client.now + ticks) ip = false
  | .acquireAck ack server =>
      ∀ lease ∈ leaseFromAck ack server client.now,
        client.held = some lease.ip → lease.leaseSecs ≠ 0
  | .keepAck ack =>
      ∀ lease ∈ leaseFromAck ack ack.siaddr client.now,
        client.held = some lease.ip → lease.leaseSecs ≠ 0
  | .keepNak => ∀ cur ∈ client.lease, client.held ≠ some cur.ip
  | .applies outcome _ =>
      match client.phase with
      | .applying lease _ =>
          outcome = .applied ∨ outcome = .unseen → client.isOver client.now lease.ip = false
      | _ => True
  | _ => True

instance : ∀ client event, Decidable (Kept client event)
  | client, .tick ticks => inferInstanceAs
      (Decidable (∀ ip ∈ client.held, client.isOver (client.now + ticks) ip = false))
  | client, .acquireAck ack server => inferInstanceAs
      (Decidable (∀ lease ∈ leaseFromAck ack server client.now,
        client.held = some lease.ip → lease.leaseSecs ≠ 0))
  | client, .keepAck ack => inferInstanceAs
      (Decidable (∀ lease ∈ leaseFromAck ack ack.siaddr client.now,
        client.held = some lease.ip → lease.leaseSecs ≠ 0))
  | client, .keepNak => inferInstanceAs
      (Decidable (∀ cur ∈ client.lease, client.held ≠ some cur.ip))
  | client, .applies outcome _ =>
      match hphase : client.phase with
      | .applying lease _ =>
          decidable_of_iff (outcome = .applied ∨ outcome = .unseen →
            client.isOver client.now lease.ip = false) (by rw [Kept, hphase])
      | .starting | .top | .acquired | .initReboot | .discover | .requesting _
      | .waiting _ | .sleeping _ | .dozing _ | .stopped =>
          isTrue (by rw [Kept, hphase]; trivial)
  | _, .stopRequested | _, .addressLost | _, .begins _ | _, .decides | _, .acquireFails
  | _, .sends | _, .sendFails | _, .noAnswer | _, .wakes _ => isTrue trivial

section Local

variable {client next : Client}

theorem good_goto (hsound : Sound client) (phase : Phase) (lease : Option Lease) :
    Good (client.goto phase lease) := by
  refine ⟨hsound, ?_⟩
  intro ip hip
  cases hip

/-- A step of the loop by itself. -/
def IsLocal (client next : Client) : Prop := ∃ phase lease, next = client.goto phase lease

theorem IsLocal.good (hlocal : IsLocal client next) (hsound : Sound client) : Good next := by
  obtain ⟨phase, lease, rfl⟩ := hlocal
  exact good_goto hsound phase lease

theorem keeps_local (client : Client) (cur : Lease) : IsLocal client (client.keeps cur) := by
  rw [Client.keeps]
  repeat' split
  all_goals exact ⟨_, _, rfl⟩

theorem acquiring_local (client : Client) : IsLocal client client.acquiring := by
  rw [Client.acquiring]
  repeat' split
  all_goals exact ⟨_, _, rfl⟩

theorem decides_local (client : Client) : IsLocal client client.decides := by
  rw [Client.decides]
  split
  · exact ⟨_, _, rfl⟩
  · cases client.lease with
    | none => exact acquiring_local client
    | some cur => exact keeps_local client cur

theorem acquireFails_local {phase : Phase} (hfails : client.acquireFails phase = some next) :
    IsLocal client next := by
  cases phase <;> simp only [Client.acquireFails, Option.some.injEq, reduceCtorEq] at hfails
  all_goals exact ⟨_, _, hfails.symm⟩

theorem keepFails_local (client : Client) (kind : Kind) (cur : Lease) :
    IsLocal client (client.keepFails kind cur) := by
  cases kind with
  | renew => exact ⟨_, _, rfl⟩
  | rebind =>
      simp only [Client.keepFails]
      split
      · exact ⟨_, _, rfl⟩
      · exact ⟨_, _, rfl⟩

theorem wakes_local {listed : Bool} (hwakes : client.wakes listed = some next) :
    IsLocal client next := by
  rw [Client.wakes] at hwakes
  repeat' split at hwakes
  all_goals cases hwakes
  all_goals exact ⟨_, _, rfl⟩

end Local

section Changes

variable {client : Client} {lease : Lease}

theorem ends_le_iff {now : Nat} (hacquired : lease.acquired = now) :
    Grant.isOver { ends := lease.ends, refused := false } now = true ↔
      lease.leaseSecs = 0 := by
  rw [Grant.isOver, Lease.ends, Lease.isInfinite, Lease.expireAt, hacquired]
  by_cases hinfinite : lease.leaseSecs = u32Max
  · simp [hinfinite, u32Max]
  · simp [hinfinite, second]

theorem over_grant_self (hacquired : lease.acquired = client.now) :
    (client.grant lease).isOver client.now lease.ip = true ↔ lease.leaseSecs = 0 := by
  have hgrant : (client.grant lease).grants lease.ip =
      some { ends := lease.ends, refused := false } := Function.update_self ..
  rw [← ends_le_iff hacquired, Client.isOver, hgrant]

theorem over_grant_other {ip : Ipv4Addr} (hip : ip ≠ lease.ip) (now : Nat) :
    (client.grant lease).isOver now ip = client.isOver now ip := by
  have hgrant : (client.grant lease).grants ip = client.grants ip :=
    Function.update_of_ne hip ..
  rw [Client.isOver, Client.isOver, hgrant]

/-- An acknowledgement can be read at every time and from every server, or never. -/
theorem leaseFromAck_cases (ack : Ack) :
    (∀ server now, leaseFromAck ack server now = none) ∨
    ∃ ip prefixLen, ∀ server now, leaseFromAck ack server now =
      some
        { ip, prefixLen
          server := ack.serverId.getD server
          routers := ack.routers
          dns := ack.dns
          leaseSecs := ack.leaseTime.getD 3600
          t1Secs := (leaseTimers (ack.leaseTime.getD 3600) ack).1
          t2Secs := (leaseTimers (ack.leaseTime.getD 3600) ack).2
          acquired := now } := by
  cases hmask : ack.subnetMask with
  | none =>
      by_cases hyiaddr : isUnspecified ack.yiaddr
      · by_cases hciaddr : isUnspecified ack.ciaddr
        · exact .inl fun _ _ => by simp [leaseFromAck, hyiaddr, hciaddr]
        · exact .inr ⟨ack.ciaddr, 24, fun _ _ => by
            simp [leaseFromAck, hyiaddr, hciaddr, hmask]⟩
      · exact .inr ⟨ack.yiaddr, 24, fun _ _ => by simp [leaseFromAck, hyiaddr, hmask]⟩
  | some mask =>
      cases hlength : maskToPrefix mask with
      | none => exact .inl fun _ _ => by simp [leaseFromAck, hmask, hlength]
      | some prefixLen =>
          by_cases hyiaddr : isUnspecified ack.yiaddr
          · by_cases hciaddr : isUnspecified ack.ciaddr
            · exact .inl fun _ _ => by simp [leaseFromAck, hyiaddr, hciaddr]
            · exact .inr ⟨ack.ciaddr, prefixLen, fun _ _ => by
                simp [leaseFromAck, hyiaddr, hciaddr, hmask, hlength]⟩
          · exact .inr ⟨ack.yiaddr, prefixLen, fun _ _ => by
              simp [leaseFromAck, hyiaddr, hmask, hlength]⟩

theorem acquired_of_ack {ack : Ack} {server : Ipv4Addr} {now : Nat}
    (hlease : leaseFromAck ack server now = some lease) : lease.acquired = now := by
  obtain hnone | ⟨ip, prefixLen, hsome⟩ := leaseFromAck_cases ack
  · rw [hnone] at hlease
    cases hlease
  · rw [hsome] at hlease
    cases hlease
    rfl

/-- A new grant leaves the address sound exactly when it is for another address or lasts
some time. -/
theorem sound_grant_iff (hacquired : lease.acquired = client.now) (hsound : Sound client) :
    Sound (client.grant lease) ↔
      (client.held = some lease.ip → lease.leaseSecs ≠ 0) := by
  constructor
  · intro hgranted hheld hzero
    have hover := hgranted lease.ip hheld
    rw [← Bool.not_eq_true] at hover
    exact hover ((over_grant_self hacquired).mpr hzero)
  · intro hlasts ip hip
    by_cases hsame : ip = lease.ip
    · subst hsame
      have hnot := mt (over_grant_self hacquired).mp (hlasts hip)
      exact Bool.not_eq_true _ |>.mp hnot
    · change (client.grant lease).isOver client.now ip = false
      rw [over_grant_other hsame]
      exact hsound ip hip

theorem over_refuse_self (client : Client) (now : Nat) (ip : Ipv4Addr) :
    (client.refuse ip).isOver now ip = true := by
  have hrefuse : (client.refuse ip).grants ip =
      some { ends := (client.grants ip).bind Grant.ends, refused := true } :=
    Function.update_self ..
  rw [Client.isOver, hrefuse]
  rfl

theorem over_refuse_other {ip other : Ipv4Addr} (hother : other ≠ ip) (now : Nat) :
    (client.refuse ip).isOver now other = client.isOver now other := by
  have hrefuse : (client.refuse ip).grants other = client.grants other :=
    Function.update_of_ne hother ..
  rw [Client.isOver, Client.isOver, hrefuse]

theorem sound_refuse_iff {ip : Ipv4Addr} (hsound : Sound client) :
    Sound (client.refuse ip) ↔ client.held ≠ some ip := by
  constructor
  · intro hrefused hheld
    have hover := hrefused ip hheld
    rw [over_refuse_self] at hover
    cases hover
  · intro hheld other hother
    have hne : other ≠ ip := fun hsame => hheld (hsame ▸ hother)
    change (client.refuse ip).isOver client.now other = false
    rw [over_refuse_other hne]
    exact hsound other hother

end Changes

section Steps

variable {client next : Client} {kind : Kind} {cur : Lease}

theorem Good.tick_iff (ticks : Nat) :
    Good { client with now := client.now + ticks, request := none } ↔
      Kept client (.tick ticks) := by
  constructor
  · exact fun hgood => hgood.1
  · intro hkept
    exact ⟨hkept, fun ip hip => by cases hip⟩

/-- Taking up an acknowledgement. -/
theorem acked_good_iff {ack : Ack} {server other : Ipv4Addr} {kind : Option Kind}
    {failed : Client} (hgood : Good client) (hfailed : Good failed) :
    Good (client.acked kind (leaseFromAck ack server client.now) failed) ↔
      ∀ lease ∈ leaseFromAck ack other client.now,
        client.held = some lease.ip → lease.leaseSecs ≠ 0 := by
  obtain hnone | ⟨ip, prefixLen, hsome⟩ := leaseFromAck_cases ack
  · rw [hnone, hnone]
    exact ⟨fun _ _ hmem => (Option.not_mem_none _ hmem).elim, fun _ => hfailed⟩
  · have hiff := sound_grant_iff (acquired_of_ack (hsome server client.now)) hgood.1
    rw [hsome server, hsome other, Client.acked]
    constructor
    · intro hnext lease hmem
      cases hmem
      exact hiff.mp hnext.1
    · intro hlasts
      have hkept := hlasts _ rfl
      exact good_goto (hiff.mpr hkept) _ _

theorem refused_good_iff (hgood : Good client) :
    Good ((client.refuse cur.ip).keepFails kind cur) ↔ client.held ≠ some cur.ip := by
  rw [← sound_refuse_iff hgood.1]
  constructor
  · intro hnext
    obtain ⟨phase, lease, hgoto⟩ := keepFails_local (client.refuse cur.ip) kind cur
    rw [hgoto] at hnext
    exact hnext.1
  · exact (keepFails_local (client.refuse cur.ip) kind cur).good

theorem sends_good (hgood : Good client) (hsends : client.sends kind cur = some next) :
    Good next := by
  rw [Client.sends] at hsends
  split at hsends
  · next hheld =>
      cases hsends
      refine ⟨hgood.1, ?_⟩
      intro ip hip
      cases hip
      exact hgood.1 cur.ip hheld
  · cases hsends

theorem begins_good (hgood : Good client) (listed : Bool) : Good (client.begins listed) := by
  rw [Client.begins]
  cases client.seeded with
  | some lease =>
      have hsound : Sound { client with seeded := none } := hgood.1
      exact good_goto hsound _ _
  | none =>
      cases client.address with
      | none => exact good_goto hgood.1 _ _
      | some address =>
          cases listed with
          | false => exact good_goto hgood.1 _ _
          | true =>
              have hsound : Sound
                  (client.grant (adoptedLease address.1 address.2 client.now)) :=
                (sound_grant_iff rfl hgood.1).mpr fun _ => by simp [adoptedLease]
              exact good_goto hsound _ _

/-- Putting a lease on the interface. -/
theorem applies_good_iff {lease : Lease} {kind : Option Kind} {outcome : ApplyOutcome}
    {persisted : Bool} (hgood : Good client) :
    Good (client.applies lease kind outcome persisted) ↔
      (outcome = .applied ∨ outcome = .unseen →
        client.isOver client.now lease.ip = false) := by
  have hnext : Good (client.applies lease kind outcome persisted) ↔
      ∀ ip ∈ (client.addressAfter lease outcome).map Prod.fst,
        client.isOver client.now ip = false :=
    ⟨fun h => h.1, fun h => ⟨h, fun ip hip => by cases hip⟩⟩
  rw [hnext]
  cases outcome with
  | applied => simp [Client.addressAfter]
  | unseen => simp [Client.addressAfter]
  | removed => simp [Client.addressAfter]
  | unchanged =>
      have hsame := hgood.1
      simp only [reduceCtorEq, or_self, false_implies, iff_true]
      exact hsame

/-- An event that can happen leaves the state good exactly when it keeps the lease. -/
theorem good_step_iff {event : Event} (hgood : Good client)
    (hstep : step client event = some next) : Good next ↔ Kept client event := by
  cases event with
  | tick ticks =>
      cases hstep
      exact Good.tick_iff ticks
  | stopRequested =>
      cases hstep
      exact iff_of_true ⟨hgood.1, fun ip hip => by cases hip⟩ trivial
  | addressLost =>
      cases hstep
      refine iff_of_true ⟨?_, ?_⟩ trivial <;> (intro ip hip; cases hip)
  | begins listed =>
      rw [step] at hstep
      split at hstep
      · cases hstep
        exact iff_of_true (begins_good hgood listed) trivial
      · cases hstep
  | decides =>
      rw [step] at hstep
      split at hstep
      · cases hstep
        exact iff_of_true ((decides_local client).good hgood.1) trivial
      · cases hstep
  | acquireAck ack server =>
      obtain ⟨failed, hfailed, hsome⟩ := Option.bind_eq_some_iff.mp hstep
      cases hsome
      exact acked_good_iff hgood ((acquireFails_local hfailed).good hgood.1)
  | acquireFails => exact iff_of_true ((acquireFails_local hstep).good hgood.1) trivial
  | sends =>
      rw [step] at hstep
      split at hstep
      · exact iff_of_true (sends_good hgood hstep) trivial
      · cases hstep
  | sendFails =>
      rw [step] at hstep
      split at hstep
      · next kind cur _ _ =>
          cases hstep
          exact iff_of_true ((keepFails_local client kind cur).good hgood.1) trivial
      · cases hstep
  | keepAck ack =>
      rw [step] at hstep
      split at hstep
      · next kind cur _ _ =>
          cases hstep
          exact acked_good_iff hgood ((keepFails_local client kind cur).good hgood.1)
      · cases hstep
  | keepNak =>
      rw [step] at hstep
      split at hstep
      · next kind cur _ hcur =>
          cases hstep
          rw [refused_good_iff hgood, Kept, hcur]
          simp
      · cases hstep
  | noAnswer =>
      rw [step] at hstep
      split at hstep
      · next kind cur _ _ =>
          cases hstep
          exact iff_of_true ((keepFails_local client kind cur).good hgood.1) trivial
      · cases hstep
  | applies outcome persisted =>
      rw [step] at hstep
      split at hstep
      · next lease kind hphase =>
          cases hstep
          rw [applies_good_iff hgood, Kept, hphase]
      · cases hstep
  | wakes listed => exact iff_of_true ((wakes_local hstep).good hgood.1) trivial

/-- In a run that starts with a lease that is not over, the address of a finished lease is
never on the interface and no request is sent from it, exactly when no step of the run
brings the lease of the address there to its end. -/
theorem lease_respected_iff {start final : Client} {events : List Event}
    (hstart : Good start) (hrun : run step start events = some final) :
    Throughout step Good start events ↔ Guarded step Kept start events := by
  apply throughout_iff_guarded Good (fun _ => id) _ _ hstart hrun
  · exact fun client event next hgood hkept hstep => (good_step_iff hgood hstep).mpr hkept
  · exact fun client event next hgood hbreaks hstep =>
      mt (good_step_iff hgood hstep).mp hbreaks

end Steps

/-- A lease of an hour that a server has just granted. -/
def bootLease : Lease where
  ip := ⟨10, 0, 0, 5⟩
  prefixLen := 24
  server := ⟨10, 0, 0, 1⟩
  routers := [⟨10, 0, 0, 1⟩]
  dns := []
  leaseSecs := 3600
  t1Secs := 1800
  t2Secs := 3150
  acquired := 0

def bootAck : Ack where
  yiaddr := ⟨10, 0, 0, 5⟩
  ciaddr := ⟨10, 0, 0, 5⟩
  siaddr := ⟨10, 0, 0, 1⟩
  subnetMask := some ⟨255, 255, 255, 0⟩
  serverId := some ⟨10, 0, 0, 1⟩
  routers := [⟨10, 0, 0, 1⟩]
  dns := []
  leaseTime := some 3600
  renewal := none
  rebinding := none

/-- The loop after the boot, with the lease on the interface. -/
def booted : Client :=
  .start 0 (some (⟨10, 0, 0, 5⟩, 24)) (some bootLease) none

/-- The loop up to its first renewal. -/
def renewing : List Event :=
  [.begins true, .decides, .tick (1800 * second), .wakes true, .decides, .sends]

theorem booted_good : Good booted := by
  refine ⟨?_, ?_⟩ <;> (intro ip hip; cases hip)
  decide

/-- A renewal that is answered in time. -/
theorem lease_renewed :
    Throughout step Good booted
      (renewing ++ [.keepAck bootAck, .applies .applied true, .decides]) :=
  (lease_respected_iff booted_good rfl).mpr (by decide)

/-- A renewal that the server refuses: the address stays. -/
theorem lease_outlived : ¬ Throughout step Good booted (renewing ++ [.keepNak]) := by
  intro hthroughout
  have hover := (hthroughout.last rfl).1 bootLease.ip rfl
  revert hover
  decide

end PertiskKos.Dhcp
