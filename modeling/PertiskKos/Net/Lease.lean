import PertiskKos.Net.Link

/-!
# DHCP leases

What a client makes of the acknowledgement of a server: the address, the network and the
times at which it asks again.
-/

namespace PertiskKos.Dhcp

open Ip Net

def u32Max : Nat := 2 ^ 32 - 1

/-- Ticks of the clock in a second. -/
def second : Nat := 1000000000

/-- The lease of an interface. -/
structure Lease where
  ip : Ipv4Addr
  prefixLen : Nat
  server : Ipv4Addr
  routers : List Ipv4Addr
  dns : List Ipv4Addr
  leaseSecs : Nat
  t1Secs : Nat
  t2Secs : Nat
  acquired : Nat
  deriving DecidableEq

def isBroadcast (ip : Ipv4Addr) : Bool := ip.octets = [255, 255, 255, 255]

namespace Lease

def isInfinite (lease : Lease) : Bool := lease.leaseSecs = u32Max

def renewAt (lease : Lease) : Nat := lease.acquired + lease.t1Secs * second

def rebindAt (lease : Lease) : Nat := lease.acquired + lease.t2Secs * second

/-- The end of a finite lease. -/
def expireAt (lease : Lease) : Nat := lease.acquired + lease.leaseSecs * second

def ends (lease : Lease) : Option Nat :=
  if lease.isInfinite then none else some lease.expireAt

end Lease

/-- An acknowledgement, with the options that the client reads. -/
structure Ack where
  yiaddr : Ipv4Addr
  ciaddr : Ipv4Addr
  siaddr : Ipv4Addr
  subnetMask : Option Ipv4Addr
  serverId : Option Ipv4Addr
  routers : List Ipv4Addr
  dns : List Ipv4Addr
  leaseTime : Option Nat
  renewal : Option Nat
  rebinding : Option Nat
  deriving DecidableEq

/-- The length of a mask whose ones all come first. -/
def maskToPrefix (mask : Ipv4Addr) : Option Nat :=
  (List.range 33).find? fun length => mask.toNat = 2 ^ 32 - 2 ^ (32 - length)

/-- The seconds until the lease is renewed, and until any server is asked. -/
def leaseTimers (leaseSecs : Nat) (ack : Ack) : Nat × Nat :=
  if leaseSecs = u32Max then (u32Max / 2, u32Max / 2 + u32Max / 4)
  else
    let half := max (leaseSecs / 2) 1
    let t1 :=
      match ack.renewal with
      | some t => if 0 < t ∧ t < leaseSecs then t else half
      | none => half
    let most := min (leaseSecs * 7 / 8) (leaseSecs - 1)
    let t2 :=
      match ack.rebinding with
      | some t => if t1 < t ∧ t < leaseSecs then t else most
      | none => most
    let t2 := max t2 (min (min (t1 + 1) u32Max) (max (leaseSecs - 1) 1))
    (max (min t1 (t2 - 1)) 1, max t2 1)

def leaseFromAck (ack : Ack) (fallbackServer : Ipv4Addr) (now : Nat) : Option Lease := do
  let ip ←
    if isUnspecified ack.yiaddr then
      if isUnspecified ack.ciaddr then none else some ack.ciaddr
    else some ack.yiaddr
  let prefixLen ←
    match ack.subnetMask with
    | some mask => maskToPrefix mask
    | none => some 24
  let leaseSecs := ack.leaseTime.getD 3600
  let timers := leaseTimers leaseSecs ack
  some
    { ip, prefixLen
      server := ack.serverId.getD fallbackServer
      routers := ack.routers
      dns := ack.dns
      leaseSecs
      t1Secs := timers.1
      t2Secs := timers.2
      acquired := now }

/-! ## The order of the timers -/

/-- An addition of `u32`, which must not exceed the type. -/
def addU32 (a b : Nat) : Option Nat := if a + b ≤ u32Max then some (a + b) else none

/-- A multiplication of `u64`. -/
def mulU64 (a b : Nat) : Option Nat := if a * b < 2 ^ 64 then some (a * b) else none

/-- `leaseTimers` with machine integers: `none` is an overflow, and `as u32` drops the high
bits. -/
def leaseTimersU32 (leaseSecs : Nat) (ack : Ack) : Option (Nat × Nat) := do
  if leaseSecs = u32Max then
    let t2 ← addU32 (u32Max / 2) (u32Max / 4)
    some (u32Max / 2, t2)
  else
    let half := max (leaseSecs / 2) 1
    let t1 :=
      match ack.renewal with
      | some t => if 0 < t ∧ t < leaseSecs then t else half
      | none => half
    let product ← mulU64 leaseSecs 7
    let most := min (product / 8) (leaseSecs - 1) % 2 ^ 32
    let t2 :=
      match ack.rebinding with
      | some t => if t1 < t ∧ t < leaseSecs then t else most
      | none => most
    let t2 := max t2 (min (min (t1 + 1) u32Max) (max (leaseSecs - 1) 1))
    some (max (min t1 (t2 - 1)) 1, max t2 1)

section Timers

variable {leaseSecs : Nat} (ack : Ack)

/-- Nothing overflows, so that the timers are those of the unbounded numbers. -/
theorem leaseTimersU32_eq (hlease : leaseSecs ≤ u32Max) :
    leaseTimersU32 leaseSecs ack = some (leaseTimers leaseSecs ack) := by
  rw [leaseTimersU32, leaseTimers]
  by_cases hinfinite : leaseSecs = u32Max
  · rw [if_pos hinfinite, if_pos hinfinite]
    rfl
  · have hproduct : mulU64 leaseSecs 7 = some (leaseSecs * 7) := by
      rw [mulU64, if_pos]
      rw [u32Max] at hlease
      omega
    have hmost : min (leaseSecs * 7 / 8) (leaseSecs - 1) % 2 ^ 32 =
        min (leaseSecs * 7 / 8) (leaseSecs - 1) := by
      apply Nat.mod_eq_of_lt
      rw [u32Max] at hlease
      omega
    rw [if_neg hinfinite, if_neg hinfinite, hproduct]
    simp only [Option.bind_eq_bind, Option.bind_some, hmost]

/-- T1 as the server sent it, or half of the lease. -/
def firstTimer (leaseSecs : Nat) (ack : Ack) : Nat :=
  match ack.renewal with
  | some t => if 0 < t ∧ t < leaseSecs then t else max (leaseSecs / 2) 1
  | none => max (leaseSecs / 2) 1

/-- T2 as the server sent it, or seven eighths of the lease. -/
def secondTimer (leaseSecs : Nat) (ack : Ack) : Nat :=
  match ack.rebinding with
  | some t =>
      if firstTimer leaseSecs ack < t ∧ t < leaseSecs then t
      else min (leaseSecs * 7 / 8) (leaseSecs - 1)
  | none => min (leaseSecs * 7 / 8) (leaseSecs - 1)

theorem leaseTimers_of_finite (hfinite : leaseSecs ≠ u32Max) :
    leaseTimers leaseSecs ack =
      let t1 := firstTimer leaseSecs ack
      let t2 := max (secondTimer leaseSecs ack)
        (min (min (t1 + 1) u32Max) (max (leaseSecs - 1) 1))
      (max (min t1 (t2 - 1)) 1, max t2 1) := by
  rw [leaseTimers, if_neg hfinite]
  rfl

theorem firstTimer_bounds (leaseSecs : Nat) :
    1 ≤ firstTimer leaseSecs ack ∧ firstTimer leaseSecs ack ≤ max (leaseSecs - 1) 1 := by
  rw [firstTimer]
  split
  · split <;> omega
  · omega

theorem secondTimer_le (leaseSecs : Nat) : secondTimer leaseSecs ack ≤ leaseSecs - 1 := by
  rw [secondTimer]
  split
  · split <;> omega
  · omega

theorem leaseTimers_ordered (hlease : leaseSecs ≤ u32Max) (hthree : 3 ≤ leaseSecs) :
    1 ≤ (leaseTimers leaseSecs ack).1 ∧
      (leaseTimers leaseSecs ack).1 < (leaseTimers leaseSecs ack).2 ∧
      (leaseTimers leaseSecs ack).2 < leaseSecs := by
  by_cases hinfinite : leaseSecs = u32Max
  · rw [leaseTimers, if_pos hinfinite, hinfinite]
    decide
  · have hfirst := firstTimer_bounds ack leaseSecs
    have hsecond := secondTimer_le ack leaseSecs
    rw [leaseTimers_of_finite ack hinfinite]
    dsimp only
    generalize u32Max = most at hlease ⊢
    omega

/-- Of a lease too short for two times in between both are the same. -/
theorem leaseTimers_short (hshort : leaseSecs < 3) : leaseTimers leaseSecs ack = (1, 1) := by
  have hlarge : 3 ≤ u32Max := by decide
  have hfinite : leaseSecs ≠ u32Max := (Nat.lt_of_lt_of_le hshort hlarge).ne
  have hfirst := firstTimer_bounds ack leaseSecs
  have hsecond := secondTimer_le ack leaseSecs
  rw [leaseTimers_of_finite ack hfinite]
  generalize u32Max = most at hlarge ⊢
  exact Prod.ext (by dsimp only; omega) (by dsimp only; omega)

theorem leaseTimers_of_options {t1 t2 : Nat} (hfinite : leaseSecs ≠ u32Max)
    (hrenewal : ack.renewal = some t1) (hrebinding : ack.rebinding = some t2)
    (hpos : 0 < t1) (hordered : t1 < t2) (hwithin : t2 < leaseSecs) :
    leaseTimers leaseSecs ack = (t1, t2) := by
  have hfirst : firstTimer leaseSecs ack = t1 := by
    rw [firstTimer, hrenewal]
    exact if_pos ⟨hpos, Nat.lt_trans hordered hwithin⟩
  have hsecond : secondTimer leaseSecs ack = t2 := by
    rw [secondTimer, hrebinding, hfirst]
    exact if_pos ⟨hordered, hwithin⟩
  rw [leaseTimers_of_finite ack hfinite, hfirst, hsecond]
  generalize u32Max = most
  exact Prod.ext (by dsimp only; omega) (by dsimp only; omega)

end Timers

/-- The timers come in order before the end of the lease, whatever the server sends.  A finite
lease keeps the timers of a server that sends two in order. -/
theorem lease_timers_ordered (leaseSecs : Nat) (ack : Ack) (hlease : leaseSecs ≤ u32Max) :
    ∃ t1 t2, leaseTimersU32 leaseSecs ack = some (t1, t2) ∧ 1 ≤ t1 ∧ t1 ≤ t2 ∧
      (3 ≤ leaseSecs → t1 < t2 ∧ t2 < leaseSecs) ∧
      (leaseSecs ≠ u32Max → ∀ renewal rebinding, ack.renewal = some renewal →
        ack.rebinding = some rebinding → 0 < renewal → renewal < rebinding →
          rebinding < leaseSecs → (t1, t2) = (renewal, rebinding)) ∧
      (leaseSecs = u32Max → (t1, t2) = (2147483647, 3221225470)) := by
  refine ⟨(leaseTimers leaseSecs ack).1, (leaseTimers leaseSecs ack).2,
    leaseTimersU32_eq ack hlease, ?_⟩
  have hexact : leaseSecs ≠ u32Max → ∀ renewal rebinding, ack.renewal = some renewal →
      ack.rebinding = some rebinding → 0 < renewal → renewal < rebinding →
        rebinding < leaseSecs → leaseTimers leaseSecs ack = (renewal, rebinding) :=
    fun hfinite _ _ hrenewal hrebinding hpos hordered hwithin =>
      leaseTimers_of_options ack hfinite hrenewal hrebinding hpos hordered hwithin
  have hinfinite : leaseSecs = u32Max →
      leaseTimers leaseSecs ack = (2147483647, 3221225470) := by
    intro hequal
    rw [leaseTimers, if_pos hequal]
    rfl
  by_cases hthree : 3 ≤ leaseSecs
  · obtain ⟨hpos, hlt, hend⟩ := leaseTimers_ordered ack hlease hthree
    exact ⟨hpos, Nat.le_of_lt hlt, fun _ => ⟨hlt, hend⟩, hexact, hinfinite⟩
  · rw [leaseTimers_short ack (Nat.not_le.mp hthree)] at hexact hinfinite ⊢
    exact ⟨Nat.le_refl _, Nat.le_refl _, fun h => absurd h hthree, hexact, hinfinite⟩

/-- An acknowledgement of an infinite lease with two timers. -/
def infiniteAck : Ack :=
  { yiaddr := ⟨10, 0, 0, 7⟩
    ciaddr := ⟨0, 0, 0, 0⟩
    siaddr := ⟨0, 0, 0, 0⟩
    subnetMask := none
    serverId := none
    routers := []
    dns := []
    leaseTime := some u32Max
    renewal := some 100
    rebinding := some 200 }

theorem lease_timers_ordered_day : ∃ t1 t2,
    leaseTimersU32 86400 infiniteAck = some (t1, t2) ∧ 1 ≤ t1 ∧ t1 ≤ t2 ∧
      (3 ≤ 86400 → t1 < t2 ∧ t2 < 86400) ∧
      (86400 ≠ u32Max → ∀ renewal rebinding, infiniteAck.renewal = some renewal →
        infiniteAck.rebinding = some rebinding → 0 < renewal → renewal < rebinding →
          rebinding < 86400 → (t1, t2) = (renewal, rebinding)) ∧
      (86400 = u32Max → (t1, t2) = (2147483647, 3221225470)) :=
  lease_timers_ordered 86400 infiniteAck (by decide)

/-- An infinite lease has timers of its own, even if the server sends two in order. -/
theorem infinite_lease_ignores_options :
    ¬ ∀ leaseSecs ack, leaseSecs ≤ u32Max → ∀ renewal rebinding,
      ack.renewal = some renewal → ack.rebinding = some rebinding → 0 < renewal →
        renewal < rebinding → rebinding < leaseSecs →
          leaseTimersU32 leaseSecs ack = some (renewal, rebinding) := by
  intro hclaim
  have hpair := hclaim u32Max infiniteAck (Nat.le_refl _) 100 200 rfl rfl (by decide)
    (by decide) (by decide)
  rw [leaseTimersU32_eq infiniteAck (Nat.le_refl _)] at hpair
  revert hpair
  decide

/-- The lease that is made up for an address of unknown origin. -/
def adoptedLease (ip : Ipv4Addr) (prefixLen now : Nat) : Lease where
  ip := ip
  prefixLen := prefixLen
  server := ⟨255, 255, 255, 255⟩
  routers := []
  dns := []
  leaseSecs := 600
  t1Secs := 60
  t2Secs := 300
  acquired := now

end PertiskKos.Dhcp
