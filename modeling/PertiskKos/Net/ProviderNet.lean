import PertiskKos.Config.Machine
import PertiskKos.Net.Link

/-!
# Static addresses from the provider

A provider can give a node its address on a small disk.  Once that address is on an
interface, the DHCP client of the interface has to stop and the lease it has saved has to
go, or a later lease takes the address away again.
-/

namespace PertiskKos.Net

open Strings Ip Fallible

/-- What the DHCP client keeps, each by the name of an interface. -/
structure DhcpState where
  maintainers : List Text
  seeded : List Text
  /-- The directory for leases is known, once the state partition is mounted. -/
  leaseDirSet : Bool
  /-- Files in that directory, with the address that is read from each. -/
  leaseFiles : List (Text × Option Ipv4Addr)
  deriving DecidableEq

structure NodeNet where
  /-- Interfaces other than the loopback, in the kernel's order. -/
  nics : List Text
  addresses : Text → List Text
  ipv6Enabled : Bool
  dhcp : DhcpState

inductive Site where
  | listInterfaces
  | setLinkUp
  | listAddresses
  | addAddress
  | addDefaultRoute
  | acquire
  | applyLease
  | persistLease
  | writeResolvConf
  | removeLease
  deriving DecidableEq, Repr

abbrev Task (A : Type) := Prog Site NetError NodeNet A

/-- What a DHCP server gives to an interface. -/
abbrev Lan := Text → Option (Ipv4Addr × Nat)

section Leases

def safeChar (c : Char) : Char := if c.isAlphanum || c = '-' || c = '_' then c else '_'

/-- The name of the file for the lease of an interface. -/
def leaseFile (iface : Text) : Text := iface.map safeChar ++ ".lease".toList

def DhcpState.removeFile (dhcp : DhcpState) (file : Text) : DhcpState :=
  { dhcp with leaseFiles := dhcp.leaseFiles.filter (·.1 ≠ file) }

def DhcpState.stop (dhcp : DhcpState) (iface : Text) : DhcpState :=
  { dhcp with
    maintainers := dhcp.maintainers.filter (· ≠ iface)
    seeded := dhcp.seeded.filter (· ≠ iface) }

def NodeNet.mapDhcp (node : NodeNet) (act : DhcpState → DhcpState) : NodeNet :=
  { node with dhcp := act node.dhcp }

def stopMaintainer (iface : Text) : Task Unit := change (·.mapDhcp (·.stop iface))

def clearPersistedLease (iface : Text) : Task Unit := do
  let dhcp ← inspect NodeNet.dhcp
  whenever (dhcp.leaseDirSet && (dhcp.leaseFiles.map Prod.fst).contains (leaseFile iface))
    (ignore (attempt .removeLease NetError.msg (·.mapDhcp (·.removeFile (leaseFile iface)))
      id))

def ensureMaintainer (iface : Text) : Task Unit :=
  change (·.mapDhcp fun dhcp =>
    { dhcp with maintainers := dhcp.maintainers.filter (· ≠ iface) ++ [iface] })

def peekPersistedIp (dhcp : DhcpState) (iface : Text) : Option Ipv4Addr :=
  if dhcp.leaseDirSet then
    match dhcp.leaseFiles.lookup (leaseFile iface) with
    | some (some ip) =>
        if isUnspecified ip ∨ ip.octets = [255, 255, 255, 255] then none else some ip
    | _ => none
  else none

def shouldReclaim (dhcp : DhcpState) (iface : Text) (currentV4 : Option Ipv4Addr) : Bool :=
  match peekPersistedIp dhcp iface, currentV4 with
  | some want, some have_ => want ≠ have_
  | some _, none => true
  | none, _ => false

end Leases

section Apply

def cidrText (ip : Ipv4Addr) (prefixLen : Nat) : Text := ip.print ++ '/' :: decimal prefixLen

def NodeNet.setAddresses (node : NodeNet) (iface : Text) (addresses : List Text) : NodeNet :=
  { node with addresses := Function.update node.addresses iface addresses }

/-- The configured interface, or the first one if it is missing. -/
def resolveIface (nics : List Text) (configured : Text) : Option Text :=
  if configured ∈ nics then some configured else nics.head?

def resolve (configured : Text) : Task Text := do
  guardSite .listInterfaces .msg
  match ← inspect fun node => resolveIface node.nics configured with
  | some name => pure name
  | none => stop .msg

/-- Put an address on an interface, in place of the same address with another prefix. -/
def addNicAddress (name cidr : Text) : Task Unit :=
  if parseIpNet cidr = none then stop .msg
  else
    attempt .addAddress .msg
      (fun node => node.setAddresses name
        ((node.addresses name).filter (fun a => ipPart a ≠ ipPart cidr) ++ [cidr])) id

def addDefaultRoute (gateway : Text) : Task Unit :=
  if parseIpv4 gateway = none ∧ parseIpv6 gateway = none then stop .msg
  else guardSite .addDefaultRoute .msg

/-- The addresses of an interface, or none if they cannot be listed. -/
def listOrNone (name : Text) : Task (List Text) := do
  match ← outcome (guardSite .listAddresses NetError.msg) with
  | .ok () => inspect fun node => node.addresses name
  | .error _ => pure []

def currentV4 (existing : List Text) : Option Ipv4Addr :=
  existing.findSome? fun a =>
    if (ipPart a).contains '.' && !startsWith (ipPart a) "127.".toList then
      parseIpv4 (ipPart a)
    else none

/-- Get a lease, put its address on the interface, save it and keep it up. -/
def runDhcp (lan : Lan) (name : Text) : Task Unit := do
  guardSite .acquire .msg
  match lan name with
  | none => stop .msg
  | some (ip, prefixLen) => do
      attempt .applyLease .msg
        (fun node => node.setAddresses name
          ((node.addresses name).filter (fun a => !a.contains '.') ++
            [cidrText ip prefixLen])) id
      let dhcp ← inspect NodeNet.dhcp
      whenever dhcp.leaseDirSet
        (ignore (attempt .persistLease NetError.msg (·.mapDhcp fun dhcp =>
          { dhcp.removeFile (leaseFile name) with
            leaseFiles := (dhcp.removeFile (leaseFile name)).leaseFiles ++
              [(leaseFile name, some ip)] }) id))
      change (·.mapDhcp fun dhcp =>
        { dhcp with seeded := dhcp.seeded.filter (· ≠ name) ++ [name] })
      ensureMaintainer name

/-- An interface that is configured by DHCP, with static addresses besides. -/
def applyDhcp (lan : Lan) (name : Text) (iface : Config.Interface) : Task Unit := do
  let existing ← listOrNone name
  let dhcp ← inspect NodeNet.dhcp
  if (currentV4 existing).isSome && !shouldReclaim dhcp name (currentV4 existing) then
    ensureMaintainer name
  else ignore (runDhcp lan name)
  let existing ← listOrNone name
  iface.addresses.forM fun cidr =>
    whenever (!existing.any fun a => ipPart a = ipPart cidr)
      (ignore (addNicAddress name cidr))

def applyStatic (name : Text) (iface : Config.Interface) : Task Unit := do
  iface.addresses.forM (addNicAddress name)
  match iface.gateway with
  | none => pure ()
  | some gateway => addDefaultRoute gateway

def applyInterface (lan : Lan) (iface : Config.Interface) : Task Unit := do
  match ← outcome (resolve iface.interface) with
  | .error _ => pure ()
  | .ok name => do
      guardSite .setLinkUp .msg
      if iface.dhcp then applyDhcp lan name iface else applyStatic name iface

def applyNetwork (lan : Lan) (network : Config.Network) : Task Unit := do
  network.interfaces.forM (applyInterface lan)
  whenever (network.nameservers ≠ []) (guardSite .writeResolvConf .msg)

end Apply

section Provider

/-- A record that was read from a provider's disk.  It has one interface, which is
static, and one address. -/
structure ProviderNetcfg where
  network : Config.Network
  dualStack : Bool
  single : ∃ iface cidr gateway, network.interfaces =
    [{ interface := iface, dhcp := false, addresses := [cidr], gateway := gateway }]

/-- Look for a record, so many times. -/
def load (attempts : Nat) (scan : Nat → Option ProviderNetcfg) : Option ProviderNetcfg :=
  (List.range (max attempts 1)).findSome? scan

def silence (iface : Config.Interface) : Task Unit := do
  stopMaintainer iface.interface
  clearPersistedLease iface.interface

def applyAttempts (lan : Lan) (attempts : Nat) (scan : Nat → Option ProviderNetcfg) :
    Task Bool :=
  match load attempts scan with
  | none => pure false
  | some cfg => do
      whenever cfg.dualStack (change fun node => { node with ipv6Enabled := true })
      applyNetwork lan cfg.network
      cfg.network.interfaces.forM silence
      pure true

def applyProviderNetcfg (lan : Lan) (scan : Nat → Option ProviderNetcfg) : Task Bool :=
  applyAttempts lan 30 scan

end Provider

end PertiskKos.Net
