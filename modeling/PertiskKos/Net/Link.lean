import PertiskKos.Library.Fallible
import PertiskKos.Library.Ipv6

/-!
# Addresses of an interface

A dual-stack node without a public IPv6 address gives its interface a local one that it
derives from its IPv4 address.  When a public address arrives the local one has to go,
and what is on the interface is compared as text.
-/

namespace PertiskKos.Net

open Strings Hex Ip Fallible

/-- An address of an interface and the length of its prefix. -/
structure KernelAddress where
  ip : IpAddr
  prefixLen : Nat
  deriving DecidableEq

abbrev Interface := List KernelAddress

section Listing

def isLinkLocal (ip : Ipv4Addr) : Bool := ip.a = 169 ∧ ip.b = 254

def isUnspecified (ip : Ipv4Addr) : Bool := ip.octets = [0, 0, 0, 0]

def isUnicastLinkLocal (ip : Ipv6Addr) : Bool :=
  (ip.segments.headD 0) &&& 0xffc0 = 0xfe80

def isLoopback6 (ip : Ipv6Addr) : Bool := ip.segments = [0, 0, 0, 0, 0, 0, 0, 1]

def isMulticast (ip : Ipv6Addr) : Bool := (ip.segments.headD 0) &&& 0xff00 = 0xff00

def isUnspecified6 (ip : Ipv6Addr) : Bool := ip.segments = [0, 0, 0, 0, 0, 0, 0, 0]

def keep : IpAddr → Bool
  | .v4 ip => !isLinkLocal ip && !isUnspecified ip
  | .v6 ip => !isUnicastLinkLocal ip && !isLoopback6 ip && !isMulticast ip && !isUnspecified6 ip

/-- An address as it is listed. -/
def KernelAddress.text (address : KernelAddress) : Text :=
  address.ip.print ++ '/' :: decimal address.prefixLen

/-- The answer to a listing. -/
def listing (interface : Interface) : List Text :=
  (interface.filter fun address => keep address.ip).map KernelAddress.text

/-- The address in front of the prefix. -/
def ipPart (text : Text) : Text := text.takeWhile (· ≠ '/')

end Listing

section Texts

def asciiLower (text : Text) : Text :=
  text.map fun c => if 'A' ≤ c ∧ c ≤ 'Z' then Char.ofNat (c.toNat + 32) else c

def isUsableGlobalIpv6 (ip : Text) : Bool :=
  ip.contains ':' && !startsWith ip "fe80:".toList && asciiLower ip ≠ "::1".toList &&
    !startsWith (asciiLower ip) "ff".toList

def isUlaIpv6 (ip : Text) : Bool :=
  startsWith (asciiLower ip) "fc".toList || startsWith (asciiLower ip) "fd".toList

def ulaIpFromIpv4 (v4 : Ipv4Addr) : Text :=
  ['f', 'd', '0', '0', ':'] ++ hex v4.a.toNat ++ [':'] ++ hex v4.b.toNat ++ [':'] ++
    hex v4.c.toNat ++ [':', ':'] ++ hex v4.d.toNat

def ulaCidrFromIpv4 (v4 : Ipv4Addr) : Text := ulaIpFromIpv4 v4 ++ ['/', '6', '4']

def ifaceHasGua (addrs : List Text) : Bool :=
  addrs.any fun a => isUsableGlobalIpv6 (ipPart a) && !isUlaIpv6 (ipPart a)

def ifaceHasGlobalV6 (addrs : List Text) : Bool :=
  addrs.any fun a => isUsableGlobalIpv6 (ipPart a)

/-- The first IPv4 address of a listing. -/
def findIpv4 (addrs : List Text) : Option Ipv4Addr :=
  addrs.findSome? fun a =>
    if (ipPart a).contains '.' then parseIpv4 (ipPart a) else none

def ifaceHasSyntheticUla (addrs : List Text) : Bool :=
  match findIpv4 addrs with
  | none => false
  | some v4 => addrs.any fun a => ipPart a = ipPart (ulaCidrFromIpv4 v4)

/-- The address that is to be dropped. -/
def dropTarget (addrs : List Text) : Option Text :=
  match findIpv4 addrs with
  | none => none
  | some v4 =>
      if addrs.any fun a => ipPart a = ipPart (ulaCidrFromIpv4 v4) then
        some (ulaCidrFromIpv4 v4)
      else none

end Texts

section Kernel

inductive NetError where
  | msg
  deriving DecidableEq, Repr

inductive Answer where
  | done
  | failed
  /-- The kernel has no IPv6. -/
  | unsupported
  deriving DecidableEq, Repr

/-- What has happened on the interface before a request, and how the request goes. -/
structure Event where
  change : Interface → Interface
  answer : Answer

/-- The interface, and what is going to happen around the next requests. -/
structure Kernel where
  interface : Interface
  events : List Event

def Kernel.next (kernel : Kernel) : Answer × Kernel :=
  match kernel.events with
  | [] => (.done, kernel)
  | event :: events =>
      (event.answer, { interface := event.change kernel.interface, events := events })

abbrev Netlink (A : Type) := Prog Empty NetError Kernel A

def listAddresses : Netlink (List Text) := fun _ kernel =>
  match kernel.next with
  | (.done, after) => .ok (listing after.interface) after
  | (_, after) => .error .msg after

/-- An address with a prefix. -/
def parseIpNet (cidr : Text) : Option KernelAddress :=
  match splitOnce '/' cidr with
  | none => none
  | some (ip, digits) =>
      if isDigits digits then
        match parseIpv4 ip, parseIpv6 ip with
        | some v4, _ =>
            if ofDigits digits ≤ 32 then some ⟨.v4 v4, ofDigits digits⟩ else none
        | none, some v6 =>
            if ofDigits digits ≤ 128 then some ⟨.v6 v6, ofDigits digits⟩ else none
        | none, none => none
      else none

/-- Add an address, or replace its prefix. -/
def addAddress (cidr : Text) : Netlink Unit := fun _ kernel =>
  match parseIpNet cidr with
  | none => .error .msg kernel
  | some address =>
      match kernel.next with
      | (.done, after) =>
          .ok () { after with
            interface := after.interface.filter (·.ip ≠ address.ip) ++ [address] }
      | (.unsupported, after) => .ok () after
      | (.failed, after) => .error .msg after

def delAddress (cidr : Text) : Netlink Unit := fun _ kernel =>
  match parseIpNet cidr with
  | none => .error .msg kernel
  | some address =>
      match kernel.next with
      | (.done, after) =>
          if after.interface.any (·.ip = address.ip) then
            .ok () { after with interface := after.interface.eraseP (·.ip = address.ip) }
          else .error .msg after
      | (_, after) => .error .msg after

end Kernel

section Pass

inductive DualStackIpv6Outcome where
  | disabled
  | noIpv4
  | gua
  | guaPromoted
  | ula
  deriving DecidableEq, Repr

/-- Remove the address derived from the IPv4 address.  True if it was removed. -/
def dropSyntheticUla (addrs : List Text) : Netlink Bool :=
  match dropTarget addrs with
  | none => pure false
  | some synthetic => do
      match ← outcome (delAddress synthetic) with
      | .ok () => pure true
      | .error _ => pure false

def relist (promoted : Bool) (addrs : List Text) : Netlink (List Text) :=
  if promoted then listAddresses else pure addrs

def adoptOutcome (promoted : Bool) (addrs : List Text) : DualStackIpv6Outcome :=
  if ifaceHasSyntheticUla addrs then .ula
  else if promoted then .guaPromoted
  else .gua

/-- A public address is there: the derived one has to go. -/
def adoptGua (addrs : List Text) : Netlink DualStackIpv6Outcome := do
  let promoted ← dropSyntheticUla addrs
  let addrs ← relist promoted addrs
  pure (adoptOutcome promoted addrs)

/-- Wait for a public address, with so many listings left. -/
def waitForSlaac : Nat → List Text → Netlink (DualStackIpv6Outcome ⊕ List Text)
  | 0, addrs => pure (.inr addrs)
  | tries + 1, _ => do
      let addrs ← listAddresses
      if ifaceHasGua addrs then
        let found ← adoptGua addrs
        pure (.inl found)
      else waitForSlaac tries addrs

/-- No public address has come. -/
def assignUla (addrs : List Text) : Netlink DualStackIpv6Outcome :=
  if ifaceHasGlobalV6 addrs then pure .ula
  else
    match findIpv4 addrs with
    | none => pure .noIpv4
    | some v4 => do
        match ← outcome (addAddress (ulaCidrFromIpv4 v4)) with
        | .ok () => pure .ula
        | .error _ => pure .noIpv4

def ensureStableUla (ipv6Enabled waitForRa : Bool) : Netlink DualStackIpv6Outcome :=
  if ipv6Enabled = false then pure .disabled
  else do
    let addrs ← listAddresses
    if ifaceHasGua addrs then adoptGua addrs
    else
      match ← waitForSlaac (if waitForRa then 30 else 0) addrs with
      | .inl found => pure found
      | .inr addrs => assignUla addrs

end Pass

end PertiskKos.Net
