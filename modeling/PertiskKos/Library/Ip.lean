import PertiskKos.Library.Strings

/-!
# IPv4 addresses and networks

An address is four octets, and a number below 2^32.  Its text is read strictly: four
decimal octets without leading zeros.
-/

namespace PertiskKos.Ip

open Strings

structure Ipv4Addr where
  a : UInt8
  b : UInt8
  c : UInt8
  d : UInt8
  deriving DecidableEq, Repr

/-- The decimal digits of a number. -/
def decimal (n : Nat) : Text := Nat.toDigits 10 n

/-- The number that digits stand for. -/
def ofDigits (digits : Text) : Nat :=
  digits.foldl (fun n c => 10 * n + (c.toNat - '0'.toNat)) 0

def isDigits (text : Text) : Bool := text ≠ [] && text.all Char.isDigit

def parseOctet (text : Text) : Option UInt8 :=
  if isDigits text ∧ text.length ≤ 3 ∧ (text.head? = some '0' → text.length = 1) ∧
      ofDigits text ≤ 255 then
    some (UInt8.ofNat (ofDigits text))
  else none

def parseIpv4 (text : Text) : Option Ipv4Addr :=
  match text.splitOn '.' with
  | [a, b, c, d] => do
      pure { a := ← parseOctet a, b := ← parseOctet b, c := ← parseOctet c, d := ← parseOctet d }
  | _ => none

namespace Ipv4Addr

def octets (ip : Ipv4Addr) : List UInt8 := [ip.a, ip.b, ip.c, ip.d]

def print (ip : Ipv4Addr) : Text := joinWith '.' (ip.octets.map fun o => decimal o.toNat)

def toNat (ip : Ipv4Addr) : Nat :=
  ip.a.toNat * 2 ^ 24 + ip.b.toNat * 2 ^ 16 + ip.c.toNat * 2 ^ 8 + ip.d.toNat

def ofNat (n : Nat) : Ipv4Addr where
  a := UInt8.ofNat (n / 2 ^ 24)
  b := UInt8.ofNat (n / 2 ^ 16)
  c := UInt8.ofNat (n / 2 ^ 8)
  d := UInt8.ofNat n

/-- The number of the network with a prefix of the given length. -/
def network (ip : Ipv4Addr) (prefixLength : Nat) : Nat :=
  ip.toNat - ip.toNat % 2 ^ (32 - prefixLength)

/-- The first usable address of a network. -/
def firstUsable (ip : Ipv4Addr) (prefixLength : Nat) : Ipv4Addr :=
  ofNat (ip.network prefixLength + 1)

end Ipv4Addr

section Text

theorem isDigit_decimal {n : Nat} {c : Char} (hc : c ∈ decimal n) : c.isDigit = true :=
  Nat.isDigit_of_mem_toDigits (by decide) (by decide) hc

theorem isDigits_decimal (n : Nat) : isDigits (decimal n) = true := by
  have hne : decimal n ≠ [] := Nat.toDigits_ne_nil
  simp only [isDigits, hne, ne_eq, not_false_eq_true, decide_true, Bool.true_and, List.all_eq_true]
  exact fun c hc => isDigit_decimal hc

theorem ofDigits_decimal (n : Nat) : ofDigits (decimal n) = n :=
  Nat.ofDigitChars_ten_toDigits

theorem parseOctet_decimal (o : UInt8) : parseOctet (decimal o.toNat) = some o := by
  have hall : ∀ n : Fin 256, parseOctet (decimal n) = some (UInt8.ofNat n) := by
    decide +kernel
  have ho := hall ⟨o.toNat, o.toNat_lt⟩
  rwa [UInt8.ofNat_toNat] at ho

theorem isDigit_of_parseOctet {text : Text} {o : UInt8} (hparse : parseOctet text = some o) :
    ∀ c ∈ text, c.isDigit = true := by
  unfold parseOctet at hparse
  split at hparse
  · next hok =>
      rw [isDigits, Bool.and_eq_true] at hok
      simpa using hok.1.2
  · cases hparse

theorem dot_notMem_decimal (o : UInt8) : '.' ∉ decimal o.toNat := by
  intro hdot
  exact absurd (isDigit_of_parseOctet (parseOctet_decimal o) '.' hdot) (by decide)

theorem parse_print (ip : Ipv4Addr) : parseIpv4 ip.print = some ip := by
  have hsplit : ip.print.splitOn '.' = ip.octets.map fun o => decimal o.toNat := by
    apply List.splitOn_intercalate
    · intro text htext
      obtain ⟨o, -, rfl⟩ := List.mem_map.mp htext
      exact dot_notMem_decimal o
    · simp [Ipv4Addr.octets]
  rw [parseIpv4, hsplit]
  simp [Ipv4Addr.octets, parseOctet_decimal]

theorem print_injective {left right : Ipv4Addr} (hprint : left.print = right.print) :
    left = right := by
  have hparse := parse_print left
  rw [hprint, parse_print, Option.some.injEq] at hparse
  exact hparse.symm

end Text

section Networks

/-- An IPv4 network: an address and the length of the prefix. -/
def parseIpv4Cidr (text : Text) : Option (Ipv4Addr × Nat) :=
  match splitOnce '/' text with
  | some (ip, digits) =>
      if isDigits digits ∧ ofDigits digits ≤ 32 then
        (parseIpv4 ip).map fun address => (address, ofDigits digits)
      else none
  | none => none

def isIpv6Char (c : Char) : Bool :=
  c.isDigit || ('a' ≤ c && c ≤ 'f') || ('A' ≤ c && c ≤ 'F') || c = ':' || c = '.'

/-- The outer form of an IPv6 network. -/
def isIpv6Cidr (text : Text) : Bool :=
  match splitOnce '/' text with
  | some (ip, digits) => ip.contains ':' && ip.all isIpv6Char && isDigits digits
  | none => false

/-- The characters of networks. -/
def isCidrChar (c : Char) : Bool := isIpv6Char c || c = '/'

theorem isDigits_isDigit {text : Text} (hdigits : isDigits text = true) :
    ∀ c ∈ text, c.isDigit = true := by
  rw [isDigits, Bool.and_eq_true] at hdigits
  simpa using hdigits.2

theorem parseIpv4_pieces {text : Text} {ip : Ipv4Addr} (hparse : parseIpv4 text = some ip) :
    ∃ a b c d, text = joinWith '.' [a, b, c, d] ∧
      ∀ piece ∈ [a, b, c, d], ∃ o, parseOctet piece = some o := by
  unfold parseIpv4 at hparse
  split at hparse
  · next a b c d hsplit =>
      have htext : text = joinWith '.' [a, b, c, d] := by
        rw [joinWith, ← hsplit, List.intercalate_splitOn]
      refine ⟨a, b, c, d, htext, ?_⟩
      simp only [Option.pure_def, Option.bind_eq_bind, Option.bind_eq_some_iff] at hparse
      obtain ⟨oa, ha, ob, hb, oc, hc, od, hd, -⟩ := hparse
      simp [ha, hb, hc, hd]
  · cases hparse

/-- An address consists of digits and dots, and has a dot. -/
theorem parseIpv4_chars {text : Text} {ip : Ipv4Addr} (hparse : parseIpv4 text = some ip) :
    '.' ∈ text ∧ ∀ c ∈ text, c.isDigit = true ∨ c = '.' := by
  obtain ⟨a, b, c, d, rfl, hpieces⟩ := parseIpv4_pieces hparse
  constructor
  · simp [joinWith, List.intercalate_cons_cons]
  · intro char hchar
    rcases mem_joinWith hchar with hdot | ⟨piece, hpiece, hmem⟩
    · exact .inr hdot
    · obtain ⟨o, ho⟩ := hpieces piece hpiece
      exact .inl (isDigit_of_parseOctet ho char hmem)

end Networks

section Numbers

theorem toNat_ofNat {n : Nat} (hn : n < 2 ^ 32) : (Ipv4Addr.ofNat n).toNat = n := by
  simp only [Ipv4Addr.ofNat, Ipv4Addr.toNat, UInt8.toNat_ofNat']
  omega

theorem ofNat_toNat (ip : Ipv4Addr) : Ipv4Addr.ofNat ip.toNat = ip := by
  obtain ⟨a, b, c, d⟩ := ip
  have ha := a.toNat_lt
  have hb := b.toNat_lt
  have hc := c.toNat_lt
  have hd := d.toNat_lt
  simp only [Ipv4Addr.ofNat, Ipv4Addr.toNat, Ipv4Addr.mk.injEq, ← UInt8.toNat_inj,
    UInt8.toNat_ofNat']
  omega

theorem toNat_lt (ip : Ipv4Addr) : ip.toNat < 2 ^ 32 := by
  have ha := ip.a.toNat_lt
  have hb := ip.b.toNat_lt
  have hc := ip.c.toNat_lt
  have hd := ip.d.toNat_lt
  simp only [Ipv4Addr.toNat]
  omega

theorem toNat_injective {left right : Ipv4Addr} (hnat : left.toNat = right.toNat) :
    left = right := by
  rw [← ofNat_toNat left, hnat, ofNat_toNat]

/-- One more in the last octet, which stops at 255. -/
def Ipv4Addr.next (ip : Ipv4Addr) : Ipv4Addr :=
  { ip with d := if ip.d = 255 then 255 else ip.d + 1 }

theorem toNat_next (ip : Ipv4Addr) :
    ip.next.toNat = if ip.toNat % 256 = 255 then ip.toNat else ip.toNat + 1 := by
  have hlast : ip.toNat % 256 = ip.d.toNat := by
    have hd := ip.d.toNat_lt
    simp only [Ipv4Addr.toNat]
    omega
  have hd := ip.d.toNat_lt
  by_cases h255 : ip.d = 255
  · have hnat : ip.d.toNat = 255 := congrArg UInt8.toNat h255
    rw [hlast, if_pos hnat, Ipv4Addr.next, if_pos h255]
    simp only [Ipv4Addr.toNat, hnat]
    rfl
  · have hnat : ip.d.toNat ≠ 255 := fun h => h255 (UInt8.toNat_inj.mp h)
    have hsucc : (ip.d + 1).toNat = ip.d.toNat + 1 := by
      rw [UInt8.toNat_add]
      change (ip.d.toNat + 1) % 256 = ip.d.toNat + 1
      omega
    rw [hlast, if_neg hnat, Ipv4Addr.next, if_neg h255]
    simp only [Ipv4Addr.toNat, hsucc]
    omega

theorem network_mod_four (ip : Ipv4Addr) {prefixLength : Nat} (hlength : prefixLength ≤ 30) :
    ip.network prefixLength % 4 = 0 := by
  have hdvd : 4 ∣ 2 ^ (32 - prefixLength) :=
    pow_dvd_pow 2 (show 2 ≤ 32 - prefixLength by omega)
  have hmod := Nat.mod_mod_of_dvd ip.toNat hdvd
  have hle := Nat.mod_le ip.toNat (2 ^ (32 - prefixLength))
  rw [Ipv4Addr.network]
  omega

theorem network_succ_lt (ip : Ipv4Addr) {prefixLength : Nat} (hlength : prefixLength ≤ 30) :
    ip.network prefixLength + 1 < 2 ^ 32 := by
  have hip := toNat_lt ip
  have hmod := network_mod_four ip hlength
  rw [Ipv4Addr.network] at hmod ⊢
  omega

/-- One more in the last octet is the first usable address of the network exactly when
the address has no host bits. -/
theorem next_eq_firstUsable_iff (ip : Ipv4Addr) {prefixLength : Nat}
    (hlength : prefixLength ≤ 30) :
    ip.next = ip.firstUsable prefixLength ↔ ip.toNat % 2 ^ (32 - prefixLength) = 0 := by
  have hle := Nat.mod_le ip.toNat (2 ^ (32 - prefixLength))
  have hdvd : 4 ∣ 2 ^ (32 - prefixLength) :=
    pow_dvd_pow 2 (show 2 ≤ 32 - prefixLength by omega)
  have hmod := Nat.mod_mod_of_dvd ip.toNat hdvd
  have hnetwork := network_mod_four ip hlength
  have husable : (ip.firstUsable prefixLength).toNat = ip.network prefixLength + 1 :=
    toNat_ofNat (network_succ_lt ip hlength)
  have hiff : ip.next = ip.firstUsable prefixLength ↔
      ip.next.toNat = ip.network prefixLength + 1 := by
    rw [← husable]
    exact ⟨congrArg Ipv4Addr.toNat, toNat_injective⟩
  rw [hiff, toNat_next]
  rw [Ipv4Addr.network] at hnetwork ⊢
  split <;> omega

end Numbers

end PertiskKos.Ip
