import PertiskKos.Net.Link

/-!
# When the derived address is recognised

The derived address is written with the groups of the IPv4 address as they are, and the
kernel's addresses come in canonical text.  The two agree only if no zero group is next
to the run that is left out.
-/

namespace PertiskKos.Net

open Strings Hex Ip Fallible

/-- The address that the derived text stands for. -/
def ulaAddress (v4 : Ipv4Addr) : Ipv6Addr where
  segments :=
    [0xfd00, v4.a.toUInt16, v4.b.toUInt16, v4.c.toUInt16, 0, 0, 0, v4.d.toUInt16]
  length_eq := Eq.refl 8

/-- The first IPv4 address of an interface that a listing shows. -/
def firstIpv4 (interface : Interface) : Option Ipv4Addr :=
  interface.findSome? fun address =>
    match address.ip with
    | .v4 ip => if keep (.v4 ip) then some ip else none
    | .v6 _ => none

section Text

variable (v4 : Ipv4Addr)

theorem ulaIp_eq_printGroups : ulaIpFromIpv4 v4 =
    printGroups [0xfd00, v4.a.toUInt16, v4.b.toUInt16, v4.c.toUInt16] ++ ':' :: ':' ::
      printGroups [v4.d.toUInt16] := by
  have hfirst : hex 64768 = ['f', 'd', '0', '0'] := by decide
  simp [ulaIpFromIpv4, printGroups, joinWith, List.intercalate_cons_cons, hfirst]

theorem parse_ulaIp : parseIpv6 (ulaIpFromIpv4 v4) = some (ulaAddress v4) := by
  rw [ulaIp_eq_printGroups, parse_compressed]
  rfl

theorem slash_notMem_hex (n : Nat) : '/' ∉ hex n :=
  fun hmem => absurd (isHexDigit_of_mem_hex hmem) (by decide)

theorem slash_notMem_ulaIp : '/' ∉ ulaIpFromIpv4 v4 := by
  simp [ulaIpFromIpv4, slash_notMem_hex]

theorem ipPart_ulaCidr : ipPart (ulaCidrFromIpv4 v4) = ulaIpFromIpv4 v4 :=
  takeWhile_separator (slash_notMem_ulaIp v4) _

/-- What is put on the interface is the derived address. -/
theorem parseIpNet_ulaCidr :
    parseIpNet (ulaCidrFromIpv4 v4) = some ⟨.v6 (ulaAddress v4), 64⟩ := by
  have hsplit : splitOnce '/' (ulaCidrFromIpv4 v4) = some (ulaIpFromIpv4 v4, ['6', '4']) :=
    splitOnce_append (slash_notMem_ulaIp v4) _
  have hnot : parseIpv4 (ulaIpFromIpv4 v4) = none := by
    cases hparse : parseIpv4 (ulaIpFromIpv4 v4) with
    | none => rfl
    | some ip =>
        have hcolon : ':' ∈ ulaIpFromIpv4 v4 := by simp [ulaIpFromIpv4]
        rcases (parseIpv4_chars hparse).2 ':' hcolon with h | h <;>
          exact absurd h (by decide)
  have hlen : ofDigits ['6', '4'] = 64 := by decide
  rw [parseIpNet, hsplit]
  simp only [hnot, parse_ulaIp, hlen]
  rfl

theorem toUInt16_eq_zero (o : UInt8) : o.toUInt16 = 0 ↔ o = 0 := by
  rw [← UInt16.toNat_inj, ← UInt8.toNat_inj]
  rfl

/-- The run that is left out of the canonical text is the written one exactly when
neither neighbour is zero. -/
theorem zeroSpan_ulaAddress :
    zeroSpan (ulaAddress v4).segments = ⟨4, 3⟩ ↔ v4.c ≠ 0 ∧ v4.d ≠ 0 := by
  have ha := toUInt16_eq_zero v4.a
  have hb := toUInt16_eq_zero v4.b
  have hc := toUInt16_eq_zero v4.c
  have hd := toUInt16_eq_zero v4.d
  by_cases hza : v4.a = 0 <;> by_cases hzb : v4.b = 0 <;> by_cases hzc : v4.c = 0 <;>
    by_cases hzd : v4.d = 0 <;>
    simp [zeroSpan, ulaAddress, longestSpan, ha, hb, hc, hd, hza, hzb, hzc, hzd]

theorem toIpv4Mapped_ulaAddress : (ulaAddress v4).toIpv4Mapped = none := by
  rw [Ipv6Addr.toIpv4Mapped]
  split
  · next hsegments => simp [ulaAddress] at hsegments
  · rfl

/-- The derived text is canonical exactly when the last two octets are not zero. -/
theorem print_ulaAddress :
    (ulaAddress v4).print = ulaIpFromIpv4 v4 ↔ v4.c ≠ 0 ∧ v4.d ≠ 0 := by
  rw [← zeroSpan_ulaAddress, Ipv6Addr.print, toIpv4Mapped_ulaAddress, ulaIp_eq_printGroups]
  simp only
  constructor
  · intro hprint
    split at hprint
    · next hlen =>
        have hcut := cut_compressed ((ulaAddress v4).segments.take
          (zeroSpan (ulaAddress v4).segments).start)
          (printGroups ((ulaAddress v4).segments.drop
            ((zeroSpan (ulaAddress v4).segments).start +
              (zeroSpan (ulaAddress v4).segments).len)))
        rw [hprint, cut_compressed, Option.some.injEq, Prod.mk.injEq] at hcut
        have hhead := congrArg List.length (printGroups_injective hcut.1)
        have htail := congrArg List.length (printGroups_injective hcut.2)
        simp only [List.length_take, List.length_drop, (ulaAddress v4).length_eq,
          List.length_cons, List.length_nil] at hhead htail
        cases hspan : zeroSpan (ulaAddress v4).segments with
        | mk start len =>
            simp only [hspan] at hhead htail
            rw [Span.mk.injEq]
            omega
    · have hcut := cut_printGroups (ulaAddress v4).segments
      rw [hprint, cut_compressed] at hcut
      cases hcut
  · intro hspan
    rw [hspan]
    rfl

theorem ulaAddress_injective {left right : Ipv4Addr}
    (hula : ulaAddress left = ulaAddress right) : left = right := by
  have hoctet : ∀ {x y : UInt8}, x.toUInt16 = y.toUInt16 → x = y := by
    intro x y hxy
    have hnat := congrArg UInt16.toNat hxy
    exact UInt8.toNat_inj.mp hnat
  obtain ⟨a, b, c, d⟩ := left
  obtain ⟨a', b', c', d'⟩ := right
  simp only [ulaAddress, Ipv6Addr.mk.injEq, List.cons.injEq, and_true, true_and] at hula
  obtain ⟨ha, hb, hc, hd⟩ := hula
  rw [hoctet ha, hoctet hb, hoctet hc, hoctet hd]

/-- Only the derived address can have the derived text. -/
theorem print_eq_ulaIp_iff (ip : IpAddr) :
    ip.print = ulaIpFromIpv4 v4 ↔ ip = .v6 (ulaAddress v4) ∧ v4.c ≠ 0 ∧ v4.d ≠ 0 := by
  cases ip with
  | v4 other =>
      have hne : other.print ≠ ulaIpFromIpv4 v4 := by
        intro hprint
        apply colon_notMem_ipv4 other
        rw [hprint, ulaIpFromIpv4]
        simp
      simp [IpAddr.print, hne]
  | v6 ip =>
      rw [IpAddr.print, IpAddr.v6.injEq, ← print_ulaAddress]
      constructor
      · intro hprint
        have hparse := parseIpv6_print ip
        rw [hprint, parse_ulaIp, Option.some.injEq] at hparse
        rw [← hparse] at hprint
        exact ⟨hparse.symm, hprint⟩
      · rintro ⟨rfl, hprint⟩
        exact hprint

end Text

section Listed

variable {interface : Interface} {v4 : Ipv4Addr}

theorem slash_notMem_print (ip : IpAddr) : '/' ∉ ip.print := by
  cases ip with
  | v4 ip =>
      intro hmem
      rcases (parseIpv4_chars (parse_print ip)).2 '/' hmem with h | h <;>
        exact absurd h (by decide)
  | v6 ip => exact fun hmem => absurd (print_chars ip '/' hmem) (by decide)

theorem ipPart_text (address : KernelAddress) : ipPart address.text = address.ip.print :=
  takeWhile_separator (slash_notMem_print address.ip) _

/-- The address that the passes start from is the first one listed. -/
theorem findIpv4_listing (interface : Interface) :
    findIpv4 (listing interface) = firstIpv4 interface := by
  have hone : ∀ address : KernelAddress,
      (if (ipPart address.text).contains '.' then parseIpv4 (ipPart address.text)
        else none) =
      match address.ip with
      | .v4 ip => some ip
      | .v6 _ => none := by
    intro address
    rw [ipPart_text]
    cases address.ip with
    | v4 ip =>
        have hdot : ip.print.contains '.' = true := by
          rw [List.contains_iff_mem]
          exact (parseIpv4_chars (parse_print ip)).1
        rw [IpAddr.print, if_pos hdot, parse_print]
    | v6 ip =>
        have hnone : parseIpv4 ip.print = none := by
          cases hparse : parseIpv4 ip.print with
          | none => rfl
          | some v4 =>
              rcases (parseIpv4_chars hparse).2 ':' (colon_mem_print ip) with h | h <;>
                exact absurd h (by decide)
        rw [IpAddr.print, hnone, ite_self]
  induction interface with
  | nil => rfl
  | cons address rest ih =>
      rw [findIpv4, listing] at ih
      rw [findIpv4, listing, firstIpv4, List.findSome?_cons, ← firstIpv4, ← ih,
        List.filter_cons]
      obtain ⟨ip, prefixLen⟩ := address
      cases hkeep : keep ip with
      | false => cases ip <;> simp [hkeep]
      | true =>
          rw [if_pos rfl, List.map_cons, List.findSome?_cons, hone]
          cases ip <;> simp [hkeep]

/-- The derived address is kept in a listing. -/
theorem keep_ulaAddress (v4 : Ipv4Addr) : keep (.v6 (ulaAddress v4)) = true := by
  simp [keep, isUnicastLinkLocal, isLoopback6, isMulticast, isUnspecified6, ulaAddress]
  decide

/-- The derived text is among the listed ones. -/
theorem any_listing_iff (interface : Interface) (v4 : Ipv4Addr) :
    ((listing interface).any fun a => ipPart a = ipPart (ulaCidrFromIpv4 v4)) = true ↔
      (∃ address ∈ interface, address.ip = .v6 (ulaAddress v4)) ∧
        v4.c ≠ 0 ∧ v4.d ≠ 0 := by
  simp only [List.any_eq_true, listing, List.mem_map, List.mem_filter, ipPart_ulaCidr,
    decide_eq_true_eq]
  constructor
  · rintro ⟨_, ⟨address, ⟨hmem, -⟩, rfl⟩, htext⟩
    rw [ipPart_text, print_eq_ulaIp_iff] at htext
    exact ⟨⟨address, hmem, htext.1⟩, htext.2⟩
  · rintro ⟨⟨address, hmem, hip⟩, hoctets⟩
    have hkeep : keep address.ip = true := by rw [hip, keep_ulaAddress]
    refine ⟨address.text, ⟨address, ⟨hmem, hkeep⟩, rfl⟩, ?_⟩
    rw [ipPart_text, print_eq_ulaIp_iff]
    exact ⟨hip, hoctets⟩

theorem dropTarget_eq_some_iff (addrs : List Text) (target : Text) :
    dropTarget addrs = some target ↔
      ifaceHasSyntheticUla addrs = true ∧
        ∃ v4, findIpv4 addrs = some v4 ∧ target = ulaCidrFromIpv4 v4 := by
  rw [dropTarget, ifaceHasSyntheticUla]
  cases findIpv4 addrs with
  | none => simp
  | some v4 =>
      simp only [Option.ite_none_right_eq_some, Option.some.injEq, exists_eq_left']
      rw [@eq_comm _ target]

theorem ulaCidr_injective {left right : Ipv4Addr}
    (hula : ulaCidrFromIpv4 left = ulaCidrFromIpv4 right) : left = right := by
  have hparse := parseIpNet_ulaCidr left
  rw [hula, parseIpNet_ulaCidr, Option.some.injEq, KernelAddress.mk.injEq,
    IpAddr.v6.injEq] at hparse
  exact (ulaAddress_injective hparse.1).symm

/-- The derived address of `v4` is found. -/
theorem found_iff (hula : ∃ address ∈ interface, address.ip = .v6 (ulaAddress v4)) :
    dropTarget (listing interface) = some (ulaCidrFromIpv4 v4) ↔
      firstIpv4 interface = some v4 ∧ v4.c ≠ 0 ∧ v4.d ≠ 0 := by
  rw [dropTarget_eq_some_iff, ifaceHasSyntheticUla, findIpv4_listing]
  constructor
  · rintro ⟨hhas, other, hfirst, hcidr⟩
    rw [← ulaCidr_injective hcidr] at hfirst
    rw [hfirst] at hhas
    simp only [any_listing_iff] at hhas
    exact ⟨hfirst, hhas.2⟩
  · rintro ⟨hfirst, hoctets⟩
    refine ⟨?_, v4, hfirst, rfl⟩
    rw [hfirst]
    simp only [any_listing_iff]
    exact ⟨hula, hoctets⟩

end Listed

section Pass

/-- A pass that reports a public address alone does not see the derived one. -/
def Adopted (found : DualStackIpv6Outcome) (kernel : Kernel) : Prop :=
  found = .gua ∨ found = .guaPromoted →
    ifaceHasSyntheticUla (listing kernel.interface) = false

/-- The listing is that of the interface as it is. -/
def Fresh (addrs : List Text) (kernel : Kernel) : Prop := addrs = listing kernel.interface

theorem listAddresses_fresh :
    Triple calm (fun _ => True) listAddresses Fresh fun _ _ => True := by
  intro kernel _
  rw [listAddresses]
  cases kernel.next with
  | mk answer after =>
      cases answer with
      | done => exact rfl
      | failed => trivial
      | unsupported => trivial

/-- If nothing was dropped then there was nothing to drop, or it is still seen. -/
theorem dropSyntheticUla_spec (addrs : List Text) :
    Triple calm (Fresh addrs) (dropSyntheticUla addrs)
      (fun promoted kernel => promoted = true ∨ ifaceHasSyntheticUla addrs = true ∨
        Fresh addrs kernel) fun _ _ => True := by
  rw [dropSyntheticUla]
  cases htarget : dropTarget addrs with
  | none => exact Triple.pure fun kernel hfresh => .inr (.inr hfresh)
  | some synthetic =>
      have hhas := ((dropTarget_eq_some_iff addrs synthetic).mp htarget).1
      apply Triple.bind fun _ _ => True
      · exact Triple.outcome (Triple.always (fun _ _ => trivial) fun _ _ => trivial)
      · intro result
        cases result with
        | ok _ => exact Triple.pure fun _ _ => .inl rfl
        | error _ => exact Triple.pure fun _ _ => .inr (.inl hhas)

theorem adoptGua_adopted (addrs : List Text) :
    Triple calm (Fresh addrs) (adoptGua addrs) Adopted fun _ _ => True := by
  rw [adoptGua]
  apply Triple.bind _ (dropSyntheticUla_spec addrs)
  intro promoted
  apply Triple.bind fun seen kernel =>
    ifaceHasSyntheticUla seen = true ∨ Fresh seen kernel
  · cases promoted with
    | true =>
        exact listAddresses_fresh.weaken (fun _ _ => trivial) (fun _ _ => .inr) fun _ _ => id
    | false =>
        apply Triple.pure
        intro kernel hdrop
        exact hdrop.resolve_left Bool.false_ne_true
  · intro seen
    apply Triple.pure
    intro kernel hseen
    rw [Adopted, adoptOutcome]
    cases hhas : ifaceHasSyntheticUla seen with
    | true => simp
    | false =>
        rw [hhas] at hseen
        intro _
        rw [← hseen.resolve_left Bool.false_ne_true, hhas]

theorem waitForSlaac_adopted (tries : Nat) (addrs : List Text) :
    Triple calm (fun _ => True) (waitForSlaac tries addrs)
      (fun found kernel =>
        match found with
        | .inl found => Adopted found kernel
        | .inr _ => True) fun _ _ => True := by
  induction tries generalizing addrs with
  | zero => exact Triple.pure fun _ => id
  | succ tries ih =>
      rw [waitForSlaac]
      apply Triple.bind _ listAddresses_fresh
      intro seen
      cases ifaceHasGua seen with
      | true =>
          apply Triple.bind _ (adoptGua_adopted seen)
          intro found
          exact Triple.pure fun _ => id
      | false => exact (ih seen).weaken (fun _ _ => trivial) (fun _ _ => id) fun _ _ => id

theorem assignUla_adopted (addrs : List Text) :
    Triple calm (fun _ => True) (assignUla addrs) Adopted fun _ _ => True := by
  have hnot : ∀ found, found ≠ .gua → found ≠ .guaPromoted →
      ∀ kernel, True → Adopted found kernel := by
    intro found hgua hpromoted _ _ hfound
    exact absurd hfound (not_or.mpr ⟨hgua, hpromoted⟩)
  rw [assignUla]
  cases ifaceHasGlobalV6 addrs with
  | true => exact Triple.pure (hnot .ula (by decide) (by decide))
  | false =>
      rw [if_neg Bool.false_ne_true]
      cases findIpv4 addrs with
      | none => exact Triple.pure (hnot .noIpv4 (by decide) (by decide))
      | some v4 =>
          apply Triple.bind fun _ _ => True
          · exact Triple.outcome (Triple.always (fun _ _ => trivial) fun _ _ => trivial)
          · intro result
            cases result with
            | ok _ => exact Triple.pure (hnot .ula (by decide) (by decide))
            | error _ => exact Triple.pure (hnot .noIpv4 (by decide) (by decide))

/-- Whatever happens on the interface during a pass: when it reports a public address
alone, the derived one is not seen on the interface as it is then. -/
theorem ensureStableUla_adopted (ipv6Enabled waitForRa : Bool) :
    Triple calm (fun _ => True) (ensureStableUla ipv6Enabled waitForRa) Adopted
      fun _ _ => True := by
  rw [ensureStableUla]
  split
  · apply Triple.pure
    intro _ _ hfound
    rcases hfound with h | h <;> cases h
  · apply Triple.bind _ listAddresses_fresh
    intro addrs
    cases ifaceHasGua addrs with
    | true => exact adoptGua_adopted addrs
    | false =>
        rw [if_neg Bool.false_ne_true]
        apply Triple.bind _
          ((waitForSlaac_adopted _ addrs).weaken (fun _ _ => trivial) (fun _ _ => id)
            fun _ _ => id)
        intro found
        cases found with
        | inl found => exact Triple.pure fun _ => id
        | inr seen => exact assignUla_adopted seen

end Pass

section Recognised

/-- What an assignment that goes through puts on the interface. -/
theorem addAddress_ulaCidr (v4 : Ipv4Addr) {kernel after : Kernel}
    (hanswer : kernel.next.1 = .done)
    (hrun : addAddress (ulaCidrFromIpv4 v4) calm kernel = .ok () after) :
    ⟨.v6 (ulaAddress v4), 64⟩ ∈ after.interface := by
  rw [addAddress, parseIpNet_ulaCidr] at hrun
  cases hnext : kernel.next with
  | mk answer rest =>
      rw [hnext] at hanswer hrun
      simp only at hanswer
      rw [hanswer] at hrun
      cases hrun
      simp

/-- The derived address of `v4`, which is on the interface, is seen and is the one to be
dropped, and no pass that ends with this interface reports a public address alone. -/
def Recognised (v4 : Ipv4Addr) (interface : Interface) : Prop :=
  ifaceHasSyntheticUla (listing interface) = true ∧
    dropTarget (listing interface) = some (ulaCidrFromIpv4 v4) ∧
    ∀ (ipv6Enabled waitForRa : Bool) (start kernel : Kernel)
      (found : DualStackIpv6Outcome),
      ensureStableUla ipv6Enabled waitForRa calm start = .ok found kernel →
        kernel.interface = interface → found ≠ .gua ∧ found ≠ .guaPromoted

/-- The derived address of `v4` is recognised exactly when the last two octets of `v4` are
not zero and `v4` is the first IPv4 address of the interface. -/
theorem recognised_iff (v4 : Ipv4Addr) (interface : Interface)
    (hula : ∃ address ∈ interface, address.ip = .v6 (ulaAddress v4)) :
    Recognised v4 interface ↔
      firstIpv4 interface = some v4 ∧ v4.c ≠ 0 ∧ v4.d ≠ 0 := by
  rw [← found_iff hula]
  constructor
  · exact fun hrecognised => hrecognised.2.1
  · intro hfound
    have hhas := ((dropTarget_eq_some_iff _ _).mp hfound).1
    refine ⟨hhas, hfound, ?_⟩
    intro ipv6Enabled waitForRa start kernel found hrun hinterface
    have hadopted :=
      (ensureStableUla_adopted ipv6Enabled waitForRa).of_ok trivial hrun
    rw [Adopted, hinterface, hhas] at hadopted
    exact not_or.mp fun hgua => Bool.true_eq_false.mp (hadopted hgua)

end Recognised

section Lab

def labRouted : Ipv4Addr := { a := 10, b := 1, c := 1, d := 173 }

def labFlat : Ipv4Addr := { a := 10, b := 0, c := 0, d := 5 }

def labGua : Ipv6Addr where
  segments := [0x2001, 0xdb8, 0, 1, 0, 0, 0, 0x15]
  length_eq := Eq.refl 8

/-- A dual-stack interface that has kept its derived address. -/
def dualStack (v4 : Ipv4Addr) : Interface :=
  [⟨.v4 v4, 24⟩, ⟨.v6 (ulaAddress v4), 64⟩, ⟨.v6 labGua, 64⟩]

theorem recognised_lab : Recognised labRouted (dualStack labRouted) :=
  (recognised_iff labRouted (dualStack labRouted)
    ⟨⟨.v6 (ulaAddress labRouted), 64⟩, by simp [dualStack], rfl⟩).mpr (by decide)

/-- A pass puts the derived address of 10.0.0.5 on the interface, and once a public
address is there the next pass reports it alone. -/
theorem ula_unseen :
    ensureStableUla true false calm ⟨[⟨.v4 labFlat, 24⟩], []⟩ =
        .ok .ula ⟨[⟨.v4 labFlat, 24⟩, ⟨.v6 (ulaAddress labFlat), 64⟩], []⟩ ∧
      ensureStableUla true false calm ⟨dualStack labFlat, []⟩ =
        .ok .gua ⟨dualStack labFlat, []⟩ ∧
      ¬ Recognised labFlat (dualStack labFlat) := by
  have hgua : ensureStableUla true false calm ⟨dualStack labFlat, []⟩ =
      .ok .gua ⟨dualStack labFlat, []⟩ := rfl
  refine ⟨rfl, hgua, ?_⟩
  intro hrecognised
  exact (hrecognised.2.2 true false _ _ .gua hgua rfl).1 rfl

end Lab

end PertiskKos.Net
