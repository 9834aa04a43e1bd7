import PertiskKos.Library.Hex
import PertiskKos.Library.Ip

/-!
# IPv6 addresses

An address is eight groups of sixteen bits.  Its canonical text is in lower-case
hexadecimal and leaves out the first of the longest runs of zero groups; reading takes
any text in which at most one run is left out.
-/

namespace PertiskKos.Ip

open Strings Hex

structure Ipv6Addr where
  segments : List UInt16
  length_eq : segments.length = 8
  deriving DecidableEq

/-- An address of either family. -/
inductive IpAddr where
  | v4 (ip : Ipv4Addr)
  | v6 (ip : Ipv6Addr)
  deriving DecidableEq

def parseGroup (text : Text) : Option UInt16 :=
  if text ≠ [] ∧ text.length ≤ 4 ∧ text.all isHexDigit then
    some (UInt16.ofNat (ofHex text))
  else none

def Ipv4Addr.groups (ip : Ipv4Addr) : List UInt16 :=
  [ip.a.toUInt16 * 256 + ip.b.toUInt16, ip.c.toUInt16 * 256 + ip.d.toUInt16]

/-- The groups before a run that is left out. -/
def parseHead (text : Text) : Option (List UInt16) :=
  if text = [] then some [] else (text.splitOn ':').mapM parseGroup

/-- The last group may be an IPv4 address, which stands for two. -/
def parsePieces : List Text → Option (List UInt16)
  | [] => some []
  | [last] =>
      match parseIpv4 last with
      | some ip => some ip.groups
      | none => (parseGroup last).map ([·])
  | piece :: rest => do pure ((← parseGroup piece) :: (← parsePieces rest))

def parseTail (text : Text) : Option (List UInt16) :=
  if text = [] then some [] else parsePieces (text.splitOn ':')

def ofSegments (segments : List UInt16) : Option Ipv6Addr :=
  if hlength : segments.length = 8 then some ⟨segments, hlength⟩ else none

/-- The address in which zeros stand for the groups that are left out. -/
def fillZeros (head tail : List UInt16) : Option Ipv6Addr :=
  if head.length + tail.length ≤ 7 then
    ofSegments (head ++ List.replicate (8 - head.length - tail.length) 0 ++ tail)
  else none

def parseIpv6 (text : Text) : Option Ipv6Addr :=
  match cut [':', ':'] text with
  | some (head, tail) => do fillZeros (← parseHead head) (← parseTail tail)
  | none => (parseTail text).bind ofSegments

/-- A stretch of groups. -/
structure Span where
  start : Nat
  len : Nat
  deriving DecidableEq

/-- The loop that looks for the longest run of zeros: the run that ends at group `i`, and
the longest so far. -/
def longestSpan (i : Nat) (current longest : Span) : List UInt16 → Span
  | [] => longest
  | segment :: rest =>
      if segment = 0 then
        let next : Span :=
          { start := if current.len = 0 then i else current.start, len := current.len + 1 }
        longestSpan (i + 1) next (if longest.len < next.len then next else longest) rest
      else longestSpan (i + 1) ⟨0, 0⟩ longest rest

def zeroSpan (segments : List UInt16) : Span := longestSpan 0 ⟨0, 0⟩ ⟨0, 0⟩ segments

def printGroups (segments : List UInt16) : Text :=
  joinWith ':' (segments.map fun segment => hex segment.toNat)

namespace Ipv6Addr

def toIpv4Mapped (ip : Ipv6Addr) : Option Ipv4Addr :=
  match ip.segments with
  | [0, 0, 0, 0, 0, 0xffff, high, low] =>
      some
        { a := (high / 256).toUInt8, b := high.toUInt8
          c := (low / 256).toUInt8, d := low.toUInt8 }
  | _ => none

/-- The canonical text. -/
def print (ip : Ipv6Addr) : Text :=
  match ip.toIpv4Mapped with
  | some v4 => [':', ':', 'f', 'f', 'f', 'f', ':'] ++ v4.print
  | none =>
      let zeroes := zeroSpan ip.segments
      if 1 < zeroes.len then
        printGroups (ip.segments.take zeroes.start) ++ ':' :: ':' ::
          printGroups (ip.segments.drop (zeroes.start + zeroes.len))
      else printGroups ip.segments

end Ipv6Addr

def IpAddr.print : IpAddr → Text
  | .v4 ip => ip.print
  | .v6 ip => ip.print

section Groups

theorem length_hex (segment : UInt16) : (hex segment.toNat).length ≤ 4 :=
  (Nat.length_toDigits_le_iff (by decide) (by decide)).mpr segment.toNat_lt

theorem colon_notMem_hex (n : Nat) : ':' ∉ hex n :=
  fun hmem => absurd (isHexDigit_of_mem_hex hmem) (by decide)

theorem dot_notMem_hex (n : Nat) : '.' ∉ hex n :=
  fun hmem => absurd (isHexDigit_of_mem_hex hmem) (by decide)

theorem parseGroup_hex (segment : UInt16) : parseGroup (hex segment.toNat) = some segment := by
  have hall : (hex segment.toNat).all isHexDigit = true :=
    List.all_eq_true.mpr fun _ => isHexDigit_of_mem_hex
  rw [parseGroup, if_pos ⟨hex_ne_nil _, length_hex segment, hall⟩, ofHex_hex,
    UInt16.ofNat_toNat]

variable {group : Text} {segments : List UInt16}

theorem cut_colons_cons {c : Char} {text : Text} (hc : c ≠ ':') :
    cut [':', ':'] (c :: text) =
      (cut [':', ':'] text).map fun around => (c :: around.1, around.2) := by
  have hprefix : [':', ':'].isPrefixOf? (c :: text) = none := by
    simp [List.isPrefixOf?, hc.symm]
  rw [cut, hprefix]

/-- Two colons are looked for behind what has none. -/
theorem cut_colons_append (hgroup : ':' ∉ group) (text : Text) :
    cut [':', ':'] (group ++ text) =
      (cut [':', ':'] text).map fun around => (group ++ around.1, around.2) := by
  induction group with
  | nil => simp
  | cons c rest ih =>
      rw [List.mem_cons, not_or] at hgroup
      rw [List.cons_append, cut_colons_cons (Ne.symm hgroup.1), ih hgroup.2, Option.map_map]
      rfl

theorem cut_colons_single {c : Char} {text : Text} (hc : c ≠ ':') :
    cut [':', ':'] (':' :: c :: text) =
      (cut [':', ':'] (c :: text)).map fun around => (':' :: around.1, around.2) := by
  have hprefix : [':', ':'].isPrefixOf? (':' :: c :: text) = none := by
    simp [List.isPrefixOf?, hc.symm]
  rw [cut, hprefix]

theorem cut_colons_group (hnil : group ≠ []) (hgroup : ':' ∉ group) (text : Text) :
    cut [':', ':'] (':' :: (group ++ text)) =
      (cut [':', ':'] (group ++ text)).map fun around => (':' :: around.1, around.2) := by
  cases group with
  | nil => exact absurd rfl hnil
  | cons c rest =>
      have hc : c ≠ ':' := fun h => hgroup (by rw [h]; exact List.mem_cons_self)
      exact cut_colons_single hc

theorem printGroups_cons (first second : UInt16) (rest : List UInt16) :
    printGroups (first :: second :: rest) =
      hex first.toNat ++ ':' :: printGroups (second :: rest) := by
  simp [printGroups, joinWith, List.intercalate_cons_cons]

theorem printGroups_head (first : UInt16) (rest : List UInt16) :
    ∃ tail, printGroups (first :: rest) = hex first.toNat ++ tail := by
  cases rest with
  | nil => exact ⟨[], by simp [printGroups, joinWith]⟩
  | cons second rest => exact ⟨_, printGroups_cons first second rest⟩

/-- Groups put before a text that starts with two colons, or before nothing. -/
theorem cut_colons_groups (segments : List UInt16) {text : Text} {found : Option Text}
    (hfound : cut [':', ':'] text = found.map fun after => ([], after)) :
    cut [':', ':'] (printGroups segments ++ text) =
      found.map fun after => (printGroups segments, after) := by
  induction segments with
  | nil => simpa [printGroups, joinWith] using hfound
  | cons first rest ih =>
      cases rest with
      | nil =>
          have hsingle : printGroups [first] = hex first.toNat := by
            simp [printGroups, joinWith]
          rw [hsingle, cut_colons_append (colon_notMem_hex _), hfound, Option.map_map]
          simp [Function.comp_def]
      | cons second rest =>
          obtain ⟨tail, htail⟩ := printGroups_head second rest
          have hstep := cut_colons_group (hex_ne_nil second.toNat) (colon_notMem_hex _)
            (tail ++ text)
          rw [← List.append_assoc, ← htail, ih, Option.map_map] at hstep
          rw [printGroups_cons, List.append_assoc, cut_colons_append (colon_notMem_hex _),
            List.cons_append, hstep, Option.map_map]
          rfl

/-- The text before the left out groups is found. -/
theorem cut_compressed (segments : List UInt16) (after : Text) :
    cut [':', ':'] (printGroups segments ++ ':' :: ':' :: after) =
      some (printGroups segments, after) :=
  @cut_colons_groups segments _ (some after) (by simp [cut, List.isPrefixOf?])

theorem cut_printGroups (segments : List UInt16) :
    cut [':', ':'] (printGroups segments) = none := by
  simpa using @cut_colons_groups segments [] none rfl

theorem splitOn_printGroups (hsegments : segments ≠ []) :
    (printGroups segments).splitOn ':' = segments.map fun segment => hex segment.toNat := by
  apply List.splitOn_intercalate
  · intro text htext
    obtain ⟨segment, -, rfl⟩ := List.mem_map.mp htext
    exact colon_notMem_hex _
  · simpa using hsegments

theorem printGroups_ne_nil (hsegments : segments ≠ []) : printGroups segments ≠ [] := by
  cases segments with
  | nil => exact absurd rfl hsegments
  | cons first rest =>
      obtain ⟨tail, htail⟩ := printGroups_head first rest
      simp [htail, hex_ne_nil]

theorem parseIpv4_hex (n : Nat) : parseIpv4 (hex n) = none := by
  cases hparse : parseIpv4 (hex n) with
  | none => rfl
  | some ip => exact absurd (parseIpv4_chars hparse).1 (dot_notMem_hex n)

theorem mapM_parseGroup (segments : List UInt16) :
    (segments.map fun segment => hex segment.toNat).mapM parseGroup = some segments := by
  induction segments with
  | nil => rfl
  | cons first rest ih => simp [List.mapM_cons, parseGroup_hex, ih]

theorem parsePieces_hex (segments : List UInt16) :
    parsePieces (segments.map fun segment => hex segment.toNat) = some segments := by
  induction segments with
  | nil => rfl
  | cons first rest ih =>
      cases rest with
      | nil => simp [parsePieces, parseIpv4_hex, parseGroup_hex]
      | cons second rest =>
          rw [List.map_cons] at ih
          rw [List.map_cons, List.map_cons, parsePieces, ih, parseGroup_hex]
          · rfl
          · simp

theorem parseHead_printGroups (segments : List UInt16) :
    parseHead (printGroups segments) = some segments := by
  rw [parseHead]
  split
  · next hnil =>
      cases segments with
      | nil => rfl
      | cons first rest => exact absurd hnil (printGroups_ne_nil (by simp))
  · next hne =>
      have hsegments : segments ≠ [] := fun h => hne (by rw [h]; rfl)
      rw [splitOn_printGroups hsegments, mapM_parseGroup]

theorem parseTail_printGroups (segments : List UInt16) :
    parseTail (printGroups segments) = some segments := by
  rw [parseTail]
  split
  · next hnil =>
      cases segments with
      | nil => rfl
      | cons first rest => exact absurd hnil (printGroups_ne_nil (by simp))
  · next hne =>
      have hsegments : segments ≠ [] := fun h => hne (by rw [h]; rfl)
      rw [splitOn_printGroups hsegments, parsePieces_hex]

/-- Groups on both sides of two colons are read with zeros between them. -/
theorem parse_compressed (head tail : List UInt16) :
    parseIpv6 (printGroups head ++ ':' :: ':' :: printGroups tail) =
      fillZeros head tail := by
  simp [parseIpv6, cut_compressed, parseHead_printGroups, parseTail_printGroups]

theorem parse_printGroups (segments : List UInt16) :
    parseIpv6 (printGroups segments) = ofSegments segments := by
  rw [parseIpv6, cut_printGroups, parseTail_printGroups]
  rfl

theorem printGroups_injective {left right : List UInt16}
    (hprint : printGroups left = printGroups right) : left = right := by
  have hparse := parseHead_printGroups left
  rw [hprint, parseHead_printGroups, Option.some.injEq] at hparse
  exact hparse.symm

end Groups

section Zeros

variable {segments rest : List UInt16} {span current longest : Span} {i : Nat}

/-- Every group of the stretch is zero. -/
def IsZeros (segments : List UInt16) (span : Span) : Prop :=
  ∀ j, span.start ≤ j → j < span.start + span.len → segments[j]? = some 0

theorem isZeros_empty (start : Nat) : IsZeros segments ⟨start, 0⟩ := by
  intro j hstart hend
  simp only at hstart hend
  omega

theorem isZeros_extend (hcurrent : IsZeros segments current)
    (hends : current.len ≠ 0 → current.start + current.len = i)
    (hzero : segments[i]? = some 0) :
    IsZeros segments
      { start := if current.len = 0 then i else current.start, len := current.len + 1 } := by
  intro j hstart hend
  simp only at hstart hend
  by_cases hj : j = i
  · rw [hj, hzero]
  · split at hstart <;> rename_i hlen
    · rw [if_pos hlen] at hend
      omega
    · rw [if_neg hlen] at hend
      have hbefore := hends hlen
      exact hcurrent j hstart (by omega)

theorem ite_isZeros {cond : Prop} [Decidable cond] (hleft : IsZeros segments current)
    (hright : IsZeros segments longest) :
    IsZeros segments (if cond then current else longest) := by
  split
  · exact hleft
  · exact hright

/-- What the loop finds is a run of zeros. -/
theorem isZeros_longestSpan (hrest : segments.drop i = rest)
    (hcurrent : IsZeros segments current)
    (hends : current.len ≠ 0 → current.start + current.len = i)
    (hlongest : IsZeros segments longest) :
    IsZeros segments (longestSpan i current longest rest) := by
  induction rest generalizing i current longest with
  | nil => exact hlongest
  | cons segment rest ih =>
      have hget : segments[i]? = some segment := by
        rw [← List.head?_drop, hrest, List.head?_cons]
      have htail : segments.drop (i + 1) = rest := by
        rw [← List.tail_drop, hrest, List.tail_cons]
      rw [longestSpan]
      split
      · next hzero =>
          have hnext := isZeros_extend hcurrent hends (hzero ▸ hget)
          apply ih htail hnext
          · intro _
            simp only
            split
            · omega
            · next hlen =>
                have hbefore := hends hlen
                omega
          · exact ite_isZeros hnext hlongest
      · exact ih htail (isZeros_empty 0) (fun h => absurd rfl h) hlongest

theorem isZeros_zeroSpan (segments : List UInt16) :
    IsZeros segments (zeroSpan segments) :=
  isZeros_longestSpan rfl (isZeros_empty 0) (fun h => absurd rfl h) (isZeros_empty 0)

theorem take_zeros_drop (hzeros : IsZeros segments span) :
    segments.take span.start ++ List.replicate span.len 0 ++
      segments.drop (span.start + span.len) = segments := by
  have hmiddle : (segments.drop span.start).take span.len = List.replicate span.len 0 := by
    apply List.ext_getElem?
    intro j
    by_cases hj : j < span.len
    · rw [List.getElem?_take_of_lt hj, List.getElem?_drop,
        hzeros (span.start + j) (by omega) (by omega), List.getElem?_replicate_of_lt hj]
    · rw [List.getElem?_eq_none (by simp; omega), List.getElem?_eq_none (by simp; omega)]
  calc
    _ = segments.take span.start ++ ((segments.drop span.start).take span.len ++
          (segments.drop span.start).drop span.len) := by
        rw [hmiddle, List.drop_drop, List.append_assoc]
    _ = segments := by rw [List.take_append_drop, List.take_append_drop]

theorem isZeros_bound (hzeros : IsZeros segments span) (hlen : span.len ≠ 0) :
    span.start + span.len ≤ segments.length := by
  have hlast := hzeros (span.start + span.len - 1) (by omega) (by omega)
  have hlt := (List.getElem?_eq_some_iff.mp hlast).1
  omega

end Zeros

section RoundTrip

variable {ip left right : Ipv6Addr}

theorem ofSegments_segments (ip : Ipv6Addr) : ofSegments ip.segments = some ip :=
  dif_pos ip.length_eq

theorem fillZeros_segments {span : Span} (hzeros : IsZeros ip.segments span)
    (hlen : span.len ≠ 0) :
    fillZeros (ip.segments.take span.start) (ip.segments.drop (span.start + span.len)) =
      some ip := by
  have hbound := isZeros_bound hzeros hlen
  have hlength := ip.length_eq
  have hhead : (ip.segments.take span.start).length = span.start := by
    rw [List.length_take]
    omega
  have htail : (ip.segments.drop (span.start + span.len)).length =
      8 - (span.start + span.len) := by
    rw [List.length_drop, hlength]
  have hzero : 8 - span.start - (8 - (span.start + span.len)) = span.len := by omega
  rw [fillZeros, hhead, htail, if_pos (by omega), hzero,
    take_zeros_drop hzeros, ofSegments_segments]

theorem segments_of_mapped {v4 : Ipv4Addr} (hmapped : ip.toIpv4Mapped = some v4) :
    ip.segments = [0, 0, 0, 0, 0, 0xffff] ++ v4.groups := by
  rw [Ipv6Addr.toIpv4Mapped] at hmapped
  split at hmapped
  · next high low hsegments =>
      cases hmapped
      have hjoin : ∀ s : UInt16, (s / 256).toUInt8.toUInt16 * 256 + s.toUInt8.toUInt16 = s := by
        intro s
        have hs := s.toNat_lt
        rw [← UInt16.toNat_inj]
        simp only [UInt16.toNat_add, UInt16.toNat_mul, UInt8.toNat_toUInt16,
          UInt16.toNat_toUInt8, UInt16.toNat_div]
        simp
        omega
      rw [hsegments, Ipv4Addr.groups, hjoin, hjoin]
      rfl
  · cases hmapped

theorem colon_notMem_ipv4 (v4 : Ipv4Addr) : ':' ∉ v4.print := by
  intro hmem
  rcases (parseIpv4_chars (parse_print v4)).2 ':' hmem with h | h <;>
    exact absurd h (by decide)

theorem parse_mapped (v4 : Ipv4Addr) :
    parseIpv6 ([':', ':', 'f', 'f', 'f', 'f', ':'] ++ v4.print) =
      fillZeros [] (0xffff :: v4.groups) := by
  have hcut : cut [':', ':'] ([':', ':', 'f', 'f', 'f', 'f', ':'] ++ v4.print) =
      some ([], ['f', 'f', 'f', 'f'] ++ ':' :: v4.print) := cut_compressed [] _
  have hsplit : (['f', 'f', 'f', 'f'] ++ ':' :: v4.print).splitOn ':' =
      [['f', 'f', 'f', 'f'], v4.print] := by
    have hjoin : ['f', 'f', 'f', 'f'] ++ ':' :: v4.print =
        List.intercalate [':'] [['f', 'f', 'f', 'f'], v4.print] := by
      simp [List.intercalate_cons_cons]
    rw [hjoin]
    apply List.splitOn_intercalate
    · intro text htext
      rcases List.mem_pair.mp htext with rfl | rfl
      · decide
      · exact colon_notMem_ipv4 v4
    · simp
  have htail : parseTail (['f', 'f', 'f', 'f'] ++ ':' :: v4.print) =
      some (0xffff :: v4.groups) := by
    have hgroup : parseGroup ['f', 'f', 'f', 'f'] = some 0xffff := by decide
    rw [parseTail, if_neg (by simp), hsplit, parsePieces, hgroup, parsePieces, parse_print]
    · rfl
    · simp
  rw [parseIpv6, hcut]
  simp only [htail]
  rfl

/-- An address is read back from its canonical text. -/
theorem parseIpv6_print (ip : Ipv6Addr) : parseIpv6 ip.print = some ip := by
  rw [Ipv6Addr.print]
  cases hmapped : ip.toIpv4Mapped with
  | some v4 =>
      have hzeros : IsZeros ip.segments ⟨0, 5⟩ := by
        intro j _ hj
        simp only at hj
        rw [segments_of_mapped hmapped, List.getElem?_append_left (by simp; omega)]
        interval_cases j <;> rfl
      have hfill := fillZeros_segments hzeros (by simp)
      rw [segments_of_mapped hmapped] at hfill
      simp only
      rw [parse_mapped]
      exact hfill
  | none =>
      simp only
      split
      · next hlen =>
          rw [parse_compressed]
          exact fillZeros_segments (isZeros_zeroSpan _) (by omega)
      · rw [parse_printGroups, ofSegments_segments]

theorem colon_mem_print (ip : Ipv6Addr) : ':' ∈ ip.print := by
  rw [Ipv6Addr.print]
  split
  · simp
  · simp only
    split
    · simp
    · obtain ⟨segments, hlength⟩ := ip
      match segments, hlength with
      | first :: second :: rest, _ => simp [printGroups_cons]

/-- The characters of canonical texts. -/
theorem print_chars (ip : Ipv6Addr) : ∀ c ∈ ip.print, isIpv6Char c = true := by
  have hgroups : ∀ segments, ∀ c ∈ printGroups segments, isIpv6Char c = true := by
    intro segments c hc
    rcases mem_joinWith hc with rfl | ⟨text, htext, hmem⟩
    · decide
    · obtain ⟨segment, -, rfl⟩ := List.mem_map.mp htext
      have hdigit := isHexDigit_of_mem_hex hmem
      rw [isHexDigit] at hdigit
      rw [isIpv6Char, hdigit, Bool.true_or, Bool.true_or]
  intro c hc
  rw [Ipv6Addr.print] at hc
  split at hc
  · next v4 _ =>
      rcases List.mem_append.mp hc with hfixed | hv4
      · have hall : ∀ c ∈ [':', ':', 'f', 'f', 'f', 'f', ':'], isIpv6Char c = true := by
          decide
        exact hall c hfixed
      · rcases (parseIpv4_chars (parse_print v4)).2 c hv4 with hdigit | rfl
        · simp [isIpv6Char, hdigit]
        · decide
  · simp only at hc
    split at hc
    · rcases List.mem_append.mp hc with hhead | hrest
      · exact hgroups _ c hhead
      · simp only [List.mem_cons] at hrest
        rcases hrest with rfl | rfl | htail
        · decide
        · decide
        · exact hgroups _ c htail
    · exact hgroups _ c hc

end RoundTrip

end PertiskKos.Ip
