import PertiskKos.Etcd.Manifest
import PertiskKos.Library.Ip
import PertiskKos.Library.Lines
import PertiskKos.Library.Search

/-!
# What a rewriting of addresses does to the lines of a manifest

Addresses consist of digits and dots.  Line ends and the names of flags have neither, so a
rewriting acts on each line by itself, finds each flag on the line where it was, and acts
on what follows the flag.
-/

namespace PertiskKos.Etcd

open Strings Ip Lines

/-- No character of an address is in the text. -/
def Plain (text : Text) : Prop := ∀ c ∈ text, c.isDigit = false ∧ c ≠ '.'

instance (text : Text) : Decidable (Plain text) := List.decidableBAll _ text

/-- The first line on which a flag is found. -/
def flagLine (yaml flag : Text) : Option Text := (lines yaml).find? (contains flag)

section Lines

/-- The lines of a text have its characters, without the line ends. -/
theorem mem_lines {text line : Text} (htext : '\r' ∉ text) (hmem : line ∈ lines text) :
    '\n' ∉ line ∧ '\r' ∉ line := by
  induction text using pieceByPiece '\n' with
  | last text hfeed =>
      rw [lines_of_notMem hfeed] at hmem
      split at hmem
      · cases hmem
      · rw [List.mem_singleton.mp hmem]
        exact ⟨hfeed, htext⟩
  | next first rest hfeed ih =>
      have hfirst : '\r' ∉ first := fun h => htext (List.mem_append_left _ h)
      have hrest : '\r' ∉ rest := fun h =>
        htext (List.mem_append_right _ (List.mem_cons_of_mem _ h))
      rw [lines_cons hfeed hfirst] at hmem
      rcases List.mem_cons.mp hmem with rfl | hlater
      · exact ⟨hfeed, hfirst⟩
      · exact ih hrest hlater

/-- A flag is read off the line on which it is found. -/
theorem etcdFlagValue_of_flagLine {yaml flag line value : Text}
    (hline : flagLine yaml flag = some line) (hvalue : flagOf flag line = some value) :
    etcdFlagValue yaml flag = some value := by
  rw [flagLine, List.find?_eq_some_iff_append] at hline
  obtain ⟨-, before, after, hlines, hbefore⟩ := hline
  have hnone : before.findSome? (flagOf flag) = none := by
    rw [List.findSome?_eq_none_iff]
    intro other hother
    have hnot := hbefore other hother
    rw [Bool.not_eq_true', Bool.eq_false_iff, ne_eq, contains_iff] at hnot
    exact flagOf_eq_none hnot
  rw [etcdFlagValue, hlines, List.findSome?_append, hnone, List.findSome?_cons, hvalue]
  rfl

end Lines

section Rewrite

variable (old new : Address)

theorem replaceIpToken_nil : replaceIpToken [] old.text new.text = [] :=
  replaceIpToken_noDot old new List.not_mem_nil

theorem replaceIpToken_cons {c : Char} (hdigit : c.isDigit = false) (hdot : c ≠ '.')
    (right : Text) : replaceIpToken (c :: right) old.text new.text =
      c :: replaceIpToken right old.text new.text := by
  have hsplit := replaceIpToken_split old new c hdigit hdot [] right
  rwa [List.nil_append, replaceIpToken_nil, List.nil_append] at hsplit

theorem replaceIpToken_plain_append {flag : Text} (hplain : Plain flag) (right : Text) :
    replaceIpToken (flag ++ right) old.text new.text =
      flag ++ replaceIpToken right old.text new.text := by
  induction flag with
  | nil => rfl
  | cons c flag ih =>
      obtain ⟨hdigit, hdot⟩ := hplain c List.mem_cons_self
      rw [List.cons_append, replaceIpToken_cons old new hdigit hdot,
        ih fun other hmem => hplain other (List.mem_cons_of_mem _ hmem), List.cons_append]

theorem replaceIpToken_eq_nil {text : Text} :
    replaceIpToken text old.text new.text = [] ↔ text = [] := by
  constructor
  · intro hnil
    by_contra hne
    exact replaceIpToken_ne_nil new.ne_nil hne hnil
  · rintro rfl
    exact replaceIpToken_nil old new

theorem notMem_replaceIpToken {text : Text} {c : Char} (hdigit : c.isDigit = false)
    (hdot : c ≠ '.') (htext : c ∉ text) : c ∉ replaceIpToken text old.text new.text := by
  intro hmem
  rcases mem_replaceIpToken hmem with hold | hnew
  · exact htext hold
  · exact new.notMem hdigit hdot hnew

/-- A pattern does not reach over characters that it does not have. -/
theorem infix_over {pattern run : Text} (hnil : pattern ≠ []) (hrun : run ≠ [])
    (hpattern : ∀ c ∈ run, c ∉ pattern) (left right : Text) :
    pattern <:+: left ++ run ++ right ↔ pattern <:+: left ∨ pattern <:+: right := by
  induction run generalizing left with
  | nil => exact absurd rfl hrun
  | cons c run ih =>
      have hc := hpattern c List.mem_cons_self
      rw [List.append_assoc, List.cons_append, infix_separator_iff hnil hc]
      by_cases hlast : run = []
      · subst hlast
        rfl
      · have hrest := ih hlast (fun other hmem => hpattern other (List.mem_cons_of_mem _ hmem)) []
        have hempty : ¬ pattern <:+: [] := fun hoccurs => hnil (List.infix_nil.mp hoccurs)
        rw [List.nil_append] at hrest
        rw [hrest, or_iff_right hempty]

/-- A rewriting neither makes nor destroys an occurrence of a flag. -/
theorem infix_replaceIpToken {flag : Text} (hnil : flag ≠ []) (hplain : Plain flag)
    (text : Text) : flag <:+: replaceIpToken text old.text new.text ↔ flag <:+: text := by
  have hnot : ∀ address : Address, ∀ c ∈ address.text, c ∉ flag := by
    intro address c hmem hflag
    obtain ⟨hdigit, hdot⟩ := hplain c hflag
    exact address.notMem hdigit hdot hmem
  by_cases hsame : old.text = new.text
  · simp [replaceIpToken, hsame]
  · induction hlength : text.length using Nat.strong_induction_on generalizing text with
    | _ length ih =>
        rw [replaceIpToken_cut old.ne_nil hsame]
        cases hcut : cut old.text text with
        | none => rfl
        | some around =>
            obtain ⟨before, after⟩ := around
            have htext := cut_append hcut
            have hpos := List.length_pos_of_ne_nil old.ne_nil
            have hparts := congrArg List.length htext
            simp only [List.length_append] at hparts
            have htoken : token old.text new.text before after ≠ [] ∧
                ∀ c ∈ token old.text new.text before after, c ∉ flag := by
              rw [token]
              split
              · exact ⟨new.ne_nil, hnot new⟩
              · exact ⟨old.ne_nil, hnot old⟩
            have hrest : flag <:+: replaceIpToken after old.text new.text ↔ flag <:+: after :=
              ih after.length (by omega) after rfl
            rw [infix_over hnil htoken.1 htoken.2, hrest, htext,
              infix_over hnil old.ne_nil (hnot old)]

theorem contains_replaceIpToken {flag : Text} (hnil : flag ≠ []) (hplain : Plain flag)
    (text : Text) :
    contains flag (replaceIpToken text old.text new.text) = contains flag text := by
  rw [Bool.eq_iff_iff, contains_iff, contains_iff]
  exact infix_replaceIpToken old new hnil hplain text

/-- A rewriting acts on each line by itself. -/
theorem lines_replaceIpToken {text : Text} (htext : '\r' ∉ text) :
    lines (replaceIpToken text old.text new.text) =
      (lines text).map fun line => replaceIpToken line old.text new.text := by
  induction text using pieceByPiece '\n' with
  | last text hfeed =>
      have hkept : '\n' ∉ replaceIpToken text old.text new.text :=
        notMem_replaceIpToken old new (by decide) (by decide) hfeed
      rw [lines_of_notMem hkept, lines_of_notMem hfeed]
      by_cases hnil : text = []
      · rw [if_pos hnil, if_pos ((replaceIpToken_eq_nil old new).mpr hnil)]
        rfl
      · rw [if_neg hnil, if_neg (mt (replaceIpToken_eq_nil old new).mp hnil)]
        rfl
  | next line rest hfeed ih =>
      have hline : '\r' ∉ line := fun hmem => htext (List.mem_append_left _ hmem)
      have hrest : '\r' ∉ rest := fun hmem =>
        htext (List.mem_append_right _ (List.mem_cons_of_mem _ hmem))
      have hfeedKept : '\n' ∉ replaceIpToken line old.text new.text :=
        notMem_replaceIpToken old new (by decide) (by decide) hfeed
      have hreturnKept : '\r' ∉ replaceIpToken line old.text new.text :=
        notMem_replaceIpToken old new (by decide) (by decide) hline
      rw [replaceIpToken_split old new '\n' (by decide) (by decide),
        lines_cons hfeedKept hreturnKept, lines_cons hfeed hline, ih hrest, List.map_cons]

/-- A flag stays on its line. -/
theorem flagLine_replaceIpToken {flag : Text} (hnil : flag ≠ []) (hplain : Plain flag)
    {yaml : Text} (hyaml : '\r' ∉ yaml) :
    flagLine (replaceIpToken yaml old.text new.text) flag =
      (flagLine yaml flag).map fun line => replaceIpToken line old.text new.text := by
  have hsame : (contains flag ∘ fun line => replaceIpToken line old.text new.text) =
      contains flag := by
    funext line
    exact contains_replaceIpToken old new hnil hplain line
  rw [flagLine, lines_replaceIpToken old new hyaml, List.find?_map, hsame, flagLine]

end Rewrite

section ListenAll

/-- The line that binds etcd to all addresses, in place of another binding. -/
def boundLine (line : Text) : Text :=
  List.replicate (byteLength line - byteLength (trimStart line)) ' ' ++ listenAll ++
    trailingComma line

def bindingStem : Text := "--listen-client-urls".toList

/-- No line that binds etcd has the flag. -/
def Apart (flag yaml : Text) : Prop :=
  ∀ line ∈ lines yaml, contains (bindingStem ++ ['=']) line = true →
    contains flag line = false

instance (flag yaml : Text) : Decidable (Apart flag yaml) :=
  List.decidableBAll _ (lines yaml)

/-- A flag that neither ends nor is ended by the binding's. -/
def Unlike (flag : Text) : Prop :=
  ∃ stem, flag = stem ++ ['='] ∧ '=' ∉ stem ∧ ¬ stem <:+ bindingStem ∧
    ¬ bindingStem <:+ stem

variable {flag raw out : Text}

theorem contains_boundLine (hunlike : Unlike flag) (line : Text) :
    contains flag (boundLine line) = false := by
  obtain ⟨stem, rfl, hstem, hshort, hlong⟩ := hunlike
  have hcomma : '=' ∉ trailingComma line := by
    rw [trailingComma]
    split <;> simp
  have hright : '=' ∉ "https://0.0.0.0:2379".toList ++ trailingComma line := by
    rw [List.mem_append, not_or]
    exact ⟨by decide, hcomma⟩
  generalize hpad : List.replicate (byteLength line - byteLength (trimStart line)) ' ' = pad
  have hleft : '=' ∉ pad ++ bindingStem := by
    rw [List.mem_append, not_or, ← hpad]
    exact ⟨fun hmem => absurd (List.eq_of_mem_replicate hmem) (by decide), by decide⟩
  have hother : ¬ stem <:+ pad ++ bindingStem := by
    intro hsuffix
    have hbinding : bindingStem <:+ pad ++ bindingStem := List.suffix_append _ _
    rcases List.suffix_or_suffix_of_suffix hsuffix hbinding with h | h
    · exact hshort h
    · exact hlong h
  have hbound : boundLine line = (pad ++ bindingStem) ++
      '=' :: ("https://0.0.0.0:2379".toList ++ trailingComma line) := by
    have hlisten : listenAll = bindingStem ++ '=' :: "https://0.0.0.0:2379".toList := rfl
    rw [boundLine, hpad, hlisten]
    simp only [List.append_assoc, List.cons_append]
  rw [Bool.eq_false_iff, ne_eq, contains_iff, hbound]
  exact not_occurs_of_left hstem hleft hright hother []

theorem boundLine_plain {line : Text} {c : Char} (hspace : c ≠ ' ') (hcomma : c ≠ ',')
    (hlisten : c ∉ listenAll) : c ∉ boundLine line := by
  have htrailing : c ∉ trailingComma line := by
    rw [trailingComma]
    split <;> simp [hcomma]
  simp only [boundLine, List.mem_append, not_or]
  exact ⟨⟨fun hmem => hspace (List.eq_of_mem_replicate hmem), hlisten⟩, htrailing⟩

/-- What the rebinding of etcd makes of each line. -/
def rebind (line : Text) : Text :=
  if contains (bindingStem ++ ['=']) line then boundLine line else line

theorem ensureEtcdListenAll_eq (hout : ensureEtcdListenAll raw = some out) :
    out = unlines ((lines raw).map rebind) := by
  unfold ensureEtcdListenAll at hout
  split at hout
  · cases hout
  · dsimp only at hout
    split at hout
    · cases hout
    · exact (Option.some.inj hout).symm

theorem lines_listenAll (hraw : '\r' ∉ raw) (hout : ensureEtcdListenAll raw = some out) :
    lines out = (lines raw).map rebind ∧ '\r' ∉ out := by
  have hplain : ∀ line ∈ (lines raw).map rebind, '\n' ∉ line ∧ '\r' ∉ line := by
    intro line hmem
    obtain ⟨source, hsource, rfl⟩ := List.mem_map.mp hmem
    rw [rebind]
    split
    · exact ⟨boundLine_plain (by decide) (by decide) (by decide),
        boundLine_plain (by decide) (by decide) (by decide)⟩
    · exact mem_lines hraw hsource
  rw [ensureEtcdListenAll_eq hout]
  constructor
  · exact lines_unlines (fun line hmem => (hplain line hmem).1)
      fun line hmem => (hplain line hmem).2
  · intro hmem
    obtain ⟨line, hline, hc⟩ := List.mem_flatMap.mp hmem
    rcases List.mem_append.mp hc with h | h
    · exact (hplain line hline).2 h
    · exact absurd (List.mem_singleton.mp h) (by decide)

/-- Rebinding leaves the other flags where they are. -/
theorem flagLine_listenAll (hunlike : Unlike flag) (hraw : '\r' ∉ raw)
    (hapart : Apart flag raw) (hout : ensureEtcdListenAll raw = some out) :
    flagLine out flag = flagLine raw flag ∧ Apart flag out := by
  have hlines := (lines_listenAll hraw hout).1
  have hrebind : ∀ line ∈ lines raw, contains flag (rebind line) = contains flag line := by
    intro line hmem
    rw [rebind]
    split
    · next hbinding => rw [contains_boundLine hunlike, hapart line hmem hbinding]
    · rfl
  constructor
  · have hfind : ∀ texts : List Text, (∀ line ∈ texts, line ∈ lines raw) →
        (texts.map rebind).find? (contains flag) = texts.find? (contains flag) := by
      intro texts htexts
      induction texts with
      | nil => rfl
      | cons line texts ih =>
          have hline := htexts line List.mem_cons_self
          rw [List.map_cons, List.find?_cons, List.find?_cons, hrebind line hline,
            ih fun other hother => htexts other (List.mem_cons_of_mem _ hother)]
          cases hfound : contains flag line with
          | false => rfl
          | true =>
              have hfree : ¬ contains (bindingStem ++ ['=']) line = true := by
                intro hbinding
                rw [hapart line hline hbinding] at hfound
                cases hfound
              rw [rebind, if_neg hfree]
    rw [flagLine, hlines, hfind _ fun line hmem => hmem, flagLine]
  · intro line hmem hbinding
    rw [hlines] at hmem
    obtain ⟨source, hsource, rfl⟩ := List.mem_map.mp hmem
    rw [hrebind source hsource]
    by_cases hkept : contains (bindingStem ++ ['=']) source = true
    · exact hapart source hsource hkept
    · rw [rebind, if_neg hkept] at hbinding
      exact absurd hbinding hkept

end ListenAll

section Printed

theorem count_dot_print (ip : Ipv4Addr) : ip.print.count '.' = 3 := by
  have hdots := fun o => List.count_eq_zero_of_not_mem (dot_notMem_decimal o)
  simp [Ipv4Addr.print, Ipv4Addr.octets, joinWith, List.intercalate_cons_cons, hdots]

/-- The address of a node, as it is written. -/
def printed (ip : Ipv4Addr) : Address where
  text := ip.print
  dotted := List.count_pos_iff.mp (by rw [count_dot_print]; decide)
  charset := (parseIpv4_chars (parse_print ip)).2

@[simp]
theorem printed_text (ip : Ipv4Addr) : (printed ip).text = ip.print := rfl

/-- Where a rewriting from `old` to `new` moves an address. -/
def moved (old new ip : Ipv4Addr) : Ipv4Addr := if ip = old then new else ip

/-- What is left of an address beside a part with all its dots starts and ends in a
digit. -/
theorem digit_beside {before after : Text}
    (hchars : ∀ c ∈ before ++ after, c.isDigit = true) (hne : before ++ after ≠ []) :
    (!endsInDigit before && !startsWithDigit after) = false := by
  cases after with
  | cons head rest =>
      have hhead := hchars head (List.mem_append_right _ List.mem_cons_self)
      simp [startsWithDigit, hhead]
  | nil =>
      rw [List.append_nil] at hne
      have hlast := hchars _ (List.mem_append_left [] (List.getLast_mem hne))
      simp [endsInDigit, List.getLast?_eq_some_getLast hne, hlast]

/-- A text with the dots of one address is replaced as a whole or not at all: an occurrence
inside it leaves no dot outside, so a digit stands next to it. -/
theorem replaceIpToken_other (old new : Ipv4Addr) {text : Text} (hdots : text.count '.' = 3)
    (hchars : ∀ c ∈ text, c.isDigit = true ∨ c = '.') (hother : text ≠ old.print) :
    replaceIpToken text old.print new.print = text := by
  have hold : old.print ≠ [] := (printed old).ne_nil
  by_cases hsame : old.print = new.print
  · rw [replaceIpToken, if_pos (.inr hsame)]
  · rw [replaceIpToken_cut hold hsame]
    cases hcut : cut old.print text with
    | none => rfl
    | some around =>
        obtain ⟨before, after⟩ := around
        have htext := cut_append hcut
        have hcount := congrArg (List.count '.') htext
        simp only [List.count_append, count_dot_print, hdots] at hcount
        have hbefore : '.' ∉ before := List.count_eq_zero.mp (by omega)
        have hafter : '.' ∉ after := List.count_eq_zero.mp (by omega)
        have hdigits : ∀ c ∈ before ++ after, c.isDigit = true := by
          intro c hmem
          have hinside : c ∈ text := by
            rw [htext]
            simp only [List.mem_append] at hmem ⊢
            tauto
          rcases hchars c hinside with hdigit | rfl
          · exact hdigit
          · exact absurd (List.mem_append.mp hmem) (not_or.mpr ⟨hbefore, hafter⟩)
        have hne : before ++ after ≠ [] := by
          intro hnil
          obtain ⟨rfl, rfl⟩ := List.append_eq_nil_iff.mp hnil
          rw [List.nil_append, List.append_nil] at htext
          exact hother htext
        have hrest : replaceIpToken after old.print new.print = after :=
          replaceIpToken_noDot (printed old) (printed new) hafter
        simp only [token, digit_beside hdigits hne, hrest]
        exact htext.symm

theorem replaceIpToken_print (old new ip : Ipv4Addr) :
    replaceIpToken ip.print old.print new.print = (moved old new ip).print := by
  by_cases hip : ip = old
  · have hold : old.print ≠ [] := (printed old).ne_nil
    rw [moved, if_pos hip, hip]
    by_cases hsame : old.print = new.print
    · rw [replaceIpToken, if_pos (.inr hsame), hsame]
    · have hempty : replaceIpToken [] old.print new.print = [] :=
        replaceIpToken_nil (printed old) (printed new)
      have hcut : cut old.print old.print = some ([], []) := by
        simpa only [List.append_nil] using cut_here hold []
      rw [replaceIpToken_cut hold hsame, hcut]
      simp [token, endsInDigit, startsWithDigit, hempty]
  · rw [moved, if_neg hip]
    exact replaceIpToken_other old new (count_dot_print ip) (printed ip).charset
      fun h => hip (print_injective h)

theorem rewrite_printed (old new ip : Ipv4Addr) :
    ((printed ip).rewrite (printed old) (printed new)).text = (moved old new ip).print :=
  replaceIpToken_print old new ip

theorem moved_new {old new : Ipv4Addr} : moved old new new = new := by
  rw [moved]
  split
  · rfl
  · rfl

end Printed

section Members

/-- The value of `--initial-cluster` for members of which name and address are known. -/
def clusterSpec (members : List (Hostname × Address)) : Text :=
  joinWith ',' (members.map fun member => nodeEntry member.1 member.2)

def rewriteMember (old new : Address) (member : Hostname × Address) : Hostname × Address :=
  (member.1.rewrite old new, member.2.rewrite old new)

theorem replaceIpToken_clusterSpec (old new : Address) (members : List (Hostname × Address)) :
    replaceIpToken (clusterSpec members) old.text new.text =
      clusterSpec (members.map (rewriteMember old new)) := by
  induction members with
  | nil => exact replaceIpToken_nil old new
  | cons first rest ih =>
      have hfirst := replaceIpToken_nodeEntry old new first.1 first.2
      cases rest with
      | nil => simpa [clusterSpec, joinWith, rewriteMember] using hfirst
      | cons second rest =>
          have hsplit : ∀ first second : Hostname × Address,
              ∀ rest : List (Hostname × Address), clusterSpec (first :: second :: rest) =
                nodeEntry first.1 first.2 ++ ',' :: clusterSpec (second :: rest) := by
            intro first second rest
            simp [clusterSpec, joinWith, List.intercalate_cons_cons]
          rw [hsplit, replaceIpToken_split old new ',' (by decide) (by decide), hfirst, ih]
          exact (hsplit (rewriteMember old new first) (rewriteMember old new second)
            (rest.map (rewriteMember old new))).symm

variable {members : List (Hostname × Address)}

theorem parse_clusterSpec (hne : members ≠ []) :
    parseEtcdInitialCluster (clusterSpec members) =
      members.map fun member => (member.1.text, member.2.text) := by
  have hsplit : (clusterSpec members).splitOn ',' =
      members.map fun member => nodeEntry member.1 member.2 := by
    apply List.splitOn_intercalate
    · intro part hpart
      obtain ⟨member, -, rfl⟩ := List.mem_map.mp hpart
      exact comma_notMem_nodeEntry member.1 member.2
    · simpa using hne
  rw [parseEtcdInitialCluster, hsplit, List.filterMap_map]
  have hparse : (parsePart ∘ fun member : Hostname × Address => nodeEntry member.1 member.2) =
      some ∘ fun member => (member.1.text, member.2.text) := by
    funext member
    exact parsePart_nodeEntry member.1 member.2
  rw [hparse, List.filterMap_eq_map]

/-- A list of members is a value that can be read back. -/
theorem clusterSpec_value (hne : members ≠ [])
    (hquote : ∀ member ∈ members, '"' ∉ member.1.text) :
    clusterSpec members ≠ [] ∧
      (∀ c ∈ clusterSpec members, isWhite c = false ∧ c ≠ '"') ∧
      (clusterSpec members).getLast? ≠ some ',' := by
  have hparts : ∀ part ∈ members.map (fun member => nodeEntry member.1 member.2),
      part ≠ [] := by
    intro part hpart
    obtain ⟨member, -, rfl⟩ := List.mem_map.mp hpart
    simp [nodeEntry, entry]
  refine ⟨joinWith_ne_nil (by simpa using hne) hparts, ?_, ?_⟩
  · intro c hmem
    rcases mem_joinWith hmem with rfl | ⟨part, hpart, hc⟩
    · decide
    · obtain ⟨member, hmember, rfl⟩ := List.mem_map.mp hpart
      have hvalue := nodeEntry_value member.1 member.2 (hquote member hmember) c hc
      exact ⟨hvalue.1, hvalue.2.1⟩
  · intro hlast
    obtain ⟨part, hpart, hc⟩ := getLast?_joinWith hparts hlast
    obtain ⟨member, -, rfl⟩ := List.mem_map.mp hpart
    exact comma_notMem_nodeEntry member.1 member.2 (List.mem_of_getLast? hc)

theorem rewriteMember_quote (old new : Address)
    (hquote : ∀ member ∈ members, '"' ∉ member.1.text) :
    ∀ member ∈ members.map (rewriteMember old new), '"' ∉ member.1.text := by
  intro member hmem
  obtain ⟨source, hsource, rfl⟩ := List.mem_map.mp hmem
  exact notMem_replaceIpToken old new (by decide) (by decide) (hquote source hsource)

end Members

end PertiskKos.Etcd
