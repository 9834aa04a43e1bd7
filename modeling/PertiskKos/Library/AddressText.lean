import PertiskKos.Library.Ipv6
import PertiskKos.Library.Lines

/-!
# The characters of addresses

What is read as an IPv6 address has a colon and otherwise only hexadecimal digits and dots,
so that it can be told from the text around it.
-/

namespace PertiskKos.Ip

open Strings Hex Lines

section Characters

variable {text : Text}

theorem isIpv6Char_of_hex {c : Char} (hdigit : isHexDigit c = true) : isIpv6Char c = true := by
  simp only [isHexDigit, isIpv6Char, Bool.or_eq_true] at hdigit ⊢
  tauto

theorem isIpv6Char_cases {c : Char} (hc : isIpv6Char c = true) :
    isHexDigit c = true ∨ c = ':' ∨ c = '.' := by
  simp only [isHexDigit, isIpv6Char, Bool.or_eq_true, decide_eq_true_eq] at hc ⊢
  tauto

theorem not_white_of_ipv6 {c : Char} (hc : isIpv6Char c = true) : isWhite c = false := by
  rcases isIpv6Char_cases hc with hdigit | rfl | rfl
  · exact not_white_of_hex hdigit
  · decide
  · decide

theorem parseGroup_chars {group : UInt16} (hparse : parseGroup text = some group) :
    ∀ c ∈ text, isIpv6Char c = true := by
  rw [parseGroup] at hparse
  split at hparse
  · next h => exact fun c hc => isIpv6Char_of_hex (List.all_eq_true.mp h.2.2 c hc)
  · cases hparse

theorem parseIpv4_ipv6Chars {ip : Ipv4Addr} (hparse : parseIpv4 text = some ip) :
    ∀ c ∈ text, isIpv6Char c = true := by
  intro c hc
  rcases (parseIpv4_chars hparse).2 c hc with hdigit | rfl
  · simp [isIpv6Char, hdigit]
  · decide

/-- Pieces between colons that have no other characters make a text that has none. -/
theorem chars_of_pieces (hpieces : ∀ piece ∈ text.splitOn ':', ∀ c ∈ piece, isIpv6Char c = true) :
    ∀ c ∈ text, isIpv6Char c = true := by
  intro c hc
  have hjoin : c ∈ joinWith ':' (text.splitOn ':') := by
    rwa [joinWith, List.intercalate_splitOn]
  rcases mem_joinWith hjoin with rfl | ⟨piece, hpiece, hmem⟩
  · decide
  · exact hpieces piece hpiece c hmem

/-- What holds of every group holds of every piece that is read. -/
theorem forall_of_mapM {good : Text → Prop}
    (hgood : ∀ piece group, parseGroup piece = some group → good piece)
    {pieces : List Text} {groups : List UInt16}
    (hparse : pieces.mapM parseGroup = some groups) : ∀ piece ∈ pieces, good piece := by
  induction pieces generalizing groups with
  | nil => exact List.forall_mem_nil _
  | cons first pieces ih =>
      simp only [List.mapM_cons, Option.pure_def, Option.bind_eq_bind,
        Option.bind_eq_some_iff] at hparse
      obtain ⟨group, hgroup, rest, hrest, -⟩ := hparse
      exact List.forall_mem_cons.mpr ⟨hgood first group hgroup, ih hrest⟩

theorem parsePieces_chars {pieces : List Text} {groups : List UInt16}
    (hparse : parsePieces pieces = some groups) :
    ∀ piece ∈ pieces, ∀ c ∈ piece, isIpv6Char c = true := by
  induction pieces generalizing groups with
  | nil => exact List.forall_mem_nil _
  | cons first pieces ih =>
      cases pieces with
      | nil =>
          rw [List.forall_mem_singleton]
          rw [parsePieces] at hparse
          cases hipv4 : parseIpv4 first with
          | some ip => exact parseIpv4_ipv6Chars hipv4
          | none =>
              rw [hipv4] at hparse
              obtain ⟨group, hgroup, -⟩ := Option.map_eq_some_iff.mp hparse
              exact parseGroup_chars hgroup
      | cons second pieces =>
          simp only [parsePieces, Option.pure_def, Option.bind_eq_bind,
            Option.bind_eq_some_iff] at hparse
          obtain ⟨group, hgroup, rest, hrest, -⟩ := hparse
          exact List.forall_mem_cons.mpr ⟨parseGroup_chars hgroup, ih hrest⟩

theorem parseHead_chars {groups : List UInt16} (hparse : parseHead text = some groups) :
    ∀ c ∈ text, isIpv6Char c = true := by
  rw [parseHead] at hparse
  split at hparse
  · next h =>
      rw [h]
      exact List.forall_mem_nil _
  · exact chars_of_pieces (forall_of_mapM (fun _ _ => parseGroup_chars) hparse)

theorem parseTail_chars {groups : List UInt16} (hparse : parseTail text = some groups) :
    ∀ c ∈ text, isIpv6Char c = true := by
  rw [parseTail] at hparse
  split at hparse
  · next h =>
      rw [h]
      exact List.forall_mem_nil _
  · exact chars_of_pieces (parsePieces_chars hparse)

/-- Fewer than eight groups are read from a text without colons. -/
theorem parseTail_short (hcolon : ':' ∉ text) : (parseTail text).bind ofSegments = none := by
  rw [parseTail]
  split
  · rfl
  · rw [List.splitOn_eq_singleton hcolon, parsePieces]
    cases hipv4 : parseIpv4 text with
    | some ip => rfl
    | none =>
        cases parseGroup text with
        | none => rfl
        | some group => rfl

/-- The characters of an IPv6 address. -/
theorem parseIpv6_chars {ip : Ipv6Addr} (hparse : parseIpv6 text = some ip) :
    ':' ∈ text ∧ ∀ c ∈ text, isIpv6Char c = true := by
  rw [parseIpv6] at hparse
  cases hcut : cut [':', ':'] text with
  | some around =>
      obtain ⟨head, tail⟩ := around
      rw [hcut] at hparse
      simp only [Option.bind_eq_bind, Option.bind_eq_some_iff] at hparse
      obtain ⟨first, hfirst, last, hlast, -⟩ := hparse
      rw [cut_append hcut]
      refine ⟨by simp, ?_⟩
      intro c hc
      simp only [List.mem_append, List.mem_cons, List.not_mem_nil, or_false, or_self] at hc
      rcases hc with (hc | rfl) | hc
      · exact parseHead_chars hfirst c hc
      · decide
      · exact parseTail_chars hlast c hc
  | none =>
      rw [hcut] at hparse
      constructor
      · by_contra hcolon
        have hnone := parseTail_short hcolon
        simp only at hparse
        rw [hnone] at hparse
        cases hparse
      · obtain ⟨groups, hgroups, -⟩ := Option.bind_eq_some_iff.mp hparse
        exact parseTail_chars hgroups

end Characters

section Dots

variable {text : Text}

/-- An IPv4 address has three dots and a digit. -/
theorem parseIpv4_count {text : Text} {address : Ipv4Addr}
    (hread : parseIpv4 text = some address) :
    text.count '.' = 3 ∧ ∃ c ∈ text, c.isDigit = true := by
  obtain ⟨a, b, c, d, rfl, hpieces⟩ := parseIpv4_pieces hread
  have hnone : ∀ piece ∈ [a, b, c, d], piece.count '.' = 0 := by
    intro piece hpiece
    obtain ⟨o, ho⟩ := hpieces piece hpiece
    refine List.count_eq_zero.mpr fun hdot => ?_
    exact absurd (isDigit_of_parseOctet ho '.' hdot) (by decide)
  simp only [List.forall_mem_cons] at hnone
  obtain ⟨ha, hb, hc, hd, -⟩ := hnone
  constructor
  · simp [joinWith, List.intercalate_cons_cons, ha, hb, hc, hd]
  · obtain ⟨o, ho⟩ := hpieces a List.mem_cons_self
    cases a with
    | nil => cases ho
    | cons first rest =>
        refine ⟨first, ?_, isDigit_of_parseOctet ho first List.mem_cons_self⟩
        simp [joinWith, List.intercalate_cons_cons]

theorem parseGroup_noDot {text : Text} {group : UInt16} (hparse : parseGroup text = some group) :
    '.' ∉ text := by
  rw [parseGroup] at hparse
  split at hparse
  · next h =>
      intro hdot
      exact absurd (List.all_eq_true.mp h.2.2 _ hdot) (by decide)
  · cases hparse

/-- Dots stand behind the last colon, in an IPv4 address. -/
def DotsLast (text : Text) : Prop :=
  ∃ front last, text = front ++ last ∧ '.' ∉ front ∧ (front = [] ∨ ∃ left, front = left ++ [':']) ∧
    ('.' ∉ last ∨ ∃ ip, parseIpv4 last = some ip)

theorem parsePieces_dotsLast {groups : List UInt16}
    (hparse : parsePieces (text.splitOn ':') = some groups) : DotsLast text := by
  induction text using pieceByPiece ':' generalizing groups with
  | last text hcolon =>
      refine ⟨[], text, rfl, List.not_mem_nil, .inl rfl, ?_⟩
      rw [List.splitOn_eq_singleton hcolon, parsePieces] at hparse
      cases hipv4 : parseIpv4 text with
      | some ip => exact .inr ⟨ip, rfl⟩
      | none =>
          rw [hipv4] at hparse
          obtain ⟨group, hgroup, -⟩ := Option.map_eq_some_iff.mp hparse
          exact .inl (parseGroup_noDot hgroup)
  | next piece rest hcolon ih =>
      rw [List.splitOn_append_cons_self_of_not_mem hcolon] at hparse
      obtain ⟨second, more, hmore⟩ :=
        List.exists_cons_of_ne_nil (List.splitOn_ne_nil ':' rest)
      rw [hmore] at hparse
      simp only [parsePieces, Option.pure_def, Option.bind_eq_bind,
        Option.bind_eq_some_iff] at hparse
      obtain ⟨group, hgroup, others, hothers, -⟩ := hparse
      obtain ⟨front, last, rfl, hfront, hend, hlast⟩ := ih (hmore ▸ hothers)
      refine ⟨piece ++ ':' :: front, last, by simp, ?_, .inr ?_, hlast⟩
      · have hpiece := parseGroup_noDot hgroup
        simp [hpiece, hfront]
      · rcases hend with rfl | ⟨left, rfl⟩
        · exact ⟨piece, rfl⟩
        · exact ⟨piece ++ ':' :: left, by simp⟩

theorem parseTail_dotsLast {groups : List UInt16} (hparse : parseTail text = some groups) :
    DotsLast text := by
  rw [parseTail] at hparse
  split at hparse
  · next hnil => exact ⟨[], [], hnil, List.not_mem_nil, .inl rfl, .inl List.not_mem_nil⟩
  · exact parsePieces_dotsLast hparse

theorem parseHead_noDot {groups : List UInt16} (hparse : parseHead text = some groups) :
    '.' ∉ text := by
  rw [parseHead] at hparse
  split at hparse
  · next hnil => exact hnil ▸ List.not_mem_nil
  · intro hdot
    have hjoin : '.' ∈ joinWith ':' (text.splitOn ':') := by
      rwa [joinWith, List.intercalate_splitOn]
    rcases mem_joinWith hjoin with h | ⟨piece, hpiece, hmem⟩
    · exact absurd h (by decide)
    · exact forall_of_mapM (fun _ _ => parseGroup_noDot) hparse piece hpiece hmem

/-- An IPv4 address can only end an IPv6 address, behind a colon. -/
theorem parseIpv6_dotsLast {ip : Ipv6Addr} (hparse : parseIpv6 text = some ip) :
    ∃ left last, text = left ++ ':' :: last ∧ '.' ∉ left ∧
      ('.' ∉ last ∨ ∃ v4, parseIpv4 last = some v4) := by
  have hcolon := (parseIpv6_chars hparse).1
  have hdots : DotsLast text := by
    rw [parseIpv6] at hparse
    cases hcut : cut [':', ':'] text with
    | none =>
        rw [hcut] at hparse
        obtain ⟨groups, hgroups, -⟩ := Option.bind_eq_some_iff.mp hparse
        exact parseTail_dotsLast hgroups
    | some around =>
        obtain ⟨head, tail⟩ := around
        rw [hcut] at hparse
        simp only [Option.bind_eq_bind, Option.bind_eq_some_iff] at hparse
        obtain ⟨first, hfirst, second, hsecond, -⟩ := hparse
        obtain ⟨front, last, rfl, hfront, hend, hlast⟩ := parseTail_dotsLast hsecond
        rw [cut_append hcut]
        refine ⟨head ++ [':', ':'] ++ front, last, by simp, ?_, .inr ?_, hlast⟩
        · simp [parseHead_noDot hfirst, hfront]
        · rcases hend with rfl | ⟨left, rfl⟩
          · exact ⟨head ++ [':'], by simp⟩
          · exact ⟨head ++ [':', ':'] ++ left, by simp⟩
  obtain ⟨front, last, rfl, hfront, hend, hlast⟩ := hdots
  rcases hend with rfl | ⟨left, rfl⟩
  · rcases hlast with hdot | ⟨v4, hv4⟩
    · obtain ⟨left, right, rfl⟩ := List.append_of_mem hcolon
      refine ⟨left, right, rfl, fun h => hdot ?_, .inl fun h => hdot ?_⟩
      · exact List.mem_append_left _ h
      · exact List.mem_append_right _ (List.mem_cons_of_mem _ h)
    · rcases (parseIpv4_chars hv4).2 ':' hcolon with h | h
      · exact absurd h (by decide)
      · exact absurd h (by decide)
  · refine ⟨left, last, by simp, fun h => hfront (List.mem_append_left _ h), hlast⟩

end Dots

end PertiskKos.Ip
