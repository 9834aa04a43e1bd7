import PertiskKos.Library.Lossy
import PertiskKos.Net.PertiskNet

/-!
# Finding the record in an image

The letters that a record begins with are looked for in the bytes, in either case, and the text
from there to the first zero byte or to the limit is read.  So a record is read exactly if
these letters are nowhere in front of it and if what fills the space behind it is text, and
nothing is read where there is no record.
-/

namespace PertiskKos.Net.PertiskNet

open Strings Lines Utf8

/-! ## Where the letters are -/

section Searching

theorem lowerByte_of_le {byte : UInt8} (hhigh : 0x80 ≤ byte.toNat) : lowerByte byte = byte := by
  rw [lowerByte, if_neg (by omega)]

theorem lowerByte_ascii :
    ∀ n < 0x80, (String.utf8EncodeChar (Char.ofNat n)).map lowerByte =
      String.utf8EncodeChar (Char.ofNat n).toLower := by
  decide +kernel

theorem toLower_of_not_upper {c : Char} (hupper : ¬ (65 ≤ c.toNat ∧ c.toNat ≤ 90)) :
    c.toLower = c := by
  have hvalue : ¬ (c.val ≥ 'A'.val ∧ c.val ≤ 'Z'.val) := by
    rw [ge_iff_le, UInt32.le_iff_toNat_le, UInt32.le_iff_toNat_le]
    exact hupper
  rw [Char.toLower, dif_neg hvalue]

theorem map_lowerByte_encodeChar (c : Char) :
    (String.utf8EncodeChar c).map lowerByte = String.utf8EncodeChar c.toLower := by
  by_cases hascii : c.toNat < 0x80
  · rw [← Char.ofNat_toNat c]
    exact lowerByte_ascii c.toNat hascii
  · have hbytes : (String.utf8EncodeChar c).map lowerByte = String.utf8EncodeChar c := by
      conv => rhs; rw [← List.map_id (String.utf8EncodeChar c)]
      refine List.map_congr_left fun byte hmem => lowerByte_of_le ?_
      by_contra hlow
      have := encodeChar_of_ascii hmem (by omega)
      omega
    rw [hbytes, toLower_of_not_upper (by omega)]

/-- Lower case of the bytes is lower case of the text. -/
theorem map_lowerByte_encode (text : Text) :
    (encode text).map lowerByte = encode (text.map Char.toLower) := by
  induction text with
  | nil => rfl
  | cons c text ih =>
      rw [encode_cons, List.map_append, ih, map_lowerByte_encodeChar, List.map_cons, encode_cons]

theorem magicHere_iff {bytes : Bytes} :
    magicHere bytes = true ↔ (encode magic).map lowerByte <+: bytes.map lowerByte := by
  rw [magicHere, decide_eq_true_iff, List.prefix_iff_eq_take, List.map_take, List.length_map]
  exact eq_comm

/-- The magic is in front of a text that begins with it. -/
theorem magicHere_encode {head : Text} (hhead : eqIgnoreAsciiCase head magic = true)
    (rest : Bytes) : magicHere (encode head ++ rest) = true := by
  rw [magicHere_iff, List.map_append, map_lowerByte_encode, map_lowerByte_encode,
    of_decide_eq_true hhead]
  exact List.prefix_append _ _

/-- A text that the magic is in front of begins with it. -/
theorem exists_head {text : Text} (hhere : magicHere (encode text) = true) :
    ∃ head rest, text = head ++ rest ∧ eqIgnoreAsciiCase head magic = true := by
  obtain ⟨rest, hrest⟩ := magicHere_iff.mp hhere
  rw [map_lowerByte_encode, map_lowerByte_encode] at hrest
  obtain ⟨tail, htail, -⟩ := exists_of_encode_append hrest
  refine ⟨text.take magic.length, text.drop magic.length, (List.take_append_drop _ _).symm, ?_⟩
  rw [eqIgnoreAsciiCase, decide_eq_true_iff, List.map_take, htail]
  exact List.take_left' (List.length_map _)

theorem findMagic_eq {window : Bytes} {k : Nat} (hle : k ≤ window.length)
    (hhere : magicHere (window.drop k) = true)
    (hfirst : ∀ j < k, magicHere (window.drop j) = false) : findMagic window = k := by
  have hfind : window.tails.findIdx? magicHere = some k := by
    rw [List.findIdx?_eq_some_iff_getElem]
    refine ⟨by rw [List.length_tails]; omega, ?_, fun j hj => ?_⟩
    · rw [List.getElem_tails]
      exact hhere
    · rw [List.getElem_tails, hfirst j hj]
      exact Bool.false_ne_true
  rw [findMagic, hfind]
  rfl

theorem findMagic_cases (window : Bytes) :
    findMagic window ≤ window.length ∧ magicHere (window.drop (findMagic window)) = true ∨
      findMagic window = 0 ∧ ∀ k ≤ window.length, magicHere (window.drop k) = false := by
  cases hfind : window.tails.findIdx? magicHere with
  | some k =>
      obtain ⟨hk, hhere, -⟩ := List.findIdx?_eq_some_iff_getElem.mp hfind
      rw [List.length_tails] at hk
      rw [List.getElem_tails] at hhere
      rw [findMagic, hfind]
      exact .inl ⟨Nat.le_of_lt_succ hk, hhere⟩
  | none =>
      rw [findMagic, hfind]
      refine .inr ⟨rfl, fun k hk => ?_⟩
      have hnone := List.findIdx?_eq_none_iff.mp hfind
      exact hnone _ ((List.mem_tails _ _).mpr (List.drop_suffix k window))

theorem zero_notMem_encode {text : Text} : (0 : UInt8) ∈ encode text ↔ Char.ofNat 0 ∈ text := by
  constructor
  · intro hmem
    obtain ⟨c, hc, hbyte⟩ := List.mem_flatMap.mp hmem
    have hcode : c.toNat = (Char.ofNat 0).toNat := encodeChar_of_ascii hbyte (by decide)
    exact Char.toNat_inj.mp hcode ▸ hc
  · intro hmem
    exact List.mem_flatMap.mpr ⟨_, hmem, by decide⟩

theorem encode_spaces (count : Nat) :
    encode (List.replicate count ' ') = List.replicate count 0x20 := by
  induction count with
  | zero => rfl
  | succ count ih =>
      rw [List.replicate_succ, encode_cons, ih]
      rfl

/-- What the text of a slice leaves of it. -/
theorem cutText_append (slice : Bytes) :
    ∃ behind, slice = cutText slice ++ behind ∧
      (behind = [] ∨ behind.head? = some 0 ∨ 4096 ≤ (cutText slice).length) := by
  have hsplit : slice.takeWhile (· ≠ 0) ++ slice.dropWhile (· ≠ 0) = slice :=
    List.takeWhile_append_dropWhile
  have htake := List.take_append_drop 4096 (slice.takeWhile (· ≠ 0))
  refine ⟨(slice.takeWhile (· ≠ 0)).drop 4096 ++ slice.dropWhile (· ≠ 0), ?_, ?_⟩
  · rw [cutText, ← List.append_assoc, htake, hsplit]
  · by_cases hlong : 4096 ≤ (slice.takeWhile (· ≠ 0)).length
    · refine .inr (.inr ?_)
      rw [cutText, List.length_take]
      omega
    · rw [List.drop_eq_nil_of_le (by omega), List.nil_append]
      cases hdrop : slice.dropWhile (· ≠ 0) with
      | nil => exact .inl rfl
      | cons first rest =>
          refine .inr (.inl ?_)
          have hnot := List.head_dropWhile_not (fun b : UInt8 => decide (b ≠ 0)) (l := slice)
            (by rw [hdrop]; exact List.cons_ne_nil _ _)
          simp only [hdrop, List.head_cons, decide_eq_false_iff_not, not_not] at hnot
          rw [hnot]
          rfl

theorem zero_notMem_cutText (slice : Bytes) : 0 ∉ cutText slice := by
  intro hmem
  have hne := List.mem_takeWhile_imp (List.mem_of_mem_take hmem)
  exact absurd hne (by decide)

theorem length_magicHere {bytes : Bytes} (hhere : magicHere bytes = true) :
    (bytes.take 11).length = 11 := by
  rw [magicHere, decide_eq_true_iff] at hhere
  have hlength := congrArg List.length hhere
  rwa [List.length_map, List.length_map] at hlength

/-- The magic is still there in the text of a slice. -/
theorem magicHere_cutText {slice : Bytes} (hhere : magicHere slice = true) :
    magicHere (cutText slice) = true := by
  have hlength : (encode magic).length = 11 := by decide
  have hblack : ∀ byte ∈ slice.take 11, byte ≠ 0 := by
    rintro byte hmem rfl
    have hzero : lowerByte 0 ∈ (slice.take 11).map lowerByte := List.mem_map_of_mem hmem
    rw [magicHere, hlength, decide_eq_true_iff] at hhere
    rw [hhere] at hzero
    exact absurd hzero (by decide)
  have hcut : (cutText slice).take 11 = slice.take 11 := by
    have hwhile : slice.takeWhile (· ≠ 0) =
        slice.take 11 ++ (slice.drop 11).takeWhile (· ≠ 0) := by
      conv => lhs; rw [← List.take_append_drop 11 slice]
      exact List.takeWhile_append_of_pos fun byte hmem => by simp [hblack byte hmem]
    rw [cutText, List.take_take, hwhile, Nat.min_eq_left (by omega),
      List.take_left' (length_magicHere hhere)]
  rw [magicHere, hlength, hcut, ← hlength]
  exact hhere

end Searching

/-! ## Records are read -/

section Reading

variable {record : Record} {image before behind : Bytes}

theorem isWhite_head {head : Text} (hhead : eqIgnoreAsciiCase head magic = true) :
    ∀ c ∈ head, isWhite c = false := by
  intro c hc
  have hmem : c.toLower ∈ magic.map Char.toLower := by
    rw [← of_decide_eq_true hhead]
    exact List.mem_map_of_mem hc
  have hblack : ∀ d ∈ magic.map Char.toLower, isWhite d = false := by decide
  by_cases hupper : 65 ≤ c.toNat ∧ c.toNat ≤ 90
  · simp only [isWhite, List.mem_cons, List.not_mem_nil, or_false, Bool.or_eq_false_iff,
      Bool.and_eq_false_iff, decide_eq_false_iff_not]
    omega
  · rw [toLower_of_not_upper hupper] at hmem
    exact hblack c hmem

theorem trim_head {head gap : Text} (hhead : eqIgnoreAsciiCase head magic = true)
    (hgap : White gap) : trim (head ++ gap) = head := by
  rw [trim_append_white hgap, trim_of_noWhite (isWhite_head hhead)]

theorem head_ne_nil {head : Text} (hhead : eqIgnoreAsciiCase head magic = true) : head ≠ [] := by
  rintro rfl
  exact absurd hhead (by decide)

theorem newline_notMem_pieces (record : Record) : ∀ piece ∈ record.pieces, '\n' ∉ piece := by
  intro piece hmem
  rcases List.mem_cons.mp hmem with rfl | hlater
  · intro hfeed
    rcases List.mem_append.mp hfeed with h | h
    · exact absurd (isWhite_head record.head_eq _ h) (by decide)
    · exact record.gap_feed h
  · obtain ⟨line, hline, rfl⟩ := List.mem_map.mp hlater
    exact record.lines_feed line hline

theorem splitOn_text (record : Record) : record.text.splitOn '\n' = record.pieces :=
  List.splitOn_intercalate _ (newline_notMem_pieces record) (List.cons_ne_nil _ _)

theorem parseLines_record (record : Record) :
    parseLines (shown record.pieces) = some record.settings := by
  rw [Record.pieces, shown_cons, trim_head record.head_eq record.gap_white,
    if_neg (head_ne_nil record.head_eq), List.singleton_append, parseLines,
    if_pos record.head_eq, readLine_lines, hear_all, Reading.finish, record.address_eq]
  simp only
  rw [if_pos record.address_dotted]
  rfl

theorem text_eq (record : Record) : ∃ rest, record.text = record.head ++ rest := by
  rw [Record.text, Record.pieces, joinWith]
  cases record.lines.map Line.text with
  | nil => exact ⟨record.gap, by simp⟩
  | cons first rest =>
      exact ⟨record.gap ++ '\n' :: ['\n'].intercalate (first :: rest), by
        simp [List.intercalate_cons_cons]⟩

/-- The text that is cut out has the record and some of the spaces behind it. -/
theorem cutText_padded (hplain : Char.ofNat 0 ∉ record.text)
    (hshort : (encode record.text).length ≤ 4096) (hpadding : Filled [0x20] record behind) :
    ∃ count, cutText (encode record.text ++ behind) =
      encode (record.text ++ List.replicate count ' ') := by
  obtain ⟨fill, rest, rfl, hfill, hrest⟩ := hpadding
  obtain ⟨count, rfl⟩ : ∃ count, fill = List.replicate count 0x20 :=
    ⟨fill.length, List.eq_replicate_iff.mpr
      ⟨rfl, fun byte hbyte => List.mem_singleton.mp (hfill byte hbyte)⟩⟩
  rw [List.length_replicate] at hrest
  have hblack : ∀ byte ∈ encode record.text ++ List.replicate count 0x20, byte ≠ 0 := by
    rintro byte hmem rfl
    rcases List.mem_append.mp hmem with h | h
    · exact hplain (zero_notMem_encode.mp h)
    · exact absurd (List.eq_of_mem_replicate h) (by decide)
  have hwhile : (encode record.text ++ (List.replicate count 0x20 ++ rest)).takeWhile (· ≠ 0) =
      (encode record.text ++ List.replicate count 0x20) ++ rest.takeWhile (· ≠ 0) := by
    rw [← List.append_assoc]
    exact List.takeWhile_append_of_pos fun byte hmem => by simp [hblack byte hmem]
  have htake : cutText (encode record.text ++ (List.replicate count 0x20 ++ rest)) =
      (encode record.text ++ List.replicate count 0x20).take 4096 := by
    rw [cutText, hwhile]
    rcases hrest with rfl | hzero | hlong
    · rw [List.takeWhile_nil, List.append_nil]
    · obtain ⟨tail, rfl⟩ := List.head?_eq_some_iff.mp hzero
      rw [List.takeWhile_cons_of_neg (by decide), List.append_nil]
    · refine List.take_append_of_le_length ?_
      rw [List.length_append, List.length_replicate]
      exact hlong
  refine ⟨min (4096 - (encode record.text).length) count, ?_⟩
  rw [htake, List.take_append, List.take_of_length_le hshort, List.take_replicate, encode_append,
    encode_spaces]

theorem parse_of_first (hplaced : Placed record image before behind)
    (hsize : image.length ≤ 65536) (hpadding : Filled [0x20] record behind)
    (hfirst : ∀ k < before.length, magicHere (image.drop k) = false) :
    parsePertiskNet image = some record.settings := by
  obtain ⟨himage, hplain, hshort⟩ := hplaced
  have hdrop : image.drop before.length = encode record.text ++ behind := by
    rw [himage, List.drop_left]
  have hhere : magicHere (image.drop before.length) = true := by
    obtain ⟨rest, htext⟩ := text_eq record
    rw [hdrop, htext, encode_append, List.append_assoc]
    exact magicHere_encode record.head_eq _
  have hle : before.length ≤ image.length := by
    rw [himage, List.length_append]
    omega
  obtain ⟨count, hcut⟩ := cutText_padded hplain hshort hpadding
  have hspaces : White (List.replicate count ' ') := fun c hc => by
    rw [List.eq_of_mem_replicate hc]
    rfl
  have hfeed : '\n' ∉ List.replicate count ' ' := fun h =>
    absurd (List.eq_of_mem_replicate h) (by decide)
  rw [parsePertiskNet]
  simp only [List.take_of_length_le hsize, findMagic_eq hle hhere hfirst, hdrop, hcut,
    decode_eq_some_iff.mpr rfl, shown_lines, shown_white hspaces hfeed, splitOn_text,
    parseLines_record]

end Reading

/-! ## Nothing else is read -/

section Found

theorem exists_line (text : Text) : ∃ line : Line, line.text = text := by
  by_cases hkey : ∃ statement : Statement, text = statement.text
  · obtain ⟨statement, rfl⟩ := hkey
    exact ⟨.keyed statement, rfl⟩
  · exact ⟨.other text fun statement h => hkey ⟨statement, h⟩, rfl⟩

theorem exists_lines (texts : List Text) : ∃ lines : List Line, lines.map Line.text = texts := by
  induction texts with
  | nil => exact ⟨[], rfl⟩
  | cons first rest ih =>
      obtain ⟨line, rfl⟩ := exists_line first
      obtain ⟨lines, rfl⟩ := ih
      exact ⟨line :: lines, rfl⟩

/-- A first line that begins with the magic, if trimming it gives the magic, is the magic with
white space behind it. -/
theorem exists_gap {head tail : Text} {first : Text} {rest : List Text}
    (hhead : eqIgnoreAsciiCase head magic = true)
    (hpieces : (head ++ tail).splitOn '\n' = first :: rest)
    (hmagic : ∀ line ∈ (shown (first :: rest)).head?, eqIgnoreAsciiCase line magic = true) :
    ∃ gap, first = head ++ gap ∧ White gap := by
  have hblack := isWhite_head hhead
  have hfirst : first = head ++ tail.takeWhile (· ≠ '\n') := by
    have hheadD := headD_splitOn '\n' (head ++ tail) []
    rw [hpieces, List.headD_cons] at hheadD
    rw [hheadD]
    refine List.takeWhile_append_of_pos fun c hc => ?_
    have hne : c ≠ '\n' := fun h => absurd (hblack c hc) (by rw [h]; decide)
    simp [hne]
  refine ⟨_, hfirst, ?_⟩
  have htrim : trim first = head ++ trimEnd (tail.takeWhile (· ≠ '\n')) := by
    rw [hfirst, trim_black_append (head_ne_nil hhead) hblack]
  have hne : trim first ≠ [] := by
    rw [htrim]
    exact List.append_ne_nil_of_left_ne_nil (head_ne_nil hhead) _
  have hsame := hmagic (trim first) (by rw [shown_cons, if_neg hne]; rfl)
  have hlengths : ∀ {line : Text}, eqIgnoreAsciiCase line magic = true →
      line.length = magic.length := by
    intro line hline
    have h := congrArg List.length (of_decide_eq_true hline)
    rwa [List.length_map, List.length_map] at h
  have htotal := hlengths hsame
  rw [htrim, List.length_append, hlengths hhead] at htotal
  have hnil : trimEnd (tail.takeWhile (· ≠ '\n')) = [] :=
    List.length_eq_zero_iff.mp (by omega)
  exact List.rdropWhile_eq_nil_iff.mp hnil

/-- The magic is in front of the slice, also where it was not looked for. -/
theorem magicHere_slice {window : Bytes} {text first : Text} {rest : List Text}
    (htext : encode text = cutText (window.drop (findMagic window)))
    (hshown : shown (lines text) = first :: rest)
    (hfirst : eqIgnoreAsciiCase first magic = true) :
    magicHere (window.drop (findMagic window)) = true := by
  rcases findMagic_cases window with ⟨-, hhere⟩ | ⟨hzero, hnone⟩
  · exact hhere
  rw [hzero, List.drop_zero] at htext
  obtain ⟨behind, hbehind, -⟩ := cutText_append window
  have hmem : first ∈ shown (lines text) := by
    rw [hshown]
    exact List.mem_cons_self
  rw [shown_lines] at hmem
  obtain ⟨piece, hpiece, rfl⟩ := List.mem_map.mp (List.mem_filter.mp hmem).1
  obtain ⟨before, after, hsplit⟩ : trim piece <:+: text := by
    obtain ⟨front, back, -, -, hmargins⟩ := exists_margins piece
    have hwithin : trim piece <:+: piece := ⟨front, back, by rw [List.append_assoc, ← hmargins]⟩
    exact hwithin.trans (piece_inside hpiece).1
  have hdrop : window.drop (encode before).length =
      encode (trim piece) ++ (encode after ++ behind) := by
    rw [hbehind, ← htext, ← hsplit, encode_append, encode_append, List.append_assoc,
      List.append_assoc, List.drop_left]
  have hhere := magicHere_encode hfirst (encode after ++ behind)
  rw [← hdrop, hnone] at hhere
  · cases hhere
  · rw [hbehind, ← htext, ← hsplit]
    simp only [encode_append, List.length_append]
    omega

theorem finish_eq_some {reading : Reading} {cfg : ProviderNetcfg}
    (hfinish : reading.finish = some cfg) :
    ∃ address, reading.ipv4 = some address ∧ '.' ∈ address := by
  rw [Reading.finish] at hfinish
  cases haddress : reading.ipv4 with
  | none => simp [haddress] at hfinish
  | some address =>
      simp only [haddress] at hfinish
      split at hfinish
      · next hdotted => exact ⟨address, rfl, hdotted⟩
      · cases hfinish

/-- A text that begins with the magic and is read is that of a record. -/
theorem exists_record {head tail : Text} {cfg : ProviderNetcfg} {first : Text} {rest : List Text}
    (hhead : eqIgnoreAsciiCase head magic = true)
    (hshown : shown (lines (head ++ tail)) = first :: rest)
    (hfirst : eqIgnoreAsciiCase first magic = true)
    (hparse : parseLines (shown (lines (head ++ tail))) = some cfg) :
    ∃ record : Record, record.text = head ++ tail ∧ record.settings = cfg := by
  obtain ⟨line, texts, hpieces⟩ :=
    List.exists_cons_of_ne_nil (List.splitOn_ne_nil '\n' (head ++ tail))
  rw [shown_lines, hpieces] at hshown hparse
  obtain ⟨gap, rfl, hgap⟩ := exists_gap hhead hpieces fun line hline => by
    rw [hshown] at hline
    rwa [← Option.some.inj hline]
  have hfeed : ∀ piece ∈ (head ++ gap) :: texts, '\n' ∉ piece := fun piece hpiece =>
    (piece_inside (hpieces ▸ hpiece)).2
  obtain ⟨lines, rfl⟩ := exists_lines texts
  have hsaid := hparse
  rw [shown_cons, trim_head hhead hgap, if_neg (head_ne_nil hhead), List.singleton_append,
    parseLines, if_pos hhead, readLine_lines, hear_all] at hsaid
  obtain ⟨address, haddress, hdotted⟩ := finish_eq_some hsaid
  let record : Record :=
    { head := head
      head_eq := hhead
      gap := gap
      gap_white := hgap
      gap_feed := fun h => hfeed _ List.mem_cons_self (List.mem_append_right _ h)
      lines := lines
      lines_feed := fun line hline =>
        hfeed _ (List.mem_cons_of_mem _ (List.mem_map_of_mem hline))
      address := address
      address_eq := haddress
      address_dotted := hdotted }
  refine ⟨record, ?_, ?_⟩
  · have hjoin : ['\n'].intercalate ((head ++ tail).splitOn '\n') = head ++ tail :=
      List.intercalate_splitOn '\n'
    rw [hpieces] at hjoin
    exact hjoin
  · have hrecord := parseLines_record record
    exact Option.some.inj (hrecord.symm.trans hparse)

/-- Only a record that is in the image is read. -/
theorem exists_placed {image : Bytes} {cfg : ProviderNetcfg}
    (hparse : parsePertiskNet image = some cfg) (hsize : image.length ≤ 65536) :
    ∃ record before behind, Placed record image before behind ∧ Filled [] record behind ∧
      cfg = record.settings := by
  rw [parsePertiskNet] at hparse
  simp only [List.take_of_length_le hsize] at hparse
  cases hdecode : decode (cutText (image.drop (findMagic image))) with
  | none =>
      rw [hdecode] at hparse
      cases hparse
  | some text =>
      rw [hdecode] at hparse
      have htext := decode_eq_some_iff.mp hdecode
      cases hshown : shown (lines text) with
      | nil =>
          simp only [hshown, parseLines] at hparse
          cases hparse
      | cons firstShown restShown =>
          by_cases hmagic : eqIgnoreAsciiCase firstShown magic = true
          · have hhere := magicHere_cutText (magicHere_slice htext.symm hshown hmagic)
            rw [htext] at hhere
            obtain ⟨head, tail, rfl, hhead⟩ := exists_head hhere
            obtain ⟨record, hrecord, rfl⟩ := exists_record hhead hshown hmagic hparse
            obtain ⟨behind, hbehind, hend⟩ :=
              cutText_append (image.drop (findMagic image))
            have hzero := zero_notMem_cutText (image.drop (findMagic image))
            have hlength : (cutText (image.drop (findMagic image))).length ≤ 4096 :=
              (List.length_take_le _ _)
            rw [htext, ← hrecord] at hbehind hend hzero hlength
            refine ⟨record, image.take (findMagic image), behind,
              ⟨?_, fun h => hzero (zero_notMem_encode.mpr h), hlength⟩,
              ⟨[], behind, rfl, fun _ h => absurd h List.not_mem_nil, hend⟩, rfl⟩
            rw [← hbehind, List.take_append_drop]
          · simp only [hshown, parseLines, hmagic] at hparse
            cases hparse

end Found

theorem Filled.mono {fillers more : List UInt8} {record : Record} {behind : Bytes}
    (hfilled : Filled fillers record behind) (hmore : fillers ⊆ more) :
    Filled more record behind := by
  obtain ⟨fill, rest, hbehind, hfill, hrest⟩ := hfilled
  exact ⟨fill, rest, hbehind, fun byte hbyte => hmore (hfill byte hbyte), hrest⟩

/-- A record that is filled up with spaces to the end, to a zero byte or to the limit is read if
no bytes in front of it are the magic.  In an image that has no record, not even one that is
filled up with bytes 0xff, nothing is read. -/
theorem provider_record_read (image : Bytes) (hsize : image.length ≤ 65536) :
    (∀ record before behind, Placed record image before behind →
      Filled [0x20] record behind →
      (∀ k < before.length, magicHere (image.drop k) = false) →
        parsePertiskNet image = some record.settings) ∧
    ((∀ record before behind, Placed record image before behind →
      ¬ Filled [0x20, 0xff] record behind) → parsePertiskNet image = none) := by
  refine ⟨fun record before behind hplaced hpadding hfirst =>
    parse_of_first hplaced hsize hpadding hfirst, fun hnone => ?_⟩
  cases hparse : parsePertiskNet image with
  | none => rfl
  | some cfg =>
      obtain ⟨record, before, behind, hplaced, hfilled, -⟩ := exists_placed hparse hsize
      exact absurd (hfilled.mono (List.nil_subset _)) (hnone record before behind hplaced)

/-! ## Records that are missed and records that are none -/

section Examples

/-- A line with a key, a comment or a blank line. -/
def Line.Documented : Line → Prop
  | keyed _ => True
  | other text _ => trim text = [] ∨ startsWith (trim text) ['#'] = true

structure Record.Documented (record : Record) : Prop where
  head_eq : record.head = magic
  gap_eq : record.gap = [] ∨ record.gap = ['\r']
  lines : ∀ line ∈ record.lines, line.Documented

def OnlyPadding (behind : Bytes) : Prop := ∀ byte ∈ behind, byte ∈ [0, 0x20, (0xff : UInt8)]

instance (behind : Bytes) : Decidable (OnlyPadding behind) :=
  inferInstanceAs (Decidable (∀ _ ∈ _, _))

/-- A documented record is read wherever it is and whatever it is padded with, and nothing is
read from an image without one. -/
def ReadExactly (image : Bytes) : Prop :=
  (∀ record before behind, record.Documented → Placed record image before behind →
    OnlyPadding behind → parsePertiskNet image = some record.settings) ∧
  ((∀ record before behind, record.Documented → Placed record image before behind →
    ¬ OnlyPadding behind) → parsePertiskNet image = none)

def oneAddress : Record where
  head := magic
  head_eq := by decide
  gap := []
  gap_white := by decide
  gap_feed := by decide
  lines := [.keyed ⟨.address, "IP".toList, "10.0.0.1".toList, by decide⟩]
  lines_feed := by
    intro line hline
    rw [List.mem_singleton.mp hline]
    decide
  address := "10.0.0.1".toList
  address_eq := rfl
  address_dotted := by decide

theorem oneAddress_documented : oneAddress.Documented where
  head_eq := rfl
  gap_eq := .inl rfl
  lines := by
    intro line hline
    rw [List.mem_singleton.mp hline]
    trivial

theorem oneAddress_placed (before behind : Bytes) :
    Placed oneAddress (before ++ (encode oneAddress.text ++ behind)) before behind where
  image_eq := rfl
  plain := by decide +kernel
  short := by decide +kernel

/-- Behind the record are a space, a zero byte and another one. -/
theorem provider_record_read_oneAddress :
    parsePertiskNet ([1] ++ (encode oneAddress.text ++ [0x20, 0, 7])) =
      some oneAddress.settings :=
  (provider_record_read _ (by decide +kernel)).1 oneAddress [1] [0x20, 0, 7]
    (oneAddress_placed _ _) ⟨[0x20], [0, 7], rfl, by decide +kernel, .inr (.inl rfl)⟩
    (by decide +kernel)

/-- A record that is missed shows that an image is not read exactly. -/
theorem not_readExactly_of_missed {before behind : Bytes} (hpadding : OnlyPadding behind)
    (hmissed : parsePertiskNet (before ++ (encode oneAddress.text ++ behind)) = none) :
    ¬ ReadExactly (before ++ (encode oneAddress.text ++ behind)) := by
  intro hexact
  have hread := hexact.1 oneAddress before behind oneAddress_documented
    (oneAddress_placed before behind) hpadding
  rw [hmissed] at hread
  cases hread

theorem not_readExactly_of_read {image : Bytes}
    (hread : (parsePertiskNet image).isSome = true)
    (hnone : ∀ record before behind, record.Documented → Placed record image before behind →
      ¬ OnlyPadding behind) : ¬ ReadExactly image := by
  intro hexact
  rw [hexact.2 hnone] at hread
  cases hread

/-- Nothing is behind a record that ends with the image, if no padding does. -/
theorem behind_eq_nil {record : Record} {image before behind : Bytes} (last : UInt8)
    (hplaced : Placed record image before behind) (hpadding : OnlyPadding behind)
    (himage : image.getLast? = some last) (hlast : last ∉ [0, 0x20, 0xff]) : behind = [] := by
  rcases List.eq_nil_or_concat' behind with hnil | ⟨front, final, hfront⟩
  · exact hnil
  · rw [hplaced.image_eq, hfront, ← List.append_assoc, ← List.append_assoc,
      List.getLast?_concat] at himage
    rw [← Option.some.inj himage] at hlast
    exact absurd (hpadding final (by simp [hfront])) hlast

theorem magicHere_record (record : Record) : magicHere (encode record.text) = true := by
  obtain ⟨rest, htext⟩ := text_eq record
  rw [htext, encode_append]
  exact magicHere_encode record.head_eq _

/-- Behind the zero byte is something else. -/
def followedImage : Bytes := encode oneAddress.text ++ [0, 7]

theorem not_readExactly_followed : ¬ ReadExactly followedImage := by
  refine not_readExactly_of_read (by decide +kernel)
    fun record before behind _ hplaced hpadding => ?_
  obtain rfl := behind_eq_nil 7 hplaced hpadding (by decide +kernel) (by decide)
  have hends : [0, 7] <:+ before ++ encode record.text := by
    have himage := hplaced.image_eq
    rw [List.append_nil] at himage
    rw [← himage]
    exact List.suffix_append _ _
  have hlong : 2 ≤ (encode record.text).length := by
    have hmagic := length_magicHere (magicHere_record record)
    rw [List.length_take] at hmagic
    omega
  have hzero : [0, 7] <:+ encode record.text :=
    List.suffix_of_suffix_length_le hends (List.suffix_append _ _) hlong
  exact hplaced.plain (zero_notMem_encode.mp (hzero.subset List.mem_cons_self))

def unknownText : Text := "PERTISK-NET\nIP=10.0.0.1\nMTU=1".toList

theorem not_documented_mtu (line : Line) (hline : line.text = "MTU=1".toList) :
    ¬ line.Documented := by
  cases line with
  | other text silent =>
      obtain rfl : text = "MTU=1".toList := hline
      rintro (hblank | hcomment)
      · exact absurd hblank (by decide)
      · exact absurd hcomment (by decide)
  | keyed statement =>
      intro _
      have hsplit := splitOnce_append (equals_notMem_name statement) statement.value
      have htext : statement.name ++ '=' :: statement.value = "MTU=1".toList := hline
      have hmtu : splitOnce '=' "MTU=1".toList = some ("MTU".toList, "1".toList) := by decide
      rw [htext, hmtu] at hsplit
      have hnamed := statement.named
      rw [← (Prod.mk.inj (Option.some.inj hsplit)).1] at hnamed
      have hnone : ∀ setting : Setting, (trim "MTU".toList).map Char.toUpper ∉ setting.names := by
        intro setting
        cases setting <;> decide
      exact hnone _ hnamed

theorem not_readExactly_unknown : ¬ ReadExactly (encode unknownText) := by
  refine not_readExactly_of_read (by decide +kernel)
    fun record before behind hdoc hplaced hpadding => ?_
  obtain rfl := behind_eq_nil 0x31 hplaced hpadding (by decide +kernel) (by decide)
  have himage := hplaced.image_eq
  rw [List.append_nil] at himage
  have hdrop : (encode unknownText).drop before.length = encode record.text := by
    rw [himage, List.drop_left]
  have honly : ∀ k ≤ (encode unknownText).length,
      magicHere ((encode unknownText).drop k) = true → k = 0 := by
    decide +kernel
  have hbefore : before.length = 0 := by
    refine honly _ ?_ ?_
    · rw [himage, List.length_append]
      omega
    · rw [hdrop]
      exact magicHere_record record
  rw [hbefore, List.drop_zero] at hdrop
  have htext : record.text = unknownText :=
    Option.some.inj ((decode_eq_some_iff.mpr rfl).symm.trans (decode_eq_some_iff.mpr hdrop.symm))
  have hpieces := splitOn_text record
  have hunknown : unknownText.splitOn '\n' =
      [magic, "IP=10.0.0.1".toList, "MTU=1".toList] := by decide +kernel
  rw [htext, hunknown, Record.pieces] at hpieces
  have hmem : "MTU=1".toList ∈ record.lines.map Line.text := by
    rw [← (List.cons.inj hpieces).2]
    simp
  obtain ⟨line, hline, hmtu⟩ := List.mem_map.mp hmem
  exact not_documented_mtu line hmtu (hdoc.lines line hline)

/-- A label with the same letters in front of the record, or a byte 0xff behind it, and the
record is not seen.  A record is read although something is behind its zero byte, or although
it has a line with another key. -/
theorem provider_record_not_exact :
    ¬ ReadExactly ((encode magic ++ [0]) ++ (encode oneAddress.text ++ [])) ∧
    ¬ ReadExactly ([] ++ (encode oneAddress.text ++ [0xff])) ∧
    ¬ ReadExactly followedImage ∧ ¬ ReadExactly (encode unknownText) :=
  ⟨not_readExactly_of_missed (by decide +kernel) (by decide +kernel),
    not_readExactly_of_missed (by decide +kernel) (by decide +kernel),
    not_readExactly_followed, not_readExactly_unknown⟩

end Examples

end PertiskKos.Net.PertiskNet
