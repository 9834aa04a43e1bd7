import PertiskKos.Bootstrap.Chunked

/-!
# Responses in chunks

A response is written by a server in chunks, and what the API client makes of it is compared
with what was written: of the whole of it, of a part that ends before the zero chunk, and of
a part with any other size behind it.  The client agrees with the server exactly where no
chunk divides a character, where the part ends in none of the places at which the decoder
takes it for a whole response, and where the size and its place fit a `usize`.
-/

namespace PertiskKos.Bootstrap

open Strings Hex Ip Lines
open Utf8 (Bytes encode lossy BrokenOff Fresh)

/-! ## Responses that a server writes -/

/-- A line of the head of a response. -/
def IsHeadLine (line : Text) : Prop := line ≠ [] ∧ '\r' ∉ line ∧ '\n' ∉ line

instance (line : Text) : Decidable (IsHeadLine line) :=
  inferInstanceAs (Decidable (_ ∧ _ ∧ _))

/-- What a server sends in chunks. -/
structure Message where
  version : Text
  status : UInt16
  reason : Text
  fields : List Text
  body : Text
  chunks : List Chunk
  version_ne : version ≠ []
  version_word : ∀ c ∈ version, isWhite c = false
  reason_line : '\r' ∉ reason ∧ '\n' ∉ reason
  fields_lines : ∀ field ∈ fields, IsHeadLine field
  chunked : fields.any isChunkedField = true
  body_chunks : chunks.flatMap Chunk.data = encode body

namespace Message

variable (r : Message)

def statusLine : Text := r.version ++ ' ' :: (decimal r.status.toNat ++ ' ' :: r.reason)

def headLines : Text := r.statusLine ++ r.fields.flatMap (['\r', '\n'] ++ ·)

/-- The head with the empty line after it. -/
def head : Bytes := encode (r.headLines ++ emptyLine)

/-- Everything before the zero chunk. -/
def beforeEnd : Bytes := r.head ++ wires r.chunks

def wire : Bytes := r.beforeEnd ++ zeroChunk

end Message

/-- A message that fits in memory. -/
structure Response extends Message where
  fits : toMessage.wire.length < 2 ^ 63

/-! ## The head -/

section Head

theorem parseU16_decimal (n : UInt16) : parseU16 (decimal n.toNat) = some n.toNat := by
  have hsign : (decimal n.toNat).head? ≠ some '+' := by
    intro hhead
    exact absurd (isDigit_decimal (List.mem_of_head? hhead)) (by decide)
  have hbound : n.toNat < 2 ^ 16 := n.toNat_lt
  simp only [parseU16, if_neg hsign, isDigits_decimal, ofDigits_decimal]
  exact if_pos ⟨trivial, hbound⟩

variable (r : Message)

theorem white_notMem {text : Text} {c : Char} (hword : ∀ c ∈ text, isWhite c = false)
    (hc : isWhite c = true) : c ∉ text := by
  intro hmem
  rw [hword c hmem] at hc
  cases hc

theorem decimal_word (n : Nat) : ∀ c ∈ decimal n, isWhite c = false :=
  fun _ hc => isWhite_of_isDigit (isDigit_decimal hc)

theorem statusLine_isHeadLine : IsHeadLine r.statusLine := by
  have hversion : ∀ c, isWhite c = true → c ∉ r.version := fun c => white_notMem r.version_word
  have hstatus : ∀ c, isWhite c = true → c ∉ decimal r.status.toNat :=
    fun c => white_notMem (decimal_word _)
  obtain ⟨hreturn, hfeed⟩ := r.reason_line
  refine ⟨by simp [Message.statusLine], ?_, ?_⟩
  · have h1 := hversion '\r' (by decide)
    have h2 := hstatus '\r' (by decide)
    simp [Message.statusLine, h1, h2, hreturn]
  · have h1 := hversion '\n' (by decide)
    have h2 := hstatus '\n' (by decide)
    simp [Message.statusLine, h1, h2, hfeed]

/-- The second word of the first line. -/
theorem splitWhitespace_statusLine :
    (splitWhitespace r.statusLine)[1]? = some (decimal r.status.toNat) := by
  have hne : decimal r.status.toNat ≠ [] := Nat.toDigits_ne_nil
  rw [splitWhitespace, Message.statusLine,
    List.splitOnP_append_cons_of_forall_mem r.version_word ' ' (by decide),
    List.splitOnP_append_cons_of_forall_mem (decimal_word _) ' ' (by decide)]
  simp [r.version_ne, hne]

/-- Lines with a carriage return and a line feed between them. -/
def joinLines (first : Text) (others : List Text) : Text :=
  first ++ others.flatMap (['\r', '\n'] ++ ·)

theorem joinLines_cons (first next : Text) (others : List Text) :
    joinLines first (next :: others) = first ++ ['\r', '\n'] ++ joinLines next others := by
  simp [joinLines]

variable {first : Text} {others : List Text}

theorem lines_joinLines (hfirst : IsHeadLine first) (hothers : ∀ line ∈ others, IsHeadLine line) :
    lines (joinLines first others) = first :: others := by
  induction others generalizing first with
  | nil =>
      rw [joinLines, List.flatMap_nil, List.append_nil, lines_of_notMem hfirst.2.2,
        if_neg hfirst.1]
  | cons next others ih =>
      have hsplit : joinLines first (next :: others) =
          (first ++ ['\r']) ++ '\n' :: joinLines next others := by
        simp [joinLines_cons]
      have hfeed : '\n' ∉ first ++ ['\r'] := by simp [hfirst.2.2]
      have hstrip : stripReturn (first ++ ['\r']) = first := by simp [stripReturn]
      rw [hsplit, lines_next hfeed, hstrip, ih (hothers next List.mem_cons_self)
        fun line hline => hothers line (List.mem_cons_of_mem _ hline)]

/-- The empty line is found after the last line. -/
theorem cut_joinLines (hfirst : IsHeadLine first) (hothers : ∀ line ∈ others, IsHeadLine line)
    (rest : Text) :
    cut emptyLine (joinLines first others ++ (emptyLine ++ rest)) =
      some (joinLines first others, rest) := by
  induction others generalizing first with
  | nil =>
      rw [joinLines, List.flatMap_nil, List.append_nil, emptyLine, cut_skip hfirst.2.1,
        cut_here (by decide)]
      simp
  | cons next others ih =>
      have hnext := hothers next List.mem_cons_self
      obtain ⟨c, tail, hc⟩ := List.exists_cons_of_ne_nil hnext.1
      have hreturn : c ≠ '\r' := fun h => hnext.2.1 (by rw [hc, h]; exact List.mem_cons_self)
      have hfound := ih hnext fun line hline => hothers line (List.mem_cons_of_mem _ hline)
      have hsplit : joinLines first (next :: others) ++ (emptyLine ++ rest) =
          first ++ '\r' :: '\n' :: (joinLines next others ++ (emptyLine ++ rest)) := by
        simp [joinLines_cons]
      have hjoin : joinLines next others = c :: (tail ++ others.flatMap (['\r', '\n'] ++ ·)) := by
        rw [joinLines, hc, List.cons_append]
      have hnot : ¬ emptyLine <+: '\r' :: '\n' :: (joinLines next others ++ (emptyLine ++ rest)) := by
        rw [hjoin]
        intro hpre
        have hthird := (List.cons_prefix_cons.mp (List.cons_prefix_cons.mp hpre).2).2
        exact hreturn (List.cons_prefix_cons.mp hthird).1.symm
      have hnot' : ¬ emptyLine <+: '\n' :: (joinLines next others ++ (emptyLine ++ rest)) :=
        fun hpre => absurd (List.cons_prefix_cons.mp hpre).1 (by decide)
      have hcut : cut emptyLine ('\r' :: '\n' :: (joinLines next others ++ (emptyLine ++ rest))) =
          some ('\r' :: '\n' :: joinLines next others, rest) := by
        rw [cut_cons_of_not hnot, cut_cons_of_not hnot', hfound]
        rfl
      rw [hsplit, emptyLine, cut_skip hfirst.2.1]
      rw [emptyLine] at hcut
      rw [hcut, joinLines_cons]
      simp

/-- Two line feeds do not follow each other there. -/
theorem cut_feeds_joinLines (hfirst : IsHeadLine first)
    (hothers : ∀ line ∈ others, IsHeadLine line) :
    cut ['\n', '\n'] (joinLines first others ++ emptyLine) = none := by
  induction others generalizing first with
  | nil =>
      have hnone : cut ['\n', '\n'] emptyLine = none := by decide
      rw [joinLines, List.flatMap_nil, List.append_nil, cut_skip hfirst.2.2, hnone]
      rfl
  | cons next others ih =>
      have hnext := hothers next List.mem_cons_self
      obtain ⟨c, tail, hc⟩ := List.exists_cons_of_ne_nil hnext.1
      have hfeed : c ≠ '\n' := fun h => hnext.2.2 (by rw [hc, h]; exact List.mem_cons_self)
      have hnone := ih hnext fun line hline => hothers line (List.mem_cons_of_mem _ hline)
      have hsplit : joinLines first (next :: others) ++ emptyLine =
          (first ++ ['\r']) ++ '\n' :: (joinLines next others ++ emptyLine) := by
        simp [joinLines_cons]
      have hfirst' : '\n' ∉ first ++ ['\r'] := by simp [hfirst.2.2]
      have hnot : ¬ ['\n', '\n'] <+: '\n' :: (joinLines next others ++ emptyLine) := by
        rw [joinLines, hc]
        intro hpre
        have hsecond := (List.cons_prefix_cons.mp hpre).2
        exact hfeed (List.cons_prefix_cons.mp hsecond).1.symm
      rw [hsplit, cut_skip hfirst', cut_cons_of_not hnot, hnone]
      rfl

theorem headLines_eq : r.headLines = joinLines r.statusLine r.fields := rfl

/-- The status is read, and the body is decoded as chunks. -/
def respond (status : Nat) : Outcome Bytes → Outcome (Nat × Text)
  | .ok out =>
      match Utf8.decode out with
      | some text => .ok (status, text)
      | none => .err .bodyNotUtf8
  | .err error => .err error
  | .overflow i size => .overflow i size

/-- Bytes that do not begin with the end of a line. -/
def Begins (bytes : Bytes) : Prop := ∀ byte ∈ bytes.head?, isBreak byte = false

theorem begins_lossy {rest : Bytes} (hbegins : Begins rest) {c : Char}
    (hhead : c ∈ (lossy rest).head?) : c ≠ '\r' ∧ c ≠ '\n' := by
  constructor
  · rintro rfl
    obtain ⟨more, rfl⟩ := Utf8.exists_of_lossy_head hhead (by decide)
    exact absurd (hbegins 13 rfl) (by decide)
  · rintro rfl
    obtain ⟨more, rfl⟩ := Utf8.exists_of_lossy_head hhead (by decide)
    exact absurd (hbegins 10 rfl) (by decide)

theorem begins_of_front {part bytes : Bytes} (hpart : part <+: bytes) (hbegins : Begins bytes) :
    Begins part := by
  obtain ⟨rest, rfl⟩ := hpart
  cases part with
  | nil => exact fun byte hbyte => by cases hbyte
  | cons first part => exact hbegins

/-- Bytes behind the head are decoded as chunks. -/
theorem readResponse_head {rest : Bytes} (hbegins : Begins rest) :
    readResponse (r.head ++ rest) =
      respond r.status.toNat (decodeFrom 0 (encode (lossy rest)) []) := by
  have hsplit : splitHead (r.headLines ++ (emptyLine ++ lossy rest)) =
      some (r.headLines, emptyLine ++ lossy rest) := by
    rw [splitHead, headLines_eq, cut_joinLines (statusLine_isHeadLine r) r.fields_lines]
    rfl
  have hlines : lines r.headLines = r.statusLine :: r.fields :=
    lines_joinLines (statusLine_isHeadLine r) r.fields_lines
  have hnot : ∀ first second : Char, ∀ more, first = '\r' ∨ first = '\n' →
      ¬ first :: second :: more <+: lossy rest := by
    intro first second more hfirst hpre
    obtain ⟨tail, htail⟩ := hpre
    have hhead : first ≠ '\r' ∧ first ≠ '\n' := begins_lossy hbegins (by rw [← htail]; rfl)
    exact hfirst.elim hhead.1 hhead.2
  have hempty : trimStartMatches emptyLine (emptyLine ++ lossy rest) = lossy rest :=
    trimStartMatches_append (by decide) (hnot '\r' '\n' _ (.inl rfl))
  have hfeeds : trimStartMatches ['\n', '\n'] (lossy rest) = lossy rest :=
    trimStartMatches_of_not_prefix (hnot '\n' '\n' _ (.inr rfl))
  have hchunked : (r.statusLine :: r.fields).any isChunkedField = true := by
    rw [List.any_cons, r.chunked, Bool.or_true]
  rw [readResponse, Message.head, Utf8.lossy_append, List.append_assoc, parseHttpResponse, hsplit]
  simp only [hlines, hchunked, if_true, hempty, hfeeds, List.headD_cons,
    splitWhitespace_statusLine, parseU16_decimal]
  rw [decodeChunkedBody]
  change _ = respond _ (decodeChunks ((encode (lossy rest)).length + 1) 0 (encode (lossy rest)) [])
  cases decodeChunks ((encode (lossy rest)).length + 1) 0 (encode (lossy rest)) [] with
  | ok out =>
      simp only [respond]
      cases Utf8.decode out <;> rfl
  | err error => rfl
  | overflow i size => rfl

/-- The head is not there as long as its last byte is missing. -/
theorem readResponse_open {received : Bytes} (hreceived : received <+: r.head)
    (hne : received ≠ r.head) : readResponse received = .err .incompleteResponse := by
  obtain ⟨whole, part, ⟨more, hwhole⟩, rfl, hpart⟩ := Utf8.exists_of_prefix_encode hreceived
  have hmore : more ≠ [] := by
    rintro rfl
    rw [List.append_nil] at hwhole
    rw [Message.head, ← hwhole] at hreceived hne
    obtain ⟨tail, htail⟩ := hreceived
    rw [List.append_assoc] at htail
    have hnil := List.append_right_eq_self.mp htail
    exact hne (by rw [(List.append_eq_nil_iff.mp hnil).1, List.append_nil])
  have hshown : lossy (encode whole ++ part) = whole ∨
      lossy (encode whole ++ part) = whole ++ [Utf8.replacement] := by
    rw [Utf8.lossy_append]
    rcases hpart with rfl | hpart
    · exact .inl (List.append_nil _)
    · exact .inr (by rw [Utf8.lossy_broken hpart])
  have hempty : ¬ emptyLine <:+: whole := by
    intro hwithin
    obtain ⟨⟨before, after⟩, hcut⟩ := Option.isSome_iff_exists.mp (cut_isSome_iff.mpr hwithin)
    have hall := cut_more (by decide) hcut more
    have hfound := cut_joinLines (statusLine_isHeadLine r) r.fields_lines []
    rw [List.append_nil, ← headLines_eq, ← hwhole, hall] at hfound
    have hafter := (Prod.mk.inj (Option.some.inj hfound)).2
    exact hmore (List.append_eq_nil_iff.mp hafter).2
  have hfeeds : ¬ ['\n', '\n'] <:+: whole := by
    intro hwithin
    have hnone := cut_feeds_joinLines (statusLine_isHeadLine r) r.fields_lines
    rw [← headLines_eq, ← hwhole] at hnone
    exact cut_eq_none_iff.mp hnone (hwithin.trans (List.prefix_append _ _).isInfix)
  have hnot : ∀ pattern : Text, pattern ≠ [] → Utf8.replacement ∉ pattern →
      ¬ pattern <:+: whole → ¬ pattern <:+: lossy (encode whole ++ part) := by
    intro pattern hnil hplain hwithin
    rcases hshown with h | h
    · rwa [h]
    · rw [h, infix_separator_iff hnil hplain, List.infix_nil]
      exact fun hor => hor.elim hwithin hnil
  have hsplit : splitHead (lossy (encode whole ++ part)) = none := by
    rw [splitHead, cut_eq_none_iff.mpr (hnot _ (by decide) (by decide) hempty),
      cut_eq_none_iff.mpr (hnot _ (by decide) (by decide) hfeeds)]
    rfl
  rw [readResponse, parseHttpResponse, hsplit]

end Head

/-! ## Chunks that do not divide a character -/

section Whole

variable {chunks : List Chunk} {rest : Bytes}

theorem begins_digits {digits : Text} (hne : digits ≠ [])
    (hhex : ∀ c ∈ digits, isHexDigit c = true) (rest : Bytes) : Begins (encode digits ++ rest) := by
  intro byte hbyte
  have hdrop := dropWhile_digits hne hhex rest
  rw [← hdrop] at hbyte
  have hnot := List.head?_dropWhile_not isBreak (encode digits ++ rest)
  rw [hbyte] at hnot
  simpa using hnot

theorem begins_wires (hrest : Begins rest) : Begins (wires chunks ++ rest) := by
  cases chunks with
  | nil => exact hrest
  | cons chunk chunks =>
      have hwires : wires (chunk :: chunks) ++ rest =
          encode chunk.size ++ (breakBytes ++ (chunk.data ++ breakBytes) ++ (wires chunks ++ rest)) := by
        simp [wires, Chunk.wire, Chunk.sizeLine]
      rw [hwires]
      exact begins_digits chunk.size_ne chunk.size_hex _

theorem begins_zeroChunk : Begins zeroChunk := by
  intro byte hbyte
  obtain rfl : (48 : UInt8) = byte := Option.some.inj hbyte
  decide

theorem sizeLine_eq (chunk : Chunk) : chunk.sizeLine = encode (chunk.size ++ ['\r', '\n']) := by
  rw [Chunk.sizeLine, Utf8.encode_append]
  rfl

theorem wires_whole (hwhole : ∀ chunk ∈ chunks, chunk.Whole) :
    ∃ text, wires chunks = encode text := by
  induction chunks with
  | nil => exact ⟨[], rfl⟩
  | cons chunk chunks ih =>
      obtain ⟨text, htext⟩ := ih fun other hother => hwhole other (List.mem_cons_of_mem _ hother)
      obtain ⟨data, hdata⟩ := hwhole chunk List.mem_cons_self
      refine ⟨chunk.size ++ ['\r', '\n'] ++ (data ++ ['\r', '\n']) ++ text, ?_⟩
      rw [Utf8.encode_append, Utf8.encode_append _ (data ++ _), Utf8.encode_append data, ← hdata,
        ← sizeLine_eq, ← htext]
      rfl

theorem data_whole (hwhole : ∀ chunk ∈ chunks, chunk.Whole) :
    ∃ text, chunks.flatMap Chunk.data = encode text := by
  induction chunks with
  | nil => exact ⟨[], rfl⟩
  | cons chunk chunks ih =>
      obtain ⟨text, htext⟩ := ih fun other hother => hwhole other (List.mem_cons_of_mem _ hother)
      obtain ⟨data, hdata⟩ := hwhole chunk List.mem_cons_self
      exact ⟨data ++ text, by rw [Utf8.encode_append, ← hdata, ← htext, List.flatMap_cons]⟩

/-- Such chunks are in the text as they were sent, and what follows them is decoded next. -/
theorem decodeFrom_shown (hwhole : ∀ chunk ∈ chunks, chunk.Whole)
    (hfits : (wires chunks).length < 2 ^ 64) :
    decodeFrom 0 (encode (lossy (wires chunks ++ rest))) [] =
      decodeFrom (wires chunks).length (encode (lossy rest)) (chunks.flatMap Chunk.data) := by
  obtain ⟨text, htext⟩ := wires_whole hwhole
  have hshown : encode (lossy (wires chunks ++ rest)) = wires chunks ++ encode (lossy rest) := by
    rw [htext, Utf8.lossy_append, Utf8.encode_append]
  rw [hshown, decodeFrom_wires (by omega), Nat.zero_add, List.nil_append]

theorem readResponse_wires (r : Message) (hwhole : ∀ chunk ∈ chunks, chunk.Whole)
    (hfits : (wires chunks).length < 2 ^ 64) (hrest : Begins rest) :
    readResponse (r.head ++ (wires chunks ++ rest)) =
      respond r.status.toNat
        (decodeFrom (wires chunks).length (encode (lossy rest)) (chunks.flatMap Chunk.data)) := by
  rw [readResponse_head r (begins_wires hrest), decodeFrom_shown hwhole hfits]

end Whole

/-! ## Whole responses -/

section Complete

variable (r : Response)

theorem length_wires_lt {done : List Chunk} (hdone : done <+: r.chunks) :
    (wires done).length < 2 ^ 63 := by
  obtain ⟨later, hlater⟩ := hdone
  have hfits := r.fits
  have hwires : wires r.chunks = wires done ++ wires later := by
    rw [← hlater, wires, wires, wires, List.flatMap_append]
  rw [Message.wire, Message.beforeEnd, hwires] at hfits
  simp only [List.length_append] at hfits
  omega

/-- A response whose chunks do not divide characters is decoded. -/
theorem readResponse_whole (hwhole : ∀ chunk ∈ r.chunks, chunk.Whole) :
    readResponse r.wire = .ok (r.status.toNat, r.body) := by
  have hfits := length_wires_lt r (List.prefix_refl r.chunks)
  have hzero : encode (lossy zeroChunk) = zeroChunk := by
    rw [zeroChunk, Utf8.lossy_encode]
  rw [Message.wire, Message.beforeEnd, List.append_assoc,
    readResponse_wires r.toMessage hwhole (by omega) begins_zeroChunk, hzero,
    decodeFrom_zeroChunk, r.body_chunks, respond, Utf8.decode_eq_some_iff.mpr rfl]

theorem first_divided {chunks : List Chunk} (hnot : ¬ ∀ chunk ∈ chunks, chunk.Whole) :
    ∃ done chunk later, chunks = done ++ chunk :: later ∧ (∀ other ∈ done, other.Whole) ∧
      ¬ chunk.Whole := by
  induction chunks with
  | nil => exact absurd (fun chunk hchunk => by cases hchunk) hnot
  | cons first chunks ih =>
      by_cases hfirst : first.Whole
      · have hrest : ¬ ∀ chunk ∈ chunks, chunk.Whole :=
          fun h => hnot (List.forall_mem_cons.mpr ⟨hfirst, h⟩)
        obtain ⟨done, chunk, later, rfl, hdone, hchunk⟩ := ih hrest
        exact ⟨first :: done, chunk, later, rfl, List.forall_mem_cons.mpr ⟨hfirst, hdone⟩, hchunk⟩
      · exact ⟨[], first, chunks, rfl, List.forall_mem_nil _, hfirst⟩

def replacementBytes : Bytes := [0xef, 0xbf, 0xbd]

theorem encode_replacement (text : Text) :
    encode (Utf8.replacement :: text) = replacementBytes ++ encode text := by
  have hone : String.utf8EncodeChar Utf8.replacement = replacementBytes := by decide
  rw [Utf8.encode_cons, hone]

/-- Behind a size too small for the replacement character the decoder does not go on. -/
theorem decodeFrom_left {i : Nat} {left rest out : Bytes}
    (hleft : left = [0xbf, 0xbd] ∨ left = [0xbd]) :
    decodeFrom i (left ++ (breakBytes ++ rest)) out = .err .sizeNotUtf8 := by
  refine decodeFrom_done ?_
  rcases hleft with rfl | rfl
  · have hsize : chunkSize [0xbf, 0xbd, 13] = .error .sizeNotUtf8 := by decide
    simp [turn, breakBytes, isBreak, hsize]
  · have hsize : chunkSize [0xbd, 13] = .error .sizeNotUtf8 := by decide
    simp [turn, breakBytes, isBreak, hsize]

theorem length_brokenOff {part : Bytes} (hpart : BrokenOff part) :
    1 ≤ part.length ∧ part.length ≤ 3 := by
  obtain ⟨hne, c, ⟨missing, hwhole⟩, hproper⟩ := hpart
  have hpos := List.length_pos_iff.mpr hne
  have hmissing : 0 < missing.length := by
    refine List.length_pos_iff.mpr ?_
    rintro rfl
    exact hproper (by rw [← hwhole, List.append_nil])
  have hfour : (part ++ missing).length ≤ 4 := by
    rw [hwhole, String.length_utf8EncodeChar]
    exact c.utf8Size_le_four
  rw [List.length_append] at hfour
  omega

theorem encode_of_respond {status : Nat} {outcome : Outcome Bytes} {text : Text}
    (hok : respond status outcome = .ok (status, text)) : outcome = .ok (encode text) := by
  cases outcome with
  | ok out =>
      rw [respond] at hok
      cases hdecode : Utf8.decode out with
      | none =>
          rw [hdecode] at hok
          cases hok
      | some body =>
          rw [hdecode] at hok
          obtain ⟨-, rfl⟩ := Prod.mk.inj (Outcome.ok.inj hok)
          rw [Utf8.decode_eq_some_iff.mp hdecode]
  | err error => cases hok
  | overflow i size => cases hok

/-- What the decoder is given of a chunk that divides a character. -/
theorem lossy_divided (chunk : Chunk) (whole : Text) {part : Bytes} (hpart : BrokenOff part)
    (rest : Bytes) :
    encode (lossy (chunk.sizeLine ++ (encode whole ++ (part ++ (breakBytes ++ rest))))) =
      chunk.sizeLine ++ (encode whole ++ replacementBytes ++ (breakBytes ++ encode (lossy rest))) := by
  have hfresh : Fresh (breakBytes ++ rest) := by
    intro byte hbyte
    obtain rfl : (13 : UInt8) = byte := Option.some.inj hbyte
    decide
  have hbreaks : breakBytes = encode ['\r', '\n'] := by decide
  rw [sizeLine_eq, Utf8.lossy_append, Utf8.lossy_append, Utf8.lossy_brokenOff hpart hfresh,
    hbreaks, Utf8.lossy_append, Utf8.encode_append, Utf8.encode_append whole,
    encode_replacement, Utf8.encode_append ['\r', '\n'], List.append_assoc (encode whole)]

/-- The decoder does not come to an end that has the replaced character's bytes. -/
theorem decodeFrom_divided {chunk : Chunk} {whole : Text} {part rest out : Bytes} {i : Nat}
    (hpart : BrokenOff part) (hdata : chunk.data = encode whole ++ part)
    (hfits : i + chunk.wire.length < 2 ^ 64) {later all : Bytes}
    (hall : all = out ++ (chunk.data ++ later)) :
    decodeFrom i (chunk.sizeLine ++ (encode whole ++ replacementBytes ++ (breakBytes ++ rest))) out ≠
      .ok all := by
  obtain ⟨hone, hthree⟩ := length_brokenOff hpart
  have hlength : chunk.data.length = (encode whole).length + part.length := by
    rw [hdata, List.length_append]
  rw [length_wire] at hfits
  have hturn := @turn_chunk i (encode whole ++ replacementBytes ++ (breakBytes ++ rest)) out chunk
    (by omega)
  have henough : ¬ (encode whole ++ replacementBytes ++ (breakBytes ++ rest)).length <
      chunk.data.length := by
    simp only [List.length_append, replacementBytes, List.length_cons, hlength]
    omega
  have hdrop : (encode whole ++ replacementBytes ++ (breakBytes ++ rest)).drop chunk.data.length =
      replacementBytes.drop part.length ++ (breakBytes ++ rest) := by
    rw [hlength, List.append_assoc, List.drop_length_add_append,
      List.drop_append_of_le_length hthree]
  have htake : (encode whole ++ replacementBytes ++ (breakBytes ++ rest)).take chunk.data.length =
      encode whole ++ replacementBytes.take part.length := by
    rw [hlength, List.append_assoc, List.take_length_add_append,
      List.take_append_of_le_length hthree]
  rw [if_neg henough, hdrop, htake] at hturn
  rw [decodeFrom_next hturn]
  have hshort : ∀ left, left = [0xbf, 0xbd] ∨ left = [0xbd] →
      skipByte 10 (skipByte 13 (left ++ (breakBytes ++ rest))) = left ++ (breakBytes ++ rest) := by
    rintro left (rfl | rfl) <;> rfl
  obtain h | h | h : part.length = 1 ∨ part.length = 2 ∨ part.length = 3 := by omega
  · rw [h]
    change decodeFrom _ (skipByte 10 (skipByte 13 ([0xbf, 0xbd] ++ (breakBytes ++ rest)))) _ ≠ _
    rw [hshort _ (.inl rfl), decodeFrom_left (.inl rfl)]
    exact fun h => by cases h
  · rw [h]
    change decodeFrom _ (skipByte 10 (skipByte 13 ([0xbd] ++ (breakBytes ++ rest)))) _ ≠ _
    rw [hshort _ (.inr rfl), decodeFrom_left (.inr rfl)]
    exact fun h => by cases h
  · intro hok
    have hpre := prefix_of_decodeFrom hok
    rw [hall, hdata, List.prefix_append_right_inj, List.append_assoc,
      List.prefix_append_right_inj, h] at hpre
    -- the three bytes would be those of the replacement character itself
    have hsame : replacementBytes = part := by
      have hboth := List.prefix_of_prefix_length_le hpre (List.prefix_append part later)
        (by rw [h]; decide)
      exact hboth.eq_of_length (by rw [h]; rfl)
    have hnone := Utf8.decodeChar_broken hpart
    rw [← hsame] at hnone
    exact absurd hnone (by decide)

/-- A response with a chunk that divides a character is not. -/
theorem readResponse_divided (hnot : ¬ ∀ chunk ∈ r.chunks, chunk.Whole) :
    readResponse r.wire ≠ .ok (r.status.toNat, r.body) := by
  obtain ⟨done, chunk, later, hchunks, hdone, hchunk⟩ := first_divided hnot
  obtain ⟨front, hfront⟩ := data_whole hdone
  have hbody : encode front ++ (chunk.data ++ later.flatMap Chunk.data) = encode r.body := by
    rw [← hfront, ← r.body_chunks, hchunks, List.flatMap_append, List.flatMap_cons]
  obtain ⟨tail, -, htail⟩ := Utf8.exists_of_encode_append hbody
  have hpre : chunk.data <+: encode tail := htail ▸ List.prefix_append _ _
  obtain ⟨whole, part, -, hdata, hpart⟩ := Utf8.exists_of_prefix_encode hpre
  have hpart : BrokenOff part := by
    refine hpart.resolve_left ?_
    rintro rfl
    exact hchunk ⟨whole, by rw [hdata, List.append_nil]⟩
  have hfits := @length_wires_lt r (done ++ [chunk]) ⟨later, by simp [hchunks]⟩
  rw [wires, List.flatMap_append, List.length_append, List.flatMap_singleton] at hfits
  have hwires : (wires done).length + chunk.wire.length < 2 ^ 63 := hfits
  have hwire : r.wire = r.head ++ (wires done ++ (chunk.sizeLine ++ (encode whole ++ (part ++
      (breakBytes ++ (wires later ++ zeroChunk)))))) := by
    simp [Message.wire, Message.beforeEnd, hchunks, wires, Chunk.wire, hdata]
  have hbegins : Begins (chunk.sizeLine ++ (encode whole ++ (part ++
      (breakBytes ++ (wires later ++ zeroChunk))))) := by
    rw [Chunk.sizeLine, List.append_assoc]
    exact begins_digits chunk.size_ne chunk.size_hex _
  rw [hwire, readResponse_wires r.toMessage hdone (by omega) hbegins,
    lossy_divided chunk whole hpart]
  have hall : encode r.body =
      done.flatMap Chunk.data ++ (chunk.data ++ later.flatMap Chunk.data) := by
    rw [← hbody, hfront]
  exact fun hok => decodeFrom_divided hpart hdata (by omega) hall (encode_of_respond hok)

end Complete

/-! ## Responses that are broken off -/

section Cuts

/-- What is received ends behind the head, or behind the data of a chunk, with none, one or
both of the two bytes after it. -/
def BetweenChunks (r : Message) (received : Bytes) : Prop :=
  ∃ done ends, done <+: r.chunks ∧ ends <:+ breakBytes ∧ (done = [] → ends = []) ∧
    received ++ ends = r.head ++ wires done

/-- What is received ends inside a character of a chunk whose size is that of the characters
before it and of the replacement character. -/
def InsideCharacter (r : Message) (received : Bytes) : Prop :=
  ∃ done chunk whole part, done ++ [chunk] <+: r.chunks ∧ encode whole ++ part <+: chunk.data ∧
    BrokenOff part ∧ (encode whole).length + 3 = chunk.data.length ∧
    received = r.head ++ (wires done ++ (chunk.sizeLine ++ (encode whole ++ part)))

variable {r : Response} {received : Bytes}

theorem whole_of_front {done : List Chunk} (hwhole : ∀ chunk ∈ r.chunks, chunk.Whole)
    (hdone : done <+: r.chunks) : ∀ chunk ∈ done, chunk.Whole :=
  fun chunk hchunk => hwhole chunk (hdone.subset hchunk)

theorem respond_encode (status : Nat) (text : Text) :
    respond status (.ok (encode text)) = .ok (status, text) := by
  rw [respond, Utf8.decode_eq_some_iff.mpr rfl]

/-- The bytes of a chunk are shown as they are, up to a character that is broken off. -/
theorem begins_sizeLine (chunk : Chunk) (rest : Bytes) : Begins (chunk.sizeLine ++ rest) := by
  rw [Chunk.sizeLine, List.append_assoc]
  exact begins_digits chunk.size_ne chunk.size_hex _

theorem shown_sizeLine (chunk : Chunk) (rest : Bytes) :
    encode (lossy (chunk.sizeLine ++ rest)) = chunk.sizeLine ++ encode (lossy rest) := by
  rw [sizeLine_eq, Utf8.lossy_append, Utf8.encode_append]

theorem fits_chunk {done : List Chunk} {chunk : Chunk} (hdone : done ++ [chunk] <+: r.chunks) :
    (wires done).length + chunk.wire.length < 2 ^ 63 := by
  have hfits := length_wires_lt r hdone
  rwa [wires, List.flatMap_append, List.length_append, List.flatMap_singleton] at hfits

theorem breaks_of_front {shown : Bytes} (hshown : shown <+: breakBytes) :
    (∃ text, shown = encode text) ∧ ∀ byte ∈ shown, isBreak byte = true := by
  have hcases : shown = [] ∨ shown = [13] ∨ shown = [13, 10] := by
    have h : shown = [] ∨ ∃ t, shown = 13 :: t ∧ (t = [] ∨ t = [10]) := by
      simpa [breakBytes, List.prefix_cons_iff] using hshown
    rcases h with h | ⟨t, h, rfl | rfl⟩
    · exact .inl h
    · exact .inr (.inl h)
    · exact .inr (.inr h)
  have hreturn : isBreak 13 = true := rfl
  have hfeed : isBreak 10 = true := rfl
  rcases hcases with rfl | rfl | rfl
  · exact ⟨⟨[], rfl⟩, List.forall_mem_nil _⟩
  · exact ⟨⟨['\r'], rfl⟩, by simp [hreturn]⟩
  · exact ⟨⟨['\r', '\n'], rfl⟩, by simp [hreturn, hfeed]⟩

theorem shown_brokenOff (whole : Text) {part : Bytes} (hpart : BrokenOff part) :
    encode (lossy (encode whole ++ part)) = encode (whole ++ [Utf8.replacement]) := by
  rw [Utf8.lossy_append, Utf8.lossy_broken hpart]

/-- Between two chunks the decoder ends well. -/
theorem readResponse_between (hwhole : ∀ chunk ∈ r.chunks, chunk.Whole)
    (hbetween : BetweenChunks r.toMessage received) :
    ∃ text, readResponse received = .ok (r.status.toNat, text) := by
  obtain ⟨done, ends, hdone, hends, hnone, hsame⟩ := hbetween
  rcases List.eq_nil_or_concat done with rfl | ⟨front, chunk, rfl⟩
  · obtain rfl := hnone rfl
    refine ⟨[], ?_⟩
    have hreceived : received = r.head ++ [] := by simpa [wires] using hsame
    rw [hreceived, readResponse_head r.toMessage fun byte hbyte => by cases hbyte]
    exact respond_encode _ []
  · rw [List.concat_eq_append] at hdone hsame
    obtain ⟨shown, hshown⟩ := hends
    have hfront : front <+: r.chunks := (List.prefix_append _ _).trans hdone
    have hchunk : chunk ∈ r.chunks := hdone.subset (by simp)
    obtain ⟨text, htext⟩ := hwhole chunk hchunk
    obtain ⟨before, hbefore⟩ := data_whole (whole_of_front hwhole hfront)
    have hfits := fits_chunk hdone
    have hreceived : received =
        r.head ++ (wires front ++ (chunk.sizeLine ++ (chunk.data ++ shown))) := by
      have hall : received ++ ends =
          r.head ++ (wires front ++ (chunk.sizeLine ++ (chunk.data ++ shown))) ++ ends := by
        rw [hsame, wires, List.flatMap_append, List.flatMap_singleton, Chunk.wire, ← hshown]
        simp [wires]
      exact List.append_cancel_right hall
    obtain ⟨⟨last, hlast⟩, hbreaks⟩ := breaks_of_front ⟨ends, hshown⟩
    have hplain : encode (lossy (chunk.data ++ shown)) = chunk.data ++ shown := by
      rw [htext, hlast, ← Utf8.encode_append, Utf8.lossy_encode]
    refine ⟨before ++ text, ?_⟩
    rw [hreceived, readResponse_wires r.toMessage (whole_of_front hwhole hfront) (by omega)
      (begins_sizeLine _ _), shown_sizeLine, hplain, decodeFrom_data hbreaks (by omega), hbefore,
      htext, ← Utf8.encode_append]
    exact respond_encode _ _

/-- So it does where the replacement character has the missing bytes. -/
theorem readResponse_inside (hwhole : ∀ chunk ∈ r.chunks, chunk.Whole)
    (hinside : InsideCharacter r.toMessage received) :
    ∃ text, readResponse received = .ok (r.status.toNat, text) := by
  obtain ⟨done, chunk, whole, part, hdone, hpre, hpart, hlength, rfl⟩ := hinside
  have hfront : done <+: r.chunks := (List.prefix_append _ _).trans hdone
  obtain ⟨before, hbefore⟩ := data_whole (whole_of_front hwhole hfront)
  have hfits := fits_chunk hdone
  have hshown := shown_brokenOff whole hpart
  have hmany : (encode (whole ++ [Utf8.replacement])).length = chunk.data.length := by
    rw [Utf8.encode_append, encode_replacement, List.length_append, ← hlength]
    rfl
  have hnone : ∀ byte ∈ (encode (whole ++ [Utf8.replacement])).drop chunk.data.length,
      isBreak byte = false := by
    rw [List.drop_of_length_le (Nat.le_of_eq hmany)]
    exact List.forall_mem_nil _
  refine ⟨before ++ (whole ++ [Utf8.replacement]), ?_⟩
  rw [readResponse_wires r.toMessage (whole_of_front hwhole hfront) (by omega)
    (begins_sizeLine _ _), shown_sizeLine, hshown, decodeFrom_part hnone (by omega),
    if_neg (Nat.not_lt.mpr (Nat.le_of_eq hmany.symm)), if_pos hmany, hbefore, ← Utf8.encode_append]
  exact respond_encode _ _

theorem prefix_append_cases {A : Type} {part left right : List A} (hpart : part <+: left ++ right) :
    (part <+: left ∧ part ≠ left) ∨ ∃ rest, part = left ++ rest ∧ rest <+: right := by
  rcases Nat.lt_or_ge part.length left.length with hshort | hlong
  · refine .inl ⟨List.prefix_of_prefix_length_le hpart (List.prefix_append _ _) (by omega), ?_⟩
    rintro rfl
    exact Nat.lt_irrefl _ hshort
  · obtain ⟨rest, rfl⟩ :=
      List.prefix_of_prefix_length_le (List.prefix_append left right) hpart hlong
    exact .inr ⟨rest, rfl, (List.prefix_append_right_inj _).mp hpart⟩

/-- Some chunks are received, and of the next one, if there is one, a part. -/
theorem prefix_wires {chunks : List Chunk} {part : Bytes} (hpart : part <+: wires chunks) :
    ∃ done, done <+: chunks ∧ (part = wires done ∨ ∃ chunk rest, done ++ [chunk] <+: chunks ∧
      part = wires done ++ rest ∧ rest <+: chunk.wire ∧ rest ≠ chunk.wire) := by
  induction chunks generalizing part with
  | nil => exact ⟨[], List.nil_prefix, .inl (List.prefix_nil.mp hpart)⟩
  | cons chunk chunks ih =>
      rcases prefix_append_cases hpart with ⟨hshort, hne⟩ | ⟨rest, rfl, hrest⟩
      · exact ⟨[], List.nil_prefix, .inr ⟨chunk, part, by simp, rfl, hshort, hne⟩⟩
      · obtain ⟨done, hdone, h⟩ := ih hrest
        refine ⟨chunk :: done, List.cons_prefix_cons.mpr ⟨rfl, hdone⟩, ?_⟩
        rcases h with rfl | ⟨next, more, hnext, rfl, hmore, hne⟩
        · exact .inl rfl
        · refine .inr ⟨next, more, List.cons_prefix_cons.mpr ⟨rfl, hnext⟩, ?_, hmore, hne⟩
          rw [← List.append_assoc]
          rfl

/-- A part of a line with a size has no line feed. -/
theorem decodeFrom_sizeLine {chunk : Chunk} {part : Bytes} (hpart : part <+: chunk.sizeLine)
    (hne : part ≠ chunk.sizeLine) (hnil : part ≠ []) (i : Nat) (out : Bytes) :
    decodeFrom i (encode (lossy part)) out = .err .sizeLineTruncated := by
  rw [sizeLine_eq] at hpart hne
  obtain ⟨shown, rest, hshown, rfl, hrest⟩ := Utf8.exists_of_prefix_encode hpart
  have hfeed : '\n' ∉ shown := by
    have hline : chunk.size ++ ['\r', '\n'] = (chunk.size ++ ['\r']) ++ ['\n'] := by simp
    have hplain : '\n' ∉ chunk.size ++ ['\r'] := by
      simp [@notMem_of_hex _ '\n' chunk.size_hex (by decide)]
    rw [hline] at hshown
    rcases List.prefix_concat_iff.mp hshown with rfl | hshort
    · exfalso
      rw [hline] at hne hpart
      obtain ⟨more, hmore⟩ := hpart
      rw [List.append_assoc] at hmore
      have hnone := (List.append_eq_nil_iff.mp (List.append_right_eq_self.mp hmore)).1
      exact hne (by rw [hnone, List.append_nil])
    · exact fun h => hplain (hshort.subset h)
  have hdigit : isBreak 0xef = false := rfl
  rcases hrest with rfl | hbroken
  · rw [List.append_nil] at hnil hpart ⊢
    rw [Utf8.lossy_encode]
    have hbegins : Begins (encode shown) := by
      refine begins_of_front hpart ?_
      have h := begins_digits chunk.size_ne chunk.size_hex (encode ['\r', '\n'])
      rwa [← Utf8.encode_append] at h
    have hhead := List.head_mem hnil
    exact decodeFrom_open (notMem_encode hfeed)
      ⟨_, hhead, hbegins _ (List.head?_eq_some_head hnil)⟩
  · rw [shown_brokenOff shown hbroken]
    refine decodeFrom_open (notMem_encode (by simp [hfeed]; decide)) ⟨0xef, ?_, hdigit⟩
    rw [Utf8.encode_append, encode_replacement]
    simp [replacementBytes]

/-- A part of the data of a chunk is not enough. -/
theorem decodeFrom_short {chunk : Chunk} {part : Bytes} (hwhole : chunk.Whole)
    (hpart : part <+: chunk.data) (hne : part ≠ chunk.data) {i : Nat}
    (hfits : i + chunk.wire.length < 2 ^ 64) (out : Bytes) :
    (∃ error, decodeFrom i (chunk.sizeLine ++ encode (lossy part)) out = .err error) ∨
      ∃ whole rest, part = encode whole ++ rest ∧ BrokenOff rest ∧
        (encode whole).length + 3 = chunk.data.length := by
  obtain ⟨text, htext⟩ := hwhole
  have hshort : part.length < chunk.data.length :=
    lt_of_le_of_ne hpart.length_le fun h => hne (hpart.eq_of_length h)
  rw [htext] at hpart
  obtain ⟨whole, rest, -, rfl, hrest⟩ := Utf8.exists_of_prefix_encode hpart
  rcases hrest with rfl | hrest
  · left
    rw [List.append_nil] at hshort ⊢
    rw [Utf8.lossy_encode, decodeFrom_part ?_ hfits, if_pos hshort]
    · exact ⟨_, rfl⟩
    · rw [List.drop_of_length_le (Nat.le_of_lt hshort)]
      exact List.forall_mem_nil _
  · by_cases hsame : (encode whole).length + 3 = chunk.data.length
    · exact .inr ⟨whole, rest, rfl, hrest, hsame⟩
    · left
      have hmany : (encode (whole ++ [Utf8.replacement])).length = (encode whole).length + 3 := by
        rw [Utf8.encode_append, encode_replacement, List.length_append]
        rfl
      have hpos := (length_brokenOff hrest).1
      rw [List.length_append] at hshort
      rw [shown_brokenOff whole hrest, decodeFrom_part ?_ hfits, hmany, if_neg hsame]
      · split <;> exact ⟨_, rfl⟩
      · intro byte hbyte
        rw [Utf8.encode_append, encode_replacement, List.drop_append,
          List.drop_of_length_le (by omega), List.nil_append] at hbyte
        have hmem : byte ∈ replacementBytes := by
          simpa using List.mem_of_mem_drop hbyte
        simp only [replacementBytes, List.mem_cons, List.not_mem_nil, or_false] at hmem
        rcases hmem with rfl | rfl | rfl <;> rfl

/-- Everywhere else it fails. -/
theorem readResponse_cut (hwhole : ∀ chunk ∈ r.chunks, chunk.Whole)
    (hreceived : received <+: r.beforeEnd) :
    (∃ error, readResponse received = .err error) ∨ BetweenChunks r.toMessage received ∨
      InsideCharacter r.toMessage received := by
  rcases prefix_append_cases hreceived with ⟨hshort, hne⟩ | ⟨rest, rfl, hrest⟩
  · exact .inl ⟨_, readResponse_open r.toMessage hshort hne⟩
  · obtain ⟨done, hdone, rfl | ⟨chunk, part, hchunk, rfl, hpart, hne⟩⟩ := prefix_wires hrest
    · exact .inr (.inl ⟨done, [], hdone, List.nil_suffix, fun _ => rfl, List.append_nil _⟩)
    · have hdone' := whole_of_front hwhole hdone
      have hfits := fits_chunk hchunk
      rcases prefix_append_cases hpart with ⟨hshort, hne'⟩ | ⟨data, rfl, hdata⟩
      · by_cases hnil : part = []
        · subst hnil
          refine .inr (.inl ⟨done, [], hdone, List.nil_suffix, fun _ => rfl, ?_⟩)
          rw [List.append_nil, List.append_nil]
        · left
          have hbegins : Begins part := by
            refine begins_of_front hshort ?_
            have h := begins_sizeLine chunk []
            rwa [List.append_nil] at h
          rw [readResponse_wires r.toMessage hdone' (by omega) hbegins,
            decodeFrom_sizeLine hshort hne' hnil]
          exact ⟨_, rfl⟩
      · rcases prefix_append_cases hdata with ⟨hshort, hne'⟩ | ⟨shown, rfl, ends, hends⟩
        · have hchunk' := hwhole chunk (hchunk.subset (by simp))
          have hbound : (wires done).length + chunk.wire.length < 2 ^ 64 := by omega
          rcases decodeFrom_short hchunk' hshort hne' hbound (done.flatMap Chunk.data) with
            ⟨error, herror⟩ | ⟨whole, rest, rfl, hrest, hlength⟩
          · left
            rw [readResponse_wires r.toMessage hdone' (by omega) (begins_sizeLine _ _),
              shown_sizeLine, herror]
            exact ⟨error, rfl⟩
          · exact .inr (.inr ⟨done, chunk, whole, rest, hchunk, hshort, hrest, hlength, rfl⟩)
        · refine .inr (.inl ⟨done ++ [chunk], ends, hchunk, ⟨shown, hends⟩, by simp, ?_⟩)
          rw [wires, wires, List.flatMap_append, List.flatMap_singleton, Chunk.wire, ← hends]
          simp

/-- With whole characters in every chunk, a cut before the zero chunk is reported unless it is
between two chunks or inside a character of that kind. -/
theorem readResponse_cut_iff (hwhole : ∀ chunk ∈ r.chunks, chunk.Whole)
    (hreceived : received <+: r.beforeEnd) :
    (∃ error, readResponse received = .err error) ↔
      ¬ BetweenChunks r.toMessage received ∧ ¬ InsideCharacter r.toMessage received := by
  constructor
  · rintro ⟨error, herror⟩
    constructor
    · intro hbetween
      obtain ⟨text, htext⟩ := readResponse_between hwhole hbetween
      rw [herror] at htext
      cases htext
    · intro hinside
      obtain ⟨text, htext⟩ := readResponse_inside hwhole hinside
      rw [herror] at htext
      cases htext
  · rintro ⟨hbetween, hinside⟩
    rcases readResponse_cut hwhole hreceived with herror | h | h
    · exact herror
    · exact absurd h hbetween
    · exact absurd h hinside

end Cuts

/-! ## Sizes that do not fit -/

section Sizes

theorem turn_overflow {i j size : Nat} {rest out : Bytes}
    (hturn : turn i rest out = .done (.overflow j size)) : 2 ^ 64 ≤ j + size := by
  simp only [turn] at hturn
  split at hturn
  · cases hturn
  · split at hturn
    · cases hturn
    · split at hturn
      · cases hturn
      · split at hturn
        · cases hturn
        · split at hturn
          · next hlarge =>
              obtain ⟨rfl, rfl⟩ := Outcome.overflow.inj (Turn.done.inj hturn)
              exact hlarge
          · split at hturn <;> cases hturn

theorem decodeFrom_overflow {i j size : Nat} {rest out : Bytes}
    (hoverflow : decodeFrom i rest out = .overflow j size) : 2 ^ 64 ≤ j + size := by
  induction hn : rest.length using Nat.strong_induction_on generalizing i rest out with
  | _ n ih =>
      cases hturn : turn i rest out with
      | done outcome =>
          rw [decodeFrom_done hturn] at hoverflow
          exact turn_overflow (hoverflow ▸ hturn)
      | next i' next out' =>
          rw [decodeFrom_next hturn] at hoverflow
          exact ih next.length (hn ▸ (turn_next hturn).1) hoverflow rfl

theorem respond_overflow_iff {status i size : Nat} {outcome : Outcome Bytes} :
    respond status outcome = .overflow i size ↔ outcome = .overflow i size := by
  cases outcome with
  | ok out =>
      rw [respond]
      cases Utf8.decode out with
      | none => exact iff_of_false (fun h => by cases h) fun h => by cases h
      | some text => exact iff_of_false (fun h => by cases h) fun h => by cases h
  | err error => exact iff_of_false (fun h => by cases h) fun h => by cases h
  | overflow j other => simp [respond]

variable {r : Response} {digits : Text}

theorem length_encode_le (text : Text) : (encode text).length ≤ 4 * text.length := by
  induction text with
  | nil => exact Nat.le_refl _
  | cons c text ih =>
      have hfour := c.utf8Size_le_four
      rw [Utf8.length_encode_cons, List.length_cons]
      omega

/-- A line with a size behind the chunks ends the program if the sum does not fit. -/
theorem readResponse_size_iff (hwhole : ∀ chunk ∈ r.chunks, chunk.Whole) (hne : digits ≠ [])
    (hhex : ∀ c ∈ digits, isHexDigit c = true) (hshort : digits.length ≤ 16) (rest : Bytes) :
    readResponse (r.beforeEnd ++ (encode digits ++ breakBytes ++ rest)) =
        .overflow ((wires r.chunks).length + (encode digits ++ breakBytes).length) (ofHex digits) ↔
      2 ^ 64 ≤
        (wires r.chunks).length + (encode digits ++ breakBytes).length + ofHex digits := by
  have hfits := length_wires_lt r (List.prefix_refl r.chunks)
  have hvalue := ofHex_lt hshort hhex
  have hbegins : Begins (encode digits ++ breakBytes ++ rest) := by
    rw [List.append_assoc]
    exact begins_digits hne hhex _
  have hbreaks : encode digits ++ breakBytes = encode (digits ++ ['\r', '\n']) := by
    rw [Utf8.encode_append]
    rfl
  have hshown : encode (lossy (encode digits ++ breakBytes ++ rest)) =
      encode digits ++ breakBytes ++ encode (lossy rest) := by
    rw [hbreaks, Utf8.lossy_append, Utf8.encode_append]
  rw [Message.beforeEnd, List.append_assoc,
    readResponse_wires r.toMessage hwhole (by omega) hbegins, hshown, respond_overflow_iff]
  refine ⟨decodeFrom_overflow, fun hlarge => ?_⟩
  have hzero : ofHex digits ≠ 0 := by
    intro hzero
    have hfour := length_encode_le digits
    rw [hzero, List.length_append] at hlarge
    simp only [breakBytes, List.length_cons, List.length_nil] at hlarge
    omega
  refine decodeFrom_done ?_
  rw [turn_sizeLine hne hhex hvalue, if_neg hzero, if_pos hlarge]

end Sizes

/-! ## What is decoded exactly -/

/-- A response is decoded to its status and body, a part of it that ends before the zero chunk
is an error, and a size of sixteen digits or fewer does not end the program, exactly if every
chunk is UTF-8 by itself, the part does not end between two chunks or inside a character that
the replacement character makes up for, and the size and its place fit a `usize`. -/
theorem chunked_response_exact_iff (r : Response) (received : Bytes)
    (hreceived : received <+: r.beforeEnd) (digits : Text) (hne : digits ≠ [])
    (hhex : ∀ c ∈ digits, isHexDigit c = true) (hshort : digits.length ≤ 16) (rest : Bytes) :
    (readResponse r.wire = .ok (r.status.toNat, r.body) ∧
        (∃ error, readResponse received = .err error) ∧
        readResponse (r.beforeEnd ++ (encode digits ++ breakBytes ++ rest)) ≠
          .overflow ((wires r.chunks).length + (encode digits ++ breakBytes).length)
            (ofHex digits)) ↔
      (∀ chunk ∈ r.chunks, chunk.Whole) ∧
        (¬ BetweenChunks r.toMessage received ∧ ¬ InsideCharacter r.toMessage received) ∧
        (wires r.chunks).length + (encode digits ++ breakBytes).length + ofHex digits < 2 ^ 64 := by
  by_cases hwhole : ∀ chunk ∈ r.chunks, chunk.Whole
  · have hsize := not_congr (readResponse_size_iff hwhole hne hhex hshort rest)
    rw [Nat.not_le] at hsize
    exact and_congr (iff_of_true (readResponse_whole r hwhole) hwhole)
      (and_congr (readResponse_cut_iff hwhole hreceived) hsize)
  · exact iff_of_false (fun h => readResponse_divided r hwhole h.1) fun h => hwhole h.1

section Examples

def chunkOfByte (byte : UInt8) : Chunk where
  size := ['1']
  data := [byte]
  size_ne := by decide
  size_hex := by decide
  size_value := by rfl
  data_ne := List.cons_ne_nil _ _

/-- One letter of two bytes, a chunk for each. -/
def dividedLetter : Response where
  version := "HTTP/1.1".toList
  status := 200
  reason := "OK".toList
  fields := ["Transfer-Encoding: chunked".toList]
  body := [Char.ofNat 0xe9]
  chunks := [chunkOfByte 0xc3, chunkOfByte 0xa9]
  version_ne := by decide
  version_word := by decide
  reason_line := by decide
  fields_lines := by decide
  chunked := by decide
  body_chunks := by decide
  fits := by decide +kernel

theorem chunked_response_exact_iff_divided :
    (readResponse dividedLetter.wire = .ok (200, [Char.ofNat 0xe9]) ∧
        (∃ error, readResponse (encode "HTTP".toList) = .err error) ∧
        readResponse (dividedLetter.beforeEnd ++ (encode ['0'] ++ breakBytes ++ [])) ≠
          .overflow ((wires dividedLetter.chunks).length + (encode ['0'] ++ breakBytes).length)
            (ofHex ['0'])) ↔
      (∀ chunk ∈ dividedLetter.chunks, chunk.Whole) ∧
        (¬ BetweenChunks dividedLetter.toMessage (encode "HTTP".toList) ∧
          ¬ InsideCharacter dividedLetter.toMessage (encode "HTTP".toList)) ∧
        (wires dividedLetter.chunks).length + (encode ['0'] ++ breakBytes).length +
          ofHex ['0'] < 2 ^ 64 :=
  chunked_response_exact_iff dividedLetter (encode "HTTP".toList) (by decide +kernel) ['0']
    (by decide) (by decide) (by decide) []

/-- The letter is not decoded, the head alone is a whole response, and a size of sixteen digits
ends the program. -/
theorem divided_letter_fails :
    readResponse dividedLetter.wire = .err .sizeNotUtf8 ∧
      dividedLetter.head <+: dividedLetter.beforeEnd ∧
      readResponse dividedLetter.head = .ok (200, []) ∧
      readResponse (dividedLetter.head ++ encode "ffffffffffffffff\r\n".toList) =
        .overflow 18 (2 ^ 64 - 1) := by
  decide +kernel

end Examples

end PertiskKos.Bootstrap
