import PertiskKos.Library.Lines
import PertiskKos.Tpm.Base64

/-!
# Files of PEM blocks

The scanner keeps the lines between a `BEGIN` and the next `END`, and everything else passes
it by.  So a file in which certificates were written block by block, however their lines are
wrapped, is read back as the list of certificates.
-/

namespace PertiskKos.Tpm.Ek

open Strings Lines

/-! ## Writing -/

/-- Text between blocks: without dashes, and of whole lines. -/
structure Between where
  text : Text
  dashless : '-' ∉ text
  whole : text = [] ∨ text.getLast? = some '\n'

/-- A certificate, the word for what it is, and the lines into which its base64 is cut. -/
structure Block where
  before : Between
  label : Text
  oneLine : '\n' ∉ label ∧ '\r' ∉ label
  der : Bytes
  filled : der ≠ []
  body : List Text
  wrapped : Utf8.encode body.flatten = base64Encode der

def boundary (side label : Text) : Text := side ++ " ".toList ++ label ++ "-----".toList

def Block.text (block : Block) : Text :=
  block.before.text ++ unlines
    (boundary "-----BEGIN".toList block.label :: block.body ++
      [boundary "-----END".toList block.label])

/-- Blocks, and what may stand after the last one. -/
structure File where
  blocks : List Block
  after : Text
  dashless : '-' ∉ after

def File.text (file : File) : Text := file.blocks.flatMap Block.text ++ file.after

def File.raw (file : File) : Bytes := Utf8.encode file.text

/-! ## Scanning -/

section Alphabet

/-- A digit or a sign of padding. -/
def isPlain (byte : UInt8) : Bool := isDigit64 byte || byte = padding

theorem isPlain_digit {value : Nat} (hvalue : value < 64) :
    isPlain (base64Digit value) = true := by
  rw [isPlain, isDigit64, base64Value_digit hvalue]
  rfl

theorem base64Encode_plain (bytes : Bytes) : ∀ byte ∈ base64Encode bytes, isPlain byte = true := by
  have hpadding : isPlain padding = true := by decide
  induction bytes using base64Encode.induct with
  | case1 a b c rest ih =>
      have ha := a.toNat_lt
      have hb := b.toNat_lt
      have hc := c.toNat_lt
      rw [base64Encode]
      simp only [List.forall_mem_cons]
      exact ⟨isPlain_digit (by omega), isPlain_digit (by omega), isPlain_digit (by omega),
        isPlain_digit (by omega), ih⟩
  | case2 a b =>
      have ha := a.toNat_lt
      have hb := b.toNat_lt
      rw [base64Encode]
      simp only [List.forall_mem_cons]
      exact ⟨isPlain_digit (by omega), isPlain_digit (by omega), isPlain_digit (by omega),
        hpadding, fun _ h => absurd h (List.not_mem_nil)⟩
  | case3 a =>
      have ha := a.toNat_lt
      rw [base64Encode]
      simp only [List.forall_mem_cons]
      exact ⟨isPlain_digit (by omega), isPlain_digit (by omega), hpadding, hpadding,
        fun _ h => absurd h (List.not_mem_nil)⟩
  | case4 => exact fun _ h => absurd h (List.not_mem_nil)

theorem plain_ascii {byte : UInt8} (hplain : isPlain byte = true) :
    byte.toNat < 0x80 ∧ isAsciiWhitespace byte = false ∧ byte ≠ 45 ∧ byte ≠ 10 ∧
      isWhite (Char.ofNat byte.toNat) = false := by
  have hall : ∀ n : Fin 256, isPlain (UInt8.ofNat n) = true →
      (UInt8.ofNat n).toNat < 0x80 ∧ isAsciiWhitespace (UInt8.ofNat n) = false ∧
        UInt8.ofNat n ≠ 45 ∧ UInt8.ofNat n ≠ 10 ∧
        isWhite (Char.ofNat (UInt8.ofNat n).toNat) = false := by decide +kernel
  have hbyte := hall ⟨byte.toNat, byte.toNat_lt⟩
  rw [UInt8.ofNat_toNat] at hbyte
  exact hbyte hplain

theorem length_base64Encode (bytes : Bytes) : (base64Encode bytes).length % 4 = 0 := by
  induction bytes using base64Encode.induct with
  | case1 a b c rest ih =>
      rw [base64Encode]
      simp only [List.length_cons]
      omega
  | case2 a b =>
      rw [base64Encode]
      simp only [List.length_cons, List.length_nil]
  | case3 a =>
      rw [base64Encode]
      simp only [List.length_cons, List.length_nil]
  | case4 => rfl

theorem b64Decode_encode {text : Text} {bytes : Bytes}
    (htext : Utf8.encode text = base64Encode bytes) : b64Decode text = .ok bytes := by
  have hkept : (Utf8.encode text).filter (fun b => !isAsciiWhitespace b) = base64Encode bytes := by
    rw [htext, List.filter_eq_self]
    intro byte hbyte
    rw [(plain_ascii (base64Encode_plain bytes byte hbyte)).2.1]
    rfl
  rw [b64Decode, hkept, if_pos (length_base64Encode bytes), base64Chunks_encode]

/-- What is cut into lines has no white space and no dashes. -/
theorem char_plain {text : Text} {bytes : Bytes} (htext : Utf8.encode text = base64Encode bytes)
    {c : Char} (hc : c ∈ text) : isWhite c = false ∧ c ≠ '-' := by
  obtain ⟨byte, hbyte⟩ := List.exists_mem_of_ne_nil _ (Utf8.encodeChar_ne_nil c)
  have hmem : byte ∈ Utf8.encode text := List.mem_flatMap.mpr ⟨c, hc, hbyte⟩
  rw [htext] at hmem
  obtain ⟨hascii, -, hdash, -, hwhite⟩ := plain_ascii (base64Encode_plain bytes byte hmem)
  have hcode : c.toNat = byte.toNat := encodeChar_of_ascii hbyte hascii
  constructor
  · rw [← hcode, Char.ofNat_toNat] at hwhite
    exact hwhite
  · rintro rfl
    exact hdash (UInt8.toNat_inj.mp hcode.symm)

end Alphabet

section Lines

theorem lines_append {text : Text} (hwhole : text = [] ∨ text.getLast? = some '\n')
    (rest : Text) : lines (text ++ rest) = lines text ++ lines rest := by
  induction text using pieceByPiece '\n' with
  | last text hfeed =>
      rcases hwhole with rfl | hlast
      · rfl
      · exact absurd (List.mem_of_getLast? hlast) hfeed
  | next line more hfeed ih =>
      have hmore : more = [] ∨ more.getLast? = some '\n' := by
        rcases hwhole with hnil | hlast
        · exact absurd hnil (by simp)
        · cases more with
          | nil => exact .inl rfl
          | cons c more => exact .inr (by simpa [List.getLast?_append] using hlast)
      rw [List.append_assoc, List.cons_append, lines_next hfeed, lines_next hfeed, ih hmore,
        List.cons_append]

theorem getLast?_boundary (side label : Text) : (boundary side label).getLast? = some '-' := by
  rw [boundary, List.getLast?_append]
  rfl

theorem trim_boundary (side label : Text) :
    trim (boundary ('-' :: side) label) = boundary ('-' :: side) label :=
  trim_of_ends (by simp [boundary]; decide) fun c hc => by
    rw [getLast?_boundary, Option.mem_some_iff] at hc
    rw [← hc]
    decide

theorem notMem_boundary {c : Char} {side label : Text} (hside : c ∉ side) (hlabel : c ∉ label)
    (hspace : c ≠ ' ') (hdash : c ≠ '-') : c ∉ boundary side label := by
  simp only [boundary, List.mem_append, not_or]
  exact ⟨⟨⟨hside, by simpa using hspace⟩, hlabel⟩, by simpa using hdash⟩

end Lines

section Scan

theorem ok_bind {A B E : Type} (value : A) (next : A → Except E B) :
    (Except.ok value >>= next) = next value := rfl

variable {split : Split}

theorem splitLine_begin (label : Text) :
    splitLine split (boundary "-----BEGIN".toList label) =
      .ok { split with inBody := true, b64 := [] } := by
  have htrim : trim (boundary "-----BEGIN".toList label) = boundary "-----BEGIN".toList label :=
    trim_boundary _ label
  have hstarts : startsWith (boundary "-----BEGIN".toList label) "-----BEGIN".toList = true := by
    rw [startsWith, List.isPrefixOf_iff_prefix, boundary, List.append_assoc, List.append_assoc]
    exact List.prefix_append _ _
  rw [splitLine, htrim, if_pos hstarts]
  rfl

theorem splitLine_end (label : Text) (hopen : split.b64 ≠ []) {der : Bytes}
    (hder : b64Decode split.b64 = .ok der) :
    splitLine split (boundary "-----END".toList label) =
      .ok { split with out := split.out ++ [der], inBody := false } := by
  have htrim : trim (boundary "-----END".toList label) = boundary "-----END".toList label :=
    trim_boundary _ label
  have hnot : startsWith (boundary "-----END".toList label) "-----BEGIN".toList = false := rfl
  have hstarts : startsWith (boundary "-----END".toList label) "-----END".toList = true := by
    rw [startsWith, List.isPrefixOf_iff_prefix, boundary, List.append_assoc, List.append_assoc]
    exact List.prefix_append _ _
  rw [splitLine, htrim, hnot, if_neg Bool.false_ne_true, if_pos hstarts, if_neg hopen, hder]
  rfl

/-- A line without dashes opens and closes nothing. -/
theorem splitLine_dashless {line : Text} (hline : '-' ∉ line) :
    splitLine split line =
      .ok (if split.inBody then { split with b64 := split.b64 ++ trim line } else split) := by
  have hnot : ∀ word : Text, word.head? = some '-' → startsWith (trim line) word = false := by
    intro word hword
    rw [startsWith, Bool.eq_false_iff, Ne, List.isPrefixOf_iff_prefix]
    intro hstarts
    exact hline ((trim_sublist line).subset (hstarts.subset (List.mem_of_head? hword)))
  rw [splitLine, hnot _ rfl, hnot _ rfl, if_neg Bool.false_ne_true, if_neg Bool.false_ne_true]
  cases hbody : split.inBody <;> simp [pure, Except.pure]

theorem foldlM_between {texts : List Text} (hdash : ∀ line ∈ texts, '-' ∉ line)
    (hbody : split.inBody = false) : texts.foldlM splitLine split = .ok split := by
  induction texts with
  | nil => rfl
  | cons line texts ih =>
      rw [List.forall_mem_cons] at hdash
      rw [List.foldlM_cons, splitLine_dashless hdash.1, hbody, if_neg Bool.false_ne_true]
      exact ih hdash.2

theorem foldlM_body {texts : List Text}
    (hplain : ∀ line ∈ texts, ∀ c ∈ line, isWhite c = false ∧ c ≠ '-')
    (hbody : split.inBody = true) :
    texts.foldlM splitLine split = .ok { split with b64 := split.b64 ++ texts.flatten } := by
  induction texts generalizing split with
  | nil => simp [pure, Except.pure]
  | cons line texts ih =>
      rw [List.forall_mem_cons] at hplain
      have hdash : '-' ∉ line := fun h => (hplain.1 '-' h).2 rfl
      have htrim : trim line = line := trim_of_noWhite fun c hc => (hplain.1 c hc).1
      have hstep : splitLine split line = .ok { split with b64 := split.b64 ++ line } := by
        rw [splitLine_dashless hdash, hbody, if_pos rfl, htrim]
      have hrest := @ih { split with b64 := split.b64 ++ line } hplain.2 hbody
      rw [List.foldlM_cons, hstep, List.flatten_cons, ← List.append_assoc]
      exact hrest

/-- The lines of a block add its certificate and leave the scanner outside. -/
theorem foldlM_block (block : Block) (hbody : split.inBody = false) (rest : Text) :
    ∃ b64, (lines (block.text ++ rest)).foldlM splitLine split =
      (lines rest).foldlM splitLine
        { out := split.out ++ [block.der], b64 := b64, inBody := false } := by
  have hplain : ∀ line ∈ block.body, ∀ c ∈ line, isWhite c = false ∧ c ≠ '-' :=
    fun line hline c hc => char_plain block.wrapped (List.mem_flatten.mpr ⟨line, hline, hc⟩)
  have hbetween : ∀ line ∈ lines block.before.text, '-' ∉ line := fun line hline hc =>
    block.before.dashless ((lines_sublist _).subset (List.mem_flatten.mpr ⟨line, hline, hc⟩))
  have hfree : ∀ c : Char, isWhite c = true → c ≠ ' ' → c ∉ block.label →
      ∀ line ∈ boundary "-----BEGIN".toList block.label :: block.body ++
        [boundary "-----END".toList block.label], c ∉ line := by
    intro c hwhite hspace hlabel line hline hc
    have hdash : c ≠ '-' := by
      rintro rfl
      exact absurd hwhite (by decide)
    have hsides : c ∉ "-----BEGIN".toList ∧ c ∉ "-----END".toList := by
      constructor <;> (intro hside; revert hwhite; fin_cases hside <;> decide)
    rcases List.mem_append.mp hline with hfront | hlast
    · rcases List.mem_cons.mp hfront with rfl | hpiece
      · exact notMem_boundary hsides.1 hlabel hspace hdash hc
      · exact absurd hwhite (by rw [(hplain line hpiece c hc).1]; exact Bool.false_ne_true)
    · rw [List.mem_singleton.mp hlast] at hc
      exact notMem_boundary hsides.2 hlabel hspace hdash hc
  have hder : b64Decode block.body.flatten = .ok block.der := b64Decode_encode block.wrapped
  have hopen : block.body.flatten ≠ [] := by
    intro hnil
    rw [hnil] at hder
    exact block.filled (Except.ok.inj hder).symm
  have hframe : (boundary "-----BEGIN".toList block.label :: block.body ++
      [boundary "-----END".toList block.label]).foldlM splitLine split =
        .ok { out := split.out ++ [block.der], b64 := block.body.flatten, inBody := false } := by
    have hfilled := @foldlM_body { split with inBody := true, b64 := [] } block.body hplain rfl
    rw [List.cons_append, List.foldlM_cons, splitLine_begin, ok_bind, List.foldlM_append,
      hfilled, ok_bind, List.nil_append, List.foldlM_cons, splitLine_end _ hopen hder]
    rfl
  refine ⟨block.body.flatten, ?_⟩
  rw [Block.text, List.append_assoc, lines_append block.before.whole,
    lines_unlines_append (hfree '\n' (by decide) (by decide) block.oneLine.1)
      (hfree '\r' (by decide) (by decide) block.oneLine.2),
    List.foldlM_append, foldlM_between hbetween hbody, ok_bind, List.foldlM_append, hframe,
    ok_bind]

theorem foldlM_blocks (blocks : List Block) (hbody : split.inBody = false) (rest : Text) :
    ∃ b64, (lines (blocks.flatMap Block.text ++ rest)).foldlM splitLine split =
      (lines rest).foldlM splitLine
        { out := split.out ++ blocks.map Block.der, b64 := b64, inBody := false } := by
  induction blocks generalizing split with
  | nil =>
      refine ⟨split.b64, ?_⟩
      rw [List.flatMap_nil, List.nil_append, List.map_nil, List.append_nil, ← hbody]
  | cons block blocks ih =>
      obtain ⟨b64, hblock⟩ := foldlM_block block hbody (blocks.flatMap Block.text ++ rest)
      obtain ⟨last, hblocks⟩ :=
        @ih { out := split.out ++ [block.der], b64 := b64, inBody := false } rfl
      refine ⟨last, ?_⟩
      rw [List.flatMap_cons, List.append_assoc, hblock, hblocks, List.map_cons,
        List.append_assoc, List.singleton_append]

end Scan

/-! ## Reading back -/

section File

theorem encode_begin : Utf8.encode "-----BEGIN".toList = pemBegin := by decide

theorem hasPem_raw (file : File) : hasPem file.raw = true ↔ file.blocks ≠ [] := by
  rw [hasPem, contains_iff]
  constructor
  · rintro hwindow hnil
    have hafter : file.raw = Utf8.encode file.after := by
      rw [File.raw, File.text, hnil, List.flatMap_nil, List.nil_append]
    have hdash : (45 : UInt8) ∈ file.raw := hwindow.subset List.mem_cons_self
    rw [hafter] at hdash
    obtain ⟨c, hc, hbyte⟩ := List.mem_flatMap.mp hdash
    have hcode : c.toNat = '-'.toNat := encodeChar_of_ascii hbyte (by decide)
    exact file.dashless (Char.toNat_inj.mp hcode ▸ hc)
  · intro hne
    obtain ⟨block, blocks, hblocks⟩ := List.exists_cons_of_ne_nil hne
    have hinfix : "-----BEGIN".toList <:+: file.text := by
      rw [File.text, hblocks, List.flatMap_cons, Block.text, List.cons_append, unlines,
        List.flatMap_cons, boundary]
      exact ⟨block.before.text, _, by simp only [List.append_assoc]; rfl⟩
    obtain ⟨front, tail, htext⟩ := hinfix
    rw [File.raw, ← htext, Utf8.encode_append, Utf8.encode_append, encode_begin]
    exact ⟨Utf8.encode front, Utf8.encode tail, rfl⟩

/-- A file of blocks is read back, whatever stands between them; one without a block is
refused or taken for a certificate itself. -/
theorem splitCerts_raw_iff (file : File) :
    splitCerts file.raw = .ok (file.blocks.map Block.der) ↔ file.blocks ≠ [] := by
  constructor
  · rintro hcerts hnil
    have hpem : hasPem file.raw = false := by
      rw [Bool.eq_false_iff, Ne, hasPem_raw]
      exact not_not_intro hnil
    rw [splitCerts, hpem, if_neg Bool.false_ne_true, hnil] at hcerts
    split at hcerts
    · cases hcerts
    · cases hcerts
  · intro hne
    have htext : Utf8.decode file.raw = some file.text := Utf8.decode_eq_some_iff.mpr rfl
    obtain ⟨b64, hblocks⟩ :=
      @foldlM_blocks { out := [], b64 := [], inBody := false } file.blocks rfl file.after
    have hafter : ∀ line ∈ lines file.after, '-' ∉ line := fun line hline hc =>
      file.dashless ((lines_sublist _).subset (List.mem_flatten.mpr ⟨line, hline, hc⟩))
    have hfold : (lines file.text).foldlM splitLine { out := [], b64 := [], inBody := false } =
        .ok { out := file.blocks.map Block.der, b64 := b64, inBody := false } := by
      rw [File.text, hblocks]
      exact foldlM_between hafter rfl
    have hsome : file.blocks.map Block.der ≠ [] := by simpa using hne
    rw [splitCerts, if_pos ((hasPem_raw file).mpr hne), htext]
    dsimp only
    rw [hfold, ok_bind, if_neg hsome]
    rfl

/-- The text without its white space. -/
def compact (s : Text) : Bytes := (Utf8.encode s).filter fun b => !isAsciiWhitespace b

theorem b64Decode_strict_iff (s : Text) :
    (∀ out, b64Decode s = .ok out → compact s = base64Encode out) ↔
      (readable (compact s) = true → paddedAtEnd (compact s) = true) := by
  have hdecode : b64Decode s = if (compact s).length % 4 = 0 then base64Chunks (compact s)
      else .error (.parse "base64 length".toList) := rfl
  constructor
  · intro hall hread
    obtain ⟨out, hout⟩ := exists_chunks hread
    have hlength : (compact s).length % 4 = 0 := length_of_readable hread
    rw [if_pos hlength, hout] at hdecode
    exact (base64Encode_chunks_iff hread hout).mp (hall out hdecode).symm
  · intro hpadded out hout
    rw [hdecode] at hout
    split at hout
    · next hlength =>
        have hread := readable_of_chunks hlength hout
        exact ((base64Encode_chunks_iff hread hout).mpr (hpadded hread)).symm
    · cases hout

/-- Files of blocks are read back; what one block may hold is more than what is written. -/
theorem split_certs_inverse_iff (file : File) (s : Text) :
    (splitCerts file.raw = .ok (file.blocks.map Block.der) ↔ file.blocks ≠ []) ∧
      ((∀ out, b64Decode s = .ok out → compact s = base64Encode out) ↔
        (readable (compact s) = true → paddedAtEnd (compact s) = true)) :=
  ⟨splitCerts_raw_iff file, b64Decode_strict_iff s⟩

/-- Padding inside a group is read as a digit that counts for nothing. -/
theorem misplaced_padding_accepted :
    ¬ ∀ (s : Text) (out : Bytes), b64Decode s = .ok out → compact s = base64Encode out := by
  intro hclaim
  have hread : b64Decode "AA=A".toList = .ok [0, 0] := by decide
  exact absurd (hclaim _ _ hread) (by decide)

end File

end PertiskKos.Tpm.Ek
