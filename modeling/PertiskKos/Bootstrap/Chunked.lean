import PertiskKos.Library.Hex
import PertiskKos.Library.Ip
import PertiskKos.Library.Lossy
import PertiskKos.Library.Margins
import PertiskKos.Library.Search

/-!
# Responses of the API server

The bytes of a response are made a text first, with a replacement character for whatever is
not UTF-8, and the text is decoded.  The sizes of the chunks count the bytes that were sent,
and they are taken off the bytes of that text.  The decoder also ends where the text ends
between two chunks.
-/

namespace PertiskKos.Bootstrap

open Strings Hex Ip Lines
open Utf8 (Bytes encode lossy BrokenOff Fresh)

/-! ## The decoder -/

inductive HttpError where
  /-- incomplete HTTP response -/
  | incompleteResponse
  /-- HTTP status -/
  | status
  /-- HTTP status number -/
  | statusNumber
  /-- chunk size line truncated -/
  | sizeLineTruncated
  /-- chunk size not utf8 -/
  | sizeNotUtf8
  /-- invalid chunk size -/
  | invalidSize (hex : Text)
  /-- chunk truncated: so many bytes are needed and so many are there -/
  | chunkTruncated (need left : Nat)
  /-- chunked body not utf8 -/
  | bodyNotUtf8
  deriving DecidableEq, Repr

/-- `overflow i size` ends the program: the sum does not fit a `usize`, and where sums wrap
around, the slice up to it ends before it begins. -/
inductive Outcome (A : Type) where
  | ok (value : A)
  | err (error : HttpError)
  | overflow (i size : Nat)
  deriving DecidableEq, Repr

def isBreak (byte : UInt8) : Bool := byte = 13 || byte = 10

/-- `usize::from_str_radix(text, 16)`, which accepts a plus sign. -/
def usizeFromHex (text : Text) : Option Nat :=
  let digits := if text.head? = some '+' then text.tail else text
  if digits ≠ [] ∧ digits.all isHexDigit ∧ ofHex digits < 2 ^ 64 then some (ofHex digits)
  else none

def chunkSize (line : Bytes) : Except HttpError Nat :=
  match Utf8.decode line with
  | none => .error .sizeNotUtf8
  | some text =>
      let sizeLine := trimEndMatches ['\r'] (trim text)
      -- Ignore chunk extensions after ';'
      let sizeHex := trim (sizeLine.takeWhile (· ≠ ';'))
      match usizeFromHex sizeHex with
      | some size => .ok size
      | none => .error (.invalidSize sizeHex)

def skipByte (byte : UInt8) (bytes : Bytes) : Bytes :=
  if bytes.head? = some byte then bytes.tail else bytes

/-- What one turn of the loop leads to. -/
inductive Turn where
  | done (outcome : Outcome Bytes)
  | next (i : Nat) (rest out : Bytes)
  deriving DecidableEq, Repr

/-- One turn of the loop, with the bytes from `i` on and what is decoded so far. -/
def turn (i : Nat) (rest out : Bytes) : Turn :=
  -- Skip leading CR/LF between chunks.
  let start := rest.dropWhile isBreak
  if start = [] then .done (.ok out)
  else if 10 ∉ start then .done (.err .sizeLineTruncated)
  else
    let line := start.takeWhile (· ≠ 10)
    match chunkSize line with
    | .error error => .done (.err error)
    | .ok size =>
        let data := start.drop (line.length + 1)
        let i := i + (rest.length - data.length)
        if size = 0 then .done (.ok out)
        else if 2 ^ 64 ≤ i + size then .done (.overflow i size)
        else if data.length < size then .done (.err (.chunkTruncated size data.length))
        else
          -- Expect trailing CRLF after chunk data.
          let rest := skipByte 10 (skipByte 13 (data.drop size))
          .next (i + (data.length - rest.length)) rest (out ++ data.take size)

/-- The loop, which takes a line at least in every turn. -/
def decodeChunks : Nat → Nat → Bytes → Bytes → Outcome Bytes
  | 0, _, _, out => .ok out
  | fuel + 1, i, rest, out =>
      match turn i rest out with
      | .done outcome => outcome
      | .next i rest out => decodeChunks fuel i rest out

/-- Decode a single HTTP/1.1 chunked body (no trailers required). -/
def decodeChunkedBody (body : Text) : Outcome Text :=
  match decodeChunks ((encode body).length + 1) 0 (encode body) [] with
  | .ok out =>
      match Utf8.decode out with
      | some text => .ok text
      | none => .err .bodyNotUtf8
  | .err error => .err error
  | .overflow i size => .overflow i size

def emptyLine : Text := ['\r', '\n', '\r', '\n']

/-- The text up to the first empty line, and the text from there on. -/
def splitHead (raw : Text) : Option (Text × Text) :=
  ((cut emptyLine raw).map fun around => (around.1, emptyLine ++ around.2)) <|>
    ((cut ['\n', '\n'] raw).map fun around => (around.1, ['\n', '\n'] ++ around.2))

def parseU16 (text : Text) : Option Nat :=
  let digits := if text.head? = some '+' then text.tail else text
  if isDigits digits ∧ ofDigits digits < 2 ^ 16 then some (ofDigits digits) else none

def isChunkedField (line : Text) : Bool :=
  let lower := line.map Char.toLower
  startsWith lower "transfer-encoding:".toList && contains "chunked".toList lower

def parseHttpResponse (raw : Text) : Outcome (Nat × Text) :=
  match splitHead raw with
  | none => .err .incompleteResponse
  | some (head, tail) =>
      let body := trimStartMatches ['\n', '\n'] (trimStartMatches emptyLine tail)
      let statusLine := (lines head).headD []
      match (splitWhitespace statusLine)[1]? with
      | none => .err .status
      | some word =>
          match parseU16 word with
          | none => .err .statusNumber
          | some status =>
              if (lines head).any isChunkedField then
                match decodeChunkedBody body with
                | .ok body => .ok (status, body)
                | .err error => .err error
                | .overflow i size => .overflow i size
              else .ok (status, body)

/-- What `request_once` makes of the bytes that it has read. -/
def readResponse (raw : Bytes) : Outcome (Nat × Text) := parseHttpResponse (lossy raw)

example : readResponse (encode ("HTTP/1.1 200 OK\r\nTransfer-Encoding: chunked\r\n\r\n" ++
    "4\r\n[\"ab\r\n3\r\nc\",\r\n2\r\n1]\r\n0\r\n\r\n").toList) =
      .ok (200, "[\"abc\",1]".toList) := by decide +kernel

/-! ## Chunks that a server writes -/

def breakBytes : Bytes := [13, 10]

/-- A chunk of some bytes with its size in hexadecimal digits. -/
structure Chunk where
  size : Text
  data : Bytes
  size_ne : size ≠ []
  size_hex : ∀ c ∈ size, isHexDigit c = true
  size_value : ofHex size = data.length
  data_ne : data ≠ []

namespace Chunk

variable (chunk : Chunk)

def sizeLine : Bytes := encode chunk.size ++ breakBytes

def wire : Bytes := chunk.sizeLine ++ (chunk.data ++ breakBytes)

/-- The chunk does not divide a character. -/
def Whole : Prop := ∃ text, chunk.data = encode text

end Chunk

def zeroChunk : Bytes := encode ['0', '\r', '\n', '\r', '\n']

def wires (chunks : List Chunk) : Bytes := chunks.flatMap Chunk.wire

/-! ## Lines with a size -/

section SizeLines

variable {digits : Text}

theorem notMem_of_hex {c : Char} (hhex : ∀ c ∈ digits, isHexDigit c = true)
    (hc : isHexDigit c = false) : c ∉ digits := by
  intro hmem
  rw [hhex c hmem] at hc
  cases hc

theorem usizeFromHex_of_hex (hne : digits ≠ []) (hhex : ∀ c ∈ digits, isHexDigit c = true)
    (hfits : ofHex digits < 2 ^ 64) : usizeFromHex digits = some (ofHex digits) := by
  have hsign : digits.head? ≠ some '+' :=
    fun h => notMem_of_hex hhex (by decide) (List.mem_of_head? h)
  simp only [usizeFromHex, if_neg hsign]
  exact if_pos ⟨hne, List.all_eq_true.mpr hhex, hfits⟩

/-- The size of a line as it is sent, with the carriage return before the line feed. -/
theorem chunkSize_line (hne : digits ≠ []) (hhex : ∀ c ∈ digits, isHexDigit c = true)
    (hfits : ofHex digits < 2 ^ 64) :
    chunkSize (encode digits ++ [13]) = .ok (ofHex digits) := by
  have hreturn : encode digits ++ [13] = encode (digits ++ ['\r']) := by
    rw [Utf8.encode_append]
    rfl
  have hwhite : ∀ c ∈ digits, isWhite c = false := fun c hc => not_white_of_hex (hhex c hc)
  have htrim : trim (digits ++ ['\r']) = digits := by
    have hreturn : White ['\r'] := by decide
    rw [trim_append_white hreturn, trim_of_noWhite hwhite]
  have hends : trimEndMatches ['\r'] digits = digits :=
    trimEndMatches_of_last fun c hc hreturn => by
      obtain rfl := List.mem_singleton.mp hreturn
      exact notMem_of_hex hhex (by decide) (List.mem_of_getLast? hc)
  have hextension : digits.takeWhile (· ≠ ';') = digits :=
    takeWhile_of_notMem (notMem_of_hex hhex (by decide))
  simp only [chunkSize, hreturn, Utf8.decode_eq_some_iff.mpr rfl, htrim, hends, hextension,
    trim_of_noWhite hwhite, usizeFromHex_of_hex hne hhex hfits]

theorem notMem_sizeLine (hhex : ∀ c ∈ digits, isHexDigit c = true) :
    (10 : UInt8) ∉ encode digits ++ [13] := by
  have hfeed : (10 : UInt8) ∉ encode digits :=
    notMem_encode (notMem_of_hex hhex (by decide))
  simp [hfeed]

/-- The first byte of a size is none that is skipped between chunks. -/
theorem dropWhile_digits (hne : digits ≠ []) (hhex : ∀ c ∈ digits, isHexDigit c = true)
    (rest : Bytes) :
    (encode digits ++ rest).dropWhile isBreak = encode digits ++ rest := by
  obtain ⟨first, tail, rfl⟩ := List.exists_cons_of_ne_nil hne
  obtain ⟨byte, bytes, hbytes⟩ :=
    List.exists_cons_of_ne_nil (Utf8.encodeChar_ne_nil first)
  have hascii : isHexDigit first = true := hhex first List.mem_cons_self
  have hbyte : isBreak byte = false := by
    by_contra hbreak
    have hcases := isHexDigit_cases hascii
    have hcode : byte.toNat = 13 ∨ byte.toNat = 10 := by
      have h : byte = 13 ∨ byte = 10 := by
        simpa only [isBreak, Bool.or_eq_true, decide_eq_true_eq, Bool.not_eq_false] using hbreak
      exact h.imp (congrArg UInt8.toNat) (congrArg UInt8.toNat)
    have hsame : first.toNat = byte.toNat :=
      encodeChar_of_ascii (by rw [hbytes]; exact List.mem_cons_self) (by omega)
    omega
  rw [Utf8.encode_cons, hbytes]
  simp only [List.cons_append]
  exact List.dropWhile_cons_of_neg (by simp [hbyte])

end SizeLines

/-! ## The loop -/

section Loop

variable {i : Nat} {rest out : Bytes}

theorem skipByte_length (byte : UInt8) (bytes : Bytes) :
    (skipByte byte bytes).length ≤ bytes.length := by
  rw [skipByte]
  split
  · rw [List.length_tail]
    omega
  · exact Nat.le_refl _

/-- A turn that goes on has taken a line at least, and keeps what is decoded. -/
theorem turn_next {next out' : Bytes} {i' : Nat} (hturn : turn i rest out = .next i' next out') :
    next.length < rest.length ∧ out <+: out' := by
  have hstart : (rest.dropWhile isBreak).length ≤ rest.length :=
    (List.dropWhile_sublist isBreak).length_le
  simp only [turn] at hturn
  split at hturn
  · cases hturn
  · next hne =>
      split at hturn
      · cases hturn
      · split at hturn
        · cases hturn
        · split at hturn
          · cases hturn
          · split at hturn
            · cases hturn
            · split at hturn
              · cases hturn
              · obtain ⟨-, rfl, rfl⟩ := Turn.next.inj hturn
                refine ⟨lt_of_le_of_lt ((skipByte_length _ _).trans (skipByte_length _ _)) ?_,
                  List.prefix_append _ _⟩
                have hpos := List.length_pos_iff.mpr hne
                rw [List.length_drop, List.length_drop]
                omega

/-- The loop ends well with what is decoded so far. -/
theorem turn_done {all : Bytes} (hturn : turn i rest out = .done (.ok all)) : all = out := by
  simp only [turn] at hturn
  split at hturn
  · exact (Outcome.ok.inj (Turn.done.inj hturn)).symm
  · split at hturn
    · cases hturn
    · split at hturn
      · cases hturn
      · split at hturn
        · exact (Outcome.ok.inj (Turn.done.inj hturn)).symm
        · split at hturn
          · cases hturn
          · split at hturn <;> cases hturn

/-- More turns than there are bytes make no difference. -/
theorem decodeChunks_eq {fuel more : Nat} (hfuel : rest.length < fuel) (hmore : rest.length < more) :
    decodeChunks fuel i rest out = decodeChunks more i rest out := by
  induction fuel generalizing i rest out more with
  | zero => omega
  | succ fuel ih =>
      obtain ⟨more, rfl⟩ : ∃ less, more = less + 1 := ⟨more - 1, by omega⟩
      rw [decodeChunks, decodeChunks]
      cases hturn : turn i rest out with
      | done outcome => rfl
      | next i' next out' =>
          have hshorter := (turn_next hturn).1
          exact ih (by omega) (by omega)

/-- The loop until it ends. -/
def decodeFrom (i : Nat) (rest out : Bytes) : Outcome Bytes :=
  decodeChunks (rest.length + 1) i rest out

theorem decodeFrom_done {outcome : Outcome Bytes} (hturn : turn i rest out = .done outcome) :
    decodeFrom i rest out = outcome := by
  rw [decodeFrom, decodeChunks, hturn]

theorem decodeFrom_next {next out' : Bytes} {i' : Nat} (hturn : turn i rest out = .next i' next out') :
    decodeFrom i rest out = decodeFrom i' next out' := by
  have hshorter := (turn_next hturn).1
  rw [decodeFrom, decodeChunks, hturn]
  exact decodeChunks_eq (by omega) (Nat.lt_succ_self _)

theorem decodeFrom_breaks (hbreaks : ∀ byte ∈ rest, isBreak byte = true) :
    decodeFrom i rest out = .ok out :=
  decodeFrom_done (by rw [turn, List.dropWhile_eq_nil_iff.mpr hbreaks]; rfl)

/-- No line feed is left. -/
theorem decodeFrom_open (hfeed : 10 ∉ rest) (hbyte : ∃ byte ∈ rest, isBreak byte = false) :
    decodeFrom i rest out = .err .sizeLineTruncated := by
  have hne : rest.dropWhile isBreak ≠ [] := by
    intro hnil
    obtain ⟨byte, hmem, hnot⟩ := hbyte
    rw [List.dropWhile_eq_nil_iff.mp hnil byte hmem] at hnot
    cases hnot
  have hfeed' : 10 ∉ rest.dropWhile isBreak :=
    fun h => hfeed ((List.dropWhile_sublist isBreak).subset h)
  exact decodeFrom_done (by simp only [turn, if_neg hne, if_pos hfeed'])

variable {digits : Text}

/-- A line with a size that is not zero, as far as the sums fit. -/
theorem turn_sizeLine (hne : digits ≠ []) (hhex : ∀ c ∈ digits, isHexDigit c = true)
    (hvalue : ofHex digits < 2 ^ 64) :
    turn i (encode digits ++ breakBytes ++ rest) out =
      if ofHex digits = 0 then .done (.ok out)
      else if 2 ^ 64 ≤ i + (encode digits ++ breakBytes).length + ofHex digits then
        .done (.overflow (i + (encode digits ++ breakBytes).length) (ofHex digits))
      else if rest.length < ofHex digits then
        .done (.err (.chunkTruncated (ofHex digits) rest.length))
      else
        .next (i + (encode digits ++ breakBytes).length +
            (rest.length - (skipByte 10 (skipByte 13 (rest.drop (ofHex digits)))).length))
          (skipByte 10 (skipByte 13 (rest.drop (ofHex digits))))
          (out ++ rest.take (ofHex digits)) := by
  have hsplit : encode digits ++ breakBytes ++ rest =
      (encode digits ++ [13]) ++ 10 :: rest := by
    simp [breakBytes]
  have hstart : (encode digits ++ breakBytes ++ rest).dropWhile isBreak =
      encode digits ++ breakBytes ++ rest := by
    rw [List.append_assoc]
    exact dropWhile_digits hne hhex _
  have hline : (encode digits ++ breakBytes ++ rest).takeWhile (· ≠ 10) = encode digits ++ [13] := by
    rw [hsplit, List.takeWhile_append_of_pos]
    · simp
    · intro byte hmem
      have hnot : byte ≠ 10 := fun h => notMem_sizeLine hhex (h ▸ hmem)
      simp [hnot]
  have hmem : 10 ∈ encode digits ++ breakBytes ++ rest := by simp [breakBytes]
  have hdata : (encode digits ++ breakBytes ++ rest).drop ((encode digits ++ [13]).length + 1) =
      rest := by
    rw [hsplit, List.drop_append]
    simp
  have hlength : (encode digits ++ breakBytes ++ rest).length - rest.length =
      (encode digits ++ breakBytes).length := by
    rw [List.length_append]
    omega
  simp only [turn, hstart, hline, hdata, hlength, chunkSize_line hne hhex hvalue]
  rw [if_neg (List.ne_nil_of_mem hmem), if_neg (not_not.mpr hmem)]

/-- What is decoded stays. -/
theorem prefix_of_decodeFrom {all : Bytes} (hdecoded : decodeFrom i rest out = .ok all) :
    out <+: all := by
  induction hn : rest.length using Nat.strong_induction_on generalizing i rest out with
  | _ n ih =>
      cases hturn : turn i rest out with
      | done outcome =>
          rw [decodeFrom_done hturn] at hdecoded
          subst hdecoded
          rw [turn_done hturn]
      | next i' next out' =>
          obtain ⟨hshorter, hkept⟩ := turn_next hturn
          rw [decodeFrom_next hturn] at hdecoded
          exact hkept.trans (ih next.length (hn ▸ hshorter) hdecoded rfl)

end Loop

/-! ## Chunks in the loop -/

section Chunks

variable {i : Nat} {rest out : Bytes} {chunk : Chunk} {chunks : List Chunk}

theorem length_sizeLine (chunk : Chunk) :
    chunk.sizeLine.length = (encode chunk.size ++ breakBytes).length := rfl

theorem turn_chunk (hfits : i + chunk.sizeLine.length + chunk.data.length < 2 ^ 64) :
    turn i (chunk.sizeLine ++ rest) out =
      if rest.length < chunk.data.length then
        .done (.err (.chunkTruncated chunk.data.length rest.length))
      else
        .next (i + chunk.sizeLine.length +
            (rest.length - (skipByte 10 (skipByte 13 (rest.drop chunk.data.length))).length))
          (skipByte 10 (skipByte 13 (rest.drop chunk.data.length)))
          (out ++ rest.take chunk.data.length) := by
  have hpos : 0 < chunk.data.length := List.length_pos_iff.mpr chunk.data_ne
  have hvalue : ofHex chunk.size < 2 ^ 64 := by
    rw [chunk.size_value]
    omega
  rw [Chunk.sizeLine, turn_sizeLine chunk.size_ne chunk.size_hex hvalue, chunk.size_value,
    if_neg (by omega), if_neg (by rw [← length_sizeLine]; omega), ← length_sizeLine]

/-- A chunk is taken whole. -/
theorem decodeFrom_chunk (hfits : i + chunk.wire.length < 2 ^ 64) :
    decodeFrom i (chunk.wire ++ rest) out =
      decodeFrom (i + chunk.wire.length) rest (out ++ chunk.data) := by
  have hwire : chunk.wire ++ rest = chunk.sizeLine ++ (chunk.data ++ (breakBytes ++ rest)) := by
    simp [Chunk.wire]
  have hlength : chunk.wire.length = chunk.sizeLine.length + chunk.data.length + 2 := by
    simp [Chunk.wire, breakBytes]
    omega
  have hskip : skipByte 10 (skipByte 13 (breakBytes ++ rest)) = rest := rfl
  have hturn : turn i (chunk.wire ++ rest) out =
      .next (i + chunk.wire.length) rest (out ++ chunk.data) := by
    rw [hwire, turn_chunk (by omega), if_neg (by simp)]
    simp only [List.drop_left, List.take_left, hskip, List.length_append]
    congr 1
    rw [hlength]
    simp only [breakBytes, List.length_cons, List.length_nil]
    omega
  exact decodeFrom_next hturn

/-- Chunk after chunk. -/
theorem decodeFrom_wires (hfits : i + (wires chunks).length < 2 ^ 64) :
    decodeFrom i (wires chunks ++ rest) out =
      decodeFrom (i + (wires chunks).length) rest (out ++ chunks.flatMap Chunk.data) := by
  induction chunks generalizing i out with
  | nil => simp [wires]
  | cons chunk chunks ih =>
      have hlength : (wires (chunk :: chunks)).length =
          chunk.wire.length + (wires chunks).length := by
        simp [wires]
      have hwires : wires (chunk :: chunks) ++ rest = chunk.wire ++ (wires chunks ++ rest) := by
        simp [wires]
      rw [hlength] at hfits ⊢
      rw [hwires, decodeFrom_chunk (by omega), ih (by omega), Nat.add_assoc, List.flatMap_cons,
        List.append_assoc]

theorem decodeFrom_zeroChunk : decodeFrom i zeroChunk out = .ok out := by
  have hzero : zeroChunk = encode ['0'] ++ breakBytes ++ breakBytes := by decide
  refine decodeFrom_done ?_
  rw [hzero, turn_sizeLine (by decide) (by decide) (by decide), if_pos (by decide)]

theorem length_wire (chunk : Chunk) :
    chunk.wire.length = chunk.sizeLine.length + chunk.data.length + 2 := by
  simp [Chunk.wire, breakBytes]
  omega

theorem skipByte_breaks {byte : UInt8} {bytes : Bytes}
    (hbreaks : ∀ other ∈ bytes, isBreak other = true) :
    ∀ other ∈ skipByte byte bytes, isBreak other = true := by
  intro other hmem
  rw [skipByte] at hmem
  split at hmem
  · exact hbreaks other (List.mem_of_mem_tail hmem)
  · exact hbreaks other hmem

theorem skipByte_plain {byte : UInt8} {bytes : Bytes} (hbyte : isBreak byte = true)
    (hplain : ∀ other ∈ bytes, isBreak other = false) : skipByte byte bytes = bytes := by
  rw [skipByte, if_neg]
  intro hhead
  rw [hplain byte (List.mem_of_head? hhead)] at hbyte
  cases hbyte

/-- A chunk whose data is all there, with none, one or both of the bytes after it. -/
theorem decodeFrom_data {ends : Bytes} (hends : ∀ byte ∈ ends, isBreak byte = true)
    (hfits : i + chunk.wire.length < 2 ^ 64) :
    decodeFrom i (chunk.sizeLine ++ (chunk.data ++ ends)) out = .ok (out ++ chunk.data) := by
  rw [length_wire] at hfits
  have hturn := @turn_chunk i (chunk.data ++ ends) out chunk (by omega)
  rw [if_neg (by simp), List.drop_left, List.take_left] at hturn
  rw [decodeFrom_next hturn, decodeFrom_breaks (skipByte_breaks (skipByte_breaks hends))]

/-- Other bytes instead of a chunk's data are accepted if they are as many. -/
theorem decodeFrom_part {part : Bytes}
    (hleft : ∀ byte ∈ part.drop chunk.data.length, isBreak byte = false)
    (hfits : i + chunk.wire.length < 2 ^ 64) :
    decodeFrom i (chunk.sizeLine ++ part) out =
      if part.length < chunk.data.length then
        .err (.chunkTruncated chunk.data.length part.length)
      else if part.length = chunk.data.length then .ok (out ++ part)
      else .err .sizeLineTruncated := by
  rw [length_wire] at hfits
  have hturn := @turn_chunk i part out chunk (by omega)
  by_cases hshort : part.length < chunk.data.length
  · rw [if_pos hshort] at hturn ⊢
    exact decodeFrom_done hturn
  · rw [if_neg hshort, @skipByte_plain 13 _ (by decide) hleft,
      skipByte_plain (by decide) hleft] at hturn
    rw [if_neg hshort, decodeFrom_next hturn]
    by_cases hsame : part.length = chunk.data.length
    · rw [if_pos hsame, List.drop_of_length_le (by omega), List.take_of_length_le (by omega)]
      exact decodeFrom_breaks fun byte hbyte => by cases hbyte
    · rw [if_neg hsame]
      have hne : part.drop chunk.data.length ≠ [] := by
        rw [ne_eq, List.drop_eq_nil_iff]
        omega
      refine decodeFrom_open ?_ ⟨_, List.head_mem hne, hleft _ (List.head_mem hne)⟩
      intro hfeed
      have hplain := hleft 10 hfeed
      exact absurd hplain (by decide)

end Chunks

end PertiskKos.Bootstrap
