import PertiskKos.Tpm.Command

/-!
# Reading an NV index

The index is read in pieces whose lengths the TPM chooses.  Whatever it answers, reading ends;
if it keeps to what it is asked for, what has been read is always the front of the contents.
-/

namespace PertiskKos.Tpm

open Strings Hex Ip

/-- The answer to the last of the commands sent so far. -/
abbrev Device := List Bytes → Except CommandError Bytes

def nvDataSize (device : Device) (sent : List Bytes) (nvIndex : Nat) : Except CommandError Nat := do
  let resp ← device (sent ++ [cmdNvReadPublic nvIndex])
  parseNvPublic resp

/-- What is asked for with `out` already read. -/
def readCommand (nvIndex total : Nat) (out : Bytes) : Bytes :=
  let want := min ((total - out.length) % 2 ^ 16) 512
  let offset := out.length % 2 ^ 16
  cmdNvRead nvIndex want offset

def readPiece (device : Device) (nvIndex total : Nat) (sent : List Bytes) (out : Bytes) :
    Except CommandError Bytes := do
  let resp ← device (sent ++ [readCommand nvIndex total out])
  parseNvRead resp

def emptyRead (nvIndex : Nat) (out : Bytes) : CommandError :=
  .wire (.parse ("NV 0x".toList ++ hexPad 8 nvIndex ++ " read returned empty at offset ".toList ++
    decimal (out.length % 2 ^ 16)))

def noData (nvIndex : Nat) : CommandError :=
  .wire (.parse ("NV 0x".toList ++ hexPad 8 nvIndex ++ " exists but dataSize=0".toList))

/-- `none` if the loop is still running after so many passes. -/
def nvReadLoop (device : Device) (nvIndex total : Nat) :
    Nat → List Bytes → Bytes → Option (Except CommandError Bytes)
  | 0, _, out => if out.length < total then none else some (.ok out)
  | fuel + 1, sent, out =>
      if out.length < total then
        match readPiece device nvIndex total sent out with
        | .error err => some (.error err)
        | .ok piece =>
            if piece = [] then some (.error (emptyRead nvIndex out))
            else nvReadLoop device nvIndex total fuel
              (sent ++ [readCommand nvIndex total out]) (out ++ piece)
      else some (.ok out)

def nvReadAll (fuel : Nat) (device : Device) (sent : List Bytes) (nvIndex : Nat) :
    Option (Except CommandError Bytes) :=
  match nvDataSize device sent nvIndex with
  | .error err => some (.error err)
  | .ok total =>
      if total = 0 then some (.error (noData nvIndex))
      else nvReadLoop device nvIndex total fuel (sent ++ [cmdNvReadPublic nvIndex]) []

/-! ## Reading ends -/

section Ends

variable {device : Device} {nvIndex total : Nat}

theorem number_lt {width n : Nat} {c c' : Cursor} (hread : Scan.number width c = .ok (n, c')) :
    n < 256 ^ width := by
  obtain ⟨⟨bytes, r⟩, -, hread⟩ := bind_ok hread
  change (fixed width bytes >>= fun m => Except.ok (m, r)) = .ok (n, c') at hread
  obtain ⟨m, hnumber, hread⟩ := bind_ok hread
  cases hread
  rw [fixed] at hnumber
  split at hnumber
  · next hlength =>
      cases hnumber
      exact hlength ▸ beNat_lt bytes
  · cases hnumber

theorem nvDataSize_lt {sent : List Bytes} (hsize : nvDataSize device sent nvIndex = .ok total) :
    total < 2 ^ 16 := by
  obtain ⟨resp, -, hsize⟩ := bind_ok hsize
  obtain ⟨⟨⟨tag, code⟩, r⟩, -, hsize⟩ := bind_ok hsize
  obtain ⟨⟨p, r'⟩, -, hsize⟩ := bind_ok hsize
  obtain ⟨⟨nvPublic, p'⟩, -, hsize⟩ := bind_ok hsize
  obtain ⟨⟨index, n₀⟩, -, hsize⟩ := bind_ok hsize
  obtain ⟨⟨nameAlg, n₁⟩, -, hsize⟩ := bind_ok hsize
  obtain ⟨⟨attributes, n₂⟩, -, hsize⟩ := bind_ok hsize
  obtain ⟨⟨authPolicy, n₃⟩, -, hsize⟩ := bind_ok hsize
  obtain ⟨⟨dataSize, n₄⟩, hlast, hsize⟩ := bind_ok hsize
  cases hsize
  exact number_lt hlast

theorem nvReadLoop_done {fuel : Nat} {sent : List Bytes} {out : Bytes}
    (hdone : ¬ out.length < total) :
    nvReadLoop device nvIndex total fuel sent out = some (.ok out) := by
  cases fuel with
  | zero => rw [nvReadLoop, if_neg hdone]
  | succ fuel => rw [nvReadLoop, if_neg hdone]

/-- One pass that adds a piece. -/
theorem nvReadLoop_piece {fuel : Nat} {sent : List Bytes} {out piece : Bytes}
    (hmore : out.length < total) (hpiece : readPiece device nvIndex total sent out = .ok piece)
    (hne : piece ≠ []) :
    nvReadLoop device nvIndex total (fuel + 1) sent out =
      nvReadLoop device nvIndex total fuel (sent ++ [readCommand nvIndex total out])
        (out ++ piece) := by
  rw [nvReadLoop, if_pos hmore, hpiece]
  exact if_neg hne

/-- Every pass adds a byte or is the last one. -/
theorem nvReadLoop_ends {fuel : Nat} {sent : List Bytes} {out : Bytes}
    (hfuel : total ≤ fuel + out.length) :
    ∃ result, ∀ more, nvReadLoop device nvIndex total (fuel + more) sent out = some result := by
  induction fuel generalizing sent out with
  | zero => exact ⟨.ok out, fun more => nvReadLoop_done (by omega)⟩
  | succ fuel ih =>
      by_cases hmore : out.length < total
      · cases hpiece : readPiece device nvIndex total sent out with
        | error err =>
            refine ⟨.error err, fun more => ?_⟩
            rw [Nat.succ_add, nvReadLoop, if_pos hmore, hpiece]
        | ok piece =>
            by_cases hne : piece = []
            · refine ⟨.error (emptyRead nvIndex out), fun more => ?_⟩
              rw [Nat.succ_add, nvReadLoop, if_pos hmore, hpiece]
              exact if_pos hne
            · have hpos := List.length_pos_of_ne_nil hne
              obtain ⟨result, hresult⟩ :=
                @ih (sent ++ [readCommand nvIndex total out]) (out ++ piece)
                  (by rw [List.length_append]; omega)
              refine ⟨result, fun more => ?_⟩
              rw [Nat.succ_add, nvReadLoop_piece hmore hpiece hne, hresult]
      · exact ⟨.ok out, fun more => nvReadLoop_done hmore⟩

theorem nvReadAll_ends (device : Device) (sent : List Bytes) (nvIndex : Nat) :
    ∃ result, ∀ fuel, 2 ^ 16 ≤ fuel → nvReadAll fuel device sent nvIndex = some result := by
  cases hsize : nvDataSize device sent nvIndex with
  | error err => exact ⟨.error err, fun fuel _ => by rw [nvReadAll, hsize]⟩
  | ok total =>
      by_cases hzero : total = 0
      · refine ⟨.error (noData nvIndex), fun fuel _ => ?_⟩
        rw [nvReadAll, hsize]
        exact if_pos hzero
      · have hlt := nvDataSize_lt hsize
        obtain ⟨result, hresult⟩ := @nvReadLoop_ends device nvIndex total (2 ^ 16)
          (sent ++ [cmdNvReadPublic nvIndex]) [] (by omega)
        refine ⟨result, fun fuel hfuel => ?_⟩
        have hmore := hresult (fuel - 2 ^ 16)
        rw [Nat.add_sub_cancel' hfuel] at hmore
        rw [nvReadAll, hsize, ← hmore]
        exact if_neg hzero

end Ends

/-! ## A TPM that serves an index -/

/-- A response without an error. -/
def response (tag : Nat) (body : Bytes) : Bytes :=
  beBytes 2 tag ++ (beBytes 4 (10 + body.length) ++ (beBytes 4 0 ++ body))

/-- The public area of an index; what follows it in the response is its name. -/
def nvPublicResponse (nvIndex nameAlg attributes : Nat) (authPolicy : Bytes) (dataSize : Nat)
    (name : Bytes) : Bytes :=
  let nvPublic := beBytes 4 nvIndex ++ (beBytes 2 nameAlg ++ (beBytes 4 attributes ++
    (beBytes 2 authPolicy.length ++ authPolicy ++ beBytes 2 dataSize)))
  response tpmStNoSessions (beBytes 2 nvPublic.length ++ nvPublic ++ name)

/-- Data in a session, with the authorization behind them. -/
def nvReadResponse (piece authorization : Bytes) : Bytes :=
  response tpmStSessions (beBytes 4 (2 + piece.length) ++
    (beBytes 2 piece.length ++ piece ++ authorization))

/-- The index has the contents, and every request inside them is answered with some of what is
asked for. -/
structure Serves (device : Device) (nvIndex : Nat) (content : Bytes) : Prop where
  size : ∀ sent, ∃ nameAlg attributes authPolicy name,
    authPolicy.length < 2 ^ 15 ∧ name.length < 2 ^ 16 ∧
      device (sent ++ [cmdNvReadPublic nvIndex]) =
        .ok (nvPublicResponse nvIndex nameAlg attributes authPolicy content.length name)
  read : ∀ sent size offset, 0 < size → offset + size ≤ content.length →
    ∃ piece authorization, piece ≠ [] ∧ piece <+: (content.drop offset).take size ∧
      authorization.length < 2 ^ 16 ∧ device (sent ++ [cmdNvRead nvIndex size offset]) =
        .ok (nvReadResponse piece authorization)

section Honest

variable {c : Cursor} {rest : Bytes}

/-- What the reader of the front finds is found at the position. -/
theorem Follows.found {A : Type} {scan : Scan A} {reader : Reader A} {post : A → Prop}
    {value : A} {data : Bytes} (hscan : Follows scan reader post) (hvalid : c.Valid)
    (hdata : c.rest = data) (hread : reader data = .ok (value, rest)) :
    ∃ later : Cursor, scan c = .ok (value, later) ∧ later.Valid ∧ later.rest = rest := by
  have hstep := hscan c hvalid
  rw [hdata, hread] at hstep
  obtain ⟨-, n, hn, hrest, hfound⟩ := hstep
  rw [← hdata] at hn hrest
  exact ⟨c.advance n, hfound, hvalid.advance hn, by rw [c.rest_advance, hrest]⟩

theorem parseResponse_response {tag : Nat} {body : Bytes} (htag : tag < 2 ^ 16)
    (hbody : 10 + body.length < 2 ^ 32) :
    ∃ r : Cursor, parseResponse (response tag body) = .ok ((tag, 0), r) ∧ r.Valid ∧
      r.rest = body := by
  have hlength : (response tag body).length = 10 + body.length := by
    simp only [response, List.length_append, length_beBytes]
    omega
  have hstart : (Cursor.mk (response tag body) 0).Valid := Cursor.Valid.start (by omega)
  obtain ⟨r₁, htagRead, hvalid₁, hrest₁⟩ := u16_follows.found hstart rfl
    (Reader.u16_append htag _)
  obtain ⟨r₂, hsizeRead, hvalid₂, hrest₂⟩ := u32_follows.found hvalid₁ hrest₁
    (Reader.u32_append hbody _)
  obtain ⟨r₃, hcodeRead, hvalid₃, hrest₃⟩ := u32_follows.found hvalid₂ hrest₂
    (Reader.u32_append (by decide) _)
  refine ⟨r₃, ?_, hvalid₃, hrest₃⟩
  have hsize : ¬ 10 + body.length ≠ (response tag body).length := by
    rw [hlength]
    exact fun h => h rfl
  rw [parseResponse, if_neg (by omega), htagRead]
  change (Scan.u32 r₁ >>= _) = _
  rw [hsizeRead]
  change (Scan.u32 r₂ >>= _) = _
  rw [hcodeRead]
  change (if 10 + body.length ≠ (response tag body).length then _ else _) = _
  rw [if_neg hsize]
  rfl

/-- Parameters in a session. -/
theorem responseParams_session {params authorization : Bytes} (hvalid : c.Valid)
    (hrest : c.rest = beBytes 4 params.length ++ (params ++ authorization))
    (hparams : params.length < 2 ^ 32) :
    ∃ later : Cursor, responseParams tpmStSessions c = .ok (⟨params, 0⟩, later) := by
  obtain ⟨r₁, hsizeRead, hvalid₁, hrest₁⟩ := u32_follows.found hvalid hrest
    (Reader.u32_append hparams _)
  obtain ⟨r₂, htake, -, -⟩ := (take_follows (by omega)).found hvalid₁ hrest₁
    (Reader.take_append rfl authorization)
  refine ⟨r₂, ?_⟩
  rw [responseParams, if_pos rfl, hsizeRead]
  change (Scan.take params.length r₁ >>= _) = _
  rw [htake]
  rfl

theorem responseParams_plain {tag : Nat} (htag : tag ≠ tpmStSessions) (hvalid : c.Valid)
    (hrest : c.rest = rest) :
    ∃ later : Cursor, responseParams tag c = .ok (⟨rest, 0⟩, later) := by
  have hlength : rest.length = c.remaining := by rw [← hrest, c.length_rest, Cursor.remaining]
  have hread : Reader.take c.remaining rest = .ok (rest, []) := by
    have happend := Reader.take_append hlength []
    rwa [List.append_nil] at happend
  obtain ⟨r, htake, -, -⟩ := (take_follows (remaining_lt hvalid)).found hvalid hrest hread
  refine ⟨r, ?_⟩
  rw [responseParams, if_neg htag, htake]
  rfl

theorem parseNvRead_response {piece authorization : Bytes} (hpiece : piece.length < 2 ^ 16)
    (hauthorization : authorization.length < 2 ^ 16) :
    parseNvRead (nvReadResponse piece authorization) = .ok piece := by
  have hparams : (beBytes 2 piece.length ++ piece).length = 2 + piece.length := by
    rw [List.length_append, length_beBytes]
  obtain ⟨r, hresponse, hvalid, hrest⟩ := @parseResponse_response tpmStSessions
    (beBytes 4 (2 + piece.length) ++ (beBytes 2 piece.length ++ piece ++ authorization))
    (by decide) (by simp only [List.length_append, length_beBytes]; omega)
  rw [← hparams] at hrest
  obtain ⟨r', hread⟩ := responseParams_session hvalid hrest (by rw [hparams]; omega)
  have hstart : (Cursor.mk (beBytes 2 piece.length ++ piece) 0).Valid :=
    Cursor.Valid.start (by rw [hparams]; omega)
  have happend := Reader.tpm2b_append hpiece []
  rw [List.append_nil] at happend
  obtain ⟨p, hdata, -, -⟩ := tpm2b_follows.found hstart rfl happend
  rw [parseNvRead, nvReadResponse, hresponse]
  change (responseParams tpmStSessions r >>= _) = _
  rw [hread]
  change (Scan.tpm2b _ >>= _) = _
  rw [hdata]
  rfl

theorem parseNvPublic_response {nvIndex nameAlg attributes dataSize : Nat}
    {authPolicy name : Bytes} (hpolicy : authPolicy.length < 2 ^ 15) (hsize : dataSize < 2 ^ 16)
    (hname : name.length < 2 ^ 16) :
    parseNvPublic (nvPublicResponse nvIndex nameAlg attributes authPolicy dataSize name) =
      .ok dataSize := by
  rw [nvPublicResponse]
  generalize hpublic : beBytes 4 nvIndex ++ (beBytes 2 nameAlg ++ (beBytes 4 attributes ++
    (beBytes 2 authPolicy.length ++ authPolicy ++ beBytes 2 dataSize))) = nvPublic
  have hlength : nvPublic.length < 2 ^ 16 := by
    rw [← hpublic]
    simp only [List.length_append, length_beBytes]
    omega
  obtain ⟨r, hresponse, hvalid, hrest⟩ := @parseResponse_response tpmStNoSessions
    (beBytes 2 nvPublic.length ++ nvPublic ++ name) (by decide)
    (by simp only [List.length_append, length_beBytes]; omega)
  obtain ⟨r', hread⟩ := @responseParams_plain _ _ tpmStNoSessions (by decide) hvalid hrest
  have hstart : (Cursor.mk (beBytes 2 nvPublic.length ++ nvPublic ++ name) 0).Valid :=
    Cursor.Valid.start (by simp only [List.length_append, length_beBytes]; omega)
  obtain ⟨p, harea, -, -⟩ := tpm2b_follows.found hstart rfl (Reader.tpm2b_append hlength name)
  have hinner : (Cursor.mk nvPublic 0).Valid := Cursor.Valid.start (by omega)
  obtain ⟨n₁, hfirst, hvalid₁, hrest₁⟩ := u32_follows.found hinner hpublic.symm
    (u32_of_length (length_beBytes 4 nvIndex) _)
  obtain ⟨n₂, hsecond, hvalid₂, hrest₂⟩ := u16_follows.found hvalid₁ hrest₁
    (u16_of_length (length_beBytes 2 nameAlg) _)
  obtain ⟨n₃, hthird, hvalid₃, hrest₃⟩ := u32_follows.found hvalid₂ hrest₂
    (u32_of_length (length_beBytes 4 attributes) _)
  obtain ⟨n₄, hfourth, hvalid₄, hrest₄⟩ := tpm2b_follows.found hvalid₃ hrest₃
    (Reader.tpm2b_append (by omega) _)
  have hlast := Reader.u16_append hsize []
  rw [List.append_nil] at hlast
  obtain ⟨n₅, hfifth, -, -⟩ := u16_follows.found hvalid₄ hrest₄ hlast
  rw [parseNvPublic, hresponse]
  change (responseParams tpmStNoSessions r >>= _) = _
  rw [hread]
  change (Scan.tpm2b _ >>= _) = _
  rw [harea]
  change (Scan.u32 _ >>= _) = _
  rw [hfirst]
  change (Scan.u16 n₁ >>= _) = _
  rw [hsecond]
  change (Scan.u32 n₂ >>= _) = _
  rw [hthird]
  change (Scan.tpm2b n₃ >>= _) = _
  rw [hfourth]
  change (Scan.u16 n₄ >>= _) = _
  rw [hfifth]
  rfl

variable {device : Device} {nvIndex : Nat} {content : Bytes}

theorem Serves.dataSize (hserves : Serves device nvIndex content)
    (hcontent : content.length < 2 ^ 16) (sent : List Bytes) :
    nvDataSize device sent nvIndex = .ok content.length := by
  obtain ⟨nameAlg, attributes, authPolicy, name, hpolicy, hname, hanswer⟩ := hserves.size sent
  have hparsed := @parseNvPublic_response nvIndex nameAlg attributes content.length authPolicy
    name hpolicy hcontent hname
  rw [nvDataSize, hanswer]
  exact (pure_bind _ parseNvPublic).trans hparsed

/-- A piece continues what has been read. -/
theorem Serves.piece (hserves : Serves device nvIndex content)
    (hcontent : content.length < 2 ^ 16) (sent : List Bytes) {out : Bytes}
    (hread : out <+: content) (hmore : out.length < content.length) :
    ∃ piece, readPiece device nvIndex content.length sent out = .ok piece ∧ piece ≠ [] ∧
      out ++ piece <+: content := by
  have hremaining : (content.length - out.length) % 2 ^ 16 = content.length - out.length :=
    Nat.mod_eq_of_lt (by omega)
  have hoffset : out.length % 2 ^ 16 = out.length := Nat.mod_eq_of_lt (by omega)
  obtain ⟨piece, authorization, hne, hpiece, hauthorization, hanswer⟩ :=
    hserves.read sent (min (content.length - out.length) 512) out.length (by omega) (by omega)
  have hlength : piece.length < 2 ^ 16 := by
    have hle := hpiece.length_le
    rw [List.length_take] at hle
    omega
  refine ⟨piece, ?_, hne, ?_⟩
  · rw [readPiece, readCommand, hremaining, hoffset, hanswer]
    exact (pure_bind _ parseNvRead).trans (parseNvRead_response hlength hauthorization)
  · obtain ⟨later, rfl⟩ := hread
    rw [List.drop_left] at hpiece
    exact (List.prefix_append_right_inj out).mpr (hpiece.trans (List.take_prefix _ _))

theorem Serves.loop (hserves : Serves device nvIndex content)
    (hcontent : content.length < 2 ^ 16) {fuel : Nat} {sent : List Bytes} {out : Bytes}
    (hread : out <+: content) (hfuel : content.length ≤ fuel + out.length) :
    nvReadLoop device nvIndex content.length fuel sent out = some (.ok content) := by
  induction fuel generalizing sent out with
  | zero =>
      rw [nvReadLoop_done (by omega), hread.eq_of_length_le (by omega)]
  | succ fuel ih =>
      by_cases hmore : out.length < content.length
      · obtain ⟨piece, hpiece, hne, hlonger⟩ := hserves.piece hcontent sent hread hmore
        have hpos := List.length_pos_of_ne_nil hne
        rw [nvReadLoop_piece hmore hpiece hne]
        exact ih hlonger (by rw [List.length_append]; omega)
      · rw [nvReadLoop_done hmore, hread.eq_of_length_le (by omega)]

/-- A TPM that serves an index has its contents read. -/
theorem Serves.readAll (hserves : Serves device nvIndex content) (hne : 0 < content.length)
    (hcontent : content.length < 2 ^ 16) {fuel : Nat} (hfuel : 2 ^ 16 ≤ fuel)
    (sent : List Bytes) : nvReadAll fuel device sent nvIndex = some (.ok content) := by
  rw [nvReadAll, hserves.dataSize hcontent]
  dsimp only
  rw [if_neg (by omega)]
  exact hserves.loop hcontent (List.nil_prefix) (by omega)

end Honest

/-! ## A TPM that answers with more -/

/-- What has been sent and read when the loop comes to its condition. -/
inductive Reads (device : Device) (sent : List Bytes) (nvIndex total : Nat) :
    List Bytes → Bytes → Prop where
  | start : Reads device sent nvIndex total (sent ++ [cmdNvReadPublic nvIndex]) []
  | piece {before : List Bytes} {out piece : Bytes}
      (hbefore : Reads device sent nvIndex total before out) (hmore : out.length < total)
      (hpiece : readPiece device nvIndex total before out = .ok piece) (hne : piece ≠ []) :
      Reads device sent nvIndex total (before ++ [readCommand nvIndex total out]) (out ++ piece)

/-- No answer is longer than what is left of the data. -/
def Fits (device : Device) (sent : List Bytes) (nvIndex : Nat) : Prop :=
  ∀ total, nvDataSize device sent nvIndex = .ok total →
    ∀ before out piece, Reads device sent nvIndex total before out → out.length < total →
      readPiece device nvIndex total before out = .ok piece →
        piece.length ≤ total - out.length

section Longer

variable {device : Device} {sent before : List Bytes} {nvIndex total : Nat} {out : Bytes}

/-- What is reached is reached in some number of passes. -/
theorem Reads.passes (hreads : Reads device sent nvIndex total before out) :
    ∃ passes, ∀ fuel,
      nvReadLoop device nvIndex total (fuel + passes) (sent ++ [cmdNvReadPublic nvIndex]) [] =
        nvReadLoop device nvIndex total fuel before out := by
  induction hreads with
  | start => exact ⟨0, fun fuel => rfl⟩
  | piece hbefore hmore hpiece hne ih =>
      obtain ⟨passes, hpasses⟩ := ih
      refine ⟨passes + 1, fun fuel => ?_⟩
      rw [← nvReadLoop_piece hmore hpiece hne, ← hpasses (fuel + 1)]
      congr 1
      omega

theorem nvReadLoop_length (hfits : ∀ before out piece, Reads device sent nvIndex total before out →
      out.length < total → readPiece device nvIndex total before out = .ok piece →
        piece.length ≤ total - out.length)
    (hreads : Reads device sent nvIndex total before out) (hout : out.length ≤ total) {fuel : Nat}
    {result : Bytes} (hresult : nvReadLoop device nvIndex total fuel before out =
      some (.ok result)) : result.length ≤ total := by
  induction fuel generalizing before out with
  | zero =>
      rw [nvReadLoop] at hresult
      split at hresult
      · cases hresult
      · cases hresult
        exact hout
  | succ fuel ih =>
      by_cases hmore : out.length < total
      · cases hpiece : readPiece device nvIndex total before out with
        | error err =>
            rw [nvReadLoop, if_pos hmore, hpiece] at hresult
            cases hresult
        | ok piece =>
            by_cases hne : piece = []
            · rw [nvReadLoop, if_pos hmore, hpiece] at hresult
              dsimp only at hresult
              rw [if_pos hne] at hresult
              cases hresult
            · rw [nvReadLoop_piece hmore hpiece hne] at hresult
              have hfit := hfits _ _ _ hreads hmore hpiece
              exact ih (hreads.piece hmore hpiece hne) (by rw [List.length_append]; omega) hresult
      · rw [nvReadLoop_done hmore] at hresult
        cases hresult
        exact hout

/-- What is read is no longer than the data exactly if every answer fits. -/
theorem nvReadAll_length_iff (device : Device) (sent : List Bytes) (nvIndex : Nat) :
    (∀ fuel total out, nvDataSize device sent nvIndex = .ok total →
        nvReadAll fuel device sent nvIndex = some (.ok out) → out.length ≤ total) ↔
      Fits device sent nvIndex := by
  constructor
  · intro hshort total hsize before out piece hreads hmore hpiece
    by_contra hlong
    have hne : piece ≠ [] := by
      rintro rfl
      exact hlong (Nat.zero_le _)
    obtain ⟨passes, hpasses⟩ := (hreads.piece hmore hpiece hne).passes
    have hlength : (out ++ piece).length = out.length + piece.length := List.length_append
    have hdone : ¬ (out ++ piece).length < total := by omega
    have hloop := (hpasses 0).trans (nvReadLoop_done hdone)
    have hread : nvReadAll (0 + passes) device sent nvIndex = some (.ok (out ++ piece)) := by
      rw [nvReadAll, hsize, ← hloop]
      have hsome : total ≠ 0 := by omega
      exact if_neg hsome
    have hbound := hshort _ _ _ hsize hread
    omega
  · intro hfits fuel total out hsize hread
    rw [nvReadAll, hsize] at hread
    dsimp only at hread
    split at hread
    · cases hread
    · exact nvReadLoop_length (hfits total hsize) .start (Nat.zero_le _) hread

end Longer

/-- Reading an index ends, gives the contents if the TPM serves them, and gives no more than
the size of the data exactly if no answer is longer than what is left of them. -/
theorem nv_read_all_iff (device : Device) (sent : List Bytes) (nvIndex : Nat) :
    (∃ result, ∀ fuel, 2 ^ 16 ≤ fuel → nvReadAll fuel device sent nvIndex = some result) ∧
      (∀ content, 0 < content.length → content.length < 2 ^ 16 → Serves device nvIndex content →
        ∀ fuel, 2 ^ 16 ≤ fuel → nvReadAll fuel device sent nvIndex = some (.ok content)) ∧
      ((∀ fuel total out, nvDataSize device sent nvIndex = .ok total →
          nvReadAll fuel device sent nvIndex = some (.ok out) → out.length ≤ total) ↔
        Fits device sent nvIndex) :=
  ⟨nvReadAll_ends device sent nvIndex,
    fun _ hne hcontent hserves _ hfuel => hserves.readAll hne hcontent hfuel sent,
    nvReadAll_length_iff device sent nvIndex⟩

section Sample

/-- A TPM that reads the size and the offset from the end of the command and gives at most so
many bytes at a time. -/
def chip (content : Bytes) (nvIndex most : Nat) : Device := fun sent =>
  match sent.getLast? with
  | none => .error (.io [])
  | some command =>
      if command.length = 14 then
        .ok (nvPublicResponse nvIndex tpmAlgSha256 0 [] content.length [0, 11])
      else
        let size := beNat ((command.drop 31).take 2)
        let offset := beNat (command.drop 33)
        .ok (nvReadResponse ((content.drop offset).take (min size most)) [0, 0, 1, 0, 0])

theorem chip_serves {content : Bytes} (hcontent : content.length < 2 ^ 16) (nvIndex : Nat)
    {most : Nat} (hmost : 0 < most) : Serves (chip content nvIndex most) nvIndex content where
  size sent := by
    refine ⟨tpmAlgSha256, 0, [], [0, 11], by decide, by decide, ?_⟩
    rw [chip, List.getLast?_concat]
    rfl
  read sent size offset hsize hinside := by
    refine ⟨(content.drop offset).take (min size most), [0, 0, 1, 0, 0], ?_, ?_, by decide, ?_⟩
    · apply List.ne_nil_of_length_pos
      rw [List.length_take, List.length_drop]
      omega
    · exact List.take_prefix_take_left (by omega)
    · have hsizeField : beNat (((cmdNvRead nvIndex size offset).drop 31).take 2) = size :=
        beNat_beBytes (show size < 256 ^ 2 by omega)
      have hoffsetField : beNat ((cmdNvRead nvIndex size offset).drop 33) = offset :=
        beNat_beBytes (show offset < 256 ^ 2 by omega)
      have hlength : (cmdNvRead nvIndex size offset).length ≠ 14 := by
        have hlong : (cmdNvRead nvIndex size offset).length = 35 := rfl
        omega
      rw [chip, List.getLast?_concat]
      dsimp only
      rw [if_neg hlength, hsizeField, hoffsetField]

theorem nv_read_all_iff_chip :
    ∀ fuel, 2 ^ 16 ≤ fuel →
      nvReadAll fuel (chip [0x30, 1, 2, 3, 4] 0x01C0000A 2) [] 0x01C0000A =
        some (.ok [0x30, 1, 2, 3, 4]) :=
  (nv_read_all_iff (chip [0x30, 1, 2, 3, 4] 0x01C0000A 2) [] 0x01C0000A).2.1 _ (by decide)
    (by decide) (chip_serves (by decide) _ (by decide))

/-- A TPM that answers a request for one byte with three. -/
def talkative : Device := fun sent =>
  if sent.length = 1 then .ok (nvPublicResponse 0x01C0000A tpmAlgSha256 0 [] 1 [0, 11])
  else .ok (nvReadResponse [0x30, 1, 2] [0, 0, 1, 0, 0])

theorem longer_piece_kept :
    ¬ ∀ (device : Device) (sent : List Bytes) (nvIndex fuel total : Nat) (out : Bytes),
      nvDataSize device sent nvIndex = .ok total →
        nvReadAll fuel device sent nvIndex = some (.ok out) → out.length ≤ total := by
  intro hclaim
  have hsize : nvDataSize talkative [] 0x01C0000A = .ok 1 := by decide +kernel
  have hread : nvReadAll 1 talkative [] 0x01C0000A = some (.ok [0x30, 1, 2]) := by
    decide +kernel
  exact absurd (hclaim _ _ _ _ _ _ hsize hread) (by decide)

end Sample

end PertiskKos.Tpm
