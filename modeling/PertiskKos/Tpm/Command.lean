import PertiskKos.Library.Ip
import PertiskKos.Tpm.Cursor

/-!
# Commands and responses

A response is a header, the handles, and the parameters: in a session their size stands in
front and the authorization behind them.  Every parser of a response returns or fails, whatever
the bytes are.
-/

namespace PertiskKos.Tpm

open Strings Hex Ip

def tpmStNoSessions : Nat := 0x8001

def tpmStSessions : Nat := 0x8002

def tpmRsPw : Nat := 0x40000009

def tpmCcNvRead : Nat := 0x0000014E

def tpmCcNvReadPublic : Nat := 0x00000169

/-! ## Commands -/

/-- The size of the command, at offset 2. -/
def finishHeader (buf : Bytes) : Bytes :=
  buf.take 2 ++ beBytes 4 buf.length ++ buf.drop 6

def pwEmptyAuth : Bytes := beBytes 4 tpmRsPw ++ beBytes 2 0 ++ [0] ++ beBytes 2 0

def cmdNvReadPublic (nvIndex : Nat) : Bytes :=
  finishHeader (beBytes 2 tpmStNoSessions ++ beBytes 4 0 ++ beBytes 4 tpmCcNvReadPublic ++
    beBytes 4 nvIndex)

def cmdNvRead (nvIndex size offset : Nat) : Bytes :=
  finishHeader (beBytes 2 tpmStSessions ++ beBytes 4 0 ++ beBytes 4 tpmCcNvRead ++
    beBytes 4 nvIndex ++ beBytes 4 nvIndex ++ beBytes 4 pwEmptyAuth.length ++ pwEmptyAuth ++
    beBytes 2 size ++ beBytes 2 offset)

/-! ## Responses -/

section Responses

/-- The tag, the code, and a reader behind the header. -/
def parseResponse (resp : Bytes) : Except CommandError ((Nat × Nat) × Cursor) :=
  if resp.length < 10 then
    .error (.wire (.parse ("response too short (".toList ++ decimal resp.length ++ ")".toList)))
  else do
    let (tag, r) ← Scan.u16 { data := resp, pos := 0 }
    let (size, r) ← Scan.u32 r
    let (code, r) ← Scan.u32 r
    if size ≠ resp.length then
      .error (.wire (.parse ("response size mismatch: header=".toList ++ decimal size ++
        " actual=".toList ++ decimal resp.length)))
    else if code ≠ 0 then .error (.tpmRc code)
    else pure ((tag, code), r)

/-- A reader on the parameters, and the one behind them. -/
def responseParams (tag : Nat) (r : Cursor) : Except CommandError (Cursor × Cursor) :=
  if tag = tpmStSessions then do
    let (paramSize, r) ← Scan.u32 r
    let (params, r) ← Scan.take paramSize r
    pure ({ data := params, pos := 0 }, r)
  else do
    let (rest, r) ← Scan.take r.remaining r
    pure ({ data := rest, pos := 0 }, r)

def parseCreatePrimary (resp : Bytes) : Except CommandError (Nat × Bytes) := do
  let ((tag, _), r) ← parseResponse resp
  let (handle, r) ← Scan.u32 r
  let (p, _) ← responseParams tag r
  let («public», _) ← Scan.tpm2b p
  pure (handle, «public»)

def parseCreate (resp : Bytes) : Except CommandError (Bytes × Bytes) := do
  let ((tag, _), r) ← parseResponse resp
  let (p, _) ← responseParams tag r
  let («private», p) ← Scan.tpm2b p
  let («public», _) ← Scan.tpm2b p
  pure («private», «public»)

def parseLoad (resp : Bytes) : Except CommandError Nat := do
  let ((tag, _), r) ← parseResponse resp
  let (handle, r) ← Scan.u32 r
  let _ ← responseParams tag r
  pure handle

def parseReadPublic (resp : Bytes) : Except CommandError Bytes := do
  let ((tag, _), r) ← parseResponse resp
  let (p, _) ← responseParams tag r
  let («public», _) ← Scan.tpm2b p
  pure «public»

/-- In a session the size stands in front of the parameters. -/
def quoteParamSize (tag : Nat) (r : Cursor) : Except CommandError (Nat × Cursor) :=
  if tag = tpmStSessions then Scan.u32 r else pure (r.remaining, r)

/-- The signature is cut out of the parameters between two positions. -/
def parseQuote (resp : Bytes) : Except CommandError (Bytes × Bytes) := do
  let ((tag, _), r) ← parseResponse resp
  let (paramSize, r) ← quoteParamSize tag r
  let (params, _) ← Scan.take paramSize r
  let (quoted, p) ← Scan.tpm2b { data := params, pos := 0 }
  let sigOff := p.pos
  let (alg, p) ← Scan.u16 p
  if alg ≠ tpmAlgEcdsa then
    .error (.wire (.parse ("unsupported sig alg 0x".toList ++ hexPad 4 alg)))
  else do
    let (_, p) ← Scan.u16 p
    let (_, p) ← Scan.tpm2b p
    let (_, p) ← Scan.tpm2b p
    let signature ← slice params sigOff p.pos
    pure (quoted, signature)

def parseNvRead (resp : Bytes) : Except CommandError Bytes := do
  let ((tag, _), r) ← parseResponse resp
  let (p, _) ← responseParams tag r
  let (data, _) ← Scan.tpm2b p
  pure data

/-- The size of the data, the last field of the public area of an index. -/
def parseNvPublic (resp : Bytes) : Except CommandError Nat := do
  let ((tag, _), r) ← parseResponse resp
  let (p, _) ← responseParams tag r
  let (nvPublic, _) ← Scan.tpm2b p
  let (_, n) ← Scan.u32 { data := nvPublic, pos := 0 }
  let (_, n) ← Scan.u16 n
  let (_, n) ← Scan.u32 n
  let (_, n) ← Scan.tpm2b n
  let (dataSize, _) ← Scan.u16 n
  pure dataSize

end Responses

/-! ## Hostile responses -/

/-- The call returns with what is promised, or fails with an error. -/
def Returns {A : Type} (result : Except CommandError A) (post : A → Prop) : Prop :=
  match result with
  | .ok value => post value
  | .error err => err ≠ .wire .panics

namespace Returns

variable {A B : Type} {post : A → Prop}

theorem bind {first : Except CommandError A} {next : A → Except CommandError B}
    {last : B → Prop} (hfirst : Returns first post)
    (hnext : ∀ value, post value → Returns (next value) last) :
    Returns (first >>= next) last := by
  cases first with
  | error err => exact hfirst
  | ok value => exact hnext value hfirst

theorem weaken {result : Except CommandError A} {later : A → Prop} (hresult : Returns result post)
    (hpost : ∀ value, post value → later value) : Returns result later := by
  cases result with
  | error err => exact hresult
  | ok value => exact hpost value hresult

end Returns

/-- The reader is the same buffer further on. -/
structure Cursor.Onward (c later : Cursor) : Prop where
  valid : later.Valid
  data_eq : later.data = c.data
  pos_le : c.pos ≤ later.pos

theorem Cursor.Onward.trans {c middle later : Cursor} (hfirst : c.Onward middle)
    (hsecond : middle.Onward later) : c.Onward later :=
  ⟨hsecond.valid, hsecond.data_eq.trans hfirst.data_eq, hfirst.pos_le.trans hsecond.pos_le⟩

theorem Cursor.Onward.inside {c later : Cursor} (honward : c.Onward later) :
    later.data = c.data ∧ later.pos ≤ c.data.length :=
  ⟨honward.data_eq, honward.data_eq ▸ honward.valid.pos_le⟩

section Hostile

variable {A : Type} {c : Cursor}

theorem Follows.returns {scan : Scan A} {reader : Reader A} {post : A → Prop}
    (hscan : Follows scan reader post) (hvalid : c.Valid) :
    Returns (scan c) fun found => post found.1 ∧ c.Onward found.2 := by
  have hstep := hscan c hvalid
  cases hread : reader c.rest with
  | error err =>
      rw [hread] at hstep
      rw [hstep.2]
      exact fun h => hstep.1 (CommandError.wire.inj h)
  | ok found =>
      rw [hread] at hstep
      obtain ⟨hvalue, n, hn, -, hfound⟩ := hstep
      rw [hfound]
      exact ⟨hvalue, hvalid.advance hn, rfl, Nat.le_add_right _ _⟩

/-- A buffer and what the parameters of it are read from. -/
theorem parseResponse_returns {resp : Bytes} (hshort : resp.length < 2 ^ 63) :
    Returns (parseResponse resp) fun found => found.2.Valid ∧ found.2.data = resp := by
  rw [parseResponse]
  split
  · exact fun h => Error.noConfusion (CommandError.wire.inj h)
  · apply (u16_follows.returns (Cursor.Valid.start hshort)).bind
    rintro ⟨tag, r⟩ ⟨-, hr⟩
    apply (u32_follows.returns hr.valid).bind
    rintro ⟨size, r'⟩ ⟨-, hr'⟩
    apply (u32_follows.returns hr'.valid).bind
    rintro ⟨code, r''⟩ ⟨-, hr''⟩
    dsimp only
    split
    · exact fun h => Error.noConfusion (CommandError.wire.inj h)
    · split
      · exact fun h => CommandError.noConfusion h
      · exact ⟨hr''.valid, by rw [hr''.data_eq, hr'.data_eq, hr.data_eq]⟩

theorem remaining_lt (hvalid : c.Valid) : c.remaining < 2 ^ 63 := by
  have hshort := hvalid.short
  rw [Cursor.remaining]
  omega

/-- The parameters are read from a buffer of their own. -/
theorem responseParams_returns (tag : Nat) (hvalid : c.Valid) :
    Returns (responseParams tag c) fun found => found.1.Valid ∧ found.1.pos = 0 ∧
      c.Onward found.2 := by
  rw [responseParams]
  split
  · apply (u32_follows.returns hvalid).bind
    rintro ⟨paramSize, r⟩ ⟨hsize, hr⟩
    apply ((take_follows (by omega)).returns hr.valid).bind
    rintro ⟨params, r'⟩ ⟨hparams, hr'⟩
    exact ⟨Cursor.Valid.start (by dsimp only at hparams hsize; omega), rfl, hr.trans hr'⟩
  · apply ((take_follows (remaining_lt hvalid)).returns hvalid).bind
    rintro ⟨rest, r⟩ ⟨hrest, hr⟩
    have hlong := remaining_lt hvalid
    exact ⟨Cursor.Valid.start (by dsimp only at hrest; omega), rfl, hr⟩

theorem parseCreatePrimary_returns {resp : Bytes} (hshort : resp.length < 2 ^ 63) :
    Returns (parseCreatePrimary resp) fun _ => True := by
  apply (parseResponse_returns hshort).bind
  rintro ⟨⟨tag, code⟩, r⟩ ⟨hr, -⟩
  apply (u32_follows.returns hr).bind
  rintro ⟨handle, r'⟩ ⟨-, hr'⟩
  apply (responseParams_returns tag hr'.valid).bind
  rintro ⟨p, r''⟩ ⟨hp, -, -⟩
  apply (tpm2b_follows.returns hp).bind
  intro _ _
  trivial

theorem parseCreate_returns {resp : Bytes} (hshort : resp.length < 2 ^ 63) :
    Returns (parseCreate resp) fun _ => True := by
  apply (parseResponse_returns hshort).bind
  rintro ⟨⟨tag, code⟩, r⟩ ⟨hr, -⟩
  apply (responseParams_returns tag hr).bind
  rintro ⟨p, r'⟩ ⟨hp, -, -⟩
  apply (tpm2b_follows.returns hp).bind
  rintro ⟨«private», p'⟩ ⟨-, hp'⟩
  apply (tpm2b_follows.returns hp'.valid).bind
  intro _ _
  trivial

theorem parseLoad_returns {resp : Bytes} (hshort : resp.length < 2 ^ 63) :
    Returns (parseLoad resp) fun _ => True := by
  apply (parseResponse_returns hshort).bind
  rintro ⟨⟨tag, code⟩, r⟩ ⟨hr, -⟩
  apply (u32_follows.returns hr).bind
  rintro ⟨handle, r'⟩ ⟨-, hr'⟩
  apply (responseParams_returns tag hr'.valid).bind
  intro _ _
  trivial

theorem parseReadPublic_returns {resp : Bytes} (hshort : resp.length < 2 ^ 63) :
    Returns (parseReadPublic resp) fun _ => True := by
  apply (parseResponse_returns hshort).bind
  rintro ⟨⟨tag, code⟩, r⟩ ⟨hr, -⟩
  apply (responseParams_returns tag hr).bind
  rintro ⟨p, r'⟩ ⟨hp, -, -⟩
  apply (tpm2b_follows.returns hp).bind
  intro _ _
  trivial

/-- Positions only grow, so the signature is a slice. -/
theorem parseQuote_returns {resp : Bytes} (hshort : resp.length < 2 ^ 63) :
    Returns (parseQuote resp) fun _ => True := by
  apply (parseResponse_returns hshort).bind
  rintro ⟨⟨tag, code⟩, r⟩ ⟨hr, -⟩
  have hsize : Returns (quoteParamSize tag r) fun found =>
      found.1 < 2 ^ 63 ∧ found.2.Valid := by
    rw [quoteParamSize]
    split
    · exact (u32_follows.returns hr).weaken fun found hfound => ⟨by omega, hfound.2.valid⟩
    · exact ⟨remaining_lt hr, hr⟩
  apply hsize.bind
  rintro ⟨paramSize, r'⟩ ⟨hparamSize, hr'⟩
  apply ((take_follows hparamSize).returns hr').bind
  rintro ⟨params, r''⟩ ⟨hparams, -⟩
  have hstart : (Cursor.mk params 0).Valid :=
    Cursor.Valid.start (by dsimp only at hparams hparamSize; omega)
  apply (tpm2b_follows.returns hstart).bind
  rintro ⟨quoted, p₀⟩ ⟨-, hp₀⟩
  apply (u16_follows.returns hp₀.valid).bind
  rintro ⟨alg, p₁⟩ ⟨-, hp₁⟩
  dsimp only
  split
  · exact fun h => Error.noConfusion (CommandError.wire.inj h)
  · apply (u16_follows.returns hp₁.valid).bind
    rintro ⟨hash, p₂⟩ ⟨-, hp₂⟩
    apply (tpm2b_follows.returns hp₂.valid).bind
    rintro ⟨first, p₃⟩ ⟨-, hp₃⟩
    apply (tpm2b_follows.returns hp₃.valid).bind
    rintro ⟨second, p₄⟩ ⟨-, hp₄⟩
    have hdata : p₄.data = params := by
      rw [hp₄.data_eq, hp₃.data_eq, hp₂.data_eq, hp₁.data_eq, hp₀.data_eq]
    have hlow : p₀.pos ≤ p₄.pos :=
      calc p₀.pos ≤ p₁.pos := hp₁.pos_le
        _ ≤ p₂.pos := hp₂.pos_le
        _ ≤ p₃.pos := hp₃.pos_le
        _ ≤ p₄.pos := hp₄.pos_le
    have hhigh : p₄.pos ≤ params.length := hdata ▸ hp₄.valid.pos_le
    dsimp only
    rw [slice, if_pos ⟨hlow, hhigh⟩]
    trivial

end Hostile

end PertiskKos.Tpm
