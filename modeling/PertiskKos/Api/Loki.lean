import Mathlib
import PertiskKos.Library.Lines
import PertiskKos.Library.Runs

/-!
# Shipping log lines to Loki

One thread reads what was appended to the log files of the services, stamps the complete
lines and keeps them until a push is accepted.  A file is read as text from the position
reached before.  Where the bytes from there on are no text, nothing is read and the position
stays; a line that is too long is cut after a number of bytes, and the thread ends if that
number falls inside a character.
-/

namespace PertiskKos.Loki

open Strings Utf8 Lines Runs

/-! ## The pusher -/

inductive Service where
  | pertiskd
  | containerd
  | kubelet
  | dmesg
  deriving DecidableEq, Repr

def services : List Service := [.pertiskd, .containerd, .kubelet, .dmesg]

def maxBatch : Nat := 200

def maxLine : Nat := 8192

/-- `log_file_path` knows no file for the kernel's buffer. -/
def Service.hasFile : Service → Bool
  | .dmesg => false
  | _ => true

/-- The services `run_loop` keeps a position for. -/
def files : List Service := services.filter Service.hasFile

structure FileTail where
  pos : Nat
  partialLine : Text
  deriving DecidableEq, Repr

/-- A line and the time at which it was read. -/
abbrev Stamped := Nat × Text

abbrev Pending := Service → List Stamped

structure Shipper where
  tails : Service → FileTail
  pending : Pending
  dmesgLast : List Text
  dmesgPrimed : Bool

/-- `String::truncate` was called inside a character. -/
inductive Panic where
  | notCharBoundary
  deriving DecidableEq, Repr

def stampLine (now : Nat) (line : Text) : Except Panic Stamped :=
  if maxLine < (encode line).length then
    match truncate maxLine line with
    | some cut => .ok (now, cut)
    | none => .error .notCharBoundary
  else .ok (now, line)

/-- The loop that stamps the lines of one source, each with a reading of the clock. -/
def stampLines (clock : Nat → Nat) (lines : List Text) : Except Panic (List Stamped) :=
  lines.zipIdx.mapM fun line => stampLine (clock line.2) line.1

/-- A file that cannot be opened is read like an empty one. -/
def readNewLines (log : Bytes) (tail : FileTail) : List Text × FileTail :=
  let tail := if log.length < tail.pos then { pos := 0, partialLine := [] } else tail
  match decode (log.drop tail.pos) with
  -- `read_to_string` fails on invalid UTF-8, and `unwrap_or(0)` makes that an empty read.
  | none => ([], tail)
  | some [] => ([], tail)
  | some buf =>
      let drained := drain '\n' (tail.partialLine ++ buf)
      ((drained.1.map stripReturn).filter (· ≠ []),
        { pos := tail.pos + (encode buf).length, partialLine := drained.2 })

def Shipper.push (shipper : Shipper) (service : Service) (lines : List Stamped) : Shipper :=
  { shipper with
    pending := Function.update shipper.pending service (shipper.pending service ++ lines) }

def pollFile (logs : Service → Bytes) (clock : Service → Nat → Nat) (shipper : Shipper)
    (service : Service) : Except Panic Shipper :=
  let read := readNewLines (logs service) (shipper.tails service)
  match stampLines (clock service) read.1 with
  | .ok stamped =>
      .ok ({ shipper with tails := Function.update shipper.tails service read.2 }.push
        service stamped)
  | .error panic => .error panic

/-- The lines of the kernel's buffer that are new, where it was only added to. -/
def freshDmesg (shipper : Shipper) : Option (List Text) → List Text
  | none => []
  | some snap =>
      if shipper.dmesgPrimed ∧ shipper.dmesgLast.length < snap.length ∧
          snap.take shipper.dmesgLast.length = shipper.dmesgLast then
        snap.drop shipper.dmesgLast.length
      else []

def pollDmesg (clock : Service → Nat → Nat) (snap : Option (List Text)) (shipper : Shipper) :
    Except Panic Shipper :=
  match stampLines (clock .dmesg) (freshDmesg shipper snap) with
  | .ok stamped =>
      .ok { shipper.push .dmesg stamped with
        dmesgLast := snap.getD shipper.dmesgLast
        dmesgPrimed := shipper.dmesgPrimed || snap.isSome }
  | .error panic => .error panic

/-- The streams of a push, in the order of the service names. -/
abbrev Push := List (Service × List Stamped)

def encodePush (pending : Pending) : Push :=
  ([Service.containerd, .dmesg, .kubelet, .pertiskd].map fun service =>
    (service, pending service)).filter fun stream => stream.2 ≠ []

/-- What one turn of the loop meets: the clock, the kernel's buffer, whether `FLUSH_EVERY` is
over and whether the server answers a push with success. -/
structure Turn where
  clock : Service → Nat → Nat
  dmesg : Option (List Text)
  elapsed : Bool
  accepts : Bool

def collect (logs : Service → Bytes) (turn : Turn) (shipper : Shipper) :
    Except Panic Shipper :=
  match files.foldlM (pollFile logs turn.clock) shipper with
  | .ok read => pollDmesg turn.clock turn.dmesg read
  | .error panic => .error panic

/-- The push, if one is due; what is pending is forgotten when it is accepted. -/
def flush (turn : Turn) (shipper : Shipper) : Shipper × Option Push :=
  let n := (services.map fun service => (shipper.pending service).length).sum
  let due := turn.elapsed || decide (maxBatch ≤ n)
  if due ∧ 0 < n ∧ turn.accepts then
    ({ shipper with pending := fun _ => [] }, some (encodePush shipper.pending))
  else (shipper, none)

/-! ## The log files and the pusher -/

structure World where
  logs : Service → Bytes
  /-- How long each file was when the pusher was started. -/
  start : Service → Nat
  /-- The thread, or what ended it. -/
  shipper : Except Panic Shipper
  accepted : List Push
  /-- Whether the latest step was a turn that had to push and met a server that accepts. -/
  flushed : Bool

inductive Op where
  | append (service : Service) (bytes : Bytes)
  | turn (turn : Turn)

/-- `run_loop` before its first turn. -/
def launch (logs : Service → Bytes) : World :=
  { logs
    start := fun service => (logs service).length
    shipper := .ok
      { tails := fun service => { pos := (logs service).length, partialLine := [] }
        pending := fun _ => []
        dmesgLast := []
        dmesgPrimed := false }
    accepted := []
    flushed := false }

def step (world : World) : Op → Option World
  | .append service bytes =>
      some { world with
        logs := Function.update world.logs service (world.logs service ++ bytes)
        flushed := false }
  | .turn turn =>
      match world.shipper with
      | .error _ => some world
      | .ok shipper =>
          match collect world.logs turn shipper with
          | .error panic => some { world with shipper := .error panic, flushed := false }
          | .ok collected =>
              let flushed := flush turn collected
              some { world with
                shipper := .ok flushed.1
                accepted := world.accepted ++ flushed.2.toList
                flushed := turn.elapsed && turn.accepts }

/-! ## What is to be shipped -/

/-- The lines of one service in one push. -/
def streamOf (service : Service) (push : Push) : List Text :=
  (push.filter fun stream => stream.1 = service).flatMap fun stream => stream.2.map Prod.snd

/-- What the server has got of a service, in the order in which it got it. -/
def shipped (world : World) (service : Service) : List Text :=
  world.accepted.flatMap (streamOf service)

def nonempty (lines : List Text) : List Text := lines.filter (· ≠ [])

/-- Every complete non-empty line of the bytes, cut at the end of a character. -/
def shippable (bytes : Bytes) : List Text :=
  (nonempty (completeLines bytes)).map (clip maxLine)

/-- What is to be shipped is cut off lines of the log, after at most `maxLine` bytes. -/
theorem mem_shippable {bytes : Bytes} {line : Text} (hmem : line ∈ shippable bytes) :
    (encode line).length ≤ maxLine ∧ ∃ whole ∈ completeLines bytes, line <+: whole := by
  obtain ⟨whole, hwhole, rfl⟩ := List.mem_map.mp hmem
  exact ⟨length_encode_clip maxLine whole, whole, (List.mem_filter.mp hwhole).1,
    clip_prefix maxLine whole⟩

def appended (world : World) (service : Service) : Bytes :=
  (world.logs service).drop (world.start service)

/-- The thread is alive; what was accepted is a front part of what is to be shipped, and all
of it where nothing stood in the way of a push. -/
structure Ships (world : World) : Prop where
  alive : ∃ shipper, world.shipper = .ok shipper
  inOrder : ∀ service ∈ files, shipped world service <+: shippable (appended world service)
  complete : world.flushed = true →
    ∀ service ∈ files, shipped world service = shippable (appended world service)

/-! ## The condition -/

/-- The cut of a long line does not fall inside a character. -/
def CutsClean (line : Text) : Prop :=
  maxLine < (encode line).length → (encode (clip maxLine line)).length = maxLine

def unread (log : Bytes) (tail : FileTail) : Bytes := log.drop tail.pos

/-- The non-empty lines that the unread bytes complete. -/
def newLines (log : Bytes) (tail : FileTail) : List Text :=
  nonempty (completeLines (encode tail.partialLine ++ unread log tail))

/-- No line that is read has its cut inside a character.  When a push is due and would be
accepted, the unread bytes of each file are a text, or complete no line. -/
structure Readable (world : World) (turn : Turn) (shipper : Shipper) : Prop where
  cuts : ∀ service ∈ files,
    decode (unread (world.logs service) (shipper.tails service)) ≠ none →
      ∀ line ∈ newLines (world.logs service) (shipper.tails service), CutsClean line
  kernel : ∀ line ∈ freshDmesg shipper turn.dmesg, CutsClean line
  decodes : turn.elapsed = true → turn.accepts = true → ∀ service ∈ files,
    decode (unread (world.logs service) (shipper.tails service)) ≠ none ∨
      newLines (world.logs service) (shipper.tails service) = []

/-- The condition on a step. -/
def Meets (world : World) : Op → Prop
  | .append _ _ => True
  | .turn turn => ∀ shipper, world.shipper = .ok shipper → Readable world turn shipper

/-! ## Reading a file -/

section Reading

variable {log : Bytes} {tail : FileTail}

theorem readNewLines_of_text {buf : Text} (hpos : tail.pos ≤ log.length)
    (hfeed : '\n' ∉ tail.partialLine) (hdecode : decode (unread log tail) = some buf) :
    (readNewLines log tail).1 = newLines log tail ∧
      (readNewLines log tail).2.pos = log.length ∧
      encode (readNewLines log tail).2.partialLine =
        unended 10 (encode tail.partialLine ++ unread log tail) := by
  have hbytes : unread log tail = encode buf := decode_eq_some_iff.mp hdecode
  have hlength : (encode buf).length = log.length - tail.pos := by
    rw [← hbytes, unread, List.length_drop]
  rw [newLines, hbytes, ← encode_append, completeLines_encode, (ended_encode _).2]
  simp only [readNewLines, if_neg (Nat.not_lt.mpr hpos)]
  rw [unread] at hdecode
  rw [hdecode]
  cases buf with
  | nil =>
      have hend : log.length = tail.pos := by
        rw [encode_nil, List.length_nil] at hlength
        omega
      rw [List.append_nil, ended_of_notMem hfeed, unended_of_notMem hfeed]
      exact ⟨rfl, hend.symm, rfl⟩
  | cons c buf =>
      dsimp only
      rw [drain_eq, hlength]
      exact ⟨rfl, by omega, rfl⟩

theorem readNewLines_of_bytes (hpos : tail.pos ≤ log.length)
    (hdecode : decode (unread log tail) = none) : readNewLines log tail = ([], tail) := by
  rw [unread] at hdecode
  simp only [readNewLines, if_neg (Nat.not_lt.mpr hpos), hdecode]

/-- How far a file was read: the bytes after the start, the lines they complete and the line
they leave open. -/
structure Tracks (log : Bytes) (start : Nat) (tail : FileTail) (lines : List Text) : Prop where
  started : start ≤ tail.pos
  within : tail.pos ≤ log.length
  left : encode tail.partialLine = unended 10 ((log.drop start).take (tail.pos - start))
  taken : lines = shippable ((log.drop start).take (tail.pos - start))

variable {start : Nat} {lines : List Text}

theorem Tracks.split (htracks : Tracks log start tail lines) :
    log.drop start = (log.drop start).take (tail.pos - start) ++ unread log tail := by
  have hpos : start + (tail.pos - start) = tail.pos := Nat.add_sub_of_le htracks.started
  rw [unread]
  conv => rhs; rw [← hpos, ← List.drop_drop, hpos]
  exact (List.take_append_drop _ _).symm

theorem Tracks.noFeed (htracks : Tracks log start tail lines) : '\n' ∉ tail.partialLine := by
  intro hmem
  have hbyte : (10 : UInt8) ∈ encode tail.partialLine :=
    List.mem_flatMap.mpr ⟨'\n', hmem, by decide⟩
  rw [htracks.left] at hbyte
  exact notMem_unended _ hbyte

/-- What is to be shipped is what was taken and what the unread bytes complete. -/
theorem Tracks.shippable_eq (htracks : Tracks log start tail lines) :
    shippable (log.drop start) = lines ++ (newLines log tail).map (clip maxLine) := by
  conv => lhs; rw [htracks.split]
  rw [shippable, completeLines_append, nonempty, List.filter_append, List.map_append,
    ← htracks.left, htracks.taken]
  rfl

theorem Tracks.read (htracks : Tracks log start tail lines) :
    Tracks log start (readNewLines log tail).2
      (lines ++ (readNewLines log tail).1.map (clip maxLine)) := by
  cases hdecode : decode (unread log tail) with
  | none =>
      rw [readNewLines_of_bytes htracks.within hdecode, List.map_nil, List.append_nil]
      exact htracks
  | some buf =>
      obtain ⟨hlines, hpos, hleft⟩ :=
        readNewLines_of_text htracks.within htracks.noFeed hdecode
      have hstart : start ≤ log.length := Nat.le_trans htracks.started htracks.within
      have hall : (log.drop start).take (log.length - start) = log.drop start :=
        List.take_of_length_le (by rw [List.length_drop])
      refine ⟨by omega, by omega, ?_, ?_⟩
      · rw [hpos, hall, hleft, htracks.left, ← unended_append, ← htracks.split]
      · rw [hpos, hall, hlines, htracks.shippable_eq]

theorem Tracks.append (htracks : Tracks log start tail lines) (more : Bytes) :
    Tracks (log ++ more) start tail lines := by
  have hstart : start ≤ log.length := Nat.le_trans htracks.started htracks.within
  have hread : ((log ++ more).drop start).take (tail.pos - start) =
      (log.drop start).take (tail.pos - start) := by
    have hlength : tail.pos - start ≤ (log.drop start).length := by
      rw [List.length_drop]
      exact Nat.sub_le_sub_right htracks.within start
    rw [List.drop_append_of_le_length hstart, List.take_append_of_le_length hlength]
  refine ⟨htracks.started, ?_, ?_, ?_⟩
  · rw [List.length_append]
    exact Nat.le_trans htracks.within (Nat.le_add_right _ _)
  · rw [hread, htracks.left]
  · rw [hread, htracks.taken]

theorem tracks_launched (log : Bytes) :
    Tracks log log.length { pos := log.length, partialLine := [] } [] := by
  refine ⟨Nat.le_refl _, Nat.le_refl _, ?_, ?_⟩ <;>
    rw [Nat.sub_self, List.take_zero] <;> rfl

/-- The lines of one reading: none, where the bytes are no text. -/
theorem Tracks.lines_read (htracks : Tracks log start tail lines) :
    (readNewLines log tail).1 =
      if decode (unread log tail) = none then [] else newLines log tail := by
  cases hdecode : decode (unread log tail) with
  | none => rw [readNewLines_of_bytes htracks.within hdecode, if_pos rfl]
  | some buf =>
      rw [(readNewLines_of_text htracks.within htracks.noFeed hdecode).1, if_neg (by simp)]

end Reading

/-! ## Stamping -/

theorem stampLine_of_cutsClean {line : Text} (hclean : CutsClean line) (now : Nat) :
    stampLine now line = .ok (now, clip maxLine line) := by
  rw [stampLine]
  split
  · next hlong =>
      rw [truncate, if_neg (Nat.lt_asymm hlong), if_pos (hclean hlong)]
  · next hshort => rw [clip_of_length_le (Nat.not_lt.mp hshort)]

theorem stampLine_of_not {line : Text} (hclean : ¬ CutsClean line) (now : Nat) :
    stampLine now line = .error .notCharBoundary := by
  obtain ⟨hlong, hcut⟩ := Classical.not_imp.mp hclean
  rw [stampLine, if_pos hlong, truncate, if_neg (Nat.lt_asymm hlong), if_neg hcut]

theorem stampLines_ok {lines : List Text} (hclean : ∀ line ∈ lines, CutsClean line)
    (clock : Nat → Nat) :
    ∃ stamped, stampLines clock lines = .ok stamped ∧
      stamped.map Prod.snd = lines.map (clip maxLine) := by
  rw [stampLines]
  generalize 0 = first
  induction lines generalizing first with
  | nil => exact ⟨[], rfl, rfl⟩
  | cons line lines ih =>
      obtain ⟨stamped, hstamped, htexts⟩ :=
        ih (fun other hother => hclean other (List.mem_cons_of_mem _ hother)) (first + 1)
      refine ⟨(clock first, clip maxLine line) :: stamped, ?_, ?_⟩
      · rw [List.zipIdx_cons, List.mapM_cons,
          stampLine_of_cutsClean (hclean line List.mem_cons_self), hstamped]
        rfl
      · rw [List.map_cons, List.map_cons, htexts]

theorem stampLines_error {lines : List Text} {line : Text} (hmem : line ∈ lines)
    (hclean : ¬ CutsClean line) (clock : Nat → Nat) :
    ∃ panic, stampLines clock lines = .error panic := by
  rw [stampLines]
  generalize 0 = first
  induction lines generalizing first with
  | nil => cases hmem
  | cons head lines ih =>
      by_cases hhead : CutsClean head
      · have hrest : line ∈ lines := by
          rcases List.mem_cons.mp hmem with rfl | h
          · exact absurd hhead hclean
          · exact h
        obtain ⟨panic, hpanic⟩ := ih hrest (first + 1)
        refine ⟨panic, ?_⟩
        rw [List.zipIdx_cons, List.mapM_cons, stampLine_of_cutsClean hhead, hpanic]
        rfl
      · refine ⟨.notCharBoundary, ?_⟩
        rw [List.zipIdx_cons, List.mapM_cons, stampLine_of_not hhead]
        rfl

/-! ## One turn -/

section Turns

variable {logs : Service → Bytes} {shipper : Shipper} (clock : Service → Nat → Nat)

def linesOf (logs : Service → Bytes) (shipper : Shipper) (service : Service) : List Text :=
  (readNewLines (logs service) (shipper.tails service)).1

/-- What reading a file does to its own service. -/
structure Reads (logs : Service → Bytes) (shipper read : Shipper) (service : Service) :
    Prop where
  tail : read.tails service = (readNewLines (logs service) (shipper.tails service)).2
  pending : (read.pending service).map Prod.snd =
    (shipper.pending service).map Prod.snd ++ (linesOf logs shipper service).map (clip maxLine)

theorem pollFile_ok {service : Service}
    (hclean : ∀ line ∈ linesOf logs shipper service, CutsClean line) :
    ∃ read, pollFile logs clock shipper service = .ok read ∧ Reads logs shipper read service ∧
      (∀ other, other ≠ service → read.tails other = shipper.tails other ∧
        read.pending other = shipper.pending other) ∧
      read.dmesgLast = shipper.dmesgLast ∧ read.dmesgPrimed = shipper.dmesgPrimed := by
  obtain ⟨stamped, hstamped, htexts⟩ := stampLines_ok hclean (clock service)
  rw [linesOf] at hstamped
  let read := readNewLines (logs service) (shipper.tails service)
  refine ⟨{ shipper with tails := Function.update shipper.tails service read.2 }.push
    service stamped, ?_, ⟨?_, ?_⟩, ?_, rfl, rfl⟩
  · simp only [pollFile, hstamped, read]
  · simp only [Shipper.push, Function.update_self, read]
  · simp only [Shipper.push, Function.update_self, List.map_append, htexts]
  · intro other hother
    simp only [Shipper.push, Function.update_of_ne hother, and_self]

theorem pollFile_error {service : Service} {line : Text}
    (hmem : line ∈ linesOf logs shipper service) (hclean : ¬ CutsClean line) :
    ∃ panic, pollFile logs clock shipper service = .error panic := by
  obtain ⟨panic, hpanic⟩ := stampLines_error hmem hclean (clock service)
  rw [linesOf] at hpanic
  exact ⟨panic, by simp only [pollFile, hpanic]⟩

theorem pollFiles_ok {polled : List Service} (hnodup : polled.Nodup)
    (hclean : ∀ service ∈ polled, ∀ line ∈ linesOf logs shipper service, CutsClean line) :
    ∃ read, polled.foldlM (pollFile logs clock) shipper = .ok read ∧
      (∀ service ∈ polled, Reads logs shipper read service) ∧
      (∀ service, service ∉ polled → read.tails service = shipper.tails service ∧
        read.pending service = shipper.pending service) ∧
      read.dmesgLast = shipper.dmesgLast ∧ read.dmesgPrimed = shipper.dmesgPrimed := by
  induction polled generalizing shipper with
  | nil => exact ⟨shipper, rfl, by simp, fun _ _ => ⟨rfl, rfl⟩, rfl, rfl⟩
  | cons first rest ih =>
      obtain ⟨hfirst, hrest⟩ := List.nodup_cons.mp hnodup
      obtain ⟨middle, hmiddle, hreads, hframe, hlast, hprimed⟩ :=
        pollFile_ok clock (hclean first List.mem_cons_self)
      -- The services still to come have the tails they had.
      have hsame : ∀ service ∈ rest, linesOf logs middle service = linesOf logs shipper service := by
        intro service hservice
        rw [linesOf, (hframe service fun h => hfirst (h ▸ hservice)).1, linesOf]
      obtain ⟨read, hread, hlater, hothers, hlast', hprimed'⟩ := ih hrest (by
        intro service hservice line hline
        rw [hsame service hservice] at hline
        exact hclean service (List.mem_cons_of_mem _ hservice) line hline)
      refine ⟨read, ?_, ?_, ?_, hlast'.trans hlast, hprimed'.trans hprimed⟩
      · rw [List.foldlM_cons, hmiddle]
        exact hread
      · intro service hservice
        rcases List.mem_cons.mp hservice with rfl | hmem
        · obtain ⟨htails, hpending⟩ := hothers service hfirst
          exact ⟨htails.trans hreads.tail, by rw [hpending, hreads.pending]⟩
        · obtain ⟨htails, hpending⟩ := hframe service fun h => hfirst (h ▸ hmem)
          have hservices := hlater service hmem
          exact ⟨by rw [hservices.tail, htails],
            by rw [hservices.pending, hpending, hsame service hmem]⟩
      · intro service hservice
        obtain ⟨hne, hnot⟩ := not_or.mp (mt List.mem_cons.mpr hservice)
        obtain ⟨htails, hpending⟩ := hothers service hnot
        exact ⟨htails.trans (hframe service hne).1, hpending.trans (hframe service hne).2⟩

theorem pollFiles_error {polled : List Service} (hnodup : polled.Nodup) {service : Service}
    (hservice : service ∈ polled) {line : Text} (hmem : line ∈ linesOf logs shipper service)
    (hclean : ¬ CutsClean line) :
    ∃ panic, polled.foldlM (pollFile logs clock) shipper = .error panic := by
  induction polled generalizing shipper with
  | nil => cases hservice
  | cons first rest ih =>
      obtain ⟨hfirst, hrest⟩ := List.nodup_cons.mp hnodup
      by_cases hhead : ∀ line ∈ linesOf logs shipper first, CutsClean line
      · obtain ⟨middle, hmiddle, -, hframe, -, -⟩ := pollFile_ok clock hhead
        have hlater : service ∈ rest := by
          rcases List.mem_cons.mp hservice with rfl | h
          · exact absurd (hhead line hmem) hclean
          · exact h
        have hline : line ∈ linesOf logs middle service := by
          rw [linesOf, (hframe service fun h => hfirst (h ▸ hlater)).1]
          exact hmem
        obtain ⟨panic, hpanic⟩ := ih hrest hlater hline
        refine ⟨panic, ?_⟩
        rw [List.foldlM_cons, hmiddle]
        exact hpanic
      · push Not at hhead
        obtain ⟨other, hother, hnot⟩ := hhead
        obtain ⟨panic, hpanic⟩ := pollFile_error clock hother hnot
        refine ⟨panic, ?_⟩
        rw [List.foldlM_cons, hpanic]
        rfl

end Turns

/-! ## A push -/

theorem streamOf_encodePush (pending : Pending) (service : Service) :
    streamOf service (encodePush pending) = (pending service).map Prod.snd := by
  have hstream : ([Service.containerd, .dmesg, .kubelet, .pertiskd].map fun name =>
      (name, pending name)).filter (fun stream => stream.1 = service) =
        [(service, pending service)] := by
    cases service <;> rfl
  rw [streamOf, encodePush, List.filter_comm, hstream]
  cases hpending : pending service with
  | nil => rfl
  | cons line lines => exact List.append_nil _

/-- A push takes all that is pending; without one, the server refuses or there was nothing. -/
theorem flush_cases (turn : Turn) (shipper : Shipper) :
    flush turn shipper = ({ shipper with pending := fun _ => [] },
        some (encodePush shipper.pending)) ∨
      flush turn shipper = (shipper, none) ∧ (turn.elapsed = true → turn.accepts = true →
        ∀ service, shipper.pending service = []) := by
  simp only [flush]
  split
  · exact Or.inl rfl
  · next hnot =>
      refine Or.inr ⟨rfl, ?_⟩
      intro helapsed haccepts service
      have hsum : (services.map fun service => (shipper.pending service).length).sum = 0 := by
        by_contra hpos
        exact hnot ⟨by rw [helapsed]; rfl, Nat.pos_of_ne_zero hpos, haccepts⟩
      have hmem : service ∈ services := by cases service <;> decide
      have hlength := List.sum_eq_zero_iff.mp hsum _ (List.mem_map_of_mem hmem)
      exact List.length_eq_zero_iff.mp hlength

/-- What was accepted and what is pending, in this order, do not change by a push. -/
theorem flush_spec (turn : Turn) (shipper : Shipper) (service : Service) :
    (flush turn shipper).1.tails = shipper.tails ∧
      (flush turn shipper).2.toList.flatMap (streamOf service) ++
        ((flush turn shipper).1.pending service).map Prod.snd =
          (shipper.pending service).map Prod.snd ∧
      (turn.elapsed = true → turn.accepts = true →
        (flush turn shipper).1.pending service = []) := by
  rcases flush_cases turn shipper with hpush | ⟨hnone, hempty⟩
  · rw [hpush]
    refine ⟨rfl, ?_, fun _ _ => rfl⟩
    rw [Option.toList_some, List.flatMap_singleton, streamOf_encodePush, List.map_nil,
      List.append_nil]
  · rw [hnone]
    exact ⟨rfl, rfl, fun helapsed haccepts => hempty helapsed haccepts service⟩

/-! ## A turn -/

section Step

variable {world : World} {shipper : Shipper} {turn : Turn}

/-- How far the pusher is with each file. -/
def Follows (world : World) (shipper : Shipper) : Prop :=
  ∀ service ∈ files, Tracks (world.logs service) (world.start service)
    (shipper.tails service)
    (shipped world service ++ (shipper.pending service).map Prod.snd)

structure Inv (world : World) : Prop where
  follows : ∃ shipper, world.shipper = .ok shipper ∧ Follows world shipper
  complete : world.flushed = true →
    ∀ service ∈ files, shipped world service = shippable (appended world service)

theorem Inv.ships (hinv : Inv world) : Ships world := by
  obtain ⟨shipper, halive, hfollows⟩ := hinv.follows
  refine ⟨⟨shipper, halive⟩, ?_, hinv.complete⟩
  intro service hservice
  rw [appended, (hfollows service hservice).shippable_eq, List.append_assoc]
  exact List.prefix_append _ _

theorem inv_launch (logs : Service → Bytes) : Inv (launch logs) := by
  refine ⟨⟨_, rfl, ?_⟩, fun hflushed => by cases hflushed⟩
  intro service _
  exact tracks_launched (logs service)

/-- The lines that a turn reads of a file. -/
theorem linesOf_eq (hfollows : Follows world shipper) {service : Service}
    (hservice : service ∈ files) :
    linesOf world.logs shipper service =
      if decode (unread (world.logs service) (shipper.tails service)) = none then []
      else newLines (world.logs service) (shipper.tails service) :=
  (hfollows service hservice).lines_read

theorem collect_ok (hfollows : Follows world shipper)
    (hcuts : ∀ service ∈ files,
      decode (unread (world.logs service) (shipper.tails service)) ≠ none →
        ∀ line ∈ newLines (world.logs service) (shipper.tails service), CutsClean line)
    (hkernel : ∀ line ∈ freshDmesg shipper turn.dmesg, CutsClean line) :
    ∃ collected, collect world.logs turn shipper = .ok collected ∧
      ∀ service ∈ files, Reads world.logs shipper collected service := by
  have hclean : ∀ service ∈ files, ∀ line ∈ linesOf world.logs shipper service,
      CutsClean line := by
    intro service hservice line hline
    rw [linesOf_eq hfollows hservice] at hline
    split at hline
    · cases hline
    · next hdecode => exact hcuts service hservice hdecode line hline
  obtain ⟨read, hread, hreads, -, hlast, hprimed⟩ :=
    pollFiles_ok turn.clock (by decide : files.Nodup) hclean
  have hfresh : freshDmesg read turn.dmesg = freshDmesg shipper turn.dmesg := by
    cases turn.dmesg <;> simp only [freshDmesg, hlast, hprimed]
  obtain ⟨stamped, hstamped, -⟩ := stampLines_ok (hfresh ▸ hkernel) (turn.clock .dmesg)
  refine ⟨_, by simp only [collect, hread, pollDmesg, hstamped]; rfl, ?_⟩
  intro service hservice
  have hne : service ≠ .dmesg := by
    rintro rfl
    exact absurd hservice (by decide)
  refine ⟨(hreads service hservice).tail, ?_⟩
  rw [← (hreads service hservice).pending]
  simp only [Shipper.push, Function.update_of_ne hne]

/-- One long line whose cut falls inside a character ends the thread. -/
theorem collect_error (hfollows : Follows world shipper)
    (hnot : ¬ ((∀ service ∈ files,
      decode (unread (world.logs service) (shipper.tails service)) ≠ none →
        ∀ line ∈ newLines (world.logs service) (shipper.tails service), CutsClean line) ∧
      ∀ line ∈ freshDmesg shipper turn.dmesg, CutsClean line)) :
    ∃ panic, collect world.logs turn shipper = .error panic := by
  by_cases hclean : ∀ service ∈ files, ∀ line ∈ linesOf world.logs shipper service,
      CutsClean line
  · have hkernel : ¬ ∀ line ∈ freshDmesg shipper turn.dmesg, CutsClean line := by
      refine fun hkernel => hnot ⟨?_, hkernel⟩
      intro service hservice hdecode line hline
      apply hclean service hservice line
      rw [linesOf_eq hfollows hservice, if_neg hdecode]
      exact hline
    obtain ⟨read, hread, -, -, hlast, hprimed⟩ :=
      pollFiles_ok turn.clock (by decide : files.Nodup) hclean
    have hfresh : freshDmesg read turn.dmesg = freshDmesg shipper turn.dmesg := by
      cases turn.dmesg <;> simp only [freshDmesg, hlast, hprimed]
    push Not at hkernel
    obtain ⟨line, hline, hbad⟩ := hkernel
    obtain ⟨panic, hpanic⟩ := stampLines_error (hfresh ▸ hline) hbad (turn.clock .dmesg)
    exact ⟨panic, by simp only [collect, hread, pollDmesg, hpanic]⟩
  · push Not at hclean
    obtain ⟨service, hservice, line, hline, hbad⟩ := hclean
    obtain ⟨panic, hpanic⟩ :=
      pollFiles_error turn.clock (by decide : files.Nodup) hservice hline hbad
    exact ⟨panic, by simp only [collect, hpanic]⟩

/-- The world after a turn in which nothing panicked. -/
def World.turned (world : World) (turn : Turn) (collected : Shipper) : World :=
  { world with
    shipper := .ok (flush turn collected).1
    accepted := world.accepted ++ (flush turn collected).2.toList
    flushed := turn.elapsed && turn.accepts }

variable {collected : Shipper} {service : Service}

/-- A turn moves what it read behind what was accepted and pending before. -/
theorem shipped_turned (turn : Turn) (hreads : Reads world.logs shipper collected service) :
    shipped (world.turned turn collected) service ++
        ((flush turn collected).1.pending service).map Prod.snd =
      shipped world service ++ (shipper.pending service).map Prod.snd ++
        (linesOf world.logs shipper service).map (clip maxLine) := by
  have hpush := (flush_spec turn collected service).2.1
  rw [shipped, World.turned]
  dsimp only
  rw [List.flatMap_append, List.append_assoc, hpush, hreads.pending, List.append_assoc]
  rfl

theorem follows_turned (hfollows : Follows world shipper)
    (hreads : ∀ service ∈ files, Reads world.logs shipper collected service) :
    Follows (world.turned turn collected) (flush turn collected).1 := by
  intro service hservice
  rw [(flush_spec turn collected service).1, (hreads service hservice).tail,
    shipped_turned turn (hreads service hservice)]
  exact (hfollows service hservice).read

/-- After a push that took all, everything was shipped exactly where all could be read. -/
theorem shipped_all_iff (hfollows : Follows world shipper) (hservice : service ∈ files)
    (hreads : Reads world.logs shipper collected service)
    (helapsed : turn.elapsed = true) (haccepts : turn.accepts = true) :
    shipped (world.turned turn collected) service =
        shippable (appended (world.turned turn collected) service) ↔
      decode (unread (world.logs service) (shipper.tails service)) ≠ none ∨
        newLines (world.logs service) (shipper.tails service) = [] := by
  have hshipped := shipped_turned turn hreads
  rw [(flush_spec turn collected service).2.2 helapsed haccepts, List.map_nil,
    List.append_nil] at hshipped
  have hall : shippable (appended (world.turned turn collected) service) = _ :=
    (hfollows service hservice).shippable_eq
  rw [hshipped, hall, List.append_cancel_left_eq, linesOf_eq hfollows hservice]
  by_cases hdecode : decode (unread (world.logs service) (shipper.tails service)) = none
  · rw [if_pos hdecode, List.map_nil, eq_comm, List.map_eq_nil_iff]
    simp only [hdecode, ne_eq, not_true_eq_false, false_or]
  · rw [if_neg hdecode]
    simp only [hdecode, ne_eq, not_false_eq_true, true_or]

theorem inv_append (hinv : Inv world) (service : Service) (bytes : Bytes) :
    Inv { world with
      logs := Function.update world.logs service (world.logs service ++ bytes)
      flushed := false } := by
  obtain ⟨shipper, halive, hfollows⟩ := hinv.follows
  refine ⟨⟨shipper, halive, ?_⟩, fun hflushed => by cases hflushed⟩
  intro other hother
  by_cases hsame : other = service
  · subst hsame
    simp only [Function.update_self]
    exact (hfollows other hother).append bytes
  · simp only [Function.update_of_ne hsame]
    exact hfollows other hother

/-- A step that meets the condition keeps the invariant. -/
theorem inv_step {op : Op} {next : World} (hinv : Inv world) (hmeets : Meets world op)
    (hstep : step world op = some next) : Inv next := by
  cases op with
  | append service bytes =>
      cases hstep
      exact inv_append hinv service bytes
  | turn turn =>
      obtain ⟨shipper, halive, hfollows⟩ := hinv.follows
      have hreadable := hmeets shipper halive
      obtain ⟨collected, hcollect, hreads⟩ :=
        collect_ok hfollows hreadable.cuts hreadable.kernel
      simp only [step, halive, hcollect] at hstep
      obtain rfl : world.turned turn collected = next := Option.some.inj hstep
      refine ⟨⟨_, rfl, follows_turned hfollows hreads⟩, ?_⟩
      intro hflushed service hservice
      obtain ⟨helapsed, haccepts⟩ := Bool.and_eq_true_iff.mp hflushed
      rw [shipped_all_iff hfollows hservice (hreads service hservice) helapsed haccepts]
      exact hreadable.decodes helapsed haccepts service hservice

/-- A step that does not meet it ends the thread or leaves out a line. -/
theorem not_ships_step {op : Op} {next : World} (hinv : Inv world) (hmeets : ¬ Meets world op)
    (hstep : step world op = some next) : ¬ Ships next := by
  cases op with
  | append service bytes => exact absurd trivial hmeets
  | turn turn =>
      obtain ⟨shipper, halive, hfollows⟩ := hinv.follows
      have hnot : ¬ Readable world turn shipper := by
        refine fun hreadable => hmeets fun other hother => ?_
        rw [halive] at hother
        exact Except.ok.inj hother ▸ hreadable
      intro hships
      by_cases hclean : (∀ service ∈ files,
          decode (unread (world.logs service) (shipper.tails service)) ≠ none →
            ∀ line ∈ newLines (world.logs service) (shipper.tails service), CutsClean line) ∧
          ∀ line ∈ freshDmesg shipper turn.dmesg, CutsClean line
      · obtain ⟨collected, hcollect, hreads⟩ := collect_ok hfollows hclean.1 hclean.2
        simp only [step, halive, hcollect] at hstep
        obtain rfl : world.turned turn collected = next := Option.some.inj hstep
        refine hnot ⟨hclean.1, hclean.2, ?_⟩
        intro helapsed haccepts service hservice
        rw [← shipped_all_iff hfollows hservice (hreads service hservice) helapsed haccepts]
        exact hships.complete (Bool.and_eq_true_iff.mpr ⟨helapsed, haccepts⟩) service hservice
      · obtain ⟨panic, hpanic⟩ := collect_error hfollows hclean
        simp only [step, halive, hpanic] at hstep
        cases hstep
        obtain ⟨other, hother⟩ := hships.alive
        cases hother

end Step

/-! ## Runs -/

theorem step_total (world : World) (op : Op) : ∃ next, step world op = some next := by
  cases op with
  | append service bytes => exact ⟨_, rfl⟩
  | turn turn =>
      simp only [step]
      split
      · exact ⟨_, rfl⟩
      · split <;> exact ⟨_, rfl⟩

/-- The pusher loses nothing and lives, whatever is appended and whichever pushes fail,
exactly as long as no cut falls inside a character and no push is due while unread bytes that
are no text complete a line. -/
theorem shipper_ships_iff (logs : Service → Bytes) (ops : List Op) :
    Throughout step Ships (launch logs) ops ↔ Guarded step Meets (launch logs) ops := by
  obtain ⟨final, hrun⟩ := run_total step_total (launch logs) ops
  exact throughout_iff_guarded Inv (fun _ => Inv.ships)
    (fun _ _ _ => inv_step) (fun _ _ _ => not_ships_step) (inv_launch logs) hrun

/-- A turn that has to push, with a server that accepts. -/
def quietTurn : Turn :=
  { clock := fun _ _ => 0
    dmesg := none
    elapsed := true
    accepts := true }

/-- A service writes one byte that is no UTF-8 and ends the line. -/
def latinLine : List Op := [.append .kubelet [0xe9, 10], .turn quietTurn]

theorem shipper_stuck_on_latinLine :
    ¬ ∀ logs ops, Throughout step Ships (launch logs) ops := by
  intro hclaim
  obtain ⟨final, hrun⟩ := run_total step_total (launch fun _ => []) latinLine
  have hships := (hclaim (fun _ => []) latinLine).last hrun
  have hshown : (run step (launch fun _ => []) latinLine).map (fun world =>
      (world.flushed, shipped world .kubelet, shippable (appended world .kubelet))) =
        some (true, [], [[replacement]]) := by decide +kernel
  rw [hrun, Option.map_some, Option.some.injEq, Prod.mk.injEq, Prod.mk.injEq] at hshown
  have hall := hships.complete hshown.1 .kubelet (by decide)
  rw [hshown.2.1, hshown.2.2] at hall
  cases hall

end PertiskKos.Loki
