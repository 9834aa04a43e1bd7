import Mathlib
import PertiskKos.Library.Lines
import PertiskKos.Library.Runs

/-!
# The logs request: a tail and what follows

The worker of a logs request reads the last window of the file and sends its last lines.
Then it opens the file again, goes to the end and sends what is appended from there on, line
by line.  The file grows at any time, also between two of these steps.
-/

namespace PertiskKos.Logs

open Strings Utf8 Lines Runs

/-! ## The worker -/

/-- `tail_file` reads at most 512 KiB. -/
def window : Nat := 512 * 1024

def normalizeTail (n : Nat) : Nat := min (if n = 0 then 100 else n) 5000

def lastNLines (text : Text) (n : Nat) : List Text :=
  let all := lines text
  if n < all.length then all.drop (all.length - n) else all

/-- Where the worker stands. -/
inductive Worker where
  | started
  /-- `tail_file` has gone to the start of its window. -/
  | seeked (start : Nat)
  /-- The tail is sent. -/
  | tailed
  /-- `follow_file` after its position and the line it has not seen the end of. -/
  | following (pos : Nat) (partialLine : Text)
  /-- `read_to_string` failed, and the call with it. -/
  | failed
  deriving DecidableEq, Repr

structure World where
  log : Bytes
  tailLines : Nat
  worker : Worker
  /-- The lines sent to the client. -/
  sent : List Text
  /-- How much of the file had been read by the latest read. -/
  seen : Nat
  /-- How much of the file the tail had read. -/
  tailEnd : Nat
  deriving DecidableEq, Repr

inductive Op where
  | grow (bytes : Bytes)
  | seekTail
  | readTail
  | openFollow
  | poll
  deriving DecidableEq, Repr

def request (log : Bytes) (tailLines : Nat) : World :=
  { log, tailLines, worker := .started, sent := [], seen := 0, tailEnd := 0 }

/-- The second half of `tail_file`: everything from the start of the window on. -/
def World.readTail (world : World) (start : Nat) : World :=
  match decode (world.log.drop start) with
  | none => { world with worker := .failed }
  | some buf =>
      { world with
        worker := .tailed
        sent := lastNLines buf (normalizeTail world.tailLines)
        seen := world.log.length
        tailEnd := world.log.length }

/-- One turn of the loop of `follow_file`. -/
def World.poll (world : World) (pos : Nat) (partialLine : Text) : World :=
  -- Truncation / rotation: restart from beginning.
  let (pos, partialLine) := if world.log.length < pos then (0, []) else (pos, partialLine)
  match decode (world.log.drop pos) with
  | none => { world with worker := .failed }
  | some [] => { world with worker := .following pos partialLine, seen := world.log.length }
  | some buf =>
      let drained := drain '\n' (partialLine ++ buf)
      { world with
        worker := .following (pos + (encode buf).length) drained.2
        sent := world.sent ++ drained.1.map stripReturn
        seen := world.log.length }

def step (world : World) : Op → Option World
  | .grow bytes => some { world with log := world.log ++ bytes }
  | .seekTail =>
      match world.worker with
      | .started => some { world with worker := .seeked (world.log.length - window) }
      | _ => none
  | .readTail =>
      match world.worker with
      | .seeked start => some (world.readTail start)
      | _ => none
  | .openFollow =>
      match world.worker with
      | .tailed => some { world with worker := .following world.log.length [] }
      | _ => none
  | .poll =>
      match world.worker with
      | .following pos partialLine => some (world.poll pos partialLine)
      | _ => none

/-! ## What is to be sent -/

/-- The lines sent are those of the file from `skipped` on, up to the latest read, and begin
at most so many lines before the end of the tail as were asked for. -/
def SentFrom (world : World) (skipped : Nat) : Prop :=
  world.sent = (completeLines (world.log.take world.seen)).drop skipped ∧
    skipped ≤ (completeLines (world.log.take world.tailEnd)).length ∧
    (completeLines (world.log.take world.tailEnd)).length ≤
      skipped + normalizeTail world.tailLines

structure WholeLog (world : World) : Prop where
  alive : world.worker ≠ .failed
  contiguous : ∃ skipped, SentFrom world skipped

/-- The window is a text that ends with a line.  It starts with one, or has more lines than
were asked for. -/
structure CleanTail (log : Bytes) (start n : Nat) : Prop where
  decodes : decode (log.drop start) ≠ none
  ends : unended 10 log = []
  starts : unended 10 (log.take start) = [] ∨ n < (ended 10 (log.drop start)).length

/-- The condition on a step. -/
def Meets (world : World) : Op → Prop
  | .readTail =>
      ∀ start, world.worker = .seeked start →
        CleanTail world.log start (normalizeTail world.tailLines)
  | .openFollow => world.log.length = world.tailEnd
  | .poll =>
      ∀ pos partialLine, world.worker = .following pos partialLine →
        decode (world.log.drop pos) ≠ none
  | _ => True

/-! ## The tail -/

theorem lastNLines_eq (text : Text) (n : Nat) :
    lastNLines text n = (lines text).drop ((lines text).length - n) := by
  simp only [lastNLines]
  split
  · rfl
  · next hfew => rw [Nat.sub_eq_zero_of_le (Nat.not_lt.mp hfew), List.drop_zero]

/-- An end of line at the end of a log is one at the end of each part of it that goes up to
the end. -/
theorem unended_drop {log : Bytes} (start : Nat) (hends : unended 10 log = []) :
    unended 10 (log.drop start) = [] := by
  rw [← List.take_append_drop start log, unended_append] at hends
  exact unended_of_append (notMem_unended _) hends

/-- A text that ends with a line has only complete lines. -/
theorem lines_of_unended {log : Bytes} {buf : Text} (hdecode : decode log = some buf)
    (hends : unended 10 log = []) : lines buf = completeLines log := by
  have hbytes : log = encode buf := decode_eq_some_iff.mp hdecode
  rw [hbytes, (ended_encode buf).2, encode_eq_nil_iff] at hends
  rw [lines_eq, hends, if_pos rfl, List.append_nil, hbytes, completeLines_encode]

/-- The last lines of a clean window are the last lines of the file. -/
theorem lastNLines_of_clean {log : Bytes} {start n : Nat} {buf : Text}
    (hclean : CleanTail log start n) (hdecode : decode (log.drop start) = some buf) :
    ∃ skipped, lastNLines buf n = (completeLines log).drop skipped ∧
      skipped ≤ (completeLines log).length ∧ (completeLines log).length ≤ skipped + n := by
  rw [lastNLines_eq, lines_of_unended hdecode (unended_drop start hclean.ends)]
  have hlog : completeLines log = completeLines (log.take start) ++
      completeLines (unended 10 (log.take start) ++ log.drop start) := by
    rw [← completeLines_append, List.take_append_drop]
  -- The line that the window cuts is the first of it, and it is dropped or whole.
  have hwindow : (completeLines (unended 10 (log.take start) ++ log.drop start)).length =
        (completeLines (log.drop start)).length ∧
      (completeLines (unended 10 (log.take start) ++ log.drop start)).drop
          ((completeLines (log.drop start)).length - n) =
        (completeLines (log.drop start)).drop ((completeLines (log.drop start)).length - n) := by
    rcases hclean.starts with haligned | hmany
    · rw [haligned, List.nil_append]
      exact ⟨rfl, rfl⟩
    · rcases ended_append_cases (notMem_unended (log.take start)) (log.drop start) with
        hnot | ⟨line, rest, hended, hfront, -⟩
      · rw [ended_of_notMem hnot] at hmany
        cases hmany
      · rw [hended, List.length_cons] at hmany
        have hskip : rest.length + 1 - n = rest.length - n + 1 := by omega
        simp only [completeLines, hended, hfront, List.map_cons, List.length_cons,
          List.length_map, hskip, List.drop_succ_cons, and_self]
  refine ⟨(completeLines (log.take start)).length +
    ((completeLines (log.drop start)).length - n), ?_, ?_, ?_⟩
  · rw [hlog, List.drop_length_add_append, hwindow.2]
  · rw [hlog, List.length_append, hwindow.1]
    omega
  · rw [hlog, List.length_append, hwindow.1]
    omega

/-! ## Steps -/

section Steps

variable {world next : World}

/-- What the worker knows in each of its states. -/
def Knows (world : World) : Worker → Prop
  | .started => world.seen = 0
  | .seeked _ => world.seen = 0
  | .tailed => world.seen = world.tailEnd ∧ unended 10 (world.log.take world.seen) = []
  | .following pos partialLine =>
      world.seen = pos ∧ encode partialLine = unended 10 (world.log.take world.seen)
  | .failed => False

structure Inv (world : World) : Prop where
  within : world.seen ≤ world.log.length
  ordered : world.tailEnd ≤ world.seen
  knows : Knows world world.worker
  contiguous : ∃ skipped, SentFrom world skipped

theorem Inv.wholeLog (hinv : Inv world) : WholeLog world := by
  refine ⟨?_, hinv.contiguous⟩
  intro hfailed
  have hknows := hinv.knows
  rw [hfailed] at hknows
  exact hknows

theorem inv_request (log : Bytes) (tailLines : Nat) : Inv (request log tailLines) :=
  ⟨Nat.zero_le _, Nat.le_refl _, rfl, 0, by simp [request, completeLines],
    Nat.zero_le _, by simp [request, completeLines]⟩

/-- Growth changes nothing in the part of the file that was read. -/
theorem inv_grow (hinv : Inv world) (bytes : Bytes) :
    Inv { world with log := world.log ++ bytes } := by
  have htake : ∀ n, n ≤ world.seen → (world.log ++ bytes).take n = world.log.take n :=
    fun n hn => List.take_append_of_le_length (Nat.le_trans hn hinv.within)
  obtain ⟨skipped, hsent, hfirst, hlast⟩ := hinv.contiguous
  refine ⟨?_, hinv.ordered, ?_, skipped, ?_, ?_, ?_⟩
  · rw [List.length_append]
    exact Nat.le_trans hinv.within (Nat.le_add_right _ _)
  · have hknows := hinv.knows
    revert hknows
    dsimp only
    cases world.worker <;> simp only [Knows, htake world.seen (Nat.le_refl _), imp_self]
  · rw [hsent, htake world.seen (Nat.le_refl _)]
  · rw [htake world.tailEnd hinv.ordered]
    exact hfirst
  · rw [htake world.tailEnd hinv.ordered]
    exact hlast

theorem inv_readTail {start : Nat}
    (hclean : CleanTail world.log start (normalizeTail world.tailLines)) :
    Inv (world.readTail start) := by
  cases hdecode : decode (world.log.drop start) with
  | none => exact absurd hdecode hclean.decodes
  | some buf =>
      obtain ⟨skipped, hsent, hfirst, hlast⟩ := lastNLines_of_clean hclean hdecode
      rw [World.readTail, hdecode]
      refine ⟨Nat.le_refl _, Nat.le_refl _, ⟨rfl, ?_⟩, skipped, ?_, ?_, ?_⟩
      · rw [List.take_length]
        exact hclean.ends
      · rw [List.take_length]
        exact hsent
      · rw [List.take_length]
        exact hfirst
      · rw [List.take_length]
        exact hlast

theorem inv_poll {pos : Nat} {partialLine : Text} (hinv : Inv world)
    (hworker : world.worker = .following pos partialLine)
    (hdecodes : decode (world.log.drop pos) ≠ none) : Inv (world.poll pos partialLine) := by
  obtain ⟨skipped, hsent, hfirst, hlast⟩ := hinv.contiguous
  have hknows := hinv.knows
  rw [hworker] at hknows
  obtain ⟨rfl, hopen⟩ := hknows
  cases hdecode : decode (world.log.drop world.seen) with
  | none => exact absurd hdecode hdecodes
  | some buf =>
      have hbytes : world.log.drop world.seen = encode buf := decode_eq_some_iff.mp hdecode
      have hsplit : world.log = world.log.take world.seen ++ encode buf := by
        rw [← hbytes, List.take_append_drop]
      have hlength : world.seen + (encode buf).length = world.log.length := by
        rw [← hbytes, List.length_drop, Nat.add_sub_of_le hinv.within]
      have hlines : (ended '\n' (partialLine ++ buf)).map stripReturn =
          completeLines (unended 10 (world.log.take world.seen) ++ encode buf) := by
        rw [← hopen, ← encode_append, completeLines_encode]
      have htail : completeLines (world.log.take world.tailEnd) <+:
          completeLines (world.log.take world.seen) := by
        rw [← List.take_append_drop world.tailEnd (world.log.take world.seen), List.take_take,
          Nat.min_eq_left hinv.ordered]
        exact completeLines_prefix _ _
      -- An empty read is the case of the loop that takes no line and moves nowhere.
      have hpoll : world.poll world.seen partialLine =
          { world with
            worker := .following world.log.length (unended '\n' (partialLine ++ buf))
            sent := world.sent ++ (ended '\n' (partialLine ++ buf)).map stripReturn
            seen := world.log.length } := by
        simp only [World.poll, if_neg (Nat.not_lt.mpr hinv.within), hdecode, drain_eq]
        cases buf with
        | nil =>
            have hend : world.seen = world.log.length := hlength
            have hfree : '\n' ∉ partialLine := by
              intro hmem
              have hbyte : (10 : UInt8) ∈ encode partialLine :=
                List.mem_flatMap.mpr ⟨'\n', hmem, by decide⟩
              rw [hopen] at hbyte
              exact notMem_unended _ hbyte
            rw [List.append_nil, ended_of_notMem hfree, unended_of_notMem hfree, ← hend,
              List.map_nil, List.append_nil]
        | cons c buf => rw [← hlength]
      rw [hpoll]
      refine ⟨Nat.le_refl _, Nat.le_trans hinv.ordered hinv.within, ⟨rfl, ?_⟩,
        skipped, ?_, hfirst, hlast⟩
      · rw [List.take_length, ← (ended_encode _).2, encode_append, hopen, ← unended_append,
          ← hsplit]
      · rw [List.take_length, hlines, hsent]
        conv => rhs; rw [hsplit, completeLines_append]
        rw [List.drop_append_of_le_length (Nat.le_trans hfirst htail.length_le)]

/-- A step that meets the condition keeps the invariant. -/
theorem inv_step {op : Op} (hinv : Inv world) (hmeets : Meets world op)
    (hstep : step world op = some next) : Inv next := by
  have hknows := hinv.knows
  cases op with
  | grow bytes =>
      cases hstep
      exact inv_grow hinv bytes
  | seekTail =>
      cases hworker : world.worker with
      | started =>
          simp only [step, hworker] at hstep
          cases hstep
          rw [hworker] at hknows
          exact ⟨hinv.within, hinv.ordered, hknows, hinv.contiguous⟩
      | _ => simp [step, hworker] at hstep
  | readTail =>
      cases hworker : world.worker with
      | seeked start =>
          simp only [step, hworker] at hstep
          cases hstep
          exact inv_readTail (hmeets start hworker)
      | _ => simp [step, hworker] at hstep
  | openFollow =>
      cases hworker : world.worker with
      | tailed =>
          simp only [step, hworker] at hstep
          cases hstep
          rw [hworker] at hknows
          refine ⟨hinv.within, hinv.ordered, ⟨?_, hknows.2.symm⟩, hinv.contiguous⟩
          exact hknows.1.trans hmeets.symm
      | _ => simp [step, hworker] at hstep
  | poll =>
      cases hworker : world.worker with
      | following pos partialLine =>
          simp only [step, hworker] at hstep
          cases hstep
          exact inv_poll hinv hworker (hmeets pos partialLine hworker)
      | _ => simp [step, hworker] at hstep

end Steps

/-! ## Runs -/

/-- Tail and follow send one run of whole lines, whatever the file is and whenever it grows,
as long as the tail gets a clean window, nothing is appended between the tail and the opening
of the follower, and no poll falls inside a character. -/
theorem tail_follow_contiguous (log : Bytes) (tailLines : Nat) (ops : List Op)
    (hmeets : Guarded step Meets (request log tailLines) ops) :
    Throughout step WholeLog (request log tailLines) ops :=
  throughout_of_guarded (fun _ => Inv.wholeLog) (fun _ _ _ => inv_step)
    (inv_request log tailLines) hmeets

instance (log : Bytes) (start n : Nat) : Decidable (CleanTail log start n) :=
  decidable_of_iff (decode (log.drop start) ≠ none ∧ unended 10 log = [] ∧
      (unended 10 (log.take start) = [] ∨ n < (ended 10 (log.drop start)).length))
    ⟨fun h => ⟨h.1, h.2.1, h.2.2⟩, fun h => ⟨h.decodes, h.ends, h.starts⟩⟩

instance (world : World) (op : Op) : Decidable (Meets world op) :=
  match op with
  | .grow _ => isTrue trivial
  | .seekTail => isTrue trivial
  | .openFollow => inferInstanceAs (Decidable (world.log.length = world.tailEnd))
  | .readTail =>
      match hworker : world.worker with
      | .seeked start =>
          decidable_of_iff (CleanTail world.log start (normalizeTail world.tailLines))
            ⟨fun h other hother => (Worker.seeked.inj (hworker.symm.trans hother)) ▸ h,
              fun h => h start hworker⟩
      | .started => isTrue fun other hother => by rw [hworker] at hother; cases hother
      | .tailed => isTrue fun other hother => by rw [hworker] at hother; cases hother
      | .following _ _ => isTrue fun other hother => by rw [hworker] at hother; cases hother
      | .failed => isTrue fun other hother => by rw [hworker] at hother; cases hother
  | .poll =>
      match hworker : world.worker with
      | .following pos partialLine =>
          decidable_of_iff (decode (world.log.drop pos) ≠ none)
            ⟨fun h other text hother =>
              (Worker.following.inj (hworker.symm.trans hother)).1 ▸ h,
              fun h => h pos partialLine hworker⟩
      | .started => isTrue fun _ _ hother => by rw [hworker] at hother; cases hother
      | .seeked _ => isTrue fun _ _ hother => by rw [hworker] at hother; cases hother
      | .tailed => isTrue fun _ _ hother => by rw [hworker] at hother; cases hother
      | .failed => isTrue fun _ _ hother => by rw [hworker] at hother; cases hother

/-- Two lines, of which one is asked for, and a third that comes in two pieces. -/
def threeLines : List Op :=
  [.seekTail, .readTail, .openFollow, .grow [99], .poll, .grow [100, 10], .poll]

theorem tail_follow_threeLines :
    Throughout step WholeLog (request [97, 10, 98, 10] 1) threeLines :=
  tail_follow_contiguous [97, 10, 98, 10] 1 threeLines (by decide +kernel)

/-! ## What the file grows to -/

def Op.grown : Op → Bytes
  | .grow bytes => bytes
  | _ => []

/-- All that is ever written to the file. -/
def wholeFile (log : Bytes) (ops : List Op) : Bytes := log ++ ops.flatMap Op.grown

/-- A line is written after the tail was read and before the follower is opened. -/
def lineInBetween : List Op := [.seekTail, .readTail, .grow [97, 10], .openFollow, .poll]

theorem line_lost_in_between :
    ¬ ∀ log tailLines ops, decode (wholeFile log ops) ≠ none →
      Throughout step WholeLog (request log tailLines) ops := by
  intro hclaim
  have hrun : run step (request [] 10) lineInBetween = some
      { log := [97, 10], tailLines := 10, worker := .following 2 [], sent := [], seen := 2,
        tailEnd := 0 } := by decide +kernel
  have hwhole := (hclaim [] 10 lineInBetween (by decide +kernel)).last hrun
  obtain ⟨skipped, hsent, hfirst, -⟩ := hwhole.contiguous
  obtain rfl : skipped = 0 := Nat.le_zero.mp hfirst
  have hline : completeLines ([97, 10].take 2) = [['a']] := by decide +kernel
  rw [List.drop_zero, hline] at hsent
  cases hsent

end PertiskKos.Logs
