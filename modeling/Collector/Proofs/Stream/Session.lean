/-
# Sessions of a stream

A session is a result file and a stream that looks at it, together with everything the stream
has been asked and has answered.  Its writer only appends, in pieces of any size; the reader's
calls fall between the pieces in any order, and any of them may find the file unreadable for the
moment.

What a session has handed out is read off its history (`handedOut`): the records of all
successful calls of `pollNew`, one list after the other.
-/
import Collector.Stream.Report

namespace Collector
namespace Stream

/-! ## 1. Calls and answers -/

/-- A call on a stream, with what reading the file gives at that moment. -/
inductive Call where
  | pollNew (reading : Reading)
  | snapshot (reading : Reading)
  | status (threshold : Nat) (info : Except Fault FileInfo) (reading : Reading)
  | finish

/-- What a call answers. -/
inductive Answer where
  /-- The records that `pollNew` hands out. -/
  | fresh (result : Except ReadError (List Record))
  /-- The records that `snapshot` lists. -/
  | all (result : Except ReadError (List Record))
  | report (result : Except ReadError Report)
  /-- The call answers nothing. -/
  | done

/-- The stream after a call, and the answer. -/
def perform (s : Stream) : Call → Stream × Answer
  | .pollNew reading => ((s.pollNew reading).stream, .fresh (s.pollNew reading).result)
  | .snapshot reading => ((s.snapshot reading).stream, .all (s.snapshot reading).result)
  | .status threshold info reading => (s, .report (s.status threshold info reading))
  | .finish => (s.finish, .done)

/-- The calls made so far with their answers, the first one first. -/
abbrev History := List (Call × Answer)

/-- The records that a call has handed out. -/
def handedOutBy : Call × Answer → List Record
  | (_, .fresh (.ok records)) => records
  | _ => []

/-- All records handed out, in the order in which they were. -/
def handedOut (history : History) : List Record :=
  history.flatMap handedOutBy

/-- What a call has read of the file, if it was `pollNew` and has succeeded. -/
def polledBy : Call × Answer → Option ByteArray
  | (.pollNew (.ok contents), .fresh (.ok _)) => some contents
  | _ => none

/-- The contents of the file at the last `pollNew` that succeeded. -/
def lastPolled (history : History) : Option ByteArray :=
  (history.filterMap polledBy).getLast?

theorem handedOut_concat (history : History) (entry : Call × Answer) :
    handedOut (history ++ [entry]) = handedOut history ++ handedOutBy entry := by
  simp [handedOut]

theorem lastPolled_concat (history : History) (entry : Call × Answer) :
    lastPolled (history ++ [entry]) = (polledBy entry).or (lastPolled history) := by
  unfold lastPolled
  cases h : polledBy entry <;> simp [List.filterMap_append, h]

/-! ## 2. What a call does -/

/-- A `pollNew` that cannot read the file changes nothing. -/
theorem pollNew_error (s : Stream) (fault : Fault) :
    s.pollNew (.error fault) = { stream := s, result := .error (.ofFault s.path fault) } := rfl

/-- A `snapshot` that cannot read the file changes nothing. -/
theorem snapshot_error (s : Stream) (fault : Fault) :
    s.snapshot (.error fault) = { stream := s, result := .error (.ofFault s.path fault) } := rfl

theorem snapshot_finished (s : Stream) (reading : Reading) :
    (s.snapshot reading).stream.finished = s.finished := by
  unfold snapshot
  split <;> rfl

theorem pollNew_finished (s : Stream) (reading : Reading) :
    (s.pollNew reading).stream.finished = s.finished := by
  have hlook := snapshot_finished s reading
  unfold pollNew
  dsimp only
  split
  · exact hlook
  · exact hlook

/-- While the writer may go on, a row without a newline is held back. -/
theorem flush_of_open {s : Stream} (h : s.finished = false) : s.flush = .deferred := by
  rw [flush, h]
  rfl

theorem flush_of_finished {s : Stream} (h : s.finished = true) : s.flush = .atEof :=
  if_pos h

/-! ## 3. A file that is appended to -/

/-- What happens in a session.  A call comes with the fault that keeps it from reading the file,
if there is one. -/
inductive Event where
  /-- The writer appends a piece, and makes the file if it is not there. -/
  | append (chunk : ByteArray)
  | pollNew (fault : Option Fault)
  | snapshot (fault : Option Fault)
  | status (threshold : Nat) (info : Except Fault FileInfo) (fault : Option Fault)
  | finish

/-- The event changes the file. -/
def Event.isAppend : Event → Bool
  | .append _ => true
  | _ => false

/-- A result file, the stream that looks at it, and what has passed between them. -/
structure Session where
  /-- The contents of the file, if it is there. -/
  file : Option ByteArray
  stream : Stream
  history : History := []

namespace Session

/-- A new stream on a file that may not exist yet. -/
def start (path : String) (file : Option ByteArray) : Session :=
  { file, stream := { path } }

/-- What the file holds; a file that is not there holds nothing. -/
def contents (s : Session) : ByteArray :=
  s.file.getD .empty

/-- What reading the file gives, unless a fault prevents it. -/
def reading (s : Session) : Option Fault → Reading
  | some fault => .error fault
  | none =>
    match s.file with
    | some contents => .ok contents
    | none => .error .notFound

/-- The session after a call. -/
def call (s : Session) (call : Call) : Session :=
  { s with
    stream := (s.stream.perform call).1
    history := s.history ++ [(call, (s.stream.perform call).2)] }

/-- The session after an event. -/
def step (s : Session) : Event → Session
  | .append chunk => { s with file := some (s.contents ++ chunk) }
  | .pollNew fault => s.call (.pollNew (s.reading fault))
  | .snapshot fault => s.call (.snapshot (s.reading fault))
  | .status threshold info fault => s.call (.status threshold info (s.reading fault))
  | .finish => s.call .finish

/-- The session after some events, the first one first. -/
def run (s : Session) (events : List Event) : Session :=
  events.foldl step s

@[simp] theorem run_cons (s : Session) (e : Event) (events : List Event) :
    s.run (e :: events) = (s.step e).run events := rfl

@[simp] theorem call_contents (s : Session) (call : Call) :
    (s.call call).contents = s.contents := rfl

/-- Only appending changes the file. -/
theorem step_file {s : Session} {e : Event} (h : e.isAppend = false) :
    (s.step e).file = s.file := by
  cases e with
  | append chunk => simp [Event.isAppend] at h
  | pollNew | snapshot | status | finish => rfl

theorem run_file {s : Session} {events : List Event} (h : ∀ e ∈ events, e.isAppend = false) :
    (s.run events).file = s.file := by
  induction events generalizing s with
  | nil => rfl
  | cons e events ih =>
    rw [run_cons, ih fun e' he' => h e' (List.mem_cons_of_mem e he'),
      step_file (h e List.mem_cons_self)]

/-- A call either cannot read the file or reads the contents of a file that is there. -/
theorem reading_cases (s : Session) (fault : Option Fault) :
    (∃ fault', s.reading fault = .error fault') ∨
      s.reading fault = .ok s.contents ∧ s.file = some s.contents := by
  cases fault with
  | some fault => exact Or.inl ⟨fault, rfl⟩
  | none =>
    cases hfile : s.file with
    | none => exact Or.inl ⟨.notFound, by simp [reading, hfile]⟩
    | some bytes => exact Or.inr ⟨by simp [reading, contents, hfile], by simp [contents, hfile]⟩

end Session
end Stream
end Collector
