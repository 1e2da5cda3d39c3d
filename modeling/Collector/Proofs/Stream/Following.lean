/-
# Following a file prints what decoding it prints

Following prints the records of a growing file as they appear, poll after poll, each time from a
fresh decode of all that is there.  Decoding prints the records of a file at once.  If the last
poll sees the whole file, the two have printed the same text (`follow_eq_decode`): with the writer
declared done in the end, what decoding prints, and else what deferred decoding prints.  It makes
no difference in what pieces the file was written, when it was polled, or which polls could not
read it.

A follower is a reader of a session that does nothing but poll.  `Shows` says that it has printed
what the session has handed out; a poll keeps it so (`Shows.pollOnce`), and what a session hands
out is known (`Stream.Session.Faithful`).
-/
import Collector.Command.Run
import Collector.Proofs.Stream.Delivery
import Collector.Proofs.Text.Visible

namespace Collector

open Collector.Stream (Session Event handedOut)

namespace Watch

/-! ## 1. A file that is followed -/

/-- What happens to a file while it is followed. -/
inductive Moment where
  /-- The writer appends a piece, and makes the file if it is not there. -/
  | append (chunk : ByteArray)
  /-- A poll, with the fault that keeps it from reading the file if there is one. -/
  | poll (fault : Option Fault)

/-- The file after a moment. -/
def Moment.change (file : Option ByteArray) : Moment → Option ByteArray
  | .append chunk => some (file.getD .empty ++ chunk)
  | .poll _ => file

/-- The file after some moments. -/
def fileAfter (file : Option ByteArray) (moments : List Moment) : Option ByteArray :=
  moments.foldl Moment.change file

/-- What reading a file gives unless a fault prevents it. -/
def read (file : Option ByteArray) : Option Fault → Reading
  | some fault => .error fault
  | none =>
    match file with
    | some contents => .ok contents
    | none => .error .notFound

/-- What the polls read, one after the other. -/
def readings : Option ByteArray → List Moment → List Reading
  | _, [] => []
  | file, .append chunk :: rest => readings (Moment.change file (.append chunk)) rest
  | file, .poll fault :: rest => read file fault :: readings file rest

theorem readings_concat (file : Option ByteArray) (moments : List Moment) (fault : Option Fault) :
    readings file (moments ++ [.poll fault]) =
      readings file moments ++ [read (fileAfter file moments) fault] := by
  induction moments generalizing file with
  | nil => rfl
  | cons moment rest ih =>
    cases moment with
    | append chunk => exact ih (Moment.change file (.append chunk))
    | poll fault' => exact congrArg (read file fault' :: ·) (ih file)

/-- A follower has printed what a command prints of some contents, one line for each record that
its stream has handed out. -/
structure PrintedAs (watch : Watch) (command : DecodeCommand) (contents : ByteArray) : Prop where
  out : (command.run (.ok contents)).map Printed.out = .ok watch.out
  lines : watch.printed = watch.out.toList.count '\n'
  emitted : watch.printed = watch.stream.emitted

/-! ## 2. A follower and a session -/

/-- A moment as an event of a session. -/
def Moment.event : Moment → Event
  | .append chunk => .append chunk
  | .poll fault => .pollNew fault

theorem Moment.event_ne_finish (moment : Moment) : moment.event ≠ .finish := by
  cases moment with
  | append | poll => exact Event.noConfusion

theorem step_event_file (s : Session) (moment : Moment) :
    (s.step moment.event).file = moment.change s.file := by
  cases moment with
  | append | poll => rfl

theorem run_events_file (s : Session) (moments : List Moment) :
    (s.run (moments.map Moment.event)).file = fileAfter s.file moments := by
  induction moments generalizing s with
  | nil => rfl
  | cons moment rest ih =>
    rw [List.map_cons, Session.run_cons, ih, step_event_file]
    rfl

theorem reading_eq (s : Session) (fault : Option Fault) : s.reading fault = read s.file fault := by
  cases fault with
  | none | some => rfl

/-- The follower has the stream of the session, and has printed what that has handed out. -/
structure Shows (watch : Watch) (s : Session) : Prop where
  stream : watch.stream = s.stream
  out : watch.out = Record.lines (handedOut s.history)
  printed : watch.printed = (handedOut s.history).length

theorem shows_start (path : String) (file : Option ByteArray) :
    Shows { stream := { path } } (Session.start path file) :=
  ⟨rfl, rfl, rfl⟩

theorem lines_append (records more : List Record) :
    Record.lines (records ++ more) = Record.lines records ++ Record.lines more := by
  simp only [Record.lines, List.map_append, String.join_append]

/-- A poll prints what it hands out, and does to the stream what `pollNew` does.  One that cannot
read the file does nothing at all. -/
theorem pollOnce_eq (watch : Watch) (reading : Reading) :
    let look := watch.stream.pollNew reading
    let fresh := Stream.handedOutBy (.pollNew reading, .fresh look.result)
    (watch.pollOnce reading).stream = look.stream ∧
      (watch.pollOnce reading).out = watch.out ++ Record.lines fresh ∧
      (watch.pollOnce reading).printed = watch.printed + fresh.length := by
  cases reading with
  | ok contents => exact ⟨rfl, rfl, rfl⟩
  | error fault =>
    have hnothing : watch.out ++ Record.lines [] = watch.out := String.append_empty
    cases fault with
    | notFound | isDirectory | notDirectory | nameTooLong | alreadyExists | nulInPath | other =>
      exact ⟨rfl, hnothing.symm, rfl⟩

/-- **A poll keeps what the follower shows.** -/
theorem Shows.pollOnce {watch : Watch} {s : Session} (h : Shows watch s) (fault : Option Fault) :
    Shows (watch.pollOnce (s.reading fault)) (s.step (.pollNew fault)) := by
  obtain ⟨hstream, hout, hprinted⟩ := pollOnce_eq watch (s.reading fault)
  rw [h.stream] at hstream hout hprinted
  have hhistory : handedOut (s.step (.pollNew fault)).history = handedOut s.history ++
      Stream.handedOutBy (.pollNew (s.reading fault),
        .fresh (s.stream.pollNew (s.reading fault)).result) :=
    Stream.handedOut_concat s.history _
  refine ⟨hstream, ?_, ?_⟩
  · rw [hout, hhistory, lines_append, h.out]
  · rw [hprinted, hhistory, List.length_append, h.printed]

/-- What happens to the file between two polls keeps what the follower shows. -/
theorem Shows.append {watch : Watch} {s : Session} (h : Shows watch s) (chunk : ByteArray) :
    Shows watch (s.step (.append chunk)) :=
  ⟨h.stream, h.out, h.printed⟩

/-- Declaring the writer done prints nothing. -/
theorem Shows.finish {watch : Watch} {s : Session} (h : Shows watch s) :
    Shows { watch with stream := watch.stream.finish } (s.step .finish) := by
  have hhistory : handedOut (s.step .finish).history = handedOut s.history := by
    refine (Stream.handedOut_concat s.history _).trans ?_
    exact List.append_nil _
  refine ⟨congrArg Stream.finish h.stream, ?_, ?_⟩
  · rw [hhistory]
    exact h.out
  · rw [hhistory]
    exact h.printed

/-- **All polls together keep what the follower shows.** -/
theorem Shows.run {watch : Watch} {s : Session} (h : Shows watch s) (moments : List Moment) :
    Shows ((readings s.file moments).foldl Watch.pollOnce watch)
      (s.run (moments.map Moment.event)) := by
  induction moments generalizing watch s with
  | nil => exact h
  | cons moment rest ih =>
    cases moment with
    | append chunk => exact ih (h.append chunk)
    | poll fault =>
      have hpoll := h.pollOnce fault
      rw [reading_eq] at hpoll
      exact ih hpoll

/-- Polling does not declare the writer done. -/
theorem run_events_finished (s : Session) (moments : List Moment) :
    (s.run (moments.map Moment.event)).stream.finished = s.stream.finished := by
  induction moments generalizing s with
  | nil => rfl
  | cons moment rest ih =>
    rw [List.map_cons, Session.run_cons, ih]
    exact Session.step_finished moment.event_ne_finish

/-! ## 3. What has been printed in the end -/

/-- What a command without a limit prints. -/
theorem out_run {command : DecodeCommand} (hlimit : command.limit? = none)
    (contents : ByteArray) :
    (command.run (.ok contents)).map Printed.out =
      .ok (Record.lines (Table.decodeBytes none
        (if command.deferred then .deferred else .atEof) contents).records) := by
  obtain ⟨file, deferred, limit⟩ := command
  obtain rfl : limit = none := hlimit
  rfl

/-- **The poll that sees the whole file completes what is printed.**  The follower has then printed
what a command prints that decodes the contents as its stream does. -/
theorem Shows.printedAs {watch : Watch} {s : Session} (h : Shows watch s)
    (hfaithful : s.Faithful) {contents : ByteArray} (hfile : s.file = some contents)
    {command : DecodeCommand} (hlimit : command.limit? = none)
    (hflush : (if command.deferred then .deferred else .atEof) = s.stream.flush) :
    PrintedAs (watch.pollOnce (.ok contents)) command contents := by
  have hcontents : s.contents = contents := by rw [Session.contents, hfile, Option.getD_some]
  have hread : s.reading none = .ok s.contents := by rw [reading_eq, hfile, hcontents, read]
  have hpoll := h.pollOnce none
  rw [hread, hcontents] at hpoll
  obtain ⟨hall, hfaithful'⟩ := hfaithful.pollNew_ok hread
  refine ⟨?_, ?_, ?_⟩
  · rw [out_run hlimit, hflush, hpoll.out, hall, Session.decoded, hcontents]
  · rw [hpoll.out, Record.count_lines, hpoll.printed]
  · rw [hpoll.stream, hfaithful'.emitted, hpoll.printed]

/-- **Following agrees with decoding.**  Whatever pieces a file is written in, and whenever and
with whatever failures it is polled in between: a follower that flushes in the end, when the file
holds `contents`, has printed what decoding prints of these, and one that stops at a poll that
reads them what deferred decoding prints.  Its count is that of the lines printed and of the
records handed out, and only flushing declares the writer done. -/
theorem follow_eq_decode (path : String) (file : Option ByteArray) (moments : List Moment)
    (contents : ByteArray) (hfile : fileAfter file moments = some contents) :
    let fresh : Watch := { stream := { path } }
    let flushed := fresh.follow (readings file moments) (some (read (some contents) none))
    let stopped := fresh.follow (readings file (moments ++ [.poll none])) none
    PrintedAs flushed { file := path } contents ∧
      PrintedAs stopped { file := path, deferred := true } contents ∧
      stopped.stream.finished = false := by
  intro fresh flushed stopped
  let s := (Session.start path file).run (moments.map Moment.event)
  let polled := (readings file moments).foldl Watch.pollOnce fresh
  have hevents : ∀ e ∈ moments.map Moment.event, e ≠ .finish := by
    intro e he
    obtain ⟨moment, -, rfl⟩ := List.mem_map.mp he
    exact moment.event_ne_finish
  obtain ⟨hfaithful, -⟩ := Session.run_open hevents rfl (Session.faithful_start path file) rfl
  have hopen : s.stream.finished = false := run_events_finished (Session.start path file) moments
  have hfile' : s.file = some contents := (run_events_file _ moments).trans hfile
  have hshows : Shows polled s := (shows_start path file).run moments
  have hstopped : stopped = polled.pollOnce (.ok contents) := by
    change (readings file (moments ++ [.poll none])).foldl Watch.pollOnce fresh = _
    rw [readings_concat, hfile, List.foldl_append]
    rfl
  refine ⟨?_, ?_, ?_⟩
  · exact hshows.finish.printedAs hfaithful.finish hfile' rfl rfl
  · rw [hstopped]
    exact hshows.printedAs hfaithful hfile' rfl (Stream.flush_of_open hopen).symm
  · obtain ⟨hstream, -, -⟩ := pollOnce_eq polled (.ok contents)
    rw [hstopped, hstream, Stream.pollNew_finished, hshows.stream]
    exact hopen

/-- The file is not there at first, a poll fails, an `é` is written in halves, and no newline ends
the last row. -/
theorem follow_eq_decode_of_halves :
    let moments : List Moment :=
      [.poll none, .append ⟨#[97, 10, 98, 10, 0xc3]⟩, .poll (some .isDirectory), .poll none,
        .append ⟨#[0xa9]⟩]
    let contents : ByteArray := ⟨#[97, 10, 98, 10, 0xc3, 0xa9]⟩
    let fresh : Watch := { stream := { path := "r.csv" } }
    let flushed := fresh.follow (readings none moments) (some (read (some contents) none))
    let stopped := fresh.follow (readings none (moments ++ [.poll none])) none
    fileAfter none moments = some contents ∧
      flushed.out = "\x7b\"a\":\"b\"\x7d\n\x7b\"a\":\"é\"\x7d\n" ∧ flushed.printed = 2 ∧
      stopped.out = "\x7b\"a\":\"b\"\x7d\n" ∧ stopped.printed = 1 ∧
      stopped.stream.finished = false := by
  intro moments contents fresh flushed stopped
  have hfile : fileAfter none moments = some contents := by decide
  obtain ⟨hflushed, hstopped, hopen⟩ := follow_eq_decode "r.csv" none moments contents hfile
  have hrecords : (Table.decodeBytes none .atEof contents).records =
      [⟨[("a", "b")]⟩, ⟨[("a", "é")]⟩] := by decide
  have hcomplete : (Table.decodeBytes none .deferred contents).records = [⟨[("a", "b")]⟩] := by
    decide
  have hall : flushed.out = "\x7b\"a\":\"b\"\x7d\n\x7b\"a\":\"é\"\x7d\n" := by
    have hout := hflushed.out.symm.trans (out_run rfl contents)
    rw [Except.ok.inj hout]
    exact (congrArg Record.lines hrecords).trans (by decide)
  have hheld : stopped.out = "\x7b\"a\":\"b\"\x7d\n" := by
    have hout := hstopped.out.symm.trans (out_run rfl contents)
    rw [Except.ok.inj hout]
    exact (congrArg Record.lines hcomplete).trans (by decide)
  refine ⟨hfile, hall, ?_, hheld, ?_, hopen⟩
  · rw [hflushed.lines, hall]
    decide
  · rw [hstopped.lines, hheld]
    decide

end Watch
end Collector
