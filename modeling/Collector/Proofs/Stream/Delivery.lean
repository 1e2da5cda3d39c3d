/-
# Every record is handed out once

A stream decodes the whole file at each look and hands out what it has not handed out before.
That this gives every record once, and no record in two versions, rests on two facts about the
table: a later decode continues an earlier one (`Table.decodeBytes_continues`), and a header
that was captured from the file is the one that the file has still got, so that keying records
by it changes nothing (`Table.decodeBytes_of_header`).

`Faithful` is what a session keeps as long as nothing is appended after `finish`: what has been
handed out stands at the front of what the file decodes to now.  A `pollNew` that succeeds
hands out the rest (`Faithful.handedOut_pollNew`).
-/
import Collector.Proofs.Stream.Session
import Collector.Proofs.Table.Growth

namespace Collector

/-! ## 1. Keying records by a captured header -/

/-- Records keyed by the header of the table itself are those that a reader without a header
gets. -/
theorem Table.decodeBytes_of_header {known : Option (List String)} {flush : Flush}
    {bytes : ByteArray}
    (h : known = none ∨ (decodeBytes none flush bytes).header = known) :
    decodeBytes known flush bytes = decodeBytes none flush bytes := by
  rcases h with rfl | h
  · rfl
  · rw [decodeBytes_eq] at h
    rw [decodeBytes_eq, decodeBytes_eq]
    cases hrows : rows flush (linesOf bytes) with
    | nil => rfl
    | cons own later =>
      rw [hrows] at h
      rw [← h]
      rfl

namespace Stream

/-- A `snapshot` that reads the file lists all records and captures the header. -/
theorem snapshot_ok {s : Stream} {reading : Reading} {decoded : Table.Decoded}
    (h : s.decode reading = .ok decoded) :
    s.snapshot reading =
      { stream := s.capture decoded.header
        result := .ok decoded.records
        warnings := s.headerWarnings decoded.header } := by
  simp only [snapshot, h]

/-- A `pollNew` that reads the file hands out what lies beyond the records handed out before. -/
theorem pollNew_ok {s : Stream} {reading : Reading} {decoded : Table.Decoded}
    (h : s.decode reading = .ok decoded) :
    s.pollNew reading =
      { stream :=
          { s.capture decoded.header with
            emitted := s.emitted + (decoded.records.drop s.emitted).length }
        result := .ok (decoded.records.drop s.emitted)
        warnings := s.headerWarnings decoded.header } := by
  simp only [pollNew, snapshot_ok h]

namespace Session

/-! ## 2. The invariant -/

/-- What a reader that has not looked at the file before would decode now. -/
def decoded (s : Session) : Table.Decoded :=
  Table.decodeBytes none s.stream.flush s.contents

/-- **What a session keeps.**  The header captured is the header of the file, and the records
handed out are the first of those that the file decodes to, as many as `emitted` counts. -/
structure Faithful (s : Session) : Prop where
  header : s.stream.header = none ∨ s.decoded.header = s.stream.header
  records : handedOut s.history <+: s.decoded.records
  emitted : s.stream.emitted = (handedOut s.history).length

theorem faithful_start (path : String) (file : Option ByteArray) : Faithful (start path file) :=
  ⟨Or.inl rfl, List.nil_prefix, rfl⟩

/-- The stream decodes the file as a reader without a header would. -/
theorem Faithful.decode {s : Session} (h : Faithful s) :
    s.stream.decode (.ok s.contents) = .ok s.decoded :=
  congrArg Except.ok (Table.decodeBytes_of_header h.header)

/-- Capturing the header of the file gives the header of the file. -/
theorem Faithful.capture {s : Session} (h : Faithful s) :
    s.stream.capture s.decoded.header = { s.stream with header := s.decoded.header } := by
  rcases h.header with hnone | hsame
  · simp [Stream.capture, hnone]
  · simp [Stream.capture, hsame]

/-- A session stays faithful if nothing is handed out and the file decodes to more. -/
theorem Faithful.of_continues {s t : Session} (h : Faithful s)
    (hheader : t.stream.header = s.stream.header)
    (hemitted : t.stream.emitted = s.stream.emitted)
    (hhistory : handedOut t.history = handedOut s.history)
    (hdecoded : s.decoded.Continues t.decoded) : Faithful t := by
  refine ⟨?_, ?_, ?_⟩
  · rw [hheader]
    cases hs : s.stream.header with
    | none => exact Or.inl rfl
    | some header =>
      have hfile : s.decoded.header = some header := by simpa [hs] using h.header
      exact Or.inr (hdecoded.header header hfile)
  · rw [hhistory]
    exact h.records.trans hdecoded.records
  · rw [hemitted, hhistory]
    exact h.emitted

/-- Appending keeps the session faithful while the writer is not declared done. -/
theorem Faithful.append {s : Session} (h : Faithful s) (hopen : s.stream.finished = false)
    (chunk : ByteArray) : Faithful (s.step (.append chunk)) := by
  have hflush : s.stream.flush = .deferred := flush_of_open hopen
  refine h.of_continues rfl rfl rfl ?_
  have hcontents : (s.step (.append chunk)).contents = s.contents ++ chunk := rfl
  have hstream : (s.step (.append chunk)).stream = s.stream := rfl
  rw [decoded, decoded, hcontents, hstream, hflush]
  exact Table.decodeBytes_continues none .deferred s.contents chunk

/-- Declaring the writer done only adds the last row, under whatever header the table is read. -/
theorem continues_finish (s : Session) (known : Option (List String)) :
    (Table.decodeBytes known s.stream.flush s.contents).Continues
      (Table.decodeBytes known .atEof s.contents) := by
  cases hs : s.stream.finished with
  | true =>
    rw [flush_of_finished hs]
    exact Table.Decoded.Continues.refl _
  | false =>
    have hcont := Table.decodeBytes_continues known .atEof s.contents .empty
    rwa [ByteArray.append_empty, ← flush_of_open hs] at hcont

/-- Declaring the writer done keeps the session faithful. -/
theorem Faithful.finish {s : Session} (h : Faithful s) : Faithful (s.step .finish) := by
  refine h.of_continues rfl rfl (by simp [step, call, perform, handedOut_concat, handedOutBy]) ?_
  exact s.continues_finish none

/-- A call that leaves the stream as it was and hands out nothing keeps the session faithful. -/
theorem Faithful.idle {s : Session} (h : Faithful s) {call : Call} (answer : Answer)
    (hperform : s.stream.perform call = (s.stream, answer))
    (hnothing : handedOutBy (call, answer) = []) : Faithful (s.call call) := by
  have hstream : (s.call call).stream = s.stream := congrArg Prod.fst hperform
  have hanswer : (s.stream.perform call).2 = answer := congrArg Prod.snd hperform
  refine h.of_continues (by rw [hstream]) (by rw [hstream]) ?_ ?_
  · simp [Session.call, handedOut_concat, hanswer, hnothing]
  · rw [decoded, decoded, hstream, call_contents]
    exact Table.Decoded.Continues.refl _

/-- Listing the records keeps the session faithful. -/
theorem Faithful.snapshot {s : Session} (h : Faithful s) (fault : Option Fault) :
    Faithful (s.step (.snapshot fault)) := by
  rcases s.reading_cases fault with ⟨fault', hread⟩ | ⟨hread, -⟩
  · rw [step, hread]
    exact h.idle (.all (.error (.ofFault s.stream.path fault')))
      (by rw [perform, snapshot_error]) rfl
  · have hstream : (s.step (.snapshot fault)).stream =
        { s.stream with header := s.decoded.header } := by
      simp only [step, hread, call, perform, snapshot_ok h.decode, h.capture]
    have hhistory : handedOut (s.step (.snapshot fault)).history = handedOut s.history := by
      simp [step, call, perform, handedOut_concat, handedOutBy]
    have hdecoded : (s.step (.snapshot fault)).decoded = s.decoded := by
      rw [decoded, hstream]
      rfl
    refine ⟨Or.inr ?_, ?_, ?_⟩
    · rw [hdecoded, hstream]
    · rw [hhistory, hdecoded]
      exact h.records
    · rw [hhistory, hstream]
      exact h.emitted

/-- **A poll that reads the file hands out the rest**: together with what was handed out before,
these are all records of the file. -/
theorem Faithful.pollNew_ok {s : Session} (h : Faithful s) {fault : Option Fault}
    (hread : s.reading fault = .ok s.contents) :
    handedOut (s.step (.pollNew fault)).history = s.decoded.records ∧
      Faithful (s.step (.pollNew fault)) := by
  obtain ⟨rest, hrest⟩ := h.records
  have hdrop : s.decoded.records.drop s.stream.emitted = rest := by
    rw [← hrest, h.emitted, List.drop_left]
  have hpoll : s.stream.pollNew (.ok s.contents) =
      { stream :=
          { s.stream with
            header := s.decoded.header
            emitted := s.stream.emitted + rest.length }
        result := .ok rest
        warnings := s.stream.headerWarnings s.decoded.header } := by
    rw [Stream.pollNew_ok h.decode, h.capture, hdrop]
  have hstream : (s.step (.pollNew fault)).stream =
      { s.stream with
        header := s.decoded.header
        emitted := s.stream.emitted + rest.length } := by
    simp only [step, hread, call, perform, hpoll]
  have hhistory : handedOut (s.step (.pollNew fault)).history = s.decoded.records := by
    simp only [step, hread, call, perform, hpoll, handedOut_concat, handedOutBy]
    exact hrest
  have hdecoded : (s.step (.pollNew fault)).decoded = s.decoded := by
    rw [decoded, hstream]
    rfl
  refine ⟨hhistory, Or.inr ?_, ?_, ?_⟩
  · rw [hdecoded, hstream]
  · rw [hdecoded]
    exact hhistory ▸ List.prefix_rfl
  · rw [hhistory, hstream, ← hrest, List.length_append, ← h.emitted]

/-- A poll keeps the session faithful, whether or not it reads the file. -/
theorem Faithful.pollNew {s : Session} (h : Faithful s) (fault : Option Fault) :
    Faithful (s.step (.pollNew fault)) := by
  rcases s.reading_cases fault with ⟨fault', hread⟩ | ⟨hread, -⟩
  · rw [step, hread]
    exact h.idle (.fresh (.error (.ofFault s.stream.path fault')))
      (by rw [perform, pollNew_error]) rfl
  · exact (h.pollNew_ok hread).2

/-- **Every event keeps the session faithful**, but for an append after `finish`. -/
theorem Faithful.step {s : Session} (h : Faithful s) (e : Event)
    (he : e.isAppend = true → s.stream.finished = false) : Faithful (s.step e) := by
  cases e with
  | append chunk => exact h.append (he rfl) chunk
  | pollNew fault => exact h.pollNew fault
  | snapshot fault => exact h.snapshot fault
  | status threshold info fault => exact h.idle _ rfl rfl
  | finish => exact h.finish

/-! ## 3. Runs -/

/-- Only `finish` declares the writer done. -/
theorem step_finished {s : Session} {e : Event} (he : e ≠ .finish) :
    (s.step e).stream.finished = s.stream.finished := by
  cases e with
  | append | status => rfl
  | finish => exact absurd rfl he
  | pollNew fault => exact pollNew_finished s.stream (s.reading fault)
  | snapshot fault => exact snapshot_finished s.stream (s.reading fault)

/-- What has been handed out is what the last poll that read the file decoded. -/
def Told (s : Session) : Prop :=
  handedOut s.history =
    (lastPolled s.history).elim [] fun contents =>
      (Table.decodeBytes none .deferred contents).records

/-- A call that is no successful poll tells nothing. -/
theorem Told.call {s : Session} (h : Told s) {call : Call}
    (hnothing : handedOutBy (call, (s.stream.perform call).2) = [])
    (hpolled : polledBy (call, (s.stream.perform call).2) = none) : Told (s.call call) := by
  have hhistory : (s.call call).history = s.history ++ [(call, (s.stream.perform call).2)] := rfl
  rw [Told, hhistory, handedOut_concat, lastPolled_concat, hnothing, hpolled, List.append_nil,
    Option.none_or]
  exact h

/-- While the writer is not declared done, every event keeps what has been told. -/
theorem Told.step {s : Session} (h : Told s) (hfaithful : Faithful s)
    (hopen : s.stream.finished = false) (e : Event) : Told (s.step e) := by
  cases e with
  | append chunk => exact h
  | pollNew fault =>
    rcases s.reading_cases fault with ⟨fault', hread⟩ | ⟨hread, -⟩
    · rw [Session.step, hread]
      exact h.call (by rw [perform, pollNew_error]; rfl) (by rw [perform, pollNew_error]; rfl)
    · have hlast : lastPolled (s.step (.pollNew fault)).history = some s.contents := by
        simp only [Session.step, hread, Session.call, perform, lastPolled_concat,
          Stream.pollNew_ok hfaithful.decode, polledBy, Option.some_or]
      have hflush : s.stream.flush = .deferred := flush_of_open hopen
      rw [Told, hlast, (hfaithful.pollNew_ok hread).1, Option.elim_some, decoded, hflush]
  | snapshot fault => exact h.call rfl (by cases s.reading fault <;> rfl)
  | status threshold info fault => exact h.call rfl rfl
  | finish => exact h.call rfl rfl

/-- The writer at work: a run without `finish` stays faithful and tells what it has polled. -/
theorem run_open {s : Session} {events : List Event} (hevents : ∀ e ∈ events, e ≠ .finish)
    (hopen : s.stream.finished = false) (hfaithful : Faithful s) (htold : Told s) :
    Faithful (s.run events) ∧ Told (s.run events) := by
  induction events generalizing s with
  | nil => exact ⟨hfaithful, htold⟩
  | cons e events ih =>
    have he : e ≠ .finish := hevents e List.mem_cons_self
    exact ih (fun e' he' => hevents e' (List.mem_cons_of_mem e he'))
      ((step_finished he).trans hopen) (hfaithful.step e fun _ => hopen)
      (htold.step hfaithful hopen e)

/-- The writer done: a run without an append stays faithful, and the last row counts. -/
theorem run_finished {s : Session} {events : List Event}
    (hevents : ∀ e ∈ events, e.isAppend = false) (hdone : s.stream.finished = true)
    (hfaithful : Faithful s) :
    Faithful (s.run events) ∧ (s.run events).stream.finished = true := by
  induction events generalizing s with
  | nil => exact ⟨hfaithful, hdone⟩
  | cons e events ih =>
    have he : e.isAppend = false := hevents e List.mem_cons_self
    refine ih (fun e' he' => hevents e' (List.mem_cons_of_mem e he')) ?_
      (hfaithful.step e fun happend => absurd happend (by simp [he]))
    by_cases hfinish : e = .finish
    · subst hfinish
      rfl
    · exact (step_finished hfinish).trans hdone

/-! ## 4. Delivery -/

/-- **Every record is handed out once.**  In a run without `finish` from a new stream, what has
been handed out is what a single deferred decode gives of the contents that the last successful
poll has read.  Once the writer is declared done and appends no more, a poll that reads the file
completes this to what a single decode of the final contents gives, the last row included. -/
theorem handedOut_once (path : String) (file : Option ByteArray) (events quiet : List Event)
    (hevents : ∀ e ∈ events, e ≠ .finish) (hquiet : ∀ e ∈ quiet, e.isAppend = false) :
    let s := (start path file).run events
    let polled := ((s.step .finish).run quiet).step (.pollNew none)
    handedOut s.history = (lastPolled s.history).elim []
        (fun contents => (Table.decodeBytes none .deferred contents).records) ∧
      s.stream.emitted = (handedOut s.history).length ∧
      ∀ contents, s.file = some contents →
        handedOut polled.history = (Table.decodeBytes none .atEof contents).records ∧
        polled.stream.emitted = (handedOut polled.history).length := by
  intro s polled
  obtain ⟨hfaithful, htold⟩ := run_open hevents rfl (faithful_start path file) rfl
  refine ⟨htold, hfaithful.emitted, fun contents hfile => ?_⟩
  obtain ⟨hquietFaithful, hdone⟩ := run_finished hquiet rfl hfaithful.finish
  have hfile' : ((s.step .finish).run quiet).file = some contents := by
    rw [run_file hquiet]
    exact hfile
  have hcontents : ((s.step .finish).run quiet).contents = contents := by
    rw [Session.contents, hfile', Option.getD_some]
  have hread : ((s.step .finish).run quiet).reading none =
      .ok ((s.step .finish).run quiet).contents := by
    rw [hcontents, reading, hfile']
  obtain ⟨hall, hfaithful'⟩ := hquietFaithful.pollNew_ok hread
  refine ⟨?_, hfaithful'.emitted⟩
  have hflush : ((s.step .finish).run quiet).stream.flush = .atEof := flush_of_finished hdone
  rw [hall, decoded, hflush, hcontents]

/-- The file is not there at first, a poll fails, an `é` and a CR LF are written in halves, and no
newline ends the last row. -/
theorem handedOut_once_of_halves :
    let events : List Event :=
      [.pollNew none, .append ⟨#[97, 10, 0xc3]⟩, .snapshot none, .pollNew (some .isDirectory),
        .append ⟨#[0xa9, 13]⟩, .pollNew none, .append ⟨#[10, 98]⟩, .pollNew none]
    let quiet : List Event := [.status 0 (.error .notFound) none]
    let s := (start "r.csv" none).run events
    let polled := ((s.step .finish).run quiet).step (.pollNew none)
    (∀ e ∈ events, e ≠ .finish) ∧ (∀ e ∈ quiet, e.isAppend = false) ∧
      handedOut s.history = [⟨[("a", "é")]⟩] ∧ s.stream.emitted = 1 ∧
      handedOut polled.history = [⟨[("a", "é")]⟩, ⟨[("a", "b")]⟩] ∧
      polled.stream.emitted = 2 := by
  intro events quiet s polled
  have hevents : ∀ e ∈ events, e ≠ .finish := by simp [events]
  have hquiet : ∀ e ∈ quiet, e.isAppend = false := by simp [quiet, Event.isAppend]
  obtain ⟨htold, hcount, hdone⟩ := handedOut_once "r.csv" none events quiet hevents hquiet
  have hlast : lastPolled s.history = some ⟨#[97, 10, 0xc3, 0xa9, 13, 10, 98]⟩ := by decide
  have hfile : s.file = some ⟨#[97, 10, 0xc3, 0xa9, 13, 10, 98]⟩ := by decide
  have hopen : handedOut s.history = [⟨[("a", "é")]⟩] := by
    rw [htold, hlast]
    decide
  obtain ⟨hall, hcount'⟩ := hdone _ hfile
  have hclosed : handedOut polled.history = [⟨[("a", "é")]⟩, ⟨[("a", "b")]⟩] := by
    rw [hall]
    decide
  refine ⟨hevents, hquiet, hopen, ?_, hclosed, ?_⟩
  · rw [hcount, hopen, List.length_singleton]
  · rw [hcount', hclosed]
    rfl

end Session
end Stream
end Collector
