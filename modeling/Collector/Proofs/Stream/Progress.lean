/-
# Reports never go back

A session is asked for reports while its writer appends, also after the writer was declared done.
No report then has fewer rows than one before it, and none falls back from `completed` to `running`
or from there to `not started` (`reports_ascend`).

The number of rows that a session stands at never drops at any event (`rowCount_step`): a later
decode has at least as many records under the same header (`Table.length_records_le`), declaring
the writer done only adds the last row, and capturing the header of the file changes nothing
(`Table.decodeBytes_capture`).  A report gives the number that the session stands at
(`report_eq`), as long as the system tells the truth about the file (`Truthful`).
-/
import Collector.Proofs.Stream.Delivery
import Collector.Proofs.Table.OpenRow

namespace Collector

/-- How far along the way from a missing file to a complete one. -/
def Progress.rank : Progress → Nat
  | .notStarted => 0
  | .running => 1
  | .completed => 2

/-- The later report has at least as many rows, and its progress is no step back. -/
structure Report.Precedes (earlier later : Report) : Prop where
  rowCount : earlier.rowCount ≤ later.rowCount
  progress : earlier.progress.rank ≤ later.progress.rank

/-! ## 1. The table under a captured header -/

/-- Once the header of a table has been captured, the table decodes as before. -/
theorem Table.decodeBytes_capture (known : Option (List String)) (flush : Flush)
    (bytes : ByteArray) :
    decodeBytes (known.or (decodeBytes known flush bytes).header) flush bytes =
      decodeBytes known flush bytes := by
  cases known with
  | none => exact decodeBytes_of_header (Or.inr rfl)
  | some header => rfl

theorem Table.decodeBytes_empty (known : Option (List String)) (flush : Flush) :
    decodeBytes known flush .empty = {} := by
  cases flush with
  | atEof | deferred => rfl

namespace Stream

/-- The report that a call has given, if it has given one. -/
def reportedBy : Call × Answer → Option Report
  | (_, .report (.ok report)) => some report
  | _ => none

/-- All reports given, in the order in which they were. -/
def reports (history : History) : List Report :=
  history.filterMap reportedBy

theorem reports_concat (history : History) (entry : Call × Answer) :
    reports (history ++ [entry]) = reports history ++ (reportedBy entry).toList := by
  unfold reports
  cases h : reportedBy entry <;> simp [List.filterMap_append, h]

/-- Rows that cannot be read are not counted, unless there is no file to read them from. -/
theorem rowCount_of_fault (s : Stream) {fault : Fault} (h : fault ≠ .notFound) :
    s.rowCount (.error fault) = .error (.failed s.path fault) := by
  cases fault with
  | notFound => exact absurd rfl h
  | isDirectory | notDirectory | nameTooLong | alreadyExists | nulInPath | other => rfl

namespace Session

/-! ## 2. What a session stands at -/

/-- The number of records that the stream would decode now. -/
def rowCount (s : Session) : Nat :=
  (Table.decodeBytes s.stream.header s.stream.flush s.contents).records.length

/-- The writer is done, or there are rows enough. -/
def complete (s : Session) (threshold : Nat) : Bool :=
  s.stream.finished || threshold ≤ s.rowCount

/-- How far the collection is now. -/
def progress (s : Session) (threshold : Nat) : Progress :=
  match s.file with
  | none => .notStarted
  | some _ => if s.complete threshold then .completed else .running

/-- The number of records that `snapshot` would list now; none while there is no file. -/
def listed (s : Session) : Nat :=
  match (s.stream.snapshot (s.reading none)).result with
  | .ok records => records.length
  | .error _ => 0

theorem rowCount_of_no_file {s : Session} (h : s.file = none) : s.rowCount = 0 := by
  have hcontents : s.contents = .empty := by rw [contents, h, Option.getD_none]
  rw [rowCount, hcontents, Table.decodeBytes_empty]
  rfl

theorem listed_eq (s : Session) : s.listed = s.rowCount := by
  unfold listed
  cases hfile : s.file with
  | none =>
    have hread : s.reading none = .error .notFound := by rw [reading, hfile]
    rw [hread, snapshot_error, rowCount_of_no_file hfile]
  | some bytes =>
    have hread : s.reading none = .ok s.contents := by
      rw [reading, hfile, contents, hfile, Option.getD_some]
    rw [hread]
    rfl

/-- Capturing the header of the file does not change the number of rows. -/
theorem rowCount_of_capture {s t : Session} (hcontents : t.contents = s.contents)
    (hflush : t.stream.flush = s.stream.flush)
    (hheader : t.stream.header = s.stream.header.or
      (Table.decodeBytes s.stream.header s.stream.flush s.contents).header) :
    t.rowCount = s.rowCount := by
  rw [rowCount, hcontents, hflush, hheader, Table.decodeBytes_capture, rowCount]

/-- **The number of rows never drops**, whatever is appended and called, and in what order. -/
theorem rowCount_step (s : Session) (e : Event) : s.rowCount ≤ (s.step e).rowCount := by
  cases e with
  | append chunk => exact Table.length_records_le s.stream.header s.stream.flush s.contents chunk
  | status threshold info fault => exact Nat.le_refl _
  | finish => exact (s.continues_finish s.stream.header).records.length_le
  | snapshot fault =>
    rcases s.reading_cases fault with ⟨fault', hread⟩ | ⟨hread, -⟩
    · rw [step, hread]
      exact Nat.le_refl _
    · have hsame : (s.call (.snapshot (.ok s.contents))).rowCount = s.rowCount :=
        rowCount_of_capture rfl rfl rfl
      rw [step, hread]
      exact Nat.le_of_eq hsame.symm
  | pollNew fault =>
    rcases s.reading_cases fault with ⟨fault', hread⟩ | ⟨hread, -⟩
    · rw [step, hread]
      exact Nat.le_refl _
    · have hsame : (s.call (.pollNew (.ok s.contents))).rowCount = s.rowCount :=
        rowCount_of_capture rfl rfl rfl
      rw [step, hread]
      exact Nat.le_of_eq hsame.symm

/-- A file that is there stays. -/
theorem isSome_file_step {s : Session} (h : s.file.isSome) (e : Event) :
    (s.step e).file.isSome := by
  cases e with
  | append chunk => rfl
  | pollNew | snapshot | status | finish => exact h

/-- A writer that was declared done stays so. -/
theorem finished_step {s : Session} (h : s.stream.finished = true) (e : Event) :
    (s.step e).stream.finished = true := by
  by_cases he : e = .finish
  · rw [he]
    rfl
  · rw [step_finished he, h]

/-- A collection that is complete stays so. -/
theorem complete_step {s : Session} {threshold : Nat} (h : s.complete threshold = true)
    (e : Event) : (s.step e).complete threshold = true := by
  rw [complete, Bool.or_eq_true, decide_eq_true_iff] at h ⊢
  rcases h with h | h
  · exact Or.inl (finished_step h e)
  · exact Or.inr (Nat.le_trans h (rowCount_step s e))

/-- **Progress never goes back.** -/
theorem rank_progress_step (s : Session) (threshold : Nat) (e : Event) :
    (s.progress threshold).rank ≤ ((s.step e).progress threshold).rank := by
  cases hfile : s.file with
  | none =>
    rw [progress, hfile]
    exact Nat.zero_le _
  | some bytes =>
    have hthere : s.file.isSome := by rw [hfile, Option.isSome_some]
    obtain ⟨bytes', hfile'⟩ := Option.isSome_iff_exists.mp (isSome_file_step hthere e)
    rw [progress, progress, hfile, hfile']
    cases hdone : s.complete threshold with
    | true => simp only [complete_step hdone e, if_true, Nat.le_refl]
    | false =>
      cases (s.step e).complete threshold with
      | true => exact Nat.le_succ 1
      | false => exact Nat.le_refl 1

/-! ## 3. Reports -/

/-- The event asks for reports with this threshold only, and the system tells the truth about the
file: looking it up and reading it find nothing only if it is not there. -/
def Truthful (threshold : Nat) (s : Session) : Event → Prop
  | .status asked info fault =>
    asked = threshold ∧ (info = .error .notFound ↔ s.file = none) ∧ fault ≠ some .notFound
  | _ => True

/-- All events of a run are truthful when they happen. -/
def TruthfulRun (threshold : Nat) : Session → List Event → Prop
  | _, [] => True
  | s, e :: events => Truthful threshold s e ∧ TruthfulRun threshold (s.step e) events

/-- **A report says what the session stands at.** -/
theorem report_eq {threshold : Nat} {s : Session} {info : Except Fault FileInfo}
    {fault : Option Fault} {report : Report}
    (htruth : Truthful threshold s (.status threshold info fault))
    (h : s.stream.status threshold info (s.reading fault) = .ok report) :
    report.rowCount = s.rowCount ∧ report.progress = s.progress threshold := by
  obtain ⟨-, hinfo, hfault⟩ := htruth
  cases hfile : s.file with
  | none =>
    obtain rfl := hinfo.mpr hfile
    obtain rfl := Except.ok.inj h
    rw [rowCount_of_no_file hfile, progress, hfile]
    exact ⟨rfl, rfl⟩
  | some bytes =>
    have hcontents : s.contents = bytes := by rw [contents, hfile, Option.getD_some]
    have hthere : info ≠ .error .notFound := fun hnone => by
      rw [hinfo.mp hnone] at hfile
      cases hfile
    unfold Stream.status at h
    split at h
    · exact absurd rfl hthere
    · cases h
    · cases fault with
      | some fault' =>
        have hother : fault' ≠ .notFound := fun heq => hfault (congrArg some heq)
        rw [reading, rowCount_of_fault s.stream hother] at h
        cases h
      | none =>
        have hread : s.reading none = .ok s.contents := by rw [reading, hfile, hcontents]
        rw [hread] at h
        obtain rfl := Except.ok.inj h
        rw [progress, hfile]
        exact ⟨rfl, rfl⟩

/-- A report is given whenever the system finds the file, or there is none. -/
theorem exists_report (s : Session) (threshold : Nat) (found : FileInfo) :
    ∃ report, s.stream.status threshold
      (if s.file = none then .error .notFound else .ok found) (s.reading none) = .ok report := by
  cases hfile : s.file with
  | none => exact ⟨_, rfl⟩
  | some bytes =>
    have hread : s.reading none = .ok bytes := by rw [reading, hfile]
    rw [hread]
    exact ⟨_, rfl⟩

/-! ## 4. Runs -/

/-- The reports of a session ascend, up to what it stands at. -/
structure Ascending (threshold : Nat) (s : Session) : Prop where
  pairwise : (reports s.history).Pairwise Report.Precedes
  rowCount : ∀ report ∈ reports s.history, report.rowCount ≤ s.rowCount
  progress : ∀ report ∈ reports s.history,
    report.progress.rank ≤ (s.progress threshold).rank

/-- An event that gives no report keeps the reports ascending. -/
theorem Ascending.of_reports_eq {threshold : Nat} {s : Session} (h : Ascending threshold s)
    {e : Event} (hreports : reports (s.step e).history = reports s.history) :
    Ascending threshold (s.step e) := by
  refine ⟨hreports ▸ h.pairwise, fun report hreport => ?_, fun report hreport => ?_⟩
  · rw [hreports] at hreport
    exact Nat.le_trans (h.rowCount report hreport) (rowCount_step s e)
  · rw [hreports] at hreport
    exact Nat.le_trans (h.progress report hreport) (rank_progress_step s threshold e)

/-- **Every truthful event keeps the reports ascending.** -/
theorem Ascending.step {threshold : Nat} {s : Session} (h : Ascending threshold s) {e : Event}
    (he : Truthful threshold s e) : Ascending threshold (s.step e) := by
  cases e with
  | append chunk => exact h.of_reports_eq rfl
  | pollNew | snapshot | finish =>
    exact h.of_reports_eq ((reports_concat s.history _).trans (List.append_nil _))
  | status asked info fault =>
    obtain rfl : asked = threshold := he.1
    cases hstatus : s.stream.status asked info (s.reading fault) with
    | error e =>
      refine h.of_reports_eq ((reports_concat s.history _).trans ?_)
      rw [perform, hstatus]
      exact List.append_nil _
    | ok report =>
      obtain ⟨hcount, hprogress⟩ := report_eq he hstatus
      have hreports : reports (s.step (.status asked info fault)).history =
          reports s.history ++ [report] := by
        refine (reports_concat s.history _).trans ?_
        rw [perform, hstatus]
        rfl
      refine ⟨?_, fun earlier hearlier => ?_, fun earlier hearlier => ?_⟩
      · rw [hreports, List.pairwise_append]
        refine ⟨h.pairwise, List.pairwise_singleton _ _, fun earlier hearlier later hlater => ?_⟩
        obtain rfl := List.mem_singleton.mp hlater
        exact ⟨hcount ▸ h.rowCount earlier hearlier, hprogress ▸ h.progress earlier hearlier⟩
      · rw [hreports] at hearlier
        rcases List.mem_append.mp hearlier with hold | hnew
        · exact h.rowCount earlier hold
        · rw [List.mem_singleton.mp hnew]
          exact Nat.le_of_eq hcount
      · rw [hreports] at hearlier
        rcases List.mem_append.mp hearlier with hold | hnew
        · exact h.progress earlier hold
        · rw [List.mem_singleton.mp hnew, hprogress]
          exact Nat.le_refl _

theorem Ascending.run {threshold : Nat} {s : Session} (h : Ascending threshold s)
    {events : List Event} (hevents : TruthfulRun threshold s events) :
    Ascending threshold (s.run events) := by
  induction events generalizing s with
  | nil => exact h
  | cons e events ih => exact ih (h.step hevents.1) hevents.2

/-- **Reports never go back.**  Whatever is appended and called, and whenever the writer is declared
done, no report has fewer rows or less progress than one before it.  A report can be had at any
moment, and its rows are as many as `snapshot` would list then, none while there is no file. -/
theorem reports_ascend (path : String) (file : Option ByteArray) (threshold : Nat)
    (events : List Event) (hevents : TruthfulRun threshold (start path file) events) :
    let s := (start path file).run events
    (reports s.history).Pairwise (fun earlier later =>
        earlier.rowCount ≤ later.rowCount ∧
          earlier.progress.rank ≤ later.progress.rank) ∧
      (∀ info fault report, Truthful threshold s (.status threshold info fault) →
        s.stream.status threshold info (s.reading fault) = .ok report →
        report.rowCount = s.listed) ∧
      ∀ found, ∃ report, s.stream.status threshold
        (if s.file = none then .error .notFound else .ok found) (s.reading none) =
          .ok report := by
  intro s
  have hstart : Ascending threshold (start path file) := ⟨List.Pairwise.nil, nofun, nofun⟩
  have hascending : Ascending threshold s := hstart.run hevents
  refine ⟨?_, fun info fault report htruth hreport => ?_, exists_report s threshold⟩
  · exact hascending.pairwise.imp fun h => ⟨h.rowCount, h.progress⟩
  · rw [listed_eq]
    exact (report_eq htruth hreport).1

/-- The file is not there at first; the writer is declared done in the middle of the header, which
is then captured, and goes on: an open row has its CR, its LF and its second value still to come. -/
theorem reports_ascend_after_finish :
    let there : Event := .status 2 (.ok ⟨0, 0, false⟩) none
    let events : List Event :=
      [.status 2 (.error .notFound) none, .append ⟨#[97]⟩, there, .finish, .snapshot none, there,
        .append ⟨#[44, 98, 10, 49, 13]⟩, there, .append ⟨#[10, 0xc3]⟩, there,
        .append ⟨#[0xa9, 44, 50]⟩, there]
    let s := (start "r.csv" none).run events
    TruthfulRun 2 (start "r.csv" none) events ∧
      (reports s.history).map (·.rowCount) = [0, 0, 0, 1, 2, 2] ∧
      (reports s.history).Pairwise fun earlier later =>
        earlier.rowCount ≤ later.rowCount ∧
          earlier.progress.rank ≤ later.progress.rank := by
  intro there events s
  have hevents : TruthfulRun 2 (start "r.csv" none) events := by
    simp [TruthfulRun, Truthful, events, there, step, call, start]
  exact ⟨hevents, by decide, (reports_ascend "r.csv" none 2 events hevents).1⟩

end Session
end Stream
end Collector
