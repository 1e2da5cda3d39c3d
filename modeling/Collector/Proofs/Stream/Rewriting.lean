/-
# A stream on a file that anyone may change

Between two calls on a stream its file may be appended to, overwritten, cut off, deleted or
replaced by a directory.  Nothing is assumed of it here: every call comes with what reading the
path gives at that moment, and this may be anything.  A stream still gives two guarantees.

* The header is captured once.  From then on all records, those listed and those handed out, have
  its columns (`header_after`, `columns_of_listed`).
* `emitted` counts the records handed out, and a poll hands out what its decode has got from that
  place on (`emitted_after`, `handedOut_pollNew`).  A file with fewer records than have been
  handed out gives none.

Both are read off the four things that a call can do (`perform_cases`).
-/
import Collector.Proofs.Stream.Delivery

namespace Collector

/-! ## 1. The columns of decoded records -/

/-- All records of a table have the columns of the header that it is read under: the one known
before or else the table's own. -/
theorem Table.columns_of_mem_decodeBytes {known : Option (List String)} {flush : Flush}
    {bytes : ByteArray} {record : Record} (h : record ∈ (decodeBytes known flush bytes).records) :
    known.or (decodeBytes known flush bytes).header = some record.columns := by
  rw [decodeBytes_eq] at h ⊢
  cases hrows : rows flush (linesOf bytes) with
  | nil =>
    rw [hrows] at h
    exact absurd h List.not_mem_nil
  | cons own later =>
    rw [hrows] at h
    obtain ⟨row, hrow, rfl⟩ := List.mem_map.mp h
    have hlength : (known.getD own).length ≤ row.length := by
      simpa using (List.mem_filter.mp hrow).2
    rw [Record.columns_ofRow hlength]
    cases known with
    | none | some => rfl

namespace Stream

/-! ## 2. What a call can do -/

/-- The records that an answer lists or hands out.  None if the call has failed, and if it was one
that gives no records. -/
def Answer.records? : Answer → Option (List Record)
  | .fresh (.ok records) | .all (.ok records) => some records
  | _ => none

theorem perform_snapshot_ok (s : Stream) (contents : ByteArray) :
    let decoded := Table.decodeBytes s.header s.flush contents
    s.perform (.snapshot (.ok contents)) =
      (s.capture decoded.header, .all (.ok decoded.records)) := by
  intro decoded
  simp only [perform, snapshot_ok (rfl : s.decode (.ok contents) = .ok decoded)]
  rfl

theorem perform_pollNew_ok (s : Stream) (contents : ByteArray) :
    let decoded := Table.decodeBytes s.header s.flush contents
    let fresh := decoded.records.drop s.emitted
    s.perform (.pollNew (.ok contents)) =
      ({ s.capture decoded.header with emitted := s.emitted + fresh.length },
        .fresh (.ok fresh)) := by
  intro decoded fresh
  simp only [perform, pollNew_ok (rfl : s.decode (.ok contents) = .ok decoded)]
  rfl

/-- A call leaves the stream as it was and gives no records, or declares the writer done, or reads
the file: to list its records or to hand out the new ones. -/
theorem perform_cases (s : Stream) (call : Call) :
    ((s.perform call).1 = s ∧ (s.perform call).2.records? = none ∧
        handedOutBy (call, (s.perform call).2) = []) ∨
      call = .finish ∨ (∃ contents, call = .snapshot (.ok contents)) ∨
        ∃ contents, call = .pollNew (.ok contents) := by
  cases call with
  | finish => exact Or.inr (Or.inl rfl)
  | status threshold info reading => exact Or.inl ⟨rfl, rfl, rfl⟩
  | snapshot reading =>
    cases reading with
    | error fault => exact Or.inl ⟨rfl, rfl, rfl⟩
    | ok contents => exact Or.inr (Or.inr (Or.inl ⟨contents, rfl⟩))
  | pollNew reading =>
    cases reading with
    | error fault => exact Or.inl ⟨rfl, rfl, rfl⟩
    | ok contents => exact Or.inr (Or.inr (Or.inr ⟨contents, rfl⟩))

/-- A header that has been captured stays. -/
theorem header_perform {s : Stream} {header : List String} (h : s.header = some header)
    (call : Call) : (s.perform call).1.header = some header := by
  have hcapture (found : Option (List String)) : (s.capture found).header = some header := by
    rw [capture, h, Option.some_or]
  rcases s.perform_cases call with ⟨hsame, -, -⟩ | rfl | ⟨contents, rfl⟩ | ⟨contents, rfl⟩
  · rw [hsame, h]
  · exact h
  · rw [perform_snapshot_ok]
    exact hcapture _
  · rw [perform_pollNew_ok]
    exact hcapture _

/-- `emitted` grows by what is handed out. -/
theorem emitted_perform (s : Stream) (call : Call) :
    (s.perform call).1.emitted =
      s.emitted + (handedOutBy (call, (s.perform call).2)).length := by
  rcases s.perform_cases call with ⟨hsame, -, hnothing⟩ | rfl | ⟨contents, rfl⟩ | ⟨contents, rfl⟩
  · rw [hsame, hnothing, List.length_nil, Nat.add_zero]
  · rfl
  · rw [perform_snapshot_ok]
    rfl
  · rw [perform_pollNew_ok]
    rfl

/-- A call that gives records has a header captured, if none was before, and its columns are those
of all of them. -/
theorem columns_of_listed {s : Stream} {call : Call} {records : List Record}
    (h : (s.perform call).2.records? = some records) {record : Record}
    (hrecord : record ∈ records) : (s.perform call).1.header = some record.columns := by
  rcases s.perform_cases call with ⟨-, hnone, -⟩ | rfl | ⟨contents, rfl⟩ | ⟨contents, rfl⟩
  · rw [hnone] at h
    exact absurd h nofun
  · exact absurd h nofun
  · rw [perform_snapshot_ok] at h ⊢
    obtain rfl := Option.some.inj h
    exact Table.columns_of_mem_decodeBytes hrecord
  · rw [perform_pollNew_ok] at h ⊢
    obtain rfl := Option.some.inj h
    exact Table.columns_of_mem_decodeBytes (List.mem_of_mem_drop hrecord)

/-! ## 3. Any number of calls -/

/-- The stream after some calls, the first one first. -/
def after (s : Stream) (calls : List Call) : Stream :=
  calls.foldl (fun s call => (s.perform call).1) s

/-- Some calls with their answers. -/
def answered (s : Stream) : List Call → History
  | [] => []
  | call :: calls => (call, (s.perform call).2) :: (s.perform call).1.answered calls

theorem answered_concat (s : Stream) (calls : List Call) (call : Call) :
    s.answered (calls ++ [call]) =
      s.answered calls ++ [(call, ((s.after calls).perform call).2)] := by
  induction calls generalizing s with
  | nil => rfl
  | cons first calls ih => exact congrArg (_ :: ·) (ih (s.perform first).1)

/-- A header that has been captured stays, whatever is called. -/
theorem header_after {s : Stream} {header : List String} (h : s.header = some header)
    (calls : List Call) : (s.after calls).header = some header := by
  induction calls generalizing s with
  | nil => exact h
  | cons call calls ih => exact ih (header_perform h call)

/-- **`emitted` counts what is handed out.** -/
theorem emitted_after (s : Stream) (calls : List Call) :
    (s.after calls).emitted = s.emitted + (handedOut (s.answered calls)).length := by
  induction calls generalizing s with
  | nil => rfl
  | cons call calls ih =>
    have hhanded : handedOut (s.answered (call :: calls)) =
        handedOutBy (call, (s.perform call).2) ++
          handedOut ((s.perform call).1.answered calls) := List.flatMap_cons
    have hafter : s.after (call :: calls) = (s.perform call).1.after calls := rfl
    rw [hafter, ih, emitted_perform, hhanded, List.length_append, Nat.add_assoc]

/-- **A poll hands out records at their places.**  From a stream that has handed out nothing, the
record that a poll hands out as number `j` is the record at `j` of what this poll has decoded. -/
theorem handedOut_pollNew {s : Stream} (h : s.emitted = 0) (calls : List Call)
    (contents : ByteArray) {j : Nat} (hj : (s.after calls).emitted ≤ j) :
    (handedOut (s.answered (calls ++ [.pollNew (.ok contents)])))[j]? =
      (Table.decodeBytes (s.after calls).header (s.after calls).flush contents).records[j]? := by
  have hcount : (s.after calls).emitted = (handedOut (s.answered calls)).length := by
    rw [emitted_after, h, Nat.zero_add]
  rw [answered_concat, handedOut_concat, perform_pollNew_ok]
  rw [List.getElem?_append_right (hcount ▸ hj), ← hcount, handedOutBy, List.getElem?_drop,
    Nat.add_sub_cancel' hj]

/-- **What a stream keeps, whatever becomes of its file.**  Take any calls on a new stream, one of
them in the middle.  A header captured before it is still there in the end; all records that it
gives have the columns of the header that is there in the end.  `emitted` never decreases and counts
what was handed out; a poll that reads the file hands out the records of its decode from there on,
each at its place.  A call that fails, and one that only reports, leaves the stream as it was. -/
theorem calls_keep_header_and_count (path : String) (before later : List Call) (call : Call) :
    let fresh : Stream := { path }
    let s := fresh.after before
    let next := (s.perform call).1
    let answer := (s.perform call).2
    let last := next.after later
    (∀ header, s.header = some header → last.header = some header) ∧
      (∀ records, answer.records? = some records →
        ∀ record ∈ records, last.header = some record.columns) ∧
      s.emitted = (handedOut (fresh.answered before)).length ∧
      s.emitted ≤ next.emitted ∧ next.emitted ≤ last.emitted ∧
      (∀ contents, call = .pollNew (.ok contents) →
        let decoded := Table.decodeBytes s.header s.flush contents
        answer = .fresh (.ok (decoded.records.drop s.emitted)) ∧
          ∀ j, s.emitted ≤ j →
            (handedOut (fresh.answered (before ++ [call])))[j]? = decoded.records[j]?) ∧
      (answer.records? = none → call ≠ .finish → next = s) := by
  intro fresh s next answer last
  refine ⟨?_, ?_, ?_, ?_, ?_, ?_, ?_⟩
  · intro header hheader
    exact header_after (header_perform hheader call) later
  · intro records hrecords record hrecord
    exact header_after (columns_of_listed hrecords hrecord) later
  · rw [emitted_after fresh before, Nat.zero_add]
  · rw [emitted_perform s call]
    exact Nat.le_add_right _ _
  · rw [emitted_after next later]
    exact Nat.le_add_right _ _
  · rintro contents rfl decoded
    refine ⟨?_, fun j hj => handedOut_pollNew rfl before contents hj⟩
    exact congrArg Prod.snd (perform_pollNew_ok s contents)
  · intro hnone hfinish
    rcases s.perform_cases call with ⟨hsame, -, -⟩ | rfl | ⟨contents, rfl⟩ | ⟨contents, rfl⟩
    · exact hsame
    · exact absurd rfl hfinish
    · exact absurd hnone (by simp [answer, perform_snapshot_ok, Answer.records?])
    · exact absurd hnone (by simp [answer, perform_pollNew_ok, Answer.records?])

end Stream
end Collector
