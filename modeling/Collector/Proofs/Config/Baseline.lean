/-
# The baseline date of a configuration

A configuration is accepted with its baseline date in any spelling (`problem?_withBaseline`), and a
feed document has the date as it was spelled, beside the last day as dates are written.  So the two
are of one form exactly if the baseline is spelled in full (`accepted_baseline`).
-/
import Collector.Proofs.Calendar.Spelling
import Collector.Proofs.Compile.Dialects

namespace Collector
namespace Config

open Calendar (Spelling)

/-- The same configuration with another baseline date. -/
def withBaseline (config : Config) (baselineDate : String) : Config :=
  { config with feed := { config.feed with baselineDate } }

variable {config : Config}

theorem problem?_eq_none_iff :
    config.problem? = none ↔
      (∃ date, Date.read? config.feed.baselineDate = some date) ∧
        config.decoder.pollIntervalSecs ≠ 0 ∧
        config.forum.subreddits.any Text.allBlank = false := by
  unfold problem?
  cases hdate : Date.read? config.feed.baselineDate with
  | none => simp
  | some date =>
    by_cases hpoll : config.decoder.pollIntervalSecs = 0
    · simp [hpoll]
    · simp [hpoll, -List.any_eq_true, -List.any_eq_false]

/-- Whether the baseline date is accepted hangs on nothing else, and nothing else on it. -/
theorem problem?_withBaseline (h : config.problem? = none) {s : Spelling} {date : Date}
    (hnames : s.Names date) :
    (config.withBaseline (String.ofList s.text)).problem? = none := by
  obtain ⟨-, hothers⟩ := problem?_eq_none_iff.mp h
  refine problem?_eq_none_iff.mpr ⟨⟨date, ?_⟩, hothers⟩
  exact Calendar.read?_eq_some_iff.mpr ⟨s, String.toList_ofList.symm, hnames⟩

/-- **What is accepted as a baseline date.**  It spells a date, and every spelling of a date would
be accepted as well.  Whether it is how some date is written is the same as whether it is spelled in
full.

The feed document of a search that does not cover all time has the date as it is spelled, and its
other date as dates are written. -/
theorem accepted_baseline (config : Config) (h : config.problem? = none) :
    ∃ (s : Spelling) (date : Date), s.text = config.feed.baselineDate.toList ∧ s.Names date ∧
      ((∃ other : Date, config.feed.baselineDate = other.format) ↔ s.Full) ∧
      (∀ (t : Spelling) (other : Date), t.Names other →
        (config.withBaseline (String.ofList t.text)).problem? = none) ∧
      ∀ text request feed, .feed feed ∈ (compile text config request).documents →
        request.allTime.getD config.feed.searchAllTime = false →
        feed.fromDate = some config.feed.baselineDate ∧
          feed.toDate = some request.today.format := by
  obtain ⟨⟨date, hread⟩, -⟩ := problem?_eq_none_iff.mp h
  obtain ⟨s, htext, hnames⟩ := Calendar.exists_spelling hread
  refine ⟨s, date, htext, hnames, Spelling.format_iff_full htext hnames, ?_, ?_⟩
  · intro t other hother
    exact problem?_withBaseline h hother
  · intro text request feed hfeed hspan
    rw [feed_of_mem text config request hfeed, hspan]
    constructor
    · rfl
    · rfl

/-- A month may have one digit, and a blank in front. -/
theorem accepted_baseline_blank :
    let config : Config := { feed := { baselineDate := "2024- 2-29" } }
    config.problem? = none ∧
      ∃ (s : Spelling) (date : Date), s.text = "2024- 2-29".toList ∧ s.Names date ∧
        ((∃ other : Date, "2024- 2-29" = other.format) ↔ s.Full) := by
  intro config
  have hnone : config.problem? = none := by decide
  obtain ⟨s, date, htext, hnames, hfull, -⟩ := accepted_baseline config hnone
  exact ⟨hnone, s, date, htext, hnames, hfull⟩

/-- A baseline date with one digit for month and day is accepted and handed on, though no date is
written so. -/
theorem short_baseline :
    let config : Config := { feed := { baselineDate := "2023-1-1" } }
    let today : Date := ⟨2024, 2, 3, by decide⟩
    config.problem? = none ∧ (¬ ∃ date : Date, config.feed.baselineDate = date.format) ∧
      ∃ feed, .feed feed ∈ (compile "wheat" config { today }).documents ∧
        feed.fromDate = some "2023-1-1" ∧ feed.toDate = some "2024-02-03" := by
  intro config today
  refine ⟨by decide, ?_, ?_⟩
  · rintro ⟨date, hformat⟩
    have hlength := (Spelling.full_ofDate date).length_le
    rw [Spelling.text_ofDate, ← hformat] at hlength
    exact absurd hlength (by decide)
  · refine ⟨(parse "wheat").feedQuery config.feed false today, ?_, rfl, by decide⟩
    exact (mem_documents "wheat" config { today }).mpr ⟨.feed, by decide, rfl⟩

end Config
end Collector
