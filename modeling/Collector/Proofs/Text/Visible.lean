/-
# Compact texts are lines

Records are printed on a line each, whatever their columns and values hold.  That a reader can take
the output apart line by line rests on how strings are escaped: a compact text holds no control
character at all (`compactChars_visible`), so a line end can only be the one that follows it, and
there are as many lines as records (`count_lines`).
-/
import Collector.Table.Record
import Mathlib.Tactic.SplitIfs

namespace Collector

/-- The character is none of the 32 control characters at the start of the code. -/
def Visible (c : Char) : Prop :=
  0x20 ≤ c.toNat

instance (c : Char) : Decidable (Visible c) :=
  Nat.decLe 0x20 c.toNat

/-- All characters of the text are visible. -/
def VisibleText (t : List Char) : Prop :=
  ∀ c ∈ t, Visible c

instance (t : List Char) : Decidable (VisibleText t) :=
  List.decidableBAll Visible t

namespace VisibleText

theorem nil : VisibleText [] := fun _ hc => absurd hc List.not_mem_nil

theorem append {u v : List Char} (hu : VisibleText u) (hv : VisibleText v) :
    VisibleText (u ++ v) := by
  intro c hc
  rcases List.mem_append.mp hc with h | h
  · exact hu c h
  · exact hv c h

theorem cons {c : Char} {t : List Char} (hc : Visible c) (ht : VisibleText t) :
    VisibleText (c :: t) := by
  intro d hd
  rcases List.mem_cons.mp hd with rfl | h
  · exact hc
  · exact ht d h

theorem intercalate {separator : List Char} (hseparator : VisibleText separator)
    {texts : List (List Char)} (htexts : ∀ t ∈ texts, VisibleText t) :
    VisibleText (separator.intercalate texts) := by
  induction texts with
  | nil => exact fun c hc => absurd hc List.not_mem_nil
  | cons t rest ih =>
    have ht : VisibleText t := htexts t List.mem_cons_self
    have hrest := ih fun t' ht' => htexts t' (List.mem_cons_of_mem t ht')
    cases rest with
    | nil => rwa [List.intercalate_singleton]
    | cons t' rest =>
      rw [List.intercalate_cons_cons]
      exact (ht.append hseparator).append hrest

theorem newline_not_mem {t : List Char} (h : VisibleText t) : '\n' ∉ t :=
  fun hmem => absurd (h _ hmem) (by decide)

end VisibleText

namespace Json

theorem hexDigit_visible {n : Nat} (h : n < 16) : Visible (hexDigit n) := by
  have hall : ∀ n < 16, Visible (hexDigit n) := by decide
  exact hall n h

/-- Every control character is written by a letter or by its number. -/
theorem escapeChar_visible (c : Char) : VisibleText (escapeChar c) := by
  unfold escapeChar
  split_ifs with hmark hbackslash hlf hcr htab hbackspace hfeed hcontrol
  · decide
  · decide
  · decide
  · decide
  · decide
  · decide
  · decide
  · have hhigh : Visible (hexDigit (c.toNat / 16)) := hexDigit_visible (by omega)
    have hlow : Visible (hexDigit (c.toNat % 16)) := hexDigit_visible (by omega)
    have hfront : VisibleText ['\\', 'u', '0', '0'] := by decide
    exact hfront.append (.cons hhigh (.cons hlow .nil))
  · exact .cons (Nat.le_of_not_lt hcontrol) .nil

theorem quote_visible (s : String) : VisibleText (quote s) := by
  have hmark : Visible '"' := by decide
  refine (VisibleText.cons hmark ?_).append (.cons hmark .nil)
  intro c hc
  obtain ⟨d, -, hd⟩ := List.mem_flatMap.mp hc
  exact escapeChar_visible d c hd

theorem toDigits_visible (n : Nat) : VisibleText (Nat.toDigits 10 n) := by
  intro c hc
  have hdigit : c.isDigit = true := Nat.isDigit_of_mem_toDigits (by decide) (by decide) hc
  simp only [Char.isDigit, Bool.and_eq_true, decide_eq_true_eq] at hdigit
  have hzero : 48 ≤ c.toNat := hdigit.1
  exact Nat.le_trans (by decide) hzero

theorem comma_visible : VisibleText [','] := by decide

mutual

/-- **A compact text holds no control character.** -/
theorem compactChars_visible : (value : Json) → VisibleText value.compactChars
  | .null => by decide
  | .bool true => by decide
  | .bool false => by decide
  | .num n => toDigits_visible n
  | .str s => quote_visible s
  | .arr items => by
    have hitems := comma_visible.intercalate (compactItems_visible items)
    exact (VisibleText.cons (by decide) hitems).append (by decide)
  | .obj members => by
    have hmembers := comma_visible.intercalate (compactMembers_visible members)
    exact (VisibleText.cons (by decide) hmembers).append (by decide)

theorem compactItems_visible : (items : List Json) → ∀ t ∈ compactItems items, VisibleText t
  | [] => fun t ht => absurd ht List.not_mem_nil
  | item :: rest => by
    intro t ht
    rcases List.mem_cons.mp ht with rfl | h
    · exact compactChars_visible item
    · exact compactItems_visible rest t h

theorem compactMembers_visible :
    (members : List (String × Json)) → ∀ t ∈ compactMembers members, VisibleText t
  | [] => fun t ht => absurd ht List.not_mem_nil
  | (name, value) :: rest => by
    intro t ht
    rcases List.mem_cons.mp ht with rfl | h
    · exact (quote_visible name).append (.cons (by decide) (compactChars_visible value))
    · exact compactMembers_visible rest t h

end

end Json

namespace Record

/-- A record takes one line. -/
theorem count_line (record : Record) : record.line.toList.count '\n' = 1 := by
  have hcompact : record.json.compact.toList.count '\n' = 0 := by
    rw [Json.compact, String.toList_ofList]
    exact List.count_eq_zero_of_not_mem (Json.compactChars_visible record.json).newline_not_mem
  rw [line, String.toList_append, List.count_append, hcompact]
  rfl

/-- **There are as many lines as records.** -/
theorem count_lines (records : List Record) :
    (lines records).toList.count '\n' = records.length := by
  induction records with
  | nil => rfl
  | cons record records ih =>
    have hlines : (lines (record :: records)).toList =
        record.line.toList ++ (lines records).toList := by
      simp [lines, String.toList_join]
    rw [hlines, List.count_append, count_line, ih, List.length_cons, Nat.add_comm]

end Record
end Collector
