/-
# Lines of a TOML file are read back

A file of sections is read as the statements that it has been written from (`statements?_write`): a
header for each section and an assignment for each of its settings, in order.  All names are bare,
so that a name ends with the first blank or bracket.

The reader takes a step for each line.  A line is longer than one character and longer than its
value, so the length of the text is enough for both the lines and their values.
-/
import Collector.Proofs.Toml.Values

namespace Collector
namespace Toml

/-! ## 1. Names -/

/-- A name that is written without marks. -/
structure IsBareName (name : String) : Prop where
  nonempty : name.toList ≠ []
  bare (c : Char) (hc : c ∈ name.toList) : isBare c = true

instance (name : String) : Decidable (IsBareName name) :=
  decidable_of_iff (name.toList ≠ [] ∧ name.toList.all isBare = true)
    ⟨fun h => ⟨h.1, List.all_eq_true.mp h.2⟩, fun h => ⟨h.nonempty, List.all_eq_true.mpr h.bare⟩⟩

/-- A character that begins a line with something on it. -/
def Inked (c : Char) : Prop :=
  isSpace c = false ∧ c ≠ '#' ∧ c ≠ '\n' ∧ c ≠ '\r'

instance (c : Char) : Decidable (Inked c) :=
  inferInstanceAs (Decidable (isSpace c = false ∧ c ≠ '#' ∧ c ≠ '\n' ∧ c ≠ '\r'))

theorem inked_of_isBare {c : Char} (h : isBare c = true) : Inked c := by
  have hne {d : Char} (hd : isBare d = false) : c ≠ d := by
    rintro rfl
    rw [h] at hd
    exact absurd hd nofun
  refine ⟨?_, hne (by decide), hne (by decide), hne (by decide)⟩
  simp [isSpace, hne (d := ' ') (by decide), hne (d := '\t') (by decide)]

theorem skipSpaces_of_inked {c : Char} (h : Inked c) (rest : List Char) :
    skipSpaces (c :: rest) = c :: rest :=
  List.dropWhile_cons_of_neg (by simp [h.1])

theorem lineEnd?_of_inked {c : Char} (h : Inked c) (rest : List Char) :
    lineEnd? (c :: rest) = none := by
  have hnone : afterNewline? (c :: rest) = none := by
    rw [afterNewline?]
    · exact fun _ heq => h.2.2.1 (List.cons.inj heq).1
    · exact fun _ heq => h.2.2.2 (List.cons.inj heq).1
  rw [lineEnd?, skipSpaces_of_inked h]
  split
  · rename_i heq
    exact absurd (List.cons.inj heq).1 h.2.1
  · exact hnone

variable {name : String}

theorem IsBareName.head (h : IsBareName name) :
    ∃ c more, name.toList = c :: more ∧ isBare c = true := by
  cases hname : name.toList with
  | nil => exact absurd hname h.nonempty
  | cons c more => exact ⟨c, more, rfl, h.bare c (hname ▸ List.mem_cons_self)⟩

theorem IsBareName.append_ne (h : IsBareName name) {mark : Char} (hmark : isBare mark = false)
    (text rest : List Char) : name.toList ++ text ≠ mark :: rest := by
  obtain ⟨c, more, hname, hc⟩ := h.head
  rw [hname]
  intro heq
  rw [(List.cons.inj heq).1, hmark] at hc
  exact absurd hc nofun

theorem name?_append (h : IsBareName name) {c : Char} (hc : isBare c = false) (rest : List Char) :
    name? (name.toList ++ c :: rest) = some (name, c :: rest) := by
  obtain ⟨htake, hdrop⟩ := takeWhile_dropWhile_append h.bare hc rest
  rw [name?]
  · simp [htake, hdrop, h.nonempty]
  · exact h.append_ne (by decide) _
  · exact h.append_ne (by decide) _

/-- A name is read up to the first character that is no part of it. -/
theorem path?_append (h : IsBareName name) {c : Char} (hc : isBare c = false) (rest : List Char)
    (hdot : ∀ more, skipSpaces (c :: rest) ≠ '.' :: more) (parts : Nat) :
    path? (parts + 1) (name.toList ++ c :: rest) = some ([name], skipSpaces (c :: rest)) := by
  have hskip : skipSpaces (name.toList ++ c :: rest) = name.toList ++ c :: rest := by
    obtain ⟨d, more, hname, hd⟩ := h.head
    rw [hname]
    exact skipSpaces_of_inked (inked_of_isBare hd) _
  rw [path?, hskip, name?_append h hc]
  simp only [Option.bind_eq_bind, Option.bind_some]

/-! ## 2. Statements -/

/-- The statements of a section. -/
def Section.statements (part : Section) : List Statement :=
  .table [part.name] :: part.settings.map fun (name, setting) => .assign [name] setting.toml

/-- The names of a section are written without marks, and its settings can be written. -/
structure Section.IsWritable (part : Section) : Prop where
  name : IsBareName part.name
  names (setting : String × Setting) (h : setting ∈ part.settings) : IsBareName setting.1
  settings (setting : String × Setting) (h : setting ∈ part.settings) :
    setting.2.isWritable = true

theorem statement?_header (h : IsBareName name) (fuel : Nat) (rest : List Char) :
    statement? fuel ('[' :: (name.toList ++ ']' :: rest)) = some (.table [name], rest) := by
  have hpath := path?_append h (c := ']') (by decide) rest (by simp [skipSpaces, isSpace]) 78
  have hskip : skipSpaces (']' :: rest) = ']' :: rest :=
    List.dropWhile_cons_of_neg (by decide)
  rw [hskip] at hpath
  rw [statement?]
  · simp only [maxDepth, hpath, Option.bind_eq_bind, Option.bind_some]
    rfl
  · exact h.append_ne (by decide) _

theorem Setting.write_head (setting : Setting) :
    ∃ c more, setting.write = c :: more ∧ isSpace c = false := by
  cases setting with
  | str s =>
    obtain ⟨text, htext | htext⟩ := writeString_head s.toList
    · exact ⟨'"', text, htext, by decide⟩
    · exact ⟨'\'', text, htext, by decide⟩
  | count n =>
    cases hdigits : Nat.toDigits 10 n with
    | nil => exact absurd hdigits Nat.toDigits_ne_nil
    | cons c more =>
      have hc : c.isDigit = true := digits_toDigits n c (hdigits ▸ List.mem_cons_self)
      exact ⟨c, more, hdigits, (inked_of_isBare (by simp [isBare, Char.isAlphanum, hc])).1⟩
  | bool b =>
    cases b with
    | true => exact ⟨'t', "rue".toList, by decide, by decide⟩
    | false => exact ⟨'f', "alse".toList, by decide, by decide⟩
  | strs items =>
    rcases items with - | ⟨first, - | ⟨second, more⟩⟩
    all_goals exact ⟨'[', _, rfl, by decide⟩

theorem statement?_setting (h : IsBareName name) (setting : Setting)
    (hwritable : setting.isWritable = true) {fuel : Nat} (hfuel : setting.write.length < fuel)
    (rest : List Char) :
    statement? fuel (writeSetting (name, setting) ++ rest) =
      some (.assign [name] setting.toml, '\n' :: rest) := by
  have htext : writeSetting (name, setting) ++ rest =
      name.toList ++ ' ' :: '=' :: ' ' :: (setting.write ++ '\n' :: rest) := by
    simp [writeSetting]
  have hequals (text : List Char) : skipSpaces (' ' :: '=' :: text) = '=' :: text := by
    rw [skipSpaces, List.dropWhile_cons_of_pos (by decide), List.dropWhile_cons_of_neg (by decide)]
  have hpath := path?_append h (c := ' ') (by decide)
    ('=' :: ' ' :: (setting.write ++ '\n' :: rest))
    (fun more heq => absurd (List.cons.inj ((hequals _).symm.trans heq)).1 (by decide)) 78
  have hvalue := value?_write 78 setting hwritable hfuel rest
  have hspace : skipSpaces (' ' :: (setting.write ++ '\n' :: rest)) =
      setting.write ++ '\n' :: rest := by
    obtain ⟨c, more, hwrite, hc⟩ := setting.write_head
    rw [hwrite, skipSpaces, List.dropWhile_cons_of_pos (by decide), List.cons_append,
      List.dropWhile_cons_of_neg (by simp [hc])]
  rw [hequals] at hpath
  rw [htext, statement?]
  · simp only [maxDepth, hpath, Option.bind_eq_bind, Option.bind_some, after?, if_true, hspace,
      hvalue]
  · exact fun _ => h.append_ne (by decide) _ _
  · exact fun _ => h.append_ne (by decide) _ _

/-! ## 3. Files -/

variable {fuel : Nat}

theorem skipSpaces_newline (rest : List Char) : skipSpaces ('\n' :: rest) = '\n' :: rest :=
  List.dropWhile_cons_of_neg (by decide)

theorem lineEnd?_newline (rest : List Char) : lineEnd? ('\n' :: rest) = some rest := by
  rw [lineEnd?, skipSpaces_newline]
  rfl

theorem statements?_newline (rest : List Char) :
    statements? (fuel + 1) ('\n' :: rest) = statements? fuel rest := by
  rw [statements?, skipSpaces_newline]
  simp only [lineEnd?_newline]

/-- A line that begins with a statement. -/
theorem statements?_line {c : Char} (hc : Inked c) {text rest : List Char} {statement : Statement}
    (h : statement? fuel (c :: text) = some (statement, '\n' :: rest)) :
    statements? (fuel + 1) (c :: text) = (statements? fuel rest).map (statement :: ·) := by
  rw [statements?, skipSpaces_of_inked hc]
  simp only [lineEnd?_of_inked hc, h, lineEnd?_newline, Option.bind_eq_bind, Option.bind_some]

/-- The lines of settings and what follows them. -/
theorem statements?_settings (settings : List (String × Setting))
    (hsettings : ∀ setting ∈ settings, IsBareName setting.1 ∧ setting.2.isWritable = true)
    (rest : List Char) (hfuel : (settings.flatMap writeSetting ++ rest).length ≤ fuel) :
    ∃ fuel', rest.length ≤ fuel' ∧
      statements? (fuel + 1) (settings.flatMap writeSetting ++ rest) =
        (statements? (fuel' + 1) rest).map
          ((settings.map fun (name, setting) => .assign [name] setting.toml) ++ ·) := by
  induction settings generalizing fuel with
  | nil => exact ⟨fuel, hfuel, by simp⟩
  | cons setting settings ih =>
    obtain ⟨name, setting⟩ := setting
    obtain ⟨hname, hwritable⟩ := hsettings _ List.mem_cons_self
    have hmore : ∀ setting ∈ settings, IsBareName setting.1 ∧ setting.2.isWritable = true :=
      fun setting h => hsettings setting (List.mem_cons_of_mem _ h)
    have hlength : setting.write.length + 4 ≤ (writeSetting (name, setting)).length := by
      simp [writeSetting]
    rw [List.flatMap_cons, List.append_assoc, List.length_append] at hfuel
    obtain ⟨n, rfl⟩ : ∃ n, fuel = n + 1 := ⟨fuel - 1, by omega⟩
    have hshort : (settings.flatMap writeSetting ++ rest).length ≤ n := by omega
    have hlong : setting.write.length < n + 1 := by omega
    obtain ⟨fuel', hfuel', hrest⟩ := ih hmore hshort
    obtain ⟨c, more, hhead, hc⟩ := hname.head
    have hline := statement?_setting hname setting hwritable hlong
      (settings.flatMap writeSetting ++ rest)
    have htext : writeSetting (name, setting) ++ (settings.flatMap writeSetting ++ rest) =
        c :: (more ++ " = ".toList ++ setting.write ++ ['\n'] ++
          (settings.flatMap writeSetting ++ rest)) := by
      simp [writeSetting, hhead]
    refine ⟨fuel', hfuel', ?_⟩
    rw [List.flatMap_cons, List.append_assoc, htext]
    rw [htext] at hline
    rw [statements?_line (inked_of_isBare hc) hline, hrest, Option.map_map]
    rfl

/-- The lines of a section and what follows them. -/
theorem statements?_section {part : Section} (hpart : part.IsWritable) (rest : List Char)
    (hfuel : (part.write ++ rest).length ≤ fuel) :
    ∃ fuel', rest.length ≤ fuel' ∧
      statements? (fuel + 1) (part.write ++ rest) =
        (statements? (fuel' + 1) rest).map (part.statements ++ ·) := by
  have htext : part.write ++ rest = '[' :: (part.name.toList ++ ']' :: '\n' ::
      (part.settings.flatMap writeSetting ++ rest)) := by
    simp [Section.write]
  rw [htext] at hfuel ⊢
  simp only [List.length_cons, List.length_append] at hfuel
  obtain ⟨n, rfl⟩ : ∃ n, fuel = n + 1 := ⟨fuel - 1, by omega⟩
  have hshort : (part.settings.flatMap writeSetting ++ rest).length ≤ n := by
    rw [List.length_append]
    omega
  obtain ⟨fuel', hfuel', hrest⟩ := statements?_settings part.settings
    (fun setting h => ⟨hpart.names setting h, hpart.settings setting h⟩) rest hshort
  refine ⟨fuel', hfuel', ?_⟩
  rw [statements?_line (by decide) (statement?_header hpart.name (n + 1) _), hrest, Option.map_map]
  rfl

/-- **A file is read as the statements of its sections.** -/
theorem statements?_write {sections : List Section} (hsections : ∀ part ∈ sections, part.IsWritable)
    (hfuel : (['\n'].intercalate (sections.map Section.write)).length ≤ fuel) :
    statements? (fuel + 1) (['\n'].intercalate (sections.map Section.write)) =
      some (sections.flatMap Section.statements) := by
  induction sections generalizing fuel with
  | nil => rfl
  | cons part sections ih =>
    have hpart := hsections part List.mem_cons_self
    cases sections with
    | nil =>
      have htext : ['\n'].intercalate ([part].map Section.write) = part.write ++ [] := by
        simp [List.intercalate]
      rw [htext] at hfuel ⊢
      obtain ⟨fuel', -, hrest⟩ := statements?_section hpart [] hfuel
      rw [hrest]
      simp [statements?, skipSpaces]
    | cons next more =>
      have htext : ['\n'].intercalate ((part :: next :: more).map Section.write) =
          part.write ++ '\n' :: ['\n'].intercalate ((next :: more).map Section.write) := by
        simp [List.intercalate]
      rw [htext] at hfuel ⊢
      obtain ⟨fuel', hfuel', hrest⟩ := statements?_section hpart _ hfuel
      rw [List.length_cons] at hfuel'
      obtain ⟨n, rfl⟩ : ∃ n, fuel' = n + 1 := ⟨fuel' - 1, by omega⟩
      rw [hrest, statements?_newline,
        ih (fun part h => hsections part (List.mem_cons_of_mem _ h)) (by omega)]
      rfl

end Toml
end Collector
