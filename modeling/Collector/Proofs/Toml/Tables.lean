/-
# A TOML file is read back

The statements of a file's sections build a table of the sections' tables (`ofStatements?_write`):
every header opens a new table at the end, and every assignment adds an entry to the table that was
opened last.  For that no name may occur twice, neither among the sections nor in one of them.

Together with the reading of the lines, a file is read back as the sections that it has been
written from (`read?_write`).
-/
import Collector.Proofs.Toml.Lines

namespace Collector
namespace Toml

/-! ## 1. Entries -/

namespace Entries

variable {entries : Entries} {name : String} {node node' : Node}

theorem get?_eq_none (h : name ∉ entries.map Prod.fst) : get? entries name = none := by
  have hfind : entries.find? (·.1 = name) = none := by
    rw [List.find?_eq_none]
    intro entry hentry heq
    exact h (List.mem_map.mpr ⟨entry, hentry, by simpa using heq⟩)
  rw [get?, hfind]
  rfl

theorem get?_append (h : name ∉ entries.map Prod.fst) :
    get? (entries ++ [(name, node)]) name = some node := by
  have hnone := get?_eq_none h
  rw [get?, Option.map_eq_none_iff] at hnone
  rw [get?, List.find?_append, hnone]
  simp

theorem set_append (h : name ∉ entries.map Prod.fst) :
    set (entries ++ [(name, node)]) name node' = entries ++ [(name, node')] := by
  induction entries with
  | nil => exact if_pos rfl
  | cons entry entries ih =>
    rw [List.map_cons, List.mem_cons, not_or] at h
    rw [List.cons_append, set, if_neg (Ne.symm h.1), ih h.2]
    rfl

theorem openTable_append (h : name ∉ entries.map Prod.fst) :
    openTable [name] entries = some (entries ++ [(name, .table .header [])]) := by
  simp only [openTable, List.dropLast_singleton, alter, List.getLast?_singleton, Option.bind_some,
    get?_eq_none h]

theorem assign_append (h : name ∉ entries.map Prod.fst) (value : Toml) :
    assign [name] value .header entries = some (entries ++ [(name, .value value)]) := by
  simp only [assign, List.dropLast_singleton, alter, List.getLast?_singleton, Option.bind_some,
    get?_eq_none h]
  rfl

end Entries

/-! ## 2. Statements of sections -/

/-- What has been built of a section. -/
def Section.node (name : String) (settings : List (String × Setting)) : String × Node :=
  (name, .table .header (settings.map fun (name, setting) => (name, .value setting.toml)))

variable {before : Entries} {name : String} {settings : List (String × Setting)}

theorem map_fst_node_entries (settings : List (String × Setting)) :
    (settings.map fun (name, setting) => (name, Node.value setting.toml)).map Prod.fst =
      settings.map Prod.fst := by
  rw [List.map_map]
  rfl

/-- **An assignment adds to the section that was opened last.** -/
theorem step_assign (hname : name ∉ before.map Prod.fst) {setting : String × Setting}
    (hsetting : setting.1 ∉ settings.map Prod.fst) :
    Build.step ⟨before ++ [Section.node name settings], [name]⟩
        (.assign [setting.1] setting.2.toml) =
      some ⟨before ++ [Section.node name (settings ++ [setting])], [name]⟩ := by
  have hentry : setting.1 ∉
      (settings.map fun (name, setting) => (name, Node.value setting.toml)).map Prod.fst := by
    rwa [map_fst_node_entries]
  have hassign := Entries.assign_append hentry setting.2.toml
  simp only [Build.step, Entries.alter, Section.node, Entries.get?_append hname, hassign,
    Entries.set_append hname, Option.map_some]
  simp

/-- The assignments of a section one after another. -/
theorem foldlM_assign (hname : name ∉ before.map Prod.fst) (more : List (String × Setting))
    (hnodup : ((settings ++ more).map Prod.fst).Nodup) :
    (more.map fun (name, setting) => Statement.assign [name] setting.toml).foldlM Build.step
        ⟨before ++ [Section.node name settings], [name]⟩ =
      some ⟨before ++ [Section.node name (settings ++ more)], [name]⟩ := by
  induction more generalizing settings with
  | nil =>
    rw [List.append_nil]
    rfl
  | cons setting more ih =>
    have hsetting : setting.1 ∉ settings.map Prod.fst := by
      rw [List.map_append, List.map_cons, List.nodup_append] at hnodup
      exact fun hmem => hnodup.2.2 _ hmem _ List.mem_cons_self rfl
    have hnodup' : ((settings ++ [setting] ++ more).map Prod.fst).Nodup := by simpa using hnodup
    have hmore := ih hnodup'
    rw [List.append_assoc, List.singleton_append] at hmore
    rw [List.map_cons, List.foldlM_cons, step_assign hname hsetting]
    exact hmore

/-- **A section adds its table at the end.** -/
theorem foldlM_section {part : Section} (current : List String)
    (hname : part.name ∉ before.map Prod.fst) (hnodup : (part.settings.map Prod.fst).Nodup) :
    part.statements.foldlM Build.step ⟨before, current⟩ =
      some ⟨before ++ [Section.node part.name part.settings], [part.name]⟩ := by
  have hopen : Build.step ⟨before, current⟩ (.table [part.name]) =
      some ⟨before ++ [Section.node part.name []], [part.name]⟩ := by
    simp only [Build.step, Entries.openTable_append hname, Option.map_some]
    rfl
  rw [Section.statements, List.foldlM_cons, hopen]
  exact foldlM_assign hname part.settings hnodup

theorem foldlM_sections {sections : List Section} (current : List String)
    (hnames : (before.map Prod.fst ++ sections.map Section.name).Nodup)
    (hsettings : ∀ part ∈ sections, (part.settings.map Prod.fst).Nodup) :
    ∃ last, (sections.flatMap Section.statements).foldlM Build.step ⟨before, current⟩ =
      some ⟨before ++ sections.map (fun part => Section.node part.name part.settings), last⟩ := by
  induction sections generalizing before current with
  | nil => exact ⟨current, by simp⟩
  | cons part sections ih =>
    have hname : part.name ∉ before.map Prod.fst := by
      rw [List.map_cons, List.nodup_append] at hnames
      exact fun hmem => hnames.2.2 _ hmem _ List.mem_cons_self rfl
    have hpart := foldlM_section current hname (hsettings part List.mem_cons_self)
    have hnames' : ((before ++ [Section.node part.name part.settings]).map Prod.fst ++
        sections.map Section.name).Nodup := by
      simpa [Section.node] using hnames
    obtain ⟨last, hrest⟩ := ih [part.name] hnames'
      (fun part h => hsettings part (List.mem_cons_of_mem _ h))
    refine ⟨last, ?_⟩
    rw [List.flatMap_cons, List.foldlM_append, hpart]
    simpa using hrest

/-! ## 3. Files -/

/-- The table of a section. -/
def Section.toml (part : Section) : String × Toml :=
  (part.name, .table (part.settings.map fun (name, setting) => (name, setting.toml)))

theorem entriesToml_map_value (settings : List (String × Setting)) :
    entriesToml (settings.map fun (name, setting) => (name, .value setting.toml)) =
      settings.map fun (name, setting) => (name, setting.toml) := by
  induction settings with
  | nil => rfl
  | cons setting settings ih => simp [entriesToml, Node.toml, ih]

theorem entriesToml_nodes (sections : List Section) :
    entriesToml (sections.map fun part => Section.node part.name part.settings) =
      sections.map Section.toml := by
  induction sections with
  | nil => rfl
  | cons part sections ih =>
    rw [List.map_cons, List.map_cons, Section.node, entriesToml, Node.toml,
      entriesToml_map_value, ih]
    rfl

/-- All names are written without marks, and none occurs twice. -/
structure WellNamed (sections : List Section) : Prop where
  bare (part : Section) (h : part ∈ sections) : IsBareName part.name
  bareSettings (part : Section) (h : part ∈ sections) (setting : String × Setting)
    (hsetting : setting ∈ part.settings) : IsBareName setting.1
  names : (sections.map Section.name).Nodup
  settings (part : Section) (h : part ∈ sections) : (part.settings.map Prod.fst).Nodup

variable {sections : List Section}

theorem ofStatements?_write (h : WellNamed sections) :
    ofStatements? (sections.flatMap Section.statements) =
      some (.table (sections.map Section.toml)) := by
  have hnames : (([] : Entries).map Prod.fst ++ sections.map Section.name).Nodup := h.names
  obtain ⟨last, hbuild⟩ := foldlM_sections [] hnames h.settings
  have hfold : (sections.flatMap Section.statements).foldlM Build.step {} = _ := hbuild
  rw [ofStatements?, hfold, Option.map_some, List.nil_append, entriesToml_nodes]

theorem write?_eq_some {text : String} (h : write? sections = some text) :
    (∀ part ∈ sections, ∀ setting ∈ part.settings, setting.2.isWritable = true) ∧
      text = String.ofList (['\n'].intercalate (sections.map Section.write)) := by
  unfold write? at h
  split_ifs at h with hall
  refine ⟨?_, (Option.some.inj h).symm⟩
  simpa only [List.all_eq_true] using hall

/-- The text of a file begins with a bracket. -/
theorem head?_write (sections : List Section) :
    ∀ c ∈ (['\n'].intercalate (sections.map Section.write)).head?, c = '[' := by
  match sections with
  | [] => simp [List.intercalate]
  | [part] => simp [List.intercalate, Section.write]
  | part :: next :: more => simp [List.intercalate, Section.write]

/-- **A file is read back as the sections that it has been written from.** -/
theorem read?_write (hnames : WellNamed sections) {text : String}
    (h : write? sections = some text) :
    read? text.toList = some (.table (sections.map Section.toml)) := by
  obtain ⟨hsettings, rfl⟩ := write?_eq_some h
  have hwritable : ∀ part ∈ sections, part.IsWritable := fun part hpart =>
    ⟨hnames.bare part hpart, hnames.bareSettings part hpart, hsettings part hpart⟩
  have hhead := head?_write sections
  generalize hchars : ['\n'].intercalate (sections.map Section.write) = chars at hhead
  have hstatements : statements? (chars.length + 1) chars =
      some (sections.flatMap Section.statements) := by
    rw [← hchars]
    exact statements?_write hwritable (Nat.le_refl _)
  have hread : read? chars = (statements? (chars.length + 1) chars).bind ofStatements? := by
    cases chars with
    | nil => rfl
    | cons c rest =>
      obtain rfl := hhead c rfl
      rfl
  rw [String.toList_ofList, hread, hstatements, Option.bind_some, ofStatements?_write hnames]

end Toml
end Collector
