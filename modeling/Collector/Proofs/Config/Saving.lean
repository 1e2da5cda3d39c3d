/-
# Saving and loading a configuration

A configuration that has no problem is loaded as it was saved, whatever its strings hold, and one
with a number that is too large for the file is not saved at all (`save_load`).

The text of a configuration is a file of four sections with fixed names, so that it is read back by
what is known of TOML files in general (`ofToml?_sections`, `read?_render`).  Saving comes down to
one file that is put where the path leads (`save_ok`); the path leads there afterwards, and so
loading finds the file.
-/
import Collector.Config.Store
import Collector.Proofs.Files.Unreliable
import Collector.Proofs.Text.Encoded
import Collector.Proofs.Toml.Tables

namespace Collector
namespace Config

/-! ## 1. The text of a configuration -/

variable (config : Config)

/-- All numbers fit into 64 bits with a sign. -/
structure Fits (config : Config) : Prop where
  minimumPosts : config.forum.minimumPosts ≤ Nat.pow 2 63 - 1
  minimumResults : config.feed.minimumResults ≤ Nat.pow 2 63 - 1
  pollIntervalSecs : config.decoder.pollIntervalSecs ≤ Nat.pow 2 63 - 1
  completionThreshold : config.decoder.completionThreshold ≤ Nat.pow 2 63 - 1

/-- The names of each section's settings. -/
theorem map_names_sections : config.sections.map (fun part => part.settings.map Prod.fst) =
    [["subreddits", "search_all", "time_filter", "sort_by", "minimum_posts"],
     ["language", "baseline_date", "search_all_time", "minimum_results"],
     ["poll_interval_secs", "completion_threshold"], ["directory", "format"]] := rfl

theorem wellNamed_sections : Toml.WellNamed config.sections := by
  have hnames (part : Toml.Section) (hpart : part ∈ config.sections) :
      part.name ∈ ["forum", "feed", "decoder", "output"] := List.mem_map_of_mem hpart
  have hsettings (part : Toml.Section) (hpart : part ∈ config.sections) :
      (part.settings.map Prod.fst).Nodup ∧
        ∀ name ∈ part.settings.map Prod.fst, Toml.IsBareName name := by
    have hmem := List.mem_map_of_mem (f := fun part => part.settings.map Prod.fst) hpart
    rw [map_names_sections] at hmem
    generalize part.settings.map Prod.fst = names at hmem
    revert names
    decide
  refine ⟨fun part hpart => ?_, fun part hpart setting hsetting => ?_, ?_, fun part hpart => ?_⟩
  · have hall : ∀ name ∈ ["forum", "feed", "decoder", "output"], Toml.IsBareName name := by
      decide
    exact hall part.name (hnames part hpart)
  · exact (hsettings part hpart).2 _ (List.mem_map_of_mem hsetting)
  · exact (by decide : ["forum", "feed", "decoder", "output"].Nodup)
  · exact (hsettings part hpart).1

theorem fits_iff : config.Fits ↔
    (config.sections.all fun part => part.settings.all (·.2.isWritable)) = true := by
  have hbound (n : Nat) : n ≤ Nat.pow 2 63 - 1 ↔ n < Nat.pow 2 63 :=
    Nat.le_sub_one_iff_lt (by decide)
  simp only [sections, List.all_cons, List.all_nil, Toml.Setting.isWritable, Bool.true_and,
    Bool.and_true, Bool.and_eq_true, decide_eq_true_eq, ← hbound]
  constructor
  · rintro ⟨hposts, hresults, hinterval, hthreshold⟩
    exact ⟨hposts, hresults, hinterval, hthreshold⟩
  · rintro ⟨hposts, hresults, hinterval, hthreshold⟩
    exact ⟨hposts, hresults, hinterval, hthreshold⟩

/-- A configuration has a text exactly if its numbers fit. -/
theorem exists_render (hfits : config.Fits) : ∃ text, config.render? = some text :=
  ⟨_, if_pos (config.fits_iff.mp hfits)⟩

theorem render?_eq_none (hfits : ¬ config.Fits) : config.render? = none :=
  if_neg (mt config.fits_iff.mpr hfits)

theorem strs?_arr (items : List String) : strs? (.arr (items.map Toml.str)) = some items := by
  change (items.map Toml.str).mapM str? = some items
  induction items with
  | nil => rfl
  | cons item items ih =>
    rw [List.map_cons, List.mapM_cons, ih]
    rfl

/-- **The table of the sections is the configuration.** -/
theorem ofToml?_sections :
    ofToml? (.table (config.sections.map Toml.Section.toml)) = some config := by
  simp [ofToml?, sections, Toml.Section.toml, setting?, settingsOf?, Toml.Setting.toml, forum?,
    feed?, decoder?, output?, strs?_arr, str?, bool?, count?, format?, ParamsFormat.ofName?_name]

/-- **A configuration is read back from its text.** -/
theorem read?_render {text : String} (h : config.render? = some text) :
    read? text = some config := by
  rw [read?, Toml.read?_write config.wellNamed_sections h, Option.bind_some, ofToml?_sections]

theorem ofContents_render {text : String} (h : config.render? = some text)
    (hproblem : config.problem? = none) (path : String) :
    ofContents path text.toUTF8 = .ok config := by
  simp only [ofContents, Text.Utf8.strict?_toUTF8, read?_render config h, hproblem]

/-! ## 2. Saving -/

variable (path : String) (disk : Unreliable)

/-- The directory that is made before a file is written. -/
def directoryOf (path : String) : String :=
  (Path.parent? path).getD ""

/-- Saving step by step. -/
theorem save_run :
    (config.save path : StateM Unreliable _).run disk =
      match (Disk.makeDirs (directoryOf path) : StateM Unreliable _).run disk with
      | (.error _, made) => (.error (.directory (directoryOf path)), made)
      | (.ok (), made) =>
        match config.render? with
        | none => (.error .serialize, made)
        | some text =>
          match (Disk.write path text.toUTF8 : StateM Unreliable _).run made with
          | (.error _, after) => (.error (.write path), after)
          | (.ok (), after) => (.ok (), after) := by
  change (Disk.makeDirs (directoryOf path) >>= _ : StateM Unreliable _).run disk = _
  rw [StateT.run_bind]
  rcases (Disk.makeDirs (directoryOf path) : StateM Unreliable _).run disk with
    ⟨fault | done, made⟩
  · rfl
  · dsimp only
    cases config.render? with
    | none => rfl
    | some text =>
      dsimp only
      change (Disk.write path text.toUTF8 >>= _ : StateM Unreliable _).run made = _
      rw [StateT.run_bind]
      rcases (Disk.write path text.toUTF8 : StateM Unreliable _).run made with
        ⟨fault | done, after⟩
      · rfl
      · rfl

/-- **How a saving can end.**  It fails, when there may be new directories; or the file has been
written. -/
theorem save_cases :
    let after := (config.save path : StateM Unreliable _).run disk
    (∃ e, after.1 = .error e) ∧ disk.tree.Extends after.2.tree ∨
      ∃ text made, config.render? = some text ∧ after.1 = .ok () ∧ disk.tree.Extends made ∧
        made.write path text.toUTF8 = .ok after.2.tree := by
  rw [save_run]
  have hdirs := Unreliable.makeDirs_extends (directoryOf path) disk
  generalize (Disk.makeDirs (directoryOf path) : StateM Unreliable _).run disk = made at hdirs
  obtain ⟨fault | done, made⟩ := made
  · exact .inl ⟨⟨_, rfl⟩, hdirs⟩
  · cases config.render? with
    | none => exact .inl ⟨⟨_, rfl⟩, hdirs⟩
    | some text =>
      have hwrite := Unreliable.write_cases path text.toUTF8 made
      dsimp only at hwrite ⊢
      generalize (Disk.write path text.toUTF8 : StateM Unreliable _).run made = after at hwrite
      obtain ⟨fault | done, after⟩ := after
      · rcases hwrite with ⟨hok, -⟩ | ⟨_, -, htree⟩
        · exact absurd hok nofun
        · exact .inl ⟨⟨_, rfl⟩, htree ▸ hdirs⟩
      · rcases hwrite with ⟨-, hwritten⟩ | ⟨_, herror, -⟩
        · exact .inr ⟨text, made.tree, rfl, rfl, hdirs, hwritten⟩
        · exact absurd herror nofun

/-- **A successful saving has put the text where the path leads.** -/
theorem save_ok {after : Unreliable}
    (h : (config.save path : StateM Unreliable _).run disk = (.ok (), after)) :
    ∃ text place, config.render? = some text ∧ after.tree.resolve path = .ok place ∧
      after.tree.fileAt? place = some (text.toUTF8, disk.tree.now) := by
  have hcases := config.save_cases path disk
  rw [h] at hcases
  obtain ⟨⟨e, herror⟩, -⟩ | ⟨text, made, htext, -, hextends, hwrite⟩ := hcases
  · exact absurd herror nofun
  · obtain ⟨hplace, hfree, hput⟩ := FileTree.write_eq_ok hwrite
    have hroot : made.placeOf path ≠ [] := fun hroot => hfree (hroot ▸ made.find?_root)
    have hkeeps := FileTree.keepsDirs_write hroot hwrite
    refine ⟨text, made.placeOf path, htext, FileTree.resolve_mono hkeeps hplace, ?_⟩
    dsimp only at hput ⊢
    rw [hput, FileTree.fileAt?_put made hroot, if_pos rfl, hextends.now]

/-- A file can be written under the path as soon as its directory has been made. -/
def Writable (tree : FileTree) (path : String) : Prop :=
  ∃ made place, (Disk.makeDirs (directoryOf path) : StateM Unreliable _).run { tree } =
      (.ok (), { tree := made }) ∧
    made.resolve path = .ok place ∧ made.find? place ≠ some .dir

theorem save_succeeds {tree : FileTree} (hfits : config.Fits) (h : Writable tree path) :
    ∃ after : FileTree,
      (config.save path : StateM Unreliable _).run { tree } = (.ok (), { tree := after }) := by
  obtain ⟨made, place, hmade, hplace, hfree⟩ := h
  obtain ⟨text, htext⟩ := config.exists_render hfits
  have hwrite : (Disk.write path text.toUTF8 : StateM Unreliable _).run { tree := made } =
      (.ok (), { tree := made.put place (.file text.toUTF8 made.now) }) := by
    change Unreliable.operate (fun tree => tree.settle (tree.write _ _)) { tree := made } = _
    rw [Unreliable.operate_faultless, FileTree.write_of_resolve hplace hfree]
    rfl
  refine ⟨made.put place (.file text.toUTF8 made.now), ?_⟩
  rw [save_run, hmade]
  dsimp only
  rw [htext]
  dsimp only
  rw [hwrite]

/-- **A configuration with a number that is too large is not saved**, and every file stays as it
was. -/
theorem save_refused (hfits : ¬ config.Fits) {result : Except ConfigError Unit} {after : Unreliable}
    (h : (config.save path : StateM Unreliable _).run disk = (result, after)) :
    (∃ e, result = .error e) ∧ disk.tree.Extends after.tree := by
  have hcases := config.save_cases path disk
  rw [h, config.render?_eq_none hfits] at hcases
  rcases hcases with hfailed | ⟨_, _, hnone, -⟩
  · exact hfailed
  · exact absurd hnone nofun

/-! ## 3. Loading -/

/-- Loading finds the file that the path leads to. -/
theorem load_of_file {tree : FileTree} {place : Location} {contents : ByteArray} {modified : Int}
    (hplace : tree.resolve path = .ok place)
    (hfile : tree.fileAt? place = some (contents, modified)) :
    (load path : StateM Unreliable _).run { tree } = (ofContents path contents, { tree }) := by
  have hinfo : (Disk.info path : StateM Unreliable _).run { tree } =
      (.ok { size := contents.size, modified }, { tree }) := by
    change Unreliable.operate (fun tree => (tree.info path, tree)) { tree } = _
    rw [Unreliable.operate_faultless, FileTree.info,
      FileTree.lookup_of_resolve hplace (FileTree.find?_of_fileAt? hfile)]
    rfl
  have hread : (Disk.read path : StateM Unreliable _).run { tree } = (.ok contents, { tree }) := by
    change Unreliable.operate (fun tree => (tree.read path, tree)) { tree } = _
    rw [Unreliable.operate_faultless, FileTree.read_of_fileAt? hplace hfile]
  rw [load, StateT.run_bind, hinfo]
  change (Disk.read path >>= _ : StateM Unreliable _).run { tree } = _
  rw [StateT.run_bind, hread]
  rfl

/-- A file that has been saved is loaded as the configuration, whatever has failed before. -/
theorem load_of_save {config : Config} {path : String} {disk after : Unreliable}
    (hproblem : config.problem? = none)
    (h : (config.save path : StateM Unreliable _).run disk = (.ok (), after)) :
    (load path : StateM Unreliable _).run { tree := after.tree } =
      (.ok config, { tree := after.tree }) := by
  obtain ⟨text, place, htext, hplace, hfile⟩ := config.save_ok path disk h
  rw [load_of_file path hplace hfile, config.ofContents_render htext hproblem]

/-- **What has been saved is loaded.**

A configuration without a problem whose numbers fit is saved under every path under which a file
can be written, and is then loaded as it was; and even where accesses to the disk may fail, it is
loaded as it was if saving it has succeeded.  A configuration with a number that does not fit is
not saved, and every file, the one under the path among them, is as it was before. -/
theorem save_load (config : Config) (path : String) :
    (config.Fits → config.problem? = none →
      (∀ tree, Writable tree path → ∃ after : FileTree,
        (config.save path : StateM Unreliable _).run { tree } = (.ok (), { tree := after }) ∧
        (load path : StateM Unreliable _).run { tree := after } =
          (.ok config, { tree := after })) ∧
      ∀ disk after : Unreliable,
        (config.save path : StateM Unreliable _).run disk = (.ok (), after) →
        (load path : StateM Unreliable _).run { tree := after.tree } =
          (.ok config, { tree := after.tree })) ∧
    (¬ config.Fits → ∀ (disk after : Unreliable) (result : Except ConfigError Unit),
      (config.save path : StateM Unreliable _).run disk = (result, after) →
      (∃ e, result = .error e) ∧
      (∀ place, after.tree.fileAt? place = disk.tree.fileAt? place) ∧
      ∀ contents, disk.tree.read path = .ok contents → after.tree.read path = .ok contents) := by
  refine ⟨fun hfits hproblem => ⟨fun tree hwritable => ?_, fun disk after => load_of_save hproblem⟩,
    fun hfits disk after result h => ?_⟩
  · obtain ⟨after, hsaved⟩ := config.save_succeeds path hfits hwritable
    have hloaded := load_of_save hproblem hsaved
    exact ⟨after, hsaved, hloaded⟩
  · obtain ⟨hfailed, hextends⟩ := config.save_refused path disk hfits h
    refine ⟨hfailed, hextends.fileAt?, fun contents hread => ?_⟩
    obtain ⟨place, modified, hplace, hfile⟩ := FileTree.read_eq_ok hread
    have hkept : after.tree.fileAt? place = some (contents, modified) := by
      rw [hextends.fileAt?, hfile]
    exact FileTree.read_of_fileAt? (FileTree.resolve_mono hextends.keepsDirs hplace) hkept

/-- Communities and a directory with marks, line ends and control characters in their names. -/
theorem save_load_of_marks :
    let config : Config :=
      { forum := { subreddits := ["\"'''\n", "a\r\n\"\"\"\"", "\x01\t"] },
        output := { directory := "'\\" } }
    config.Fits ∧ config.problem? = none ∧ Writable {} "config.toml" ∧
      ∃ after : FileTree, (load "config.toml" : StateM Unreliable _).run { tree := after } =
        (.ok config, { tree := after }) := by
  intro config
  have hfits : config.Fits := ⟨by decide, by decide, by decide, by decide⟩
  have hproblem : config.problem? = none := by decide
  have hwritable : Writable {} "config.toml" := ⟨{}, ["config.toml"], rfl, rfl, nofun⟩
  obtain ⟨after, -, hload⟩ := ((save_load config "config.toml").1 hfits hproblem).1 {} hwritable
  exact ⟨hfits, hproblem, hwritable, after, hload⟩

end Config
end Collector
