/-
# Where the compile command writes

The command writes parameter files into one directory, one after another, up to the first that
cannot be written.  Whatever fails on the way, a file that has changed stands at the path of a
parameter file in that directory (`writeAll_changed`), and a run that ends well has written all of
them (`writeAll_ok`).

The configured directory may begin with `~/` for the home directory.  What follows is joined to the
home directory, so it stays below if it is relative; but with a second slash behind the tilde it is
an absolute path, and the home directory is out of the picture (`written_below_home`).
-/
import Collector.Command.Compile
import Collector.Proofs.Files.Below
import Collector.Proofs.Params.Writing

namespace Collector
namespace Params

/-! ## 1. Parameter files one after another -/

/-- The path of a parameter file in a directory. -/
def filePath (directory : String) (format : ParamsFormat) (file : Params × ParamsSlot) : String :=
  Path.join directory (file.1.slotName format file.2)

/-- What comes of writing the files on a disk, and the disk afterwards. -/
def writeAllOn (directory : String) (format : ParamsFormat) (files : List (Params × ParamsSlot))
    (disk : Unreliable) : Except ParamsError (List String) × Unreliable :=
  (writeAll directory format files : StateM Unreliable _).run disk

section Files

variable (directory : String) (format : ParamsFormat) (file : Params × ParamsSlot)
  (files : List (Params × ParamsSlot)) (disk : Unreliable)

/-- A file to write in the format. -/
def writing : Writing where
  params := file.1
  format := format
  slot := file.2

/-- The first file is written, and then the others if that went well. -/
theorem writeAllOn_cons :
    writeAllOn directory format (file :: files) disk =
      match ((writing format file).perform directory).run disk with
      | (.error e, after) => (.error e, after)
      | (.ok path, after) =>
        ((writeAllOn directory format files after).1.map (path :: ·),
          (writeAllOn directory format files after).2) := by
  obtain ⟨params, slot⟩ := file
  rw [writeAllOn, writeAll]
  change ((writing format (params, slot)).perform directory >>= _ :
    StateM Unreliable _).run disk = _
  rw [StateT.run_bind]
  rcases ((writing format (params, slot)).perform directory).run disk with ⟨e | path, after⟩
  · rfl
  · rfl

variable {disk} {after : Unreliable} {path : String}

theorem writeAllOn_error {e : ParamsError}
    (h : ((writing format file).perform directory).run disk = (.error e, after)) :
    writeAllOn directory format (file :: files) disk = (.error e, after) := by
  rw [writeAllOn_cons, h]

theorem writeAllOn_ok (h : ((writing format file).perform directory).run disk = (.ok path, after)) :
    writeAllOn directory format (file :: files) disk =
      ((writeAllOn directory format files after).1.map (path :: ·),
        (writeAllOn directory format files after).2) := by
  rw [writeAllOn_cons, h]

/-- A file that has been written stands where its path leads, and it alone has changed. -/
theorem perform_changed
    (h : ((writing format file).perform directory).run disk = (.ok path, after)) :
    path = filePath directory format file ∧
      ∀ place, after.tree.fileAt? place ≠ disk.tree.fileAt? place →
        after.tree.resolve path = .ok place := by
  have hok : (((writing format file).perform directory).run disk).1 = .ok path := by rw [h]
  obtain ⟨-, rfl, made, -, hresolve, hkeeps, -⟩ := Writing.perform_ok _ directory disk hok
  refine ⟨congrArg (Path.join directory) (slotName_eq file.1 format file.2).symm, ?_⟩
  intro place hchanged
  have hfile := Writing.perform_fileAt? (writing format file) directory disk place
  rw [h] at hfile hkeeps
  split at hfile
  · rename_i hplace
    rw [hplace.2]
    exact FileTree.resolve_mono hkeeps hresolve
  · exact absurd hfile hchanged

variable (disk)

theorem writeAllOn_keepsDirs :
    disk.tree.KeepsDirs (writeAllOn directory format files disk).2.tree := by
  induction files generalizing disk with
  | nil => exact .refl disk.tree
  | cons file files ih =>
    have hfirst := Writing.perform_keepsDirs (writing format file) directory disk
    rcases hrun : ((writing format file).perform directory).run disk with ⟨e | path, after⟩
    · rw [hrun] at hfirst
      rw [writeAllOn_error directory format file files hrun]
      exact hfirst
    · rw [hrun] at hfirst
      rw [writeAllOn_ok directory format file files hrun]
      exact hfirst.trans (ih after)

/-- **Only parameter files are written.**  What has changed stands where the path of one of them
leads.  The induction is on the files: each writing changes its own only, and later ones leave the
directories alone that its path leads through. -/
theorem writeAllOn_changed {place : Location}
    (h : (writeAllOn directory format files disk).2.tree.fileAt? place ≠ disk.tree.fileAt? place) :
    ∃ file ∈ files, (writeAllOn directory format files disk).2.tree.resolve
      (filePath directory format file) = .ok place := by
  induction files generalizing disk with
  | nil => exact absurd rfl h
  | cons file files ih =>
    rcases hrun : ((writing format file).perform directory).run disk with ⟨e | path, after⟩
    · have hextends := Writing.perform_error (writing format file) directory disk (e := e)
        (by rw [hrun])
      rw [hrun] at hextends
      rw [writeAllOn_error directory format file files hrun] at h
      exact absurd (hextends.fileAt? place) h
    · rw [writeAllOn_ok directory format file files hrun] at h ⊢
      by_cases hlater : (writeAllOn directory format files after).2.tree.fileAt? place =
          after.tree.fileAt? place
      · obtain ⟨rfl, hresolve⟩ := perform_changed directory format file hrun
        rw [hlater] at h
        have hkeeps := writeAllOn_keepsDirs directory format files after
        exact ⟨file, List.mem_cons_self, FileTree.resolve_mono hkeeps (hresolve place h)⟩
      · obtain ⟨other, hmem, hresolve⟩ := ih after hlater
        exact ⟨other, List.mem_cons_of_mem _ hmem, hresolve⟩

/-- A run that ends well has written all files. -/
theorem paths_of_writeAllOn {paths : List String}
    (h : (writeAllOn directory format files disk).1 = .ok paths) :
    paths = files.map (filePath directory format) := by
  induction files generalizing disk paths with
  | nil => exact (Except.ok.inj h).symm
  | cons file files ih =>
    rcases hrun : ((writing format file).perform directory).run disk with ⟨e | path, after⟩
    · rw [writeAllOn_error directory format file files hrun] at h
      exact absurd h nofun
    · rw [writeAllOn_ok directory format file files hrun] at h
      obtain ⟨rfl, -⟩ := perform_changed directory format file hrun
      cases hrest : (writeAllOn directory format files after).1 with
      | error e =>
        rw [hrest] at h
        exact absurd h nofun
      | ok later =>
        rw [hrest] at h
        rw [← Except.ok.inj h, ih after hrest, List.map_cons]

end Files

/-- The name of a parameter file begins with that of its dialect. -/
theorem isAbsolute_slotName (params : Params) (format : ParamsFormat) (slot : ParamsSlot) :
    Path.isAbsolute (params.slotName format slot) = false := by
  rw [slotName_eq, Path.isAbsolute, Target.toList_name]
  cases (params.target format slot).dialect with
  | forum | feed => rfl

theorem startsWith_filePath (directory : String) (format : ParamsFormat)
    (file : Params × ParamsSlot) : Path.StartsWith (filePath directory format file) directory :=
  Path.startsWith_join directory (isAbsolute_slotName file.1 format file.2)

end Params

/-! ## 2. The command -/

namespace CompileCommand

/-- The paths of the files that the command writes into a directory. -/
def filePaths (command : CompileCommand) (clock : Clock) (config : Config) (directory : String) :
    List String :=
  ((command.compiled config clock.today).files config (command.searchId clock) command.latest).map
    (Params.filePath directory (command.format config))

/-- What the command prints when it is run on a disk, and the disk afterwards. -/
def runOn (command : CompileCommand) (env : Environment) (clock : Clock) (config : Config)
    (disk : Unreliable) : Except ParamsError String × Unreliable :=
  (command.run env clock config : StateM Unreliable _).run disk

section Run

variable (command : CompileCommand) (env : Environment) (clock : Clock) (config : Config)
  (disk : Unreliable)

theorem runOn_untouched
    (h : command.buckets = true ∨ command.directory? env config = none) :
    (command.runOn env clock config disk).2 = disk := by
  rw [runOn, run]
  by_cases hbuckets : command.buckets = true
  · rw [if_pos hbuckets]
    rfl
  · rw [if_neg hbuckets, h.resolve_left hbuckets]
    rfl

theorem runOn_writes {directory : String} (hbuckets : command.buckets = false)
    (hdirectory : command.directory? env config = some directory) :
    command.runOn env clock config disk =
      let written := Params.writeAllOn directory (command.format config)
        ((command.compiled config clock.today).files config (command.searchId clock)
          command.latest) disk
      (written.1.map fun paths => String.join (paths.map (· ++ "\n")), written.2) := by
  rw [runOn, run, if_neg (by simp [hbuckets]), hdirectory]
  rfl

/-- What the command has changed is a parameter file in its directory. -/
theorem runOn_changed {place : Location}
    (h : (command.runOn env clock config disk).2.tree.fileAt? place ≠ disk.tree.fileAt? place) :
    ∃ directory, command.directory? env config = some directory ∧
      ∃ path ∈ command.filePaths clock config directory,
        (command.runOn env clock config disk).2.tree.resolve path = .ok place := by
  cases hbuckets : command.buckets with
  | true =>
    rw [runOn_untouched command env clock config disk (.inl hbuckets)] at h
    exact absurd rfl h
  | false =>
    cases hdirectory : command.directory? env config with
    | none =>
      rw [runOn_untouched command env clock config disk (.inr hdirectory)] at h
      exact absurd rfl h
    | some directory =>
      rw [runOn_writes command env clock config disk hbuckets hdirectory] at h ⊢
      obtain ⟨file, hmem, hresolve⟩ := Params.writeAllOn_changed directory _ _ disk h
      exact ⟨directory, rfl, _, List.mem_map_of_mem hmem, hresolve⟩

/-- A run that ends well prints the paths of all files. -/
theorem runOn_prints {directory text : String} (hbuckets : command.buckets = false)
    (hdirectory : command.directory? env config = some directory)
    (h : (command.runOn env clock config disk).1 = .ok text) :
    text = String.join ((command.filePaths clock config directory).map (· ++ "\n")) := by
  rw [runOn_writes command env clock config disk hbuckets hdirectory] at h
  dsimp only at h
  cases hwritten : (Params.writeAllOn directory (command.format config)
      ((command.compiled config clock.today).files config (command.searchId clock)
        command.latest) disk).1 with
  | error e =>
    rw [hwritten] at h
    exact absurd h nofun
  | ok paths =>
    rw [hwritten] at h
    rw [← Except.ok.inj h, Params.paths_of_writeAllOn directory _ _ disk hwritten, filePaths]

end Run

/-! ## 3. The home directory -/

/-- What stands behind the tilde and its slash is joined to the home directory. -/
theorem outputDirectory_home {env : Environment} {config : Config} {home rest : String}
    (hhome : env.home? = some home) (hdirectory : config.output.directory = "~/" ++ rest) :
    config.outputDirectory env = Path.join home rest := by
  have htext : config.output.directory.toList = '~' :: '/' :: rest.toList := by
    rw [hdirectory, String.toList_append]
    rfl
  simp only [Config.outputDirectory, htext, hhome, String.ofList_toList]

/-- **What the command writes stays below the home directory** if what stands behind `~/` is
relative.  Otherwise it is an absolute path and the directory itself, which then starts with the
home directory only if it does so in full.

Whatever fails on the way, a file that has changed is one of the parameter files in that directory,
under whichever name, and their paths start with the directory. -/
theorem written_below_home (command : CompileCommand) (env : Environment) (clock : Clock)
    (config : Config) (home rest : String) (disk : Unreliable)
    (hhome : env.home? = some home) (hdirectory : config.output.directory = "~/" ++ rest)
    (hout : command.out? = none) :
    let directory := config.outputDirectory env
    let paths := command.filePaths clock config directory
    let after := command.runOn env clock config disk
    (Path.StartsWith directory home ↔
      Path.isAbsolute rest = false ∨ Path.StartsWith rest home) ∧
    (Path.isAbsolute rest = true → directory = rest) ∧
    (∀ place, after.2.tree.fileAt? place ≠ disk.tree.fileAt? place →
      ∃ path ∈ paths, after.2.tree.resolve path = .ok place) ∧
    (command.write = true → command.buckets = false → ∀ text, after.1 = .ok text →
      text = String.join (paths.map (· ++ "\n"))) ∧
    ∀ path ∈ paths, Path.StartsWith path directory ∧
      (Path.isAbsolute rest = false → Path.StartsWith path home) := by
  intro directory paths after
  have hjoin : directory = Path.join home rest := outputDirectory_home hhome hdirectory
  refine ⟨?_, ?_, ?_, ?_, ?_⟩
  · rw [hjoin]
    exact Path.startsWith_join_iff home rest
  · intro habsolute
    rw [hjoin, Path.join_absolute home habsolute]
  · intro place hchanged
    obtain ⟨used, hused, hpath⟩ := runOn_changed command env clock config disk hchanged
    have hsame : used = directory := by
      simp only [directory?, hout] at hused
      split at hused
      · exact (Option.some.inj hused).symm
      · exact absurd hused nofun
    rw [hsame] at hpath
    exact hpath
  · intro hwrite hbuckets text htext
    have hused : command.directory? env config = some directory := by
      simp only [directory?, hout, hwrite, if_true]
      rfl
    exact runOn_prints command env clock config disk hbuckets hused htext
  · intro path hpath
    obtain ⟨file, -, rfl⟩ := List.mem_map.mp hpath
    have hstarts := Params.startsWith_filePath directory (command.format config) file
    refine ⟨hstarts, ?_⟩
    intro hrelative
    refine hstarts.trans ?_
    rw [hjoin]
    exact Path.startsWith_join home hrelative

/-- Two levels below the home directory, with more slashes than needed. -/
theorem written_below_home_twice :
    let config : Config := { output := { directory := "~/harvest//params" } }
    let env : Environment := { home? := some "/home/" }
    let command : CompileCommand := { query := "wheat", write := true, latest := true }
    let clock : Clock := { today := ⟨2024, 2, 3, by decide⟩, millis := 5 }
    Path.StartsWith (config.outputDirectory env) "/home" ∧
      ∀ path ∈ command.filePaths clock config (config.outputDirectory env),
        Path.StartsWith path "/home/" := by
  intro config env command clock
  obtain ⟨hdirectory, -, -, -, hpaths⟩ := written_below_home command env clock config "/home/"
    "harvest//params" { tree := {} } rfl rfl rfl
  refine ⟨?_, ?_⟩
  · exact (hdirectory.mpr (.inl (by decide))).trans (by decide)
  · intro path hpath
    exact (hpaths path hpath).2 (by decide)

/-- A second slash behind the tilde takes the files out of the home directory. -/
theorem absolute_behind_tilde :
    let config : Config := { output := { directory := "~//etc" } }
    let env : Environment := { home? := some "home" }
    let command : CompileCommand :=
      { query := "wheat", dialects := [.feed], write := true, searchId? := some "1" }
    let clock : Clock := { today := ⟨2024, 2, 3, by decide⟩, millis := 5 }
    config.outputDirectory env = "/etc" ∧ ¬ Path.StartsWith "/etc" "home" ∧
      command.filePaths clock config (config.outputDirectory env) =
        ["/etc/feed_search_params_1.py"] ∧
      ¬ Path.StartsWith "/etc/feed_search_params_1.py" "home" := by
  intro config env command clock
  refine ⟨by decide, by decide, ?_, by decide⟩
  decide

end CompileCommand
end Collector
