/-
# Parameter files side by side

Any number of parameter files are written into one directory, one after another, on a disk on
which every access can fail.  A file holds what the last successful writing for its target gave
it, and no other file changes (`performAll_keeps_apart`).

What one writing does is settled first, by where it ends (`perform_cases`): with an ID that is
refused nothing has been touched, a later failure leaves new directories at most, and a success
has put one file where its name leads.  It does succeed in a directory that is there when nothing
is wrong with the name (`perform_succeeds`).

From there the files are followed one writing at a time: targets have different names, so that a
writing changes the file of its own target, and directories are never taken away, so that a path
that has been written to can still be read.
-/
import Collector.Proofs.Files.Unreliable
import Collector.Proofs.Params.Targets

namespace Collector
namespace Params

/-- Parameters that are to be written, in a format and under one of their names. -/
structure Writing where
  params : Params
  format : ParamsFormat
  slot : ParamsSlot

namespace Writing

def target (w : Writing) : Target := w.params.target w.format w.slot

/-- What the file is to hold. -/
def text (w : Writing) : String := w.params.render w.format

/-- The search ID cannot be part of a file name. -/
def problem? (w : Writing) : Option SearchIdProblem := searchIdProblem? w.params.searchId

/-- The writing carried out, with the path of the file or the reason of the failure. -/
def perform (w : Writing) (directory : String) :
    StateM Unreliable (Except ParamsError String) :=
  w.params.write directory w.format w.slot

/-! ## 1. One writing -/

/-- The writing step by step. -/
theorem perform_run (w : Writing) (directory : String) (disk : Unreliable) :
    (w.perform directory).run disk =
      match w.problem? with
      | some problem => (.error (.searchId problem), disk)
      | none =>
        match (Disk.makeDirs directory : StateM Unreliable _).run disk with
        | (.error _, made) => (.error (.directory directory), made)
        | (.ok (), made) =>
          let path := Path.join directory w.target.name
          match (Disk.write path w.text.toUTF8 : StateM Unreliable _).run made with
          | (.error _, after) => (.error (.file path), after)
          | (.ok (), after) => (.ok path, after) := by
  unfold perform write problem?
  cases searchIdProblem? w.params.searchId with
  | some problem => rfl
  | none =>
    simp only [StateT.run_bind, slotName_eq]
    rcases (Disk.makeDirs directory : StateM Unreliable _).run disk with ⟨fault | done, made⟩
    · rfl
    · dsimp only
      change (Disk.write (Path.join directory w.target.name) w.text.toUTF8 >>= _ :
        StateM Unreliable _).run made = _
      rw [StateT.run_bind]
      rcases (Disk.write (Path.join directory w.target.name) w.text.toUTF8 :
        StateM Unreliable _).run made with ⟨fault | done, after⟩
      · rfl
      · rfl

/-- **How a writing can end.**  The ID is refused and nothing has been touched; or the writing
fails later, when there may be new directories; or the file has been written. -/
theorem perform_cases (w : Writing) (directory : String) (disk : Unreliable) :
    let after := (w.perform directory).run disk
    (∃ problem, w.problem? = some problem ∧ after = (.error (.searchId problem), disk)) ∨
    (w.problem? = none ∧ (∃ e, after.1 = .error e) ∧ disk.tree.Extends after.2.tree) ∨
    (w.problem? = none ∧ after.1 = .ok (Path.join directory w.target.name) ∧
      ∃ made : FileTree, disk.tree.Extends made ∧
        made.write (Path.join directory w.target.name) w.text.toUTF8 = .ok after.2.tree) := by
  rw [perform_run]
  cases hproblem : w.problem? with
  | some problem => exact .inl ⟨problem, rfl, rfl⟩
  | none =>
    have hdirs := Unreliable.makeDirs_extends directory disk
    generalize (Disk.makeDirs directory : StateM Unreliable _).run disk = made at hdirs
    obtain ⟨fault | done, made⟩ := made
    · exact .inr (.inl ⟨rfl, ⟨_, rfl⟩, hdirs⟩)
    · have hwrite := Unreliable.write_cases (Path.join directory w.target.name) w.text.toUTF8 made
      dsimp only at hwrite ⊢
      generalize (Disk.write (Path.join directory w.target.name) w.text.toUTF8 :
        StateM Unreliable _).run made = after at hwrite
      obtain ⟨fault | done, after⟩ := after
      · rcases hwrite with ⟨hok, -⟩ | ⟨_, -, htree⟩
        · exact absurd hok nofun
        · exact .inr (.inl ⟨rfl, ⟨_, rfl⟩, htree ▸ hdirs⟩)
      · rcases hwrite with ⟨-, hwritten⟩ | ⟨_, herror, -⟩
        · exact .inr (.inr ⟨rfl, rfl, made.tree, hdirs, hwritten⟩)
        · exact absurd herror nofun

/-! ## 2. What one writing leaves behind -/

/-- The place of a target's file, in the directory that its path is joined to. -/
def place (tree : FileTree) (directory : String) (t : Target) : Location :=
  tree.placeOf directory ++ [t.name]

theorem place_ne_nil (tree : FileTree) (directory : String) (t : Target) :
    place tree directory t ≠ [] := List.append_ne_nil_of_right_ne_nil _ (List.cons_ne_nil _ _)

theorem place_keepsDirs {tree tree' : FileTree} (hkeeps : tree.KeepsDirs tree')
    (directory : String) (t : Target) : place tree' directory t = place tree directory t := by
  rw [place, place, FileTree.placeOf_keepsDirs hkeeps]

/-- Targets with different names have different places. -/
theorem place_injective (tree : FileTree) (directory : String) :
    Function.Injective (place tree directory) := by
  intro t t' h
  have hnames : [t.name] = [t'.name] := List.append_cancel_left h
  exact Target.name_injective (List.cons.inj hnames).1

/-- The file of an accepted ID is the child of the directory with its name. -/
theorem placeOf_join_target (tree : FileTree) (directory : String) {t : Target}
    (h : t.NoSlash) : tree.placeOf (Path.join directory t.name) = place tree directory t :=
  tree.placeOf_join directory (Target.isName h)

theorem noSlash_target {w : Writing} (h : w.problem? = none) : w.target.NoSlash :=
  Target.noSlash_of_accepted h w.format w.slot

variable (w : Writing) (directory : String) (disk : Unreliable)

/-- A writing whose ID is refused touches nothing. -/
theorem perform_refused {problem : SearchIdProblem} (h : w.problem? = some problem) :
    (w.perform directory).run disk = (.error (.searchId problem), disk) := by
  rw [perform_run, h]

/-- A successful writing has put its text where the target's name leads. -/
theorem perform_ok {path : String} (h : ((w.perform directory).run disk).1 = .ok path) :
    w.problem? = none ∧ path = Path.join directory w.target.name ∧
      ∃ made : FileTree, disk.tree.Extends made ∧
        made.resolve path = .ok (place disk.tree directory w.target) ∧
        made.KeepsDirs ((w.perform directory).run disk).2.tree ∧
        ((w.perform directory).run disk).2.tree =
          made.put (place disk.tree directory w.target) (.file w.text.toUTF8 disk.tree.now) := by
  rcases perform_cases w directory disk with
    ⟨_, -, hafter⟩ | ⟨-, ⟨_, herror⟩, -⟩ | ⟨haccepted, hpath, made, hextends, hwrite⟩
  · rw [hafter] at h
    exact absurd h nofun
  · rw [herror] at h
    exact absurd h nofun
  · rw [hpath] at h
    obtain rfl := Except.ok.inj h
    have hplace : made.placeOf (Path.join directory w.target.name) =
        place disk.tree directory w.target := by
      rw [placeOf_join_target made directory (noSlash_target haccepted),
        place_keepsDirs hextends.keepsDirs]
    have hkeeps := FileTree.keepsDirs_write (hplace ▸ place_ne_nil _ _ _) hwrite
    obtain ⟨hresolve, -, hput⟩ := FileTree.write_eq_ok hwrite
    rw [hplace] at hresolve hput
    rw [hextends.now] at hput
    exact ⟨haccepted, rfl, made, hextends, hresolve, hkeeps, hput⟩

/-- A writing into a directory that is there succeeds, unless something is wrong with the name or
a directory stands in its place. -/
theorem perform_succeeds {tree : FileTree} {start : Location} (haccepted : w.problem? = none)
    (hdirectory : tree.resolve directory = .ok start) (hdir : tree.find? start = some .dir)
    (hname : w.target.name.utf8ByteSize ≤ 255)
    (hpath : FileTree.unusable? (Path.join directory w.target.name) = none)
    (hfree : tree.find? (start ++ [w.target.name]) ≠ some .dir) :
    ((w.perform directory).run { tree }).1 = .ok (Path.join directory w.target.name) := by
  have hresolve := FileTree.resolve_join hdirectory hdir
    (Target.isName (noSlash_target haccepted)) hname hpath
  let written := tree.put (start ++ [w.target.name]) (.file w.text.toUTF8 tree.now)
  have hwrite : (Disk.write (Path.join directory w.target.name) w.text.toUTF8 :
      StateM Unreliable _).run { tree } = (.ok (), { tree := written }) := by
    change Unreliable.operate (fun tree => tree.settle (tree.write _ _)) { tree } = _
    rw [Unreliable.operate_faultless, FileTree.write_of_resolve hresolve hfree]
    rfl
  rw [perform_run, haccepted, Unreliable.makeDirs_of_resolve hdirectory hdir]
  dsimp only
  rw [hwrite]

/-- A writing that fails gives the tree new directories at most. -/
theorem perform_error {e : ParamsError} (h : ((w.perform directory).run disk).1 = .error e) :
    disk.tree.Extends ((w.perform directory).run disk).2.tree := by
  rcases perform_cases w directory disk with
    ⟨_, -, hafter⟩ | ⟨-, -, hextends⟩ | ⟨-, hpath, -⟩
  · rw [hafter]
    exact .refl disk.tree
  · exact hextends
  · rw [hpath] at h
    exact absurd h nofun

theorem perform_keepsDirs : disk.tree.KeepsDirs ((w.perform directory).run disk).2.tree := by
  cases hresult : ((w.perform directory).run disk).1 with
  | error e => exact (perform_error w directory disk hresult).keepsDirs
  | ok path =>
    obtain ⟨-, -, made, hextends, -, hkeeps, -⟩ := perform_ok w directory disk hresult
    exact hextends.keepsDirs.trans hkeeps

/-- **One writing changes at most the file of its own target.** -/
theorem perform_fileAt? (other : Location) :
    ((w.perform directory).run disk).2.tree.fileAt? other =
      if ((w.perform directory).run disk).1.isOk ∧ other = place disk.tree directory w.target then
        some (w.text.toUTF8, disk.tree.now)
      else disk.tree.fileAt? other := by
  cases hresult : ((w.perform directory).run disk).1 with
  | error e =>
    rw [if_neg (by simp [Except.isOk, Except.toBool])]
    exact (perform_error w directory disk hresult).fileAt? other
  | ok path =>
    obtain ⟨-, -, made, hextends, -, -, hput⟩ := perform_ok w directory disk hresult
    rw [hput, FileTree.fileAt?_put made (place_ne_nil _ _ _), hextends.fileAt?]
    simp [Except.isOk, Except.toBool]

/-- The same for the file of a target. -/
theorem perform_fileAt?_place (t : Target) :
    ((w.perform directory).run disk).2.tree.fileAt? (place disk.tree directory t) =
      if ((w.perform directory).run disk).1.isOk ∧ w.target = t then
        some (w.text.toUTF8, disk.tree.now)
      else disk.tree.fileAt? (place disk.tree directory t) := by
  rw [perform_fileAt?]
  refine if_congr (and_congr_right fun _ => ?_) rfl rfl
  rw [(place_injective disk.tree directory).eq_iff, eq_comm]

/-! ## 3. Writing after writing -/

/-- Writings carried out one after another, whatever becomes of them, each with its result. -/
def performAll (directory : String) :
    List Writing → StateM Unreliable (List (Writing × Except ParamsError String))
  | [] => return []
  | w :: rest => do
    let result ← w.perform directory
    return (w, result) :: (← performAll directory rest)

/-- The text of the last successful writing for a target. -/
def lastText? (t : Target) (log : List (Writing × Except ParamsError String)) : Option String :=
  log.reverse.findSome? fun (w, result) =>
    if result.isOk ∧ w.target = t then some w.text else none

theorem lastText?_cons (t : Target) (w : Writing) (result : Except ParamsError String)
    (log : List (Writing × Except ParamsError String)) :
    lastText? t ((w, result) :: log) =
      (lastText? t log).or (if result.isOk ∧ w.target = t then some w.text else none) := by
  rw [lastText?, List.reverse_cons, List.findSome?_append]
  simp [lastText?]

/-- The last text is that of the first writing if no later one has succeeded. -/
theorem lastText?_performAll_cons (t : Target) (rest : List Writing) :
    lastText? t ((performAll directory (w :: rest)).run disk).1 =
      (lastText? t ((performAll directory rest).run ((w.perform directory).run disk).2).1).or
        (if ((w.perform directory).run disk).1.isOk ∧ w.target = t then some w.text else none) :=
  lastText?_cons t w _ _

variable (writings : List Writing)

theorem performAll_keepsDirs :
    disk.tree.KeepsDirs ((performAll directory writings).run disk).2.tree := by
  induction writings generalizing disk with
  | nil => exact .refl disk.tree
  | cons w rest ih => exact (perform_keepsDirs w directory disk).trans (ih _)

/-- The log has the writings in their order. -/
theorem map_fst_performAll :
    ((performAll directory writings).run disk).1.map Prod.fst = writings := by
  induction writings generalizing disk with
  | nil => rfl
  | cons w rest ih => exact congrArg (w :: ·) (ih _)

/-- The file of a target holds what the last successful writing for it gave it. -/
theorem performAll_fileAt? (t : Target) :
    ((performAll directory writings).run disk).2.tree.fileAt? (place disk.tree directory t) =
      match lastText? t ((performAll directory writings).run disk).1 with
      | some text => some (text.toUTF8, disk.tree.now)
      | none => disk.tree.fileAt? (place disk.tree directory t) := by
  induction writings generalizing disk with
  | nil => rfl
  | cons w rest ih =>
    have hkeeps := perform_keepsDirs w directory disk
    have hrest := ih ((w.perform directory).run disk).2
    rw [place_keepsDirs hkeeps, hkeeps.now, perform_fileAt?_place] at hrest
    rw [lastText?_performAll_cons]
    refine hrest.trans ?_
    cases lastText? t ((performAll directory rest).run ((w.perform directory).run disk).2).1 with
    | some text => rfl
    | none =>
      by_cases hfirst : ((w.perform directory).run disk).1.isOk ∧ w.target = t
      · simp only [if_pos hfirst, Option.none_or]
      · simp only [if_neg hfirst, Option.none_or]

/-- A file changes only where a writing has succeeded. -/
theorem performAll_fileAt?_other (other : Location)
    (h : ∀ entry ∈ ((performAll directory writings).run disk).1,
      entry.2.isOk → other ≠ place disk.tree directory entry.1.target) :
    ((performAll directory writings).run disk).2.tree.fileAt? other =
      disk.tree.fileAt? other := by
  induction writings generalizing disk with
  | nil => rfl
  | cons w rest ih =>
    have hkeeps := perform_keepsDirs w directory disk
    have hrest := ih ((w.perform directory).run disk).2 fun entry hentry hok => by
      rw [place_keepsDirs hkeeps]
      exact h entry (List.mem_cons_of_mem _ hentry) hok
    have hfirst := perform_fileAt? w directory disk other
    rw [if_neg fun hboth => h _ List.mem_cons_self hboth.1 hboth.2] at hfirst
    exact hrest.trans hfirst

/-- The path of every file that has been written leads, then and later, to the child of the
directory that the target names. -/
theorem performAll_resolve {entry : Writing × Except ParamsError String}
    (hentry : entry ∈ ((performAll directory writings).run disk).1) {path : String}
    (hpath : entry.2 = .ok path) :
    path = Path.join directory entry.1.target.name ∧
      ((performAll directory writings).run disk).2.tree.resolve path =
        .ok (place disk.tree directory entry.1.target) := by
  induction writings generalizing disk with
  | nil => exact absurd hentry nofun
  | cons w rest ih =>
    rcases List.mem_cons.mp hentry with rfl | hlater
    · obtain ⟨-, hjoin, made, -, hresolve, hmade, -⟩ := perform_ok w directory disk hpath
      have hrest := performAll_keepsDirs directory ((w.perform directory).run disk).2 rest
      exact ⟨hjoin, FileTree.resolve_mono (hmade.trans hrest) hresolve⟩
    · obtain ⟨hjoin, hresolve⟩ := ih ((w.perform directory).run disk).2 hlater
      rw [place_keepsDirs (perform_keepsDirs w directory disk)] at hresolve
      exact ⟨hjoin, hresolve⟩

/-- A last text is that of a successful writing in the log. -/
theorem exists_of_lastText? {t : Target} {log : List (Writing × Except ParamsError String)}
    {text : String} (h : lastText? t log = some text) :
    ∃ entry ∈ log, entry.1.target = t ∧ ∃ path, entry.2 = .ok path := by
  obtain ⟨⟨w, result⟩, hmem, hentry⟩ := List.exists_of_findSome?_eq_some h
  refine ⟨(w, result), List.mem_reverse.mp hmem, ?_⟩
  obtain ⟨hok, htarget⟩ : result.isOk ∧ w.target = t := by
    by_contra hnot
    exact absurd ((if_neg hnot).symm.trans hentry) nofun
  cases result with
  | error e => exact absurd hok nofun
  | ok path => exact ⟨htarget, path, rfl⟩

/-- The last text for a target can be read under the path of the target. -/
theorem performAll_read (t : Target) {text : String}
    (h : lastText? t ((performAll directory writings).run disk).1 = some text) :
    ((performAll directory writings).run disk).2.tree.read (Path.join directory t.name) =
      .ok text.toUTF8 := by
  obtain ⟨entry, hentry, rfl, path, hpath⟩ := exists_of_lastText? h
  obtain ⟨rfl, hresolve⟩ := performAll_resolve directory disk writings hentry hpath
  have hfile := performAll_fileAt? directory disk writings entry.1.target
  rw [h] at hfile
  exact FileTree.read_of_fileAt? hresolve hfile

/-- **No search overwrites another.**  Parameter files are written into one directory, whatever
their searches, dialects, formats and contents, and whatever fails on the way.

Afterwards the file of every target holds what the last successful writing for that very target
gave it, and is as it was at first if there was none; it is the file that one finds under the
name of the target in the directory, unless a slash in a refused ID makes the name lead
elsewhere.  All other files are as they were, and all paths that have been written are those of
children of the directory.

At any moment, a writing whose ID is refused changes nothing, and one that fails later changes
no file. -/
theorem performAll_keeps_apart (directory : String) (writings : List Writing)
    (disk : Unreliable) :
    let place := place disk.tree directory
    let (log, last) := (performAll directory writings).run disk
    log.map Prod.fst = writings ∧
    (∀ t, last.tree.fileAt? (place t) =
      match lastText? t log with
      | some text => some (text.toUTF8, disk.tree.now)
      | none => disk.tree.fileAt? (place t)) ∧
    (∀ t text, lastText? t log = some text →
      last.tree.read (Path.join directory t.name) = .ok text.toUTF8) ∧
    (∀ t : Target, t.NoSlash → disk.tree.placeOf (Path.join directory t.name) = place t) ∧
    (∀ other, (∀ entry ∈ log, entry.2.isOk → other ≠ place entry.1.target) →
      last.tree.fileAt? other = disk.tree.fileAt? other) ∧
    (∀ entry ∈ log, ∀ path, entry.2 = .ok path →
      path = Path.join directory entry.1.target.name ∧
        last.tree.resolve path = .ok (place entry.1.target)) ∧
    ∀ (w : Writing) (before : Unreliable),
      (∀ problem, w.problem? = some problem →
        (w.perform directory).run before = (.error (.searchId problem), before)) ∧
      ∀ e after, (w.perform directory).run before = (.error e, after) →
        ∀ other, after.tree.fileAt? other = before.tree.fileAt? other := by
  refine ⟨map_fst_performAll directory disk writings,
    performAll_fileAt? directory disk writings,
    fun t _ => performAll_read directory disk writings t,
    fun t => placeOf_join_target disk.tree directory,
    performAll_fileAt?_other directory disk writings,
    fun entry hentry path => performAll_resolve directory disk writings hentry,
    fun w before => ⟨fun problem => perform_refused w directory before, ?_⟩⟩
  intro e after hafter other
  have hextends := perform_error w directory before (e := e) (by rw [hafter])
  rw [hafter] at hextends
  exact hextends.fileAt? other

end Writing
end Params
end Collector
