/-
# Where a path leads

A path is resolved along its names, and every name on the way must belong to a directory.  Whether
this succeeds depends on the tree; where it leads does not: `placeOf` is read off the path and the
directory that relative paths start from (`placeOf_of_resolve`).

So a path that has been resolved leads to the same location for as long as the directories stay
(`resolve_mono`), and the path of a name seen from a directory leads to that name in the
directory (`placeOf_join`).  A write and a new directory change the tree at one location only
(`write_eq_ok`, `makeDir_eq_ok`).
-/
import Collector.Files.Tree
import Mathlib.Data.List.Basic

namespace Collector

/-! ## 1. A name joined to a path -/

namespace Path

/-- What a file in a directory can be called: a text without a slash that is no dot and no pair of
dots. -/
structure IsName (name : String) : Prop where
  noSlash : '/' ∉ name.toList
  ne_empty : name ≠ ""
  ne_dot : name ≠ "."
  ne_dotDot : name ≠ ".."

/-- The names between the slashes of a text. -/
def namesIn (t : List Char) : List String :=
  ((t.splitOnP (· == '/')).filter (fun part => !part.isEmpty)).map String.ofList

theorem names_eq (path : String) : names path = namesIn path.toList := rfl

theorem namesIn_slash (u v : List Char) : namesIn (u ++ '/' :: v) = namesIn u ++ namesIn v := by
  rw [namesIn, List.splitOnP_append_cons u v rfl, List.filter_append, List.map_append]
  rfl

theorem namesIn_name {name : String} (h : IsName name) : namesIn name.toList = [name] := by
  have hwhole : name.toList.splitOnP (· == '/') = [name.toList] :=
    List.splitOnP_eq_singleton fun c hc =>
      beq_eq_false_iff_ne.mpr fun hslash => h.noSlash (hslash ▸ hc)
  simp [namesIn, hwhole, h.ne_empty]

theorem isAbsolute_name {name : String} (h : IsName name) : isAbsolute name = false := by
  rw [isAbsolute, beq_eq_false_iff_ne]
  exact fun hhead => h.noSlash (List.mem_of_mem_head? hhead)

/-- A joined path is the directory with the name behind it, with or without a slash between. -/
theorem join_name (directory : String) {name : String} (h : IsName name) :
    join directory name =
      if directory.isEmpty || endsInSlash directory then directory ++ name
      else directory ++ "/" ++ name := by
  rw [join, isAbsolute_name h, if_neg Bool.false_ne_true]

theorem join_empty (more : String) : join "" more = more := by
  simp [join]

/-- There is one slash between a path and a relative one joined to it. -/
theorem toList_join {directory more : String} (hne : directory ≠ "")
    (hmore : isAbsolute more = false) :
    ∃ front, (directory.toList = front ∨ directory.toList = front ++ ['/']) ∧
      (join directory more).toList = front ++ '/' :: more.toList := by
  rw [join, if_neg (by simp [hmore])]
  split
  · rename_i hend
    have hslash : directory.toList.getLast? = some '/' := by simpa [hne, endsInSlash] using hend
    obtain ⟨front, hfront⟩ := List.getLast?_eq_some_iff.mp hslash
    refine ⟨front, .inr hfront, ?_⟩
    rw [String.toList_append, hfront, List.append_assoc, List.singleton_append]
  · refine ⟨directory.toList, .inl rfl, ?_⟩
    rw [String.toList_append, String.toList_append, List.append_assoc]
    rfl

/-- The names along a path are those of the directory and those of what is joined to it. -/
theorem names_join_relative (directory : String) {more : String}
    (hmore : isAbsolute more = false) :
    names (join directory more) = names directory ++ names more := by
  by_cases hne : directory = ""
  · subst hne
    rw [join_empty]
    rfl
  · obtain ⟨front, hdirectory, hjoined⟩ := toList_join hne hmore
    have hfront : names directory = namesIn front := by
      rw [names_eq]
      rcases hdirectory with hsame | hslash
      · rw [hsame]
      · rw [hslash, namesIn_slash]
        exact List.append_nil _
    rw [names_eq, hjoined, namesIn_slash, hfront, names_eq]

/-- **The names along a joined path** are those of the directory and the name. -/
theorem names_join (directory : String) {name : String} (h : IsName name) :
    names (join directory name) = names directory ++ [name] := by
  rw [names_join_relative directory (isAbsolute_name h), names_eq name, namesIn_name h]

/-- A path begins at the root if the directory does that something relative is joined to. -/
theorem isAbsolute_join_relative {directory more : String} (hne : directory ≠ "")
    (hmore : isAbsolute more = false) :
    isAbsolute (join directory more) = isAbsolute directory := by
  obtain ⟨front, hdirectory, hjoined⟩ := toList_join hne hmore
  rw [isAbsolute, isAbsolute, hjoined]
  rcases hdirectory with hsame | hslash
  · have hfront : front ≠ [] := fun hnil =>
      hne (String.toList_eq_nil_iff.mp (hsame.trans hnil))
    rw [hsame, List.head?_append_of_ne_nil _ hfront]
  · rw [hslash]
    cases front with
    | nil => rfl
    | cons c front => rfl

/-- A joined path begins at the root if the directory does. -/
theorem isAbsolute_join (directory : String) {name : String} (h : IsName name) :
    isAbsolute (join directory name) = isAbsolute directory := by
  by_cases hempty : directory = ""
  · subst hempty
    rw [join_empty]
    exact isAbsolute_name h
  · exact isAbsolute_join_relative hempty (isAbsolute_name h)

theorem endsInSlash_join (directory : String) {name : String} (h : IsName name) :
    endsInSlash (join directory name) = false := by
  have hlast (front : String) : endsInSlash (front ++ name) = false := by
    rw [endsInSlash, beq_eq_false_iff_ne, String.toList_append]
    intro hslash
    rw [List.getLast?_append] at hslash
    cases hname : name.toList.getLast? with
    | none =>
      rw [List.getLast?_eq_none_iff, String.toList_eq_nil_iff] at hname
      exact h.ne_empty hname
    | some c =>
      rw [hname, Option.some_or, Option.some_inj] at hslash
      exact h.noSlash (hslash ▸ List.mem_of_getLast? hname)
  rw [join_name directory h]
  split
  · exact hlast directory
  · exact hlast (directory ++ "/")

end Path

namespace FileTree

/-! ## 2. Nodes by location -/

@[simp] theorem find?_root (tree : FileTree) : tree.find? [] = some .dir := rfl

/-- Putting a node somewhere changes the tree there and nowhere else. -/
theorem find?_put (tree : FileTree) {place : Location} (hplace : place ≠ []) (node : Node)
    (other : Location) :
    (tree.put place node).find? other = if other = place then some node else tree.find? other := by
  cases other with
  | nil => rw [find?_root, find?_root, if_neg (Ne.symm hplace)]
  | cons name rest =>
    simp only [find?, put, erase, List.isEmpty_cons, Bool.false_eq_true, if_false]
    by_cases hsame : name :: rest = place
    · simp [hsame]
    · rw [if_neg hsame, List.find?_cons_of_neg (by simpa using Ne.symm hsame), List.find?_filter]
      congr 2
      funext entry
      by_cases hentry : entry.1 = name :: rest
      · simp [hentry, hsame]
      · simp [hentry]

/-- What a regular file at a location holds, and when it was changed.  None if there is no file. -/
def fileAt? (tree : FileTree) (place : Location) : Option (ByteArray × Int) :=
  match tree.find? place with
  | some (.file contents modified) => some (contents, modified)
  | _ => none

theorem fileAt?_put (tree : FileTree) {place : Location} (hplace : place ≠ [])
    (contents : ByteArray) (modified : Int) (other : Location) :
    (tree.put place (.file contents modified)).fileAt? other =
      if other = place then some (contents, modified) else tree.fileAt? other := by
  rw [fileAt?, find?_put tree hplace]
  by_cases hother : other = place
  · rw [if_pos hother, if_pos hother]
  · rw [if_neg hother, if_neg hother, fileAt?]

/-- What happens to a tree when files are written and directories are made: none of its
directories goes away. -/
structure KeepsDirs (tree tree' : FileTree) : Prop where
  workDir : tree'.workDir = tree.workDir
  now : tree'.now = tree.now
  dirs (place : Location) : tree.find? place = some .dir → tree'.find? place = some .dir

namespace KeepsDirs

variable {tree tree' tree'' : FileTree}

theorem refl (tree : FileTree) : KeepsDirs tree tree := ⟨rfl, rfl, fun _ hdir => hdir⟩

theorem trans (h : KeepsDirs tree tree') (h' : KeepsDirs tree' tree'') : KeepsDirs tree tree'' :=
  ⟨h'.workDir.trans h.workDir, h'.now.trans h.now,
    fun place hdir => h'.dirs place (h.dirs place hdir)⟩

end KeepsDirs

/-! ## 3. Locations by path -/

/-- The location that a name leads to from another one. -/
def descend (place : Location) (name : String) : Location :=
  if name = "." then place else if name = ".." then place.dropLast else place ++ [name]

/-- The location that a path leads to, if all names on the way are there. -/
def placeOf (tree : FileTree) (path : String) : Location :=
  (Path.names path).foldl descend (tree.startOf path)

/-- A name can be entered from a directory only, and leads where `descend` says. -/
theorem enter_eq_ok {tree : FileTree} {place next : Location} {name : String}
    (h : tree.enter place name = .ok next) :
    tree.find? place = some .dir ∧ next = descend place name := by
  unfold enter at h
  split at h
  · exact absurd h nofun
  · exact absurd h nofun
  · rename_i hdir
    refine ⟨hdir, ?_⟩
    unfold descend
    split at h
    · rename_i hdot
      rw [if_pos hdot]
      exact (Except.ok.inj h).symm
    · rename_i hdot
      rw [if_neg hdot]
      split at h
      · rename_i hdots
        rw [if_pos hdots]
        exact (Except.ok.inj h).symm
      · rename_i hdots
        rw [if_neg hdots]
        split at h
        · exact absurd h nofun
        · exact (Except.ok.inj h).symm

theorem foldlM_enter_eq_ok {tree : FileTree} {names : List String} {start place : Location}
    (h : names.foldlM tree.enter start = .ok place) : place = names.foldl descend start := by
  induction names generalizing start with
  | nil => exact (Except.ok.inj h).symm
  | cons name names ih =>
    rw [List.foldlM_cons] at h
    cases hnext : tree.enter start name with
    | error fault =>
      rw [hnext] at h
      exact absurd h nofun
    | ok next =>
      rw [hnext] at h
      obtain rfl := (enter_eq_ok hnext).2
      exact ih h

/-- What could be entered can be entered for as long as the directories stay. -/
theorem enter_mono {tree tree' : FileTree} (hkeeps : KeepsDirs tree tree')
    {place next : Location} {name : String} (h : tree.enter place name = .ok next) :
    tree'.enter place name = .ok next := by
  have hdir : tree.find? place = some .dir := (enter_eq_ok h).1
  rw [enter, hdir] at h
  rw [enter, hkeeps.dirs place hdir]
  exact h

theorem foldlM_enter_mono {tree tree' : FileTree} (hkeeps : KeepsDirs tree tree')
    {names : List String} {start place : Location}
    (h : names.foldlM tree.enter start = .ok place) :
    names.foldlM tree'.enter start = .ok place := by
  induction names generalizing start with
  | nil => exact h
  | cons name names ih =>
    rw [List.foldlM_cons] at h ⊢
    cases hnext : tree.enter start name with
    | error fault =>
      rw [hnext] at h
      exact absurd h nofun
    | ok next =>
      rw [hnext] at h
      rw [enter_mono hkeeps hnext]
      exact ih h

/-- Names are resolved along the tree, unless the path is of no use in any tree. -/
theorem resolveNames_eq_ok {tree : FileTree} {path : String} {names : List String}
    {place : Location} (h : tree.resolveNames path names = .ok place) :
    unusable? path = none ∧ path.isEmpty = false ∧
      names.foldlM tree.enter (tree.startOf path) = .ok place := by
  unfold resolveNames at h
  split at h
  · exact absurd h nofun
  · rename_i husable
    split at h
    · exact absurd h nofun
    · rename_i hempty
      exact ⟨husable, by simpa using hempty, h⟩

/-- **Where a path leads does not depend on the tree.** -/
theorem placeOf_of_resolve {tree : FileTree} {path : String} {place : Location}
    (h : tree.resolve path = .ok place) : place = tree.placeOf path := by
  unfold resolve at h
  obtain ⟨-, -, hfold⟩ := resolveNames_eq_ok h
  rw [foldlM_enter_eq_ok hfold, placeOf]
  split
  · rw [List.foldl_append]
    rfl
  · rfl

theorem startOf_keepsDirs {tree tree' : FileTree} (hkeeps : KeepsDirs tree tree')
    (path : String) : tree'.startOf path = tree.startOf path := by
  rw [startOf, startOf, hkeeps.workDir]

theorem placeOf_keepsDirs {tree tree' : FileTree} (hkeeps : KeepsDirs tree tree')
    (path : String) : tree'.placeOf path = tree.placeOf path := by
  rw [placeOf, placeOf, startOf_keepsDirs hkeeps]

/-- A path that has been resolved can be resolved for as long as the directories stay. -/
theorem resolve_mono {tree tree' : FileTree} (hkeeps : KeepsDirs tree tree')
    {path : String} {place : Location} (h : tree.resolve path = .ok place) :
    tree'.resolve path = .ok place := by
  obtain ⟨husable, hempty, hfold⟩ := resolveNames_eq_ok h
  simp only [resolve, resolveNames, husable, hempty, Bool.false_eq_true, if_false,
    startOf_keepsDirs hkeeps]
  exact foldlM_enter_mono hkeeps hfold

/-- A path that can be resolved leads to the same place without the slash at its end. -/
theorem resolveNames_of_resolve {tree : FileTree} {path : String} {place : Location}
    (h : tree.resolve path = .ok place) :
    tree.resolveNames path (Path.names path) = .ok place := by
  unfold resolve at h
  dsimp only at h
  split at h
  · obtain ⟨husable, hempty, hfold⟩ := resolveNames_eq_ok h
    rw [List.foldlM_append] at hfold
    cases hnames : (Path.names path).foldlM tree.enter (tree.startOf path) with
    | error fault =>
      rw [hnames] at hfold
      exact absurd hfold nofun
    | ok reached =>
      rw [hnames] at hfold
      have hdot : tree.enter reached "." = .ok place := (bind_pure _).symm.trans hfold
      obtain rfl : place = reached := (enter_eq_ok hdot).2
      simp only [resolveNames, husable, hempty, Bool.false_eq_true, if_false, hnames]
  · exact h

/-- **A name in a directory is a child of the directory.** -/
theorem placeOf_join (tree : FileTree) (directory : String) {name : String}
    (h : Path.IsName name) :
    tree.placeOf (Path.join directory name) = tree.placeOf directory ++ [name] := by
  have hfrom : tree.startOf (Path.join directory name) = tree.startOf directory := by
    rw [startOf, startOf, Path.isAbsolute_join directory h]
  rw [placeOf, placeOf, Path.names_join directory h, hfrom, List.foldl_append, List.foldl_cons,
    List.foldl_nil, descend, if_neg h.ne_dot, if_neg h.ne_dotDot]

/-- In a directory every name can be looked up that is short enough. -/
theorem resolve_join {tree : FileTree} {directory : String} {place : Location}
    (hplace : tree.resolve directory = .ok place) (hdir : tree.find? place = some .dir)
    {name : String} (h : Path.IsName name) (hname : name.utf8ByteSize ≤ 255)
    (hpath : unusable? (Path.join directory name) = none) :
    tree.resolve (Path.join directory name) = .ok (place ++ [name]) := by
  obtain ⟨-, -, hfold⟩ := resolveNames_eq_ok (resolveNames_of_resolve hplace)
  have hfrom : tree.startOf (Path.join directory name) = tree.startOf directory := by
    rw [startOf, startOf, Path.isAbsolute_join directory h]
  have hne : (Path.join directory name).isEmpty = false := by
    rw [Bool.eq_false_iff]
    intro hempty
    have hnames : [] = Path.names directory ++ [name] := by
      rw [← Path.names_join directory h, String.isEmpty_iff.mp hempty]
      rfl
    exact List.append_ne_nil_of_right_ne_nil _ (List.cons_ne_nil _ _) hnames.symm
  have hlast : tree.enter place name = .ok (place ++ [name]) := by
    rw [enter, hdir]
    dsimp only
    rw [if_neg h.ne_dot, if_neg h.ne_dotDot, if_neg (Nat.not_lt.mpr hname)]
  simp only [resolve, resolveNames, hpath, hne, Path.endsInSlash_join directory h,
    Bool.false_eq_true, if_false, Path.names_join directory h, hfrom, List.foldlM_append, hfold]
  exact (bind_pure _).trans hlast

/-! ## 4. Writing and making directories -/

theorem write_at {tree : FileTree} {path : String} {place : Location}
    (hplace : tree.resolve path = .ok place) (contents : ByteArray) :
    tree.write path contents =
      match tree.find? place with
      | some .dir => .error .isDirectory
      | _ => .ok (tree.put place (.file contents tree.now)) := by
  rw [write, hplace]
  rfl

theorem makeDir_at {tree : FileTree} {path : String} {place : Location}
    (hplace : tree.resolveNames path (Path.names path) = .ok place) :
    tree.makeDir path =
      match tree.find? place with
      | some _ => .error .alreadyExists
      | none => .ok (tree.put place .dir) := by
  rw [makeDir, hplace]
  rfl

theorem lookup_at {tree : FileTree} {path : String} {place : Location}
    (hplace : tree.resolve path = .ok place) :
    tree.lookup path =
      match tree.find? place with
      | none => .error .notFound
      | some node => .ok node := by
  rw [lookup, hplace]
  rfl

/-- A write puts a file where the path leads, and where there is no directory. -/
theorem write_eq_ok {tree tree' : FileTree} {path : String} {contents : ByteArray}
    (h : tree.write path contents = .ok tree') :
    tree.resolve path = .ok (tree.placeOf path) ∧ tree.find? (tree.placeOf path) ≠ some .dir ∧
      tree' = tree.put (tree.placeOf path) (.file contents tree.now) := by
  cases hplace : tree.resolve path with
  | error fault =>
    rw [write, hplace] at h
    exact absurd h nofun
  | ok place =>
    obtain rfl := placeOf_of_resolve hplace
    rw [write_at hplace] at h
    split at h
    · exact absurd h nofun
    · rename_i hdir
      exact ⟨rfl, hdir, (Except.ok.inj h).symm⟩

theorem write_of_resolve {tree : FileTree} {path : String} {place : Location}
    (hplace : tree.resolve path = .ok place) (hfree : tree.find? place ≠ some .dir)
    (contents : ByteArray) :
    tree.write path contents = .ok (tree.put place (.file contents tree.now)) := by
  rw [write_at hplace]
  split
  · rename_i hdir
    exact absurd hdir hfree
  · rfl

theorem keepsDirs_write {tree tree' : FileTree} {path : String} {contents : ByteArray}
    (hplace : tree.placeOf path ≠ []) (h : tree.write path contents = .ok tree') :
    KeepsDirs tree tree' := by
  obtain ⟨-, hfree, rfl⟩ := write_eq_ok h
  refine ⟨rfl, rfl, fun place hdir => ?_⟩
  rw [find?_put tree hplace, if_neg]
  · exact hdir
  · rintro rfl
    exact hfree hdir

/-- A directory is made where nothing stands. -/
theorem makeDir_eq_ok {tree tree' : FileTree} {path : String}
    (h : tree.makeDir path = .ok tree') :
    ∃ place, tree.find? place = none ∧ tree' = tree.put place .dir := by
  cases hplace : tree.resolveNames path (Path.names path) with
  | error fault =>
    rw [makeDir, hplace] at h
    exact absurd h nofun
  | ok place =>
    rw [makeDir_at hplace] at h
    split at h
    · exact absurd h nofun
    · rename_i hnone
      exact ⟨place, hnone, (Except.ok.inj h).symm⟩

theorem makeDir_of_resolve {tree : FileTree} {path : String} {place : Location}
    (hplace : tree.resolve path = .ok place) (hdir : tree.find? place = some .dir) :
    tree.makeDir path = .error .alreadyExists := by
  rw [makeDir_at (resolveNames_of_resolve hplace), hdir]

theorem lookup_of_resolve {tree : FileTree} {path : String} {place : Location} {node : Node}
    (hplace : tree.resolve path = .ok place) (hnode : tree.find? place = some node) :
    tree.lookup path = .ok node := by
  rw [lookup_at hplace, hnode]

theorem find?_of_fileAt? {tree : FileTree} {place : Location} {contents : ByteArray}
    {modified : Int} (hfile : tree.fileAt? place = some (contents, modified)) :
    tree.find? place = some (.file contents modified) := by
  unfold fileAt? at hfile
  split at hfile
  · rename_i hfound
    obtain ⟨rfl, rfl⟩ := Prod.mk.inj (Option.some.inj hfile)
    exact hfound
  · exact absurd hfile nofun

/-- A path that has been resolved to a file reads what the file holds. -/
theorem read_of_fileAt? {tree : FileTree} {path : String} {place : Location}
    (hplace : tree.resolve path = .ok place) {contents : ByteArray} {modified : Int}
    (hfile : tree.fileAt? place = some (contents, modified)) :
    tree.read path = .ok contents := by
  rw [read, lookup_of_resolve hplace (find?_of_fileAt? hfile)]
  rfl

/-- What is read stands in a file that the path leads to. -/
theorem read_eq_ok {tree : FileTree} {path : String} {contents : ByteArray}
    (h : tree.read path = .ok contents) :
    ∃ place modified, tree.resolve path = .ok place ∧
      tree.fileAt? place = some (contents, modified) := by
  cases hplace : tree.resolve path with
  | error fault =>
    rw [read, lookup, hplace] at h
    exact absurd h nofun
  | ok place =>
    rw [read, lookup_at hplace] at h
    cases hnode : tree.find? place with
    | none =>
      rw [hnode] at h
      exact absurd h nofun
    | some node =>
      rw [hnode] at h
      cases node with
      | dir => exact absurd h nofun
      | file contents' modified =>
        obtain rfl := Except.ok.inj h
        exact ⟨place, modified, rfl, by rw [fileAt?, hnode]⟩

end FileTree
end Collector
