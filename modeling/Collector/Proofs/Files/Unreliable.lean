/-
# Disks whose operations fail

An `Unreliable` disk is a tree of files together with the faults that its next operations meet.
An operation that meets a fault does nothing; the others do what they do on the tree.  So a
program that runs on such a disk is seen under every way in which its accesses can fail.

What is settled here is what making directories can do, whatever fails on the way: the tree
gets directories where nothing stood (`Extends`), and stays as it was everywhere else
(`makeDirs_extends`).
-/
import Collector.Proofs.Files.Placement

namespace Collector

/-! ## 1. More directories -/

/-- The second tree is the first one with some directories more. -/
structure FileTree.Extends (tree tree' : FileTree) : Prop where
  workDir : tree'.workDir = tree.workDir
  now : tree'.now = tree.now
  /-- Where something new stands, it is a directory, and nothing stood there. -/
  nodes (place : Location) : tree'.find? place = tree.find? place ∨
    tree.find? place = none ∧ tree'.find? place = some .dir

namespace FileTree.Extends

variable {tree tree' tree'' : FileTree}

theorem refl (tree : FileTree) : Extends tree tree := ⟨rfl, rfl, fun _ => .inl rfl⟩

theorem dirs (h : Extends tree tree') (place : Location) (hdir : tree.find? place = some .dir) :
    tree'.find? place = some .dir := by
  rcases h.nodes place with hsame | ⟨hnone, -⟩
  · rw [hsame, hdir]
  · rw [hdir] at hnone
    exact absurd hnone nofun

theorem keepsDirs (h : Extends tree tree') : KeepsDirs tree tree' := ⟨h.workDir, h.now, h.dirs⟩

theorem trans (h : Extends tree tree') (h' : Extends tree' tree'') : Extends tree tree'' := by
  refine ⟨h'.workDir.trans h.workDir, h'.now.trans h.now, fun place => ?_⟩
  rcases h.nodes place with hsame | ⟨hnone, hdir⟩
  · rw [← hsame]
    exact h'.nodes place
  · exact .inr ⟨hnone, h'.dirs place hdir⟩

/-- The files are the same. -/
theorem fileAt? (h : Extends tree tree') (place : Location) :
    tree'.fileAt? place = tree.fileAt? place := by
  rcases h.nodes place with hsame | ⟨hnone, hdir⟩
  · rw [FileTree.fileAt?, FileTree.fileAt?, hsame]
  · rw [FileTree.fileAt?, FileTree.fileAt?, hnone, hdir]

theorem of_makeDir {path : String} (h : tree.makeDir path = .ok tree') : Extends tree tree' := by
  obtain ⟨place, hnone, rfl⟩ := makeDir_eq_ok h
  have hplace : place ≠ [] := by
    rintro rfl
    exact absurd hnone nofun
  refine ⟨rfl, rfl, fun other => ?_⟩
  rw [find?_put tree hplace]
  split
  · rename_i hother
    exact .inr ⟨hother ▸ hnone, rfl⟩
  · exact .inl rfl

end FileTree.Extends

/-! ## 2. Operations that meet faults -/

/-- A tree of files, and for the next operations in turn the fault that they meet, if any. -/
structure Unreliable where
  tree : FileTree
  faults : List (Option Fault) := []

namespace Unreliable

/-- An operation that does nothing if it meets a fault. -/
def operate {α : Type} (operation : FileTree → Except Fault α × FileTree) (disk : Unreliable) :
    Except Fault α × Unreliable :=
  match disk.faults with
  | some fault :: later => (.error fault, { disk with faults := later })
  | faults =>
    let (result, tree) := operation disk.tree
    (result, { tree, faults := faults.tail })

instance : Disk (StateM Unreliable) where
  read path := modifyGet (operate fun tree => (tree.read path, tree))
  info path := modifyGet (operate fun tree => (tree.info path, tree))
  makeDir path := modifyGet (operate fun tree => tree.settle (tree.makeDir path))
  write path contents := modifyGet (operate fun tree => tree.settle (tree.write path contents))

/-- An operation fails and leaves the tree alone, or it does what it does on the tree. -/
theorem operate_cases {α : Type} (operation : FileTree → Except Fault α × FileTree)
    (disk : Unreliable) :
    (∃ fault, (operate operation disk).1 = .error fault ∧
      (operate operation disk).2.tree = disk.tree) ∨
    (operate operation disk).1 = (operation disk.tree).1 ∧
      (operate operation disk).2.tree = (operation disk.tree).2 := by
  unfold operate
  split
  · exact .inl ⟨_, rfl, rfl⟩
  · exact .inr ⟨rfl, rfl⟩

/-- Without faults to come an operation does what it does on the tree. -/
theorem operate_faultless {α : Type} (operation : FileTree → Except Fault α × FileTree)
    (tree : FileTree) :
    operate operation { tree } = ((operation tree).1, { tree := (operation tree).2 }) := rfl

/-- A write succeeds as it does on the tree, or it fails and leaves the tree alone. -/
theorem write_cases (path : String) (contents : ByteArray) (disk : Unreliable) :
    let after := (Disk.write path contents : StateM Unreliable _).run disk
    (after.1 = .ok () ∧ disk.tree.write path contents = .ok after.2.tree) ∨
      ∃ fault, after.1 = .error fault ∧ after.2.tree = disk.tree := by
  rcases operate_cases (fun tree => tree.settle (tree.write path contents)) disk with
    hfault | ⟨hresult, htree⟩
  · exact .inr hfault
  · cases hwrite : disk.tree.write path contents with
    | error fault =>
      rw [hwrite] at hresult htree
      exact .inr ⟨fault, hresult, htree⟩
    | ok written =>
      rw [hwrite] at hresult htree
      exact .inl ⟨hresult, congrArg Except.ok htree.symm⟩

/-! ## 3. Making directories -/

/-- A computation that gives the tree more directories and changes nothing else, from every
disk. -/
def OnlyMakesDirs {α : Type} (act : StateM Unreliable α) : Prop :=
  ∀ disk : Unreliable, disk.tree.Extends (act.run disk).2.tree

namespace OnlyMakesDirs

variable {α β : Type}

theorem pure (a : α) : OnlyMakesDirs (pure a : StateM Unreliable α) :=
  fun disk => .refl disk.tree

theorem bind {act : StateM Unreliable α} {next : α → StateM Unreliable β}
    (hact : OnlyMakesDirs act) (hnext : ∀ a, OnlyMakesDirs (next a)) :
    OnlyMakesDirs (act >>= next) :=
  fun disk => (hact disk).trans (hnext (act.run disk).1 (act.run disk).2)

theorem info (path : String) : OnlyMakesDirs (Disk.info path : StateM Unreliable _) := by
  intro disk
  rcases operate_cases (fun tree => (tree.info path, tree)) disk with
    ⟨_, _, htree⟩ | ⟨_, htree⟩
  · exact htree ▸ .refl disk.tree
  · exact htree ▸ .refl disk.tree

theorem makeDir (path : String) : OnlyMakesDirs (Disk.makeDir path : StateM Unreliable _) := by
  intro disk
  rcases operate_cases (fun tree => tree.settle (tree.makeDir path)) disk with
    ⟨_, _, htree⟩ | ⟨_, htree⟩
  · exact htree ▸ .refl disk.tree
  · cases hmade : disk.tree.makeDir path with
    | error fault =>
      rw [hmade] at htree
      exact htree ▸ .refl disk.tree
    | ok made =>
      rw [hmade] at htree
      exact htree ▸ .of_makeDir hmade

theorem isDirectory (path : String) :
    OnlyMakesDirs (Disk.isDirectory path : StateM Unreliable _) := by
  refine (info path).bind fun found => ?_
  cases found with
  | error fault => exact .pure _
  | ok known => exact .pure _

theorem ensureDir (path : String) : OnlyMakesDirs (Disk.ensureDir path : StateM Unreliable _) := by
  refine (makeDir path).bind fun made => ?_
  split
  · refine (isDirectory path).bind fun isDir => ?_
    cases isDir with
    | false => exact .pure _
    | true => exact .pure _
  · exact .pure _

/-- The induction is on the paths that are still above. -/
theorem ensureDirs (paths : List String) :
    OnlyMakesDirs (Disk.ensureDirs paths : StateM Unreliable _) := by
  induction paths with
  | nil => exact .pure _
  | cons path above ih =>
    refine (ensureDir path).bind fun ensured => ?_
    split
    · refine ih.bind fun made => ?_
      cases made with
      | error fault => exact .pure _
      | ok done => exact ensureDir path
    · exact .pure _

end OnlyMakesDirs

/-- **Making a directory leaves every file alone**, whether it succeeds or stops half-way. -/
theorem makeDirs_extends (path : String) :
    OnlyMakesDirs (Disk.makeDirs path : StateM Unreliable _) :=
  .ensureDirs (Path.ancestors path)

/-- A directory that is there need not be made. -/
theorem makeDirs_of_resolve {tree : FileTree} {path : String} {place : Location}
    (hplace : tree.resolve path = .ok place) (hdir : tree.find? place = some .dir) :
    (Disk.makeDirs path : StateM Unreliable _).run { tree } = (.ok (), { tree }) := by
  have hmade : (Disk.makeDir path : StateM Unreliable _).run { tree } =
      (.error .alreadyExists, { tree }) := by
    change operate (fun tree => tree.settle (tree.makeDir path)) { tree } = _
    rw [operate_faultless, FileTree.makeDir_of_resolve hplace hdir]
    rfl
  have hinfo : (Disk.info path : StateM Unreliable _).run { tree } =
      (.ok { size := 0, modified := 0, isDirectory := true }, { tree }) := by
    change operate (fun tree => (tree.info path, tree)) { tree } = _
    rw [operate_faultless, FileTree.info, FileTree.lookup_of_resolve hplace hdir]
    rfl
  have hensured : (Disk.ensureDir path : StateM Unreliable _).run { tree } =
      (.ok (), { tree }) := by
    rw [Disk.ensureDir, StateT.run_bind, hmade]
    change (Disk.isDirectory path >>= _ : StateM Unreliable _).run { tree } = _
    rw [StateT.run_bind, Disk.isDirectory, StateT.run_bind, hinfo]
    rfl
  unfold Disk.makeDirs Path.ancestors
  cases path.length with
  | zero => rfl
  | succ n =>
    rw [Path.ancestorsFrom]
    cases Path.parent? path with
    | none => rfl
    | some above =>
      dsimp only
      rw [Disk.ensureDirs, StateT.run_bind, hensured]
      rfl

end Unreliable
end Collector
