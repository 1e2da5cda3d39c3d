/-
# Paths that start with a path

A path starts with another one if its components do (`StartsWith`): the root, if the path begins
there, and then the names, of which a dot counts only in front of a relative path.  The text of a
path does not matter for this beyond its components, and what stands at the path does not at all.

What is joined to a path starts with it unless it is absolute itself (`startsWith_join`).
-/
import Collector.Proofs.Files.Placement

namespace Collector
namespace Path

/-- The components of a path.  No name has a slash, so the slash can stand for the root. -/
def components (path : String) : List String :=
  let steps := (names path).filter (· ≠ ".")
  if isAbsolute path then "/" :: steps
  else if (parts path).head? = some ['.'] then "." :: steps
  else steps

/-- The first components of the path are those of `base`. -/
def StartsWith (path base : String) : Prop :=
  components base <+: components path

instance (path base : String) : Decidable (StartsWith path base) :=
  inferInstanceAs (Decidable (_ <+: _))

theorem StartsWith.trans {path middle base : String} (h : StartsWith path middle)
    (h' : StartsWith middle base) : StartsWith path base :=
  List.IsPrefix.trans h' h

/-- A path with something relative joined to it begins as it did. -/
theorem head?_parts_join {base more : String} (hne : base ≠ "") (hmore : isAbsolute more = false) :
    (parts (join base more)).head? = (parts base).head? := by
  obtain ⟨front, hbase, hjoined⟩ := toList_join hne hmore
  have hfront (behind : List Char) :
      ((front ++ '/' :: behind).splitOnP (· == '/')).head? =
        (front.splitOnP (· == '/')).head? := by
    rw [List.splitOnP_append_cons front behind rfl,
      List.head?_append_of_ne_nil _ (List.splitOnP_ne_nil _ front)]
  rw [parts, parts, hjoined, hfront]
  rcases hbase with hsame | hslash
  · rw [hsame]
  · rw [hslash, hfront]

/-- **What is joined to a path comes behind its components**, unless it is absolute. -/
theorem components_join {base more : String} (hne : base ≠ "") (hmore : isAbsolute more = false) :
    components (join base more) = components base ++ (names more).filter (· ≠ ".") := by
  unfold components
  rw [isAbsolute_join_relative hne hmore, head?_parts_join hne hmore,
    names_join_relative base hmore, List.filter_append]
  dsimp only
  split
  · rw [List.cons_append]
  · split
    · rw [List.cons_append]
    · rfl

theorem startsWith_join (base : String) {more : String} (hmore : isAbsolute more = false) :
    StartsWith (join base more) base := by
  by_cases hempty : base = ""
  · subst hempty
    exact List.nil_prefix
  · rw [StartsWith, components_join hempty hmore]
    exact List.prefix_append _ _

/-- An absolute path is the same from everywhere. -/
theorem join_absolute (base : String) {more : String} (hmore : isAbsolute more = true) :
    join base more = more := if_pos hmore

/-- Only an absolute path can lead away from the one that it is joined to. -/
theorem startsWith_join_iff (base more : String) :
    StartsWith (join base more) base ↔ isAbsolute more = false ∨ StartsWith more base := by
  cases hmore : isAbsolute more with
  | false =>
    constructor
    · exact fun _ => .inl rfl
    · exact fun _ => startsWith_join base hmore
  | true =>
    rw [join_absolute base hmore]
    simp

end Path
end Collector
