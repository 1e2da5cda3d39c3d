/-
# What parameter files are named for

A parameter file is named for a search, or it has the name of the latest search (`Target`).  The
name of a file tells its target (`Target.name_injective`): the dialects begin differently, what
stands behind `search_params` tells the two kinds apart, and the formats end differently, so
that the rest is the search ID.  No search ID can imitate anything, whatever dots, underscores
or endings it has.

The ID of a search may have any character in a name but a slash: then the name is that of a file
in a directory (`Target.isName`).  The check of IDs sees to that (`noSlash_of_accepted`).
-/
import Collector.Params.Write
import Collector.Proofs.Files.Placement

namespace Collector
namespace Params

/-- What a parameter file is named for. -/
inductive Target where
  /-- One search of a dialect. -/
  | stamped (dialect : Dialect) (searchId : String) (format : ParamsFormat)
  /-- The latest search of a dialect. -/
  | latest (dialect : Dialect) (format : ParamsFormat)
deriving Repr, DecidableEq

/-- The name of the file for a target. -/
def Target.name : Target → String
  | .stamped dialect searchId format => fileName dialect searchId format
  | .latest dialect format => latestFileName dialect format

/-- The target of parameters that are written in a format. -/
def target (params : Params) (format : ParamsFormat) : ParamsSlot → Target
  | .stamped => .stamped params.document.dialect params.searchId format
  | .latest => .latest params.document.dialect format

theorem slotName_eq (params : Params) (format : ParamsFormat) (slot : ParamsSlot) :
    params.slotName format slot = (params.target format slot).name := by
  cases slot <;> rfl

namespace Target

def dialect : Target → Dialect
  | .stamped dialect _ _ => dialect
  | .latest dialect _ => dialect

/-- What follows `search_params` in the name of a file. -/
def tail : Target → List Char
  | .stamped _ searchId format => '_' :: (searchId.toList ++ '.' :: format.fileExtension.toList)
  | .latest _ format => '.' :: format.fileExtension.toList

theorem toList_name (t : Target) :
    t.name.toList = t.dialect.name.toList ++ ("_search_params".toList ++ t.tail) := by
  cases t with
  | stamped dialect searchId format =>
    have hmark : "_search_params_".toList = "_search_params".toList ++ ['_'] := rfl
    simp only [name, fileName, String.toList_append, hmark, List.append_assoc]
    rfl
  | latest dialect format =>
    have hmark : "_search_params.".toList = "_search_params".toList ++ ['.'] := rfl
    simp only [name, latestFileName, String.toList_append, hmark, List.append_assoc]
    rfl

/-! ## 1. The name tells the target -/

/-- The dialects differ in their second letters. -/
theorem dialect_of_name {d d' : Dialect} {rest rest' : List Char}
    (h : d.name.toList ++ rest = d'.name.toList ++ rest') : d = d' := by
  have hsecond : d.name.toList[1]? = d'.name.toList[1]? := by
    have hboth := congrArg (·[1]?) h
    cases d <;> cases d' <;> exact hboth
  cases d with
  | forum =>
    cases d' with
    | forum => rfl
    | feed => exact absurd hsecond nofun
  | feed =>
    cases d' with
    | forum => exact absurd hsecond nofun
    | feed => rfl

/-- The formats differ in their last letters. -/
theorem format_of_name {f f' : ParamsFormat} {front front' : List Char}
    (h : front ++ '.' :: f.fileExtension.toList = front' ++ '.' :: f'.fileExtension.toList) :
    f = f' := by
  have hlast := congrArg List.getLast? h
  rw [List.getLast?_append, List.getLast?_append] at hlast
  cases f with
  | json =>
    cases f' with
    | json => rfl
    | python => exact absurd hlast nofun
  | python =>
    cases f' with
    | json => exact absurd hlast nofun
    | python => rfl

theorem eq_of_tail {t t' : Target} (hdialect : t.dialect = t'.dialect) (htail : t.tail = t'.tail) :
    t = t' := by
  cases t with
  | stamped d id f =>
    cases t' with
    | stamped d' id' f' =>
      obtain rfl : d = d' := hdialect
      have hrest := (List.cons.inj htail).2
      obtain rfl := format_of_name hrest
      rw [String.toList_inj.mp (List.append_cancel_right hrest)]
    | latest d' f' => exact absurd (List.cons.inj htail).1 (by decide)
  | latest d f =>
    cases t' with
    | stamped d' id' f' => exact absurd (List.cons.inj htail).1 (by decide)
    | latest d' f' =>
      obtain rfl : d = d' := hdialect
      obtain rfl : f = f' := @format_of_name f f' [] [] htail
      rfl

/-- **No two targets share a name.** -/
theorem name_injective : Function.Injective name := by
  intro t t' h
  have hchars : t.dialect.name.toList ++ ("_search_params".toList ++ t.tail) =
      t'.dialect.name.toList ++ ("_search_params".toList ++ t'.tail) := by
    rw [← toList_name, ← toList_name, h]
  have hdialect : t.dialect = t'.dialect := dialect_of_name hchars
  rw [hdialect] at hchars
  exact eq_of_tail hdialect (List.append_cancel_left (List.append_cancel_left hchars))

/-! ## 2. The name is that of a file in a directory -/

/-- The name has a slash only if the search ID has one. -/
def NoSlash : Target → Prop
  | .stamped _ searchId _ => '/' ∉ searchId.toList
  | .latest .. => True

theorem noSlash_name {t : Target} (h : t.NoSlash) : '/' ∉ t.name.toList := by
  have hdialect : '/' ∉ t.dialect.name.toList := by
    cases t.dialect with
    | forum => decide
    | feed => decide
  have hformat : ∀ f : ParamsFormat, '/' ∉ f.fileExtension.toList
    | .json => by decide
    | .python => by decide
  have htail : '/' ∉ t.tail := by
    cases t with
    | stamped d id f =>
      have hid : '/' ∉ id.toList := h
      simp [tail, hid, hformat f]
    | latest d f => simp [tail, hformat f]
  have hmark : '/' ∉ "_search_params".toList := by decide
  rw [toList_name]
  simp only [List.mem_append, hdialect, hmark, htail, or_self, not_false_eq_true]

/-- **The name is that of a file** in whatever directory it is joined to. -/
theorem isName {t : Target} (h : t.NoSlash) : Path.IsName t.name := by
  have hhead : ∀ {other : String}, other.toList.head? ≠ some 'f' → t.name ≠ other := by
    rintro other hother rfl
    rw [toList_name] at hother
    cases hd : t.dialect with
    | forum => exact hother (by rw [hd]; rfl)
    | feed => exact hother (by rw [hd]; rfl)
  exact ⟨noSlash_name h, hhead (by decide), hhead (by decide), hhead (by decide)⟩

/-- An ID without a problem has no slash, so the name of its file has none. -/
theorem noSlash_of_accepted {params : Params} (haccepted : searchIdProblem? params.searchId = none)
    (format : ParamsFormat) (slot : ParamsSlot) : (params.target format slot).NoSlash := by
  cases slot with
  | latest => trivial
  | stamped =>
    intro hslash
    unfold searchIdProblem? at haccepted
    split at haccepted
    · exact absurd haccepted nofun
    · rw [if_pos] at haccepted
      · exact absurd haccepted nofun
      · exact Bool.or_eq_true_iff.mpr (.inl (List.any_eq_true.mpr ⟨'/', hslash, by decide⟩))

end Target
end Params
end Collector
