/-
# The bytes of a text

A text that is written to a file as UTF-8 is read back as the same text, where broken characters
are refused (`strict?_toUTF8`) and where they are allowed for (`lossy_toUTF8`).  A character takes
one to four bytes.  The first one tells how many more are owed and between which bounds the second
must lie; those bounds are narrower where a shorter form or a surrogate would be spelled, which the
bytes of a character never do (`first_three`, `first_four`).
-/
import Collector.Text.Utf8
import Mathlib.Data.List.Basic
import Mathlib.Tactic.SplitIfs

namespace Collector
namespace Text
namespace Utf8

/-! ## 1. The bytes of a character -/

variable {v : Nat}

theorem first_one (h : v < 0x80) : step .start v = (.start, [some (Char.ofNat v)]) := by
  simp only [step, first, if_pos h]

theorem first_two (hlow : 0x80 ≤ v) (hhigh : v < 0x800) :
    step .start (v / 64 % 32 + 192) = (.inside 1 0x80 0xBF (v / 64), []) := by
  have hvalue : v / 64 % 32 + 192 - 0xC0 = v / 64 := by omega
  simp only [step, first]
  rw [if_neg (by omega), if_neg (by omega), if_pos (by omega), hvalue]

/-- The first of three bytes.  The second is within the bounds that it sets. -/
theorem first_three (hlow : 0x800 ≤ v) (hhigh : v < 0x10000) (hvalid : v < 0xD800 ∨ 0xDFFF < v) :
    ∃ low high, step .start (v / 4096 % 16 + 224) = (.inside 2 low high (v / 4096), []) ∧
      low ≤ v / 64 % 64 + 128 ∧ v / 64 % 64 + 128 ≤ high := by
  have hvalue : v / 4096 % 16 + 224 - 0xE0 = v / 4096 := by omega
  simp only [step, first]
  rw [if_neg (by omega), if_neg (by omega), if_neg (by omega)]
  split_ifs with hshort hsurrogate hother
  · have hzero : v / 4096 = 0 := by omega
    exact ⟨_, _, by rw [hzero], by omega, by omega⟩
  · have hvalue' : v / 4096 = 0xD := by omega
    exact ⟨_, _, by rw [hvalue'], by omega, by omega⟩
  · exact ⟨_, _, by rw [hvalue], by omega, by omega⟩
  all_goals omega

/-- The first of four bytes.  The second is within the bounds that it sets. -/
theorem first_four (hlow : 0x10000 ≤ v) (hhigh : v < 0x110000) :
    ∃ low high, step .start (v / 262144 % 8 + 240) = (.inside 3 low high (v / 262144), []) ∧
      low ≤ v / 4096 % 64 + 128 ∧ v / 4096 % 64 + 128 ≤ high := by
  have hvalue : v / 262144 % 8 + 240 - 0xF0 = v / 262144 := by omega
  simp only [step, first]
  rw [if_neg (by omega), if_neg (by omega), if_neg (by omega), if_neg (by omega),
    if_neg (by omega), if_neg (by omega)]
  split_ifs with hshort hother hlast
  · have hzero : v / 262144 = 0 := by omega
    exact ⟨_, _, by rw [hzero], by omega, by omega⟩
  · exact ⟨_, _, by rw [hvalue], by omega, by omega⟩
  · have hvalue' : v / 262144 = 4 := by omega
    exact ⟨_, _, by rw [hvalue'], by omega, by omega⟩
  · omega

/-- A byte within its bounds goes on the number of the character. -/
theorem step_inside {owed low high value digit : Nat} (hlow : low ≤ digit + 128)
    (hhigh : digit + 128 ≤ high) :
    step (.inside owed low high value) (digit + 128) =
      if owed ≤ 1 then (.start, [some (Char.ofNat (value * 64 + digit))])
      else (.inside (owed - 1) 0x80 0xBF (value * 64 + digit), []) := by
  simp only [step, if_pos (show low ≤ digit + 128 ∧ digit + 128 ≤ high from ⟨hlow, hhigh⟩),
    Nat.add_sub_cancel]

namespace Reader

theorem feed_ofNat (out : Array (Option Char)) {place : Place} {byte : Nat} (h : byte < 256) :
    feed ⟨place, out⟩ (UInt8.ofNat byte) =
      ⟨(step place byte).1, out ++ (step place byte).2⟩ := by
  have hbyte : (UInt8.ofNat byte).toNat = byte := by simp; omega
  simp only [feed, hbyte]

/-- **The bytes of a character complete it.** -/
theorem foldl_feed_encodeChar (c : Char) (out : Array (Option Char)) :
    (String.utf8EncodeChar c).foldl feed ⟨.start, out⟩ = ⟨.start, out.push (some c)⟩ := by
  have hc : Char.ofNat c.val.toNat = c := Char.ofNat_toNat c
  have hvalid : c.val.toNat < 0xD800 ∨ 0xDFFF < c.val.toNat ∧ c.val.toNat < 0x110000 := c.valid
  unfold String.utf8EncodeChar
  generalize c.val.toNat = v at *
  dsimp only
  split_ifs with hone htwo hthree
  · rw [List.foldl_cons, feed_ofNat out (by omega), first_one (by omega), hc]
    simp
  · have hnumber : v / 64 * 64 + v % 64 = v := by omega
    rw [List.foldl_cons, feed_ofNat out (by omega), first_two (by omega) (by omega),
      List.foldl_cons, feed_ofNat _ (by omega), step_inside (by omega) (by omega), hnumber, hc]
    simp
  · obtain ⟨low, high, hfirst, hlow, hhigh⟩ := first_three (v := v) (by omega) (by omega) (by omega)
    have hnumber : (v / 4096 * 64 + v / 64 % 64) * 64 + v % 64 = v := by omega
    rw [List.foldl_cons, feed_ofNat out (by omega), hfirst, List.foldl_cons,
      feed_ofNat _ (by omega), step_inside hlow hhigh, if_neg (by omega), List.foldl_cons,
      feed_ofNat _ (by omega), step_inside (by omega) (by omega), if_pos (by omega), hnumber, hc]
    simp
  · obtain ⟨low, high, hfirst, hlow, hhigh⟩ := first_four (v := v) (by omega) (by omega)
    have hnumber :
        ((v / 262144 * 64 + v / 4096 % 64) * 64 + v / 64 % 64) * 64 + v % 64 = v := by omega
    rw [List.foldl_cons, feed_ofNat out (by omega), hfirst, List.foldl_cons,
      feed_ofNat _ (by omega), step_inside hlow hhigh, if_neg (by omega), List.foldl_cons,
      feed_ofNat _ (by omega), step_inside (by omega) (by omega), if_neg (by omega),
      List.foldl_cons, feed_ofNat _ (by omega), step_inside (by omega) (by omega),
      if_pos (by omega), hnumber, hc]
    simp

end Reader

/-! ## 2. The bytes of a text -/

theorem foldl_feed_encode (t : List Char) (out : Array (Option Char)) :
    (t.flatMap String.utf8EncodeChar).foldl Reader.feed ⟨.start, out⟩ =
      ⟨.start, out ++ t.map some⟩ := by
  induction t generalizing out with
  | nil => simp
  | cons c t ih =>
    rw [List.flatMap_cons, List.foldl_append, Reader.foldl_feed_encodeChar, ih]
    simp

/-- The bytes of a text complete its characters and nothing else. -/
theorem units_toUTF8 (text : String) : (units text.toUTF8).toList = text.toList.map some := by
  have hbytes : text.toUTF8.data.toList = text.toList.flatMap String.utf8EncodeChar := by
    conv_lhs => rw [← String.ofList_toList (s := text)]
    rw [String.toUTF8_eq_toByteArray, String.toByteArray_ofList, List.utf8Encode]
    simp
  rw [units, ← Array.foldl_toList, hbytes]
  rw [foldl_feed_encode]
  simp [Reader.finish]

/-- **A text is read back from its bytes.** -/
theorem strict?_toUTF8 (text : String) : strict? text.toUTF8 = some text := by
  have hall : (text.toList.map some).mapM id = some text.toList := by
    rw [List.mapM_map]
    exact (List.mapM_pure (m := Option)).trans (congrArg some (List.map_id _))
  rw [strict?, units_toUTF8, hall, Option.map_some, String.ofList_toList]

/-- Where broken characters are allowed for, a text is read back as well. -/
theorem lossy_toUTF8 (text : String) : lossy text.toUTF8 = text := by
  have hall : (text.toList.map some).map (·.getD '\ufffd') = text.toList := by
    rw [List.map_map]
    exact List.map_id _
  rw [lossy, units_toUTF8, hall, String.ofList_toList]

end Utf8
end Text
end Collector
