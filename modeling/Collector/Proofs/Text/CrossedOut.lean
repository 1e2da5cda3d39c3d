/-
# Texts with everything but ASCII crossed out

The marks of a table, its separators and its line ends, are ASCII.  To say that broken characters
do not disturb them, the text that is read from some bytes is compared with the text in which an `x`
stands for every byte that is not ASCII (`crossedOut`).  The two are the same but for this: where
the one has a character that is not ASCII, be it a U+FFFD for a broken one, the other has an `x` or
several (`CrossedOut`).

It matters that it is one `x` at the least.  A field with something in it keeps something in it, and
a CR is not moved to an LF that did not follow it (`CrossedOut.unixLines`).
-/
import Collector.Proofs.Text.LineEnds
import Collector.Proofs.Text.Stretches
import Mathlib.Tactic.SplitIfs

namespace Collector
namespace Text

/-- The character is one of the 128 that a single byte stands for. -/
def Ascii (c : Char) : Prop :=
  c.toNat < 0x80

instance (c : Char) : Decidable (Ascii c) :=
  Nat.decLt c.toNat 0x80

/-- `v` is `u` with an `x` or several written over each character that is not ASCII. -/
inductive CrossedOut : (u v : List Char) → Prop where
  | nil : CrossedOut [] []
  | ascii {c : Char} {u v : List Char} (hc : Ascii c) (h : CrossedOut u v) :
      CrossedOut (c :: u) (c :: v)
  | wide {c : Char} {u v : List Char} (hc : ¬ Ascii c) (n : Nat) (h : CrossedOut u v) :
      CrossedOut (c :: u) (List.replicate (n + 1) 'x' ++ v)

/-! ## 1. What crossing out keeps -/

namespace CrossedOut

variable {u v u' v' : List Char} {c : Char}

theorem append (h : CrossedOut u v) (h' : CrossedOut u' v') :
    CrossedOut (u ++ u') (v ++ v') := by
  induction h with
  | nil => exact h'
  | ascii hc _ ih => exact .ascii hc ih
  | wide hc n _ ih =>
    rw [List.append_assoc]
    exact .wide hc n ih

theorem concat (h : CrossedOut u v) (hc : Ascii c) : CrossedOut (u ++ [c]) (v ++ [c]) :=
  h.append (.ascii hc .nil)

/-- A character that is not ASCII, by itself. -/
theorem wide_singleton (hc : ¬ Ascii c) (n : Nat) :
    CrossedOut [c] (List.replicate (n + 1) 'x') := by
  have h := CrossedOut.wide hc n .nil
  rwa [List.append_nil] at h

/-- Nothing is crossed out but something, and by something. -/
theorem eq_nil_iff (h : CrossedOut u v) : u = [] ↔ v = [] := by
  cases h with
  | nil => simp
  | ascii => simp
  | wide => simp [List.replicate_succ]

/-- The ASCII characters other than `x` are kept. -/
theorem filter_eq (h : CrossedOut u v) :
    u.filter (fun c => Ascii c ∧ c ≠ 'x') = v.filter (fun c => Ascii c ∧ c ≠ 'x') := by
  induction h with
  | nil => rfl
  | ascii hc _ ih => rw [List.filter_cons, List.filter_cons, ih]
  | @wide c u v hc n _ ih =>
    have hover : (List.replicate (n + 1) 'x').filter (fun c => Ascii c ∧ c ≠ 'x') = [] := by simp
    rw [List.filter_append, hover, List.nil_append, List.filter_cons_of_neg (by simp [hc]), ih]

/-- What begins with an ASCII character other than `x` does so on both sides. -/
theorem head?_eq (h : CrossedOut u v) (hx : c ≠ 'x') (hv : v.head? = some c) :
    u.head? = some c := by
  cases h with
  | nil => exact hv
  | ascii => exact hv
  | wide hc n =>
    rw [List.replicate_succ, List.cons_append, List.head?_cons] at hv
    exact absurd (Option.some.inj hv).symm hx

/-- What has been crossed out is ASCII throughout. -/
theorem forall_ascii (h : CrossedOut u v) : ∀ c ∈ v, Ascii c := by
  induction h with
  | nil => exact fun c hc => absurd hc List.not_mem_nil
  | ascii hc _ ih => exact List.forall_mem_cons.mpr ⟨hc, ih⟩
  | wide hc n _ ih =>
    intro c hmem
    rcases List.mem_append.mp hmem with hx | hv
    · rw [List.eq_of_mem_replicate hx]
      decide
    · exact ih c hv

/-- **Making line ends LF keeps what is crossed out.**  No CR comes to stand in front of an LF. -/
theorem unixLines (h : CrossedOut u v) : CrossedOut (unixLines u) (unixLines v) := by
  induction u using Text.unixLines.induct generalizing v with
  | case1 rest ih =>
    cases h with
    | wide hc => exact absurd (by decide) hc
    | ascii hcr h =>
      cases h with
      | wide hc => exact absurd (by decide) hc
      | ascii hlf h =>
        rw [Text.unixLines, Text.unixLines]
        exact .ascii hlf (ih h)
  | case2 c rest hcut ih =>
    have hc : c = '\r' → rest.head? ≠ some '\n' := head?_ne_of_not_cut hcut
    rw [unixLines_cons hc]
    cases h with
    | @ascii _ _ v hascii h =>
      have hc' : c = '\r' → v.head? ≠ some '\n' := by
        intro hcr hhead
        exact hc hcr (h.head?_eq (by decide) hhead)
      rw [unixLines_cons hc']
      exact .ascii hascii (ih h)
    | @wide _ _ v hwide n h =>
      have hx : '\r' ∉ List.replicate (n + 1) 'x' := by simp
      have hlast : (List.replicate (n + 1) 'x').getLast? ≠ some '\r' := by
        intro hcr
        exact hx (List.mem_of_getLast? hcr)
      rw [unixLines_append fun hcr => absurd hcr hlast, unixLines_of_not_mem hx]
      exact .wide hwide n (ih h)
  | case3 =>
    cases h with
    | nil => exact .nil

end CrossedOut

/-! ## 2. What is read from bytes -/

namespace Utf8

/-- The character that a byte stands for by itself, or an `x`. -/
def crossByte (byte : UInt8) : Char :=
  if byte.toNat < 0x80 then Char.ofNat byte.toNat else 'x'

/-- The text of some bytes with an `x` for every byte that is not ASCII. -/
def crossedOut (bytes : ByteArray) : String :=
  String.ofList (bytes.data.toList.map crossByte)

theorem map_crossByte_of_ascii {c : Char} (hc : Ascii c) :
    (String.utf8EncodeChar c).map crossByte = [c] := by
  have hvalue : c.val.toNat < 0x80 := hc
  have hbyte : (UInt8.ofNat c.val.toNat).toNat = c.val.toNat := by
    rw [UInt8.toNat_ofNat']
    omega
  have hc' : Char.ofNat c.val.toNat = c := Char.ofNat_toNat c
  simp only [String.utf8EncodeChar]
  rw [if_pos (by omega), List.map_singleton, crossByte, hbyte, if_pos hvalue, hc']

/-- No byte of a character is ASCII unless the character is. -/
theorem spells_none_encodeChar {c : Char} (hc : ¬ Ascii c) :
    Spells none (String.utf8EncodeChar c) := by
  have hvalue : ¬ c.val.toNat < 0x80 := hc
  refine ⟨String.utf8EncodeChar_ne_nil, ?_⟩
  unfold String.utf8EncodeChar
  dsimp only
  split_ifs with hone htwo hthree
  · omega
  · simp only [List.forall_mem_cons, UInt8.toNat_ofNat']
    exact ⟨by omega, by omega, List.forall_mem_nil _⟩
  · simp only [List.forall_mem_cons, UInt8.toNat_ofNat']
    exact ⟨by omega, by omega, by omega, List.forall_mem_nil _⟩
  · simp only [List.forall_mem_cons, UInt8.toNat_ofNat']
    exact ⟨by omega, by omega, by omega, by omega, List.forall_mem_nil _⟩

/-- Bytes that are not ASCII are crossed out one by one. -/
theorem map_crossByte_of_spells {piece : List UInt8} (h : Spells none piece) :
    ∃ n, piece.map crossByte = List.replicate (n + 1) 'x' := by
  obtain ⟨hne, hwide⟩ := h
  have hx : ∀ c ∈ piece.map crossByte, c = 'x' := by
    intro c hc
    obtain ⟨byte, hbyte, rfl⟩ := List.mem_map.mp hc
    exact if_neg (Nat.not_lt.mpr (hwide byte hbyte))
  refine ⟨piece.length - 1, List.eq_replicate_iff.mpr ⟨?_, hx⟩⟩
  have hpos := List.length_pos_iff.mpr hne
  rw [List.length_map]
  omega

/-- A character and the bytes that it was read from. -/
theorem crossedOut_of_spells {unit : Option Char} {piece : List UInt8} (h : Spells unit piece) :
    CrossedOut [unit.getD '\ufffd'] (piece.map crossByte) := by
  cases unit with
  | none =>
    obtain ⟨n, hn⟩ := map_crossByte_of_spells h
    rw [hn]
    exact .wide_singleton (by decide) n
  | some c =>
    obtain rfl : piece = String.utf8EncodeChar c := h
    by_cases hc : Ascii c
    · rw [map_crossByte_of_ascii hc]
      exact .ascii hc .nil
    · obtain ⟨n, hn⟩ := map_crossByte_of_spells (spells_none_encodeChar hc)
      rw [hn]
      exact .wide_singleton hc n

theorem crossedOut_flatten {read : List (Option Char)} {pieces : List (List UInt8)}
    (h : List.Forall₂ Spells read pieces) :
    CrossedOut (read.map (·.getD '\ufffd')) (pieces.flatten.map crossByte) := by
  induction h with
  | nil => exact .nil
  | cons hunit _ ih =>
    rw [List.flatten_cons, List.map_append]
    exact (crossedOut_of_spells hunit).append ih

/-- **The text of some bytes, and the same with the bytes crossed out.** -/
theorem lossy_crossedOut (bytes : ByteArray) :
    CrossedOut (lossy bytes).toList (crossedOut bytes).toList := by
  obtain ⟨pieces, hbytes, hpieces⟩ := units_spell bytes
  rw [lossy, crossedOut, String.toList_ofList, String.toList_ofList, hbytes]
  exact crossedOut_flatten hpieces

/-- A byte-order mark in front of the text has been read from its bytes. -/
theorem head?_lossy_ne {bytes : ByteArray}
    (hmark : ¬ [0xEF, 0xBB, 0xBF] <+: bytes.data.toList) :
    (lossy bytes).toList.head? ≠ some '\ufeff' := by
  intro h
  exact hmark (isPrefix_of_head? (by decide) h)

/-- The lines that a table is read from, where the bytes do not begin with a byte-order mark. -/
theorem lfLines_crossedOut {bytes : ByteArray}
    (hmark : ¬ [0xEF, 0xBB, 0xBF] <+: bytes.data.toList) :
    CrossedOut (lfLines (withoutMark (lossy bytes).toList)).toList
      (lfLines (withoutMark (crossedOut bytes).toList)).toList := by
  have hcrossed := lossy_crossedOut bytes
  have hx : (crossedOut bytes).toList.head? ≠ some '\ufeff' := by
    intro h
    exact absurd (hcrossed.forall_ascii '\ufeff' (List.mem_of_mem_head? h)) (by decide)
  rw [lfLines_eq, lfLines_eq, withoutMark_eq, withoutMark_eq, if_neg (head?_lossy_ne hmark),
    if_neg hx]
  exact hcrossed.unixLines

end Utf8
end Text
end Collector
