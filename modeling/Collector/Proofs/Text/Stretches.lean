/-
# What each character was read from

Reading bytes without fail gives characters and a U+FFFD for each stretch that is no character.  The
bytes can be cut accordingly (`units_spell`): one after the other, each character has been read from
its own encoding, and each U+FFFD from one byte or more, none of them ASCII.  No byte is left out
and none is read twice.

So an ASCII character stands in the text if and only if its byte stands in the file, broken
characters around it or not; and a byte-order mark is in front of the text only if its three bytes
are in front of the file (`isPrefix_of_head?`).

The machine reads a byte at a time.  What carries the proof is a fact about the place where it
stands: the bytes that it has read of a character, with any further bytes that it would let through,
are the encoding of the character whose number they spell (`Leads`).  The bounds that a place sets
for the next byte are there for nothing else.
-/
import Collector.Proofs.Text.Growth
import Mathlib.Data.List.Forall2

namespace Collector
namespace Text
namespace Utf8

/-! ## 1. Encodings of a number -/

theorem toNat_val_ofNat {n : Nat} (h : n < 0xD800 ∨ 0xDFFF < n ∧ n < 0x110000) :
    (Char.ofNat n).val.toNat = n := by
  have hvalid : n.isValidChar := h
  rw [Char.ofNat, dif_pos hvalid]
  rfl

/-- A byte is the number that it stands for. -/
theorem ofNat_eq_of_toNat (byte : UInt8) {n : Nat} (h : byte.toNat = n) : UInt8.ofNat n = byte := by
  rw [← h, UInt8.ofNat_toNat]

variable {b b₁ b₂ b₃ : UInt8}

/-- The byte belongs to a character that another has begun. -/
def IsContinuation (byte : UInt8) : Prop :=
  0x80 ≤ byte.toNat ∧ byte.toNat ≤ 0xBF

theorem encodeChar_one (h : b.toNat < 0x80) :
    String.utf8EncodeChar (Char.ofNat b.toNat) = [b] := by
  have hvalue := toNat_val_ofNat (n := b.toNat) (by omega)
  simp only [String.utf8EncodeChar, hvalue]
  rw [if_pos (by omega), ofNat_eq_of_toNat b rfl]

theorem encodeChar_two (h : 0xC2 ≤ b.toNat) (h' : b.toNat < 0xE0) (h₁ : IsContinuation b₁) :
    String.utf8EncodeChar (Char.ofNat ((b.toNat - 0xC0) * 64 + (b₁.toNat - 0x80))) = [b, b₁] := by
  obtain ⟨hlow, hhigh⟩ := h₁
  have hvalue := toNat_val_ofNat (n := (b.toNat - 0xC0) * 64 + (b₁.toNat - 0x80)) (by omega)
  simp only [String.utf8EncodeChar, hvalue]
  rw [if_neg (by omega), if_pos (by omega), ofNat_eq_of_toNat b (by omega),
    ofNat_eq_of_toNat b₁ (by omega)]

theorem encodeChar_three (h : 0xE0 ≤ b.toNat) (h' : b.toNat < 0xF0)
    (h₁ : IsContinuation b₁) (h₂ : IsContinuation b₂)
    (hshort : b.toNat = 0xE0 → 0xA0 ≤ b₁.toNat) (hsurrogate : b.toNat = 0xED → b₁.toNat ≤ 0x9F) :
    String.utf8EncodeChar (Char.ofNat
      (((b.toNat - 0xE0) * 64 + (b₁.toNat - 0x80)) * 64 + (b₂.toNat - 0x80))) = [b, b₁, b₂] := by
  obtain ⟨hlow₁, hhigh₁⟩ := h₁
  obtain ⟨hlow₂, hhigh₂⟩ := h₂
  have hvalue := toNat_val_ofNat
    (n := ((b.toNat - 0xE0) * 64 + (b₁.toNat - 0x80)) * 64 + (b₂.toNat - 0x80)) (by omega)
  simp only [String.utf8EncodeChar, hvalue]
  rw [if_neg (by omega), if_neg (by omega), if_pos (by omega),
    ofNat_eq_of_toNat b (by omega), ofNat_eq_of_toNat b₁ (by omega),
    ofNat_eq_of_toNat b₂ (by omega)]

theorem encodeChar_four (h : 0xF0 ≤ b.toNat) (h' : b.toNat ≤ 0xF4)
    (h₁ : IsContinuation b₁) (h₂ : IsContinuation b₂) (h₃ : IsContinuation b₃)
    (hshort : b.toNat = 0xF0 → 0x90 ≤ b₁.toNat) (hlast : b.toNat = 0xF4 → b₁.toNat ≤ 0x8F) :
    String.utf8EncodeChar (Char.ofNat
      ((((b.toNat - 0xF0) * 64 + (b₁.toNat - 0x80)) * 64 + (b₂.toNat - 0x80)) * 64 +
        (b₃.toNat - 0x80))) = [b, b₁, b₂, b₃] := by
  obtain ⟨hlow₁, hhigh₁⟩ := h₁
  obtain ⟨hlow₂, hhigh₂⟩ := h₂
  obtain ⟨hlow₃, hhigh₃⟩ := h₃
  have hvalue := toNat_val_ofNat
    (n := (((b.toNat - 0xF0) * 64 + (b₁.toNat - 0x80)) * 64 + (b₂.toNat - 0x80)) * 64 +
      (b₃.toNat - 0x80)) (by omega)
  simp only [String.utf8EncodeChar, hvalue]
  rw [if_neg (by omega), if_neg (by omega), if_neg (by omega),
    ofNat_eq_of_toNat b (by omega), ofNat_eq_of_toNat b₁ (by omega),
    ofNat_eq_of_toNat b₂ (by omega), ofNat_eq_of_toNat b₃ (by omega)]

/-! ## 2. Bytes that a character has been begun with -/

/-- What a character or a U+FFFD may have been read from. -/
def Spells : Option Char → List UInt8 → Prop
  | some c, piece => piece = String.utf8EncodeChar c
  | none, piece => piece ≠ [] ∧ ∀ byte ∈ piece, 0x80 ≤ byte.toNat

/-- The bytes begun with, and `owed` more of which the first is within the bounds, are the encoding
of the character whose number they spell. -/
def Leads : (owed low high value : Nat) → (pending : List UInt8) → Prop
  | 0, _, _, value, pending => pending = String.utf8EncodeChar (Char.ofNat value)
  | owed + 1, low, high, value, pending =>
    ∀ byte : UInt8, low ≤ byte.toNat → byte.toNat ≤ high →
      Leads owed 0x80 0xBF (value * 64 + (byte.toNat - 0x80)) (pending ++ [byte])

/-- The machine stands at this place once it has read these bytes of a character. -/
def Place.Holds : Place → List UInt8 → Prop
  | .start, pending => pending = []
  | .inside owed low high value, pending =>
    owed ≠ 0 ∧ 0x80 ≤ low ∧ Spells none pending ∧ Leads owed low high value pending

theorem spells_none_singleton {byte : UInt8} (h : 0x80 ≤ byte.toNat) : Spells none [byte] := by
  constructor
  · exact List.cons_ne_nil byte []
  · simpa using h

theorem Spells.concat {pending : List UInt8} (h : Spells none pending) {byte : UInt8}
    (hbyte : 0x80 ≤ byte.toNat) : Spells none (pending ++ [byte]) := by
  obtain ⟨-, hall⟩ := h
  constructor
  · simp
  · intro b hb
    rcases List.mem_append.mp hb with hb | hb
    · exact hall b hb
    · rw [List.mem_singleton.mp hb]
      exact hbyte

/-- What a byte completes, and what has been begun after it: together these are the bytes that were
there before and the byte. -/
def Splits (place : Place) (yielded : Yield) (bytes : List UInt8) : Prop :=
  ∃ pieces pending, bytes = pieces.flatten ++ pending ∧ List.Forall₂ Spells yielded pieces ∧
    place.Holds pending

/-- A byte that completes something leaves nothing begun. -/
theorem splits_completed {unit : Option Char} {bytes : List UInt8} (h : Spells unit bytes) :
    Splits .start [unit] bytes := by
  refine ⟨[bytes], [], ?_, .cons h .nil, rfl⟩
  simp

/-- A byte that completes nothing is added to what has been begun. -/
theorem splits_begun {place : Place} {bytes : List UInt8} (h : place.Holds bytes) :
    Splits place [] bytes :=
  ⟨[], bytes, rfl, .nil, h⟩

section First

variable {low high value : Nat}

theorem leads_two (h : 0xC2 ≤ b.toNat) (h' : b.toNat < 0xE0) :
    Leads 1 0x80 0xBF (b.toNat - 0xC0) [b] := by
  intro b₁ hlow₁ hhigh₁
  exact (encodeChar_two h h' ⟨hlow₁, hhigh₁⟩).symm

theorem leads_three (h : 0xE0 ≤ b.toNat) (h' : b.toNat < 0xF0) (hvalue : value = b.toNat - 0xE0)
    (hlow : 0x80 ≤ low) (hhigh : high ≤ 0xBF) (hshort : b.toNat = 0xE0 → 0xA0 ≤ low)
    (hsurrogate : b.toNat = 0xED → high ≤ 0x9F) : Leads 2 low high value [b] := by
  rw [hvalue]
  intro b₁ hlow₁ hhigh₁ b₂ hlow₂ hhigh₂
  have hb₁ : IsContinuation b₁ := ⟨by omega, by omega⟩
  have henc := encodeChar_three h h' hb₁ ⟨hlow₂, hhigh₂⟩ (by omega) (by omega)
  exact henc.symm

theorem leads_four (h : 0xF0 ≤ b.toNat) (h' : b.toNat ≤ 0xF4) (hvalue : value = b.toNat - 0xF0)
    (hlow : 0x80 ≤ low) (hhigh : high ≤ 0xBF) (hshort : b.toNat = 0xF0 → 0x90 ≤ low)
    (hlast : b.toNat = 0xF4 → high ≤ 0x8F) : Leads 3 low high value [b] := by
  rw [hvalue]
  intro b₁ hlow₁ hhigh₁ b₂ hlow₂ hhigh₂ b₃ hlow₃ hhigh₃
  have hb₁ : IsContinuation b₁ := ⟨by omega, by omega⟩
  have henc := encodeChar_four h h' hb₁ ⟨hlow₂, hhigh₂⟩ ⟨hlow₃, hhigh₃⟩ (by omega) (by omega)
  exact henc.symm

end First

/-- **The first byte of a character** sets the bounds between which any other bytes complete it. -/
theorem first_splits (byte : UInt8) :
    Splits (first byte.toNat).1 (first byte.toNat).2 [byte] := by
  have hwide (h : ¬ byte.toNat < 0x80) : Spells none [byte] := spells_none_singleton (by omega)
  have hbegun {owed low high value : Nat} (h : ¬ byte.toNat < 0x80) (howed : owed ≠ 0)
      (hlow : 0x80 ≤ low) (hleads : Leads owed low high value [byte]) :
      Splits (.inside owed low high value) [] [byte] :=
    splits_begun ⟨howed, hlow, hwide h, hleads⟩
  fun_cases first byte.toNat with
  | case1 hone => exact splits_completed (encodeChar_one hone).symm
  | case2 hone | case10 hone => exact splits_completed (hwide hone)
  | case3 hone hstray htwo =>
    exact hbegun hone (by decide) (by decide) (leads_two (Nat.not_lt.mp hstray) htwo)
  | case4 hone | case5 hone =>
    refine hbegun hone (by decide) (by decide) (leads_three ?_ ?_ ?_ ?_ ?_ ?_ ?_)
    all_goals omega
  | case6 hone =>
    refine hbegun hone (by decide) (by decide) (leads_three ?_ ?_ rfl ?_ ?_ ?_ ?_)
    all_goals omega
  | case7 hone | case9 hone =>
    refine hbegun hone (by decide) (by decide) (leads_four ?_ ?_ ?_ ?_ ?_ ?_ ?_)
    all_goals omega
  | case8 hone =>
    refine hbegun hone (by decide) (by decide) (leads_four ?_ ?_ rfl ?_ ?_ ?_ ?_)
    all_goals omega

/-! ## 3. A byte at a time -/

/-- A byte within its bounds goes on with the character, and the last one completes it. -/
theorem inside_splits {owed low high value : Nat} {pending : List UInt8}
    (h : (Place.inside owed low high value).Holds pending) {byte : UInt8}
    (hbyte : low ≤ byte.toNat ∧ byte.toNat ≤ high) :
    Splits (step (.inside owed low high value) byte.toNat).1
      (step (.inside owed low high value) byte.toNat).2 (pending ++ [byte]) := by
  obtain ⟨howed, hlow, hpending, hleads⟩ := h
  obtain ⟨owed, rfl⟩ := Nat.exists_eq_succ_of_ne_zero howed
  have hnext := hleads byte hbyte.1 hbyte.2
  simp only [step, if_pos hbyte]
  split
  · rename_i hlast
    obtain rfl : owed = 0 := by omega
    exact splits_completed hnext
  · rename_i hmore
    refine splits_begun ⟨by omega, Nat.le_refl _, hpending.concat (by omega), ?_⟩
    rw [Nat.succ_eq_add_one, Nat.add_sub_cancel]
    exact hnext

/-- **A byte keeps what the place holds.**  One outside its bounds breaks off the character begun,
and is read as a first byte. -/
theorem step_splits {place : Place} {pending : List UInt8} (h : place.Holds pending)
    (byte : UInt8) :
    Splits (step place byte.toNat).1 (step place byte.toNat).2 (pending ++ [byte]) := by
  cases place with
  | start =>
    obtain rfl : pending = [] := h
    exact first_splits byte
  | inside owed low high value =>
    by_cases hbyte : low ≤ byte.toNat ∧ byte.toNat ≤ high
    · exact inside_splits h hbyte
    · obtain ⟨pieces, later, hbytes, hpieces, hplace⟩ := first_splits byte
      simp only [step, if_neg hbyte]
      refine ⟨pending :: pieces, later, ?_, .cons h.2.2.1 hpieces, hplace⟩
      rw [hbytes, List.flatten_cons, List.append_assoc]

namespace Reader

/-- What is broken off at the end of the bytes is what has been begun. -/
theorem finish_splits {reader : Reader} {pending : List UInt8} (h : reader.place.Holds pending) :
    ∃ units pieces, reader.finish.toList = reader.out.toList ++ units ∧
      pending = pieces.flatten ∧ List.Forall₂ Spells units pieces := by
  obtain ⟨place, out⟩ := reader
  cases place with
  | start =>
    obtain rfl : pending = [] := h
    exact ⟨[], [], by simp [finish], rfl, .nil⟩
  | inside owed low high value =>
    exact ⟨[none], [pending], by simp [finish], by simp, .cons h.2.2.1 .nil⟩

/-- **All bytes together.**  The induction is on the bytes, from any place and with what has been
begun there. -/
theorem foldl_feed_splits (bytes : List UInt8) {reader : Reader} {pending : List UInt8}
    (h : reader.place.Holds pending) :
    ∃ units pieces, (bytes.foldl feed reader).finish.toList = reader.out.toList ++ units ∧
      pending ++ bytes = pieces.flatten ∧ List.Forall₂ Spells units pieces := by
  induction bytes generalizing reader pending with
  | nil =>
    rw [List.append_nil]
    exact finish_splits h
  | cons byte bytes ih =>
    obtain ⟨done, begun, hbytes, hdone, hplace⟩ := step_splits h byte
    have hfeed : (reader.feed byte).place.Holds begun := hplace
    obtain ⟨units, pieces, hout, hrest, hunits⟩ := ih hfeed
    refine ⟨(step reader.place byte.toNat).2 ++ units, done ++ pieces, ?_, ?_, ?_⟩
    · rw [List.foldl_cons, hout, toList_out_feed, List.append_assoc]
    · rw [List.append_cons, hbytes, List.append_assoc, hrest, List.flatten_append]
    · exact List.rel_append hdone hunits

end Reader

/-! ## 4. The bytes of a file -/

/-- **Every character has been read from its encoding**, and every U+FFFD from bytes that are not
ASCII.  These are the bytes of the file, in order and without a gap. -/
theorem units_spell (bytes : ByteArray) :
    ∃ pieces, bytes.data.toList = pieces.flatten ∧
      List.Forall₂ Spells (units bytes).toList pieces := by
  have hstart : (Reader.place {}).Holds [] := rfl
  obtain ⟨read, pieces, hout, hbytes, hread⟩ := Reader.foldl_feed_splits bytes.data.toList hstart
  have hunits : (units bytes).toList = read := by
    rw [units, ← Array.foldl_toList]
    exact hout
  exact ⟨pieces, hbytes, hunits ▸ hread⟩

/-- What is in front of the text, unless it is a U+FFFD, is in front of the bytes. -/
theorem isPrefix_of_head? {bytes : ByteArray} {c : Char} (hc : c ≠ '\ufffd')
    (h : (lossy bytes).toList.head? = some c) : String.utf8EncodeChar c <+: bytes.data.toList := by
  obtain ⟨pieces, hbytes, hpieces⟩ := units_spell bytes
  rw [lossy, String.toList_ofList, List.head?_map] at h
  obtain ⟨unit, hunit, hchar⟩ := Option.map_eq_some_iff.mp h
  obtain ⟨rest, hunits⟩ := List.head?_eq_some_iff.mp hunit
  obtain ⟨piece, more, hpiece, -, hsplit⟩ := List.forall₂_cons_left_iff.mp (hunits ▸ hpieces)
  cases unit with
  | none => exact absurd hchar.symm hc
  | some d =>
    obtain rfl : d = c := hchar
    rw [hbytes, hsplit, List.flatten_cons, show piece = String.utf8EncodeChar d from hpiece]
    exact List.prefix_append _ _

end Utf8
end Text
end Collector
