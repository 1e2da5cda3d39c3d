/-
# Texts that grow

A file that is being written may be cut anywhere: inside a character, between CR and LF, inside
a byte-order mark.  What is read of its shorter state is then no prefix of what is read of its
longer state: U+FFFD becomes the character that was half written, a CR disappears before its
LF, a mark that was broken off is removed.

All of these concern the end of the shorter text only, and none of them touches a newline.
`Grows t t'` says just that: up to a last stretch without a newline, `t` is a prefix of `t'`.
Each step from bytes to lines keeps it:

* `grows_lossy`: the characters of some bytes grow into those of the bytes with more behind;
* `grows_withoutMark`: removing the byte-order mark keeps growth;
* `grows_lfLines`: making line ends LF keeps growth.

Two of the steps are folds over a machine whose output is only ever added to, and their growth
is read off one step of the machine (`foldl_adds`).
-/
import Mathlib.Data.List.Basic
import Collector.Text.Newline
import Collector.Text.Utf8

namespace Collector
namespace Text

variable {σ α β γ : Type}

/-! ## 1. Lists that are only added to -/

/-- `ys` is `xs` with more behind it, all of it of the kind `Q`. -/
def Adds (Q : β → Prop) (xs ys : List β) : Prop :=
  ∃ more, ys = xs ++ more ∧ ∀ b ∈ more, Q b

theorem Adds.refl (Q : β → Prop) (xs : List β) : Adds Q xs xs := ⟨[], by simp, by simp⟩

theorem Adds.trans {Q : β → Prop} {xs ys zs : List β} (h : Adds Q xs ys) (h' : Adds Q ys zs) :
    Adds Q xs zs := by
  obtain ⟨more, rfl, hmore⟩ := h
  obtain ⟨more', rfl, hmore'⟩ := h'
  refine ⟨more ++ more', List.append_assoc .., fun b hb => ?_⟩
  rcases List.mem_append.mp hb with hb | hb
  · exact hmore b hb
  · exact hmore' b hb

theorem Adds.isPrefix {Q : β → Prop} {xs ys : List β} (h : Adds Q xs ys) : xs <+: ys := by
  obtain ⟨more, rfl, -⟩ := h
  exact List.prefix_append xs more

theorem Adds.map {Q : β → Prop} {R : γ → Prop} {f : β → γ} {xs ys : List β}
    (h : Adds Q xs ys) (hf : ∀ b, Q b → R (f b)) : Adds R (xs.map f) (ys.map f) := by
  obtain ⟨more, rfl, hmore⟩ := h
  refine ⟨more.map f, List.map_append, fun c hc => ?_⟩
  obtain ⟨b, hb, rfl⟩ := List.mem_map.mp hc
  exact hf b (hmore b hb)

theorem Adds.mono {Q Q' : β → Prop} {xs ys : List β} (h : Adds Q xs ys) (hQ : ∀ b, Q b → Q' b) :
    Adds Q' xs ys := by
  obtain ⟨more, heq, hmore⟩ := h
  exact ⟨more, heq, fun b hb => hQ b (hmore b hb)⟩

/-- **A fold adds what its steps add.**  Every step keeps `Inv` and only adds things that `R`
relates to its input; over a whole list these are of the kind `Q`. -/
theorem foldl_adds {feed : σ → α → σ} (out : σ → List β) (Inv : σ → Prop) {R : α → β → Prop}
    {Q : β → Prop}
    (hfeed : ∀ s a, Inv s → Inv (feed s a) ∧ Adds (R a) (out s) (out (feed s a))) :
    ∀ (l : List α) (s : σ), (∀ a ∈ l, ∀ b, R a b → Q b) → Inv s →
      Inv (l.foldl feed s) ∧ Adds Q (out s) (out (l.foldl feed s))
  | [], s, _, hs => ⟨hs, Adds.refl Q (out s)⟩
  | a :: l, s, hl, hs => by
    obtain ⟨hs', hadds⟩ := hfeed s a hs
    obtain ⟨hs'', hadds'⟩ := foldl_adds out Inv hfeed l (feed s a)
      (fun b hb => hl b (List.mem_cons_of_mem a hb)) hs'
    exact ⟨hs'', (hadds.mono (hl a List.mem_cons_self)).trans hadds'⟩

/-! ## 2. Growth up to an open line -/

/-- `t` grows into `t'`: all of `t`, but for a last stretch without a newline, stands at the
front of `t'`. -/
def Grows (t t' : List Char) : Prop :=
  ∃ kept, Adds (· ≠ '\n') kept t ∧ kept <+: t'

/-! ## 3. Characters from bytes -/

namespace Utf8

/-- The numbers that a place can still complete are above ASCII. -/
def Place.Wide : Place → Prop
  | .start => True
  | .inside owed low _ value =>
    0x80 ≤ low ∧ 2 ≤ value * 64 + (low - 0x80) ∧
      (owed ≤ 1 → 0x80 ≤ value * 64 + (low - 0x80))

/-- A character other than NUL is written by its own number only; what is no code point is written
as NUL. -/
theorem toNat_eq_of_ofNat {n : Nat} {c : Char} (hc : c ≠ '\x00') (h : Char.ofNat n = c) :
    c.toNat = n := by
  by_cases hvalid : n.isValidChar
  · rw [Char.ofNat, dif_pos hvalid] at h
    exact (congrArg Char.toNat h).symm
  · rw [Char.ofNat, dif_neg hvalid] at h
    exact absurd h.symm hc

/-- Only the number 10 is a newline. -/
theorem eq_ten_of_ofNat {n : Nat} (h : Char.ofNat n = '\n') : n = 10 :=
  (toNat_eq_of_ofNat (by decide) h).symm

theorem first_wide (byte : Nat) : (first byte).1.Wide := by
  unfold first
  repeat' split
  all_goals simp only [Place.Wide]
  all_goals omega

theorem first_newline {byte : Nat} (h : some '\n' ∈ (first byte).2) : byte = 10 := by
  unfold first at h
  split at h
  · simp only [List.mem_singleton, Option.some.injEq] at h
    exact eq_ten_of_ofNat h.symm
  · repeat' split at h
    all_goals simp at h

/-- **A step completes a newline at the byte 10 only.**  After any number of bytes the place is
wide, so that no longer sequence spells an ASCII character. -/
theorem step_wide {place : Place} (hplace : place.Wide) (byte : Nat) :
    (step place byte).1.Wide ∧ (some '\n' ∈ (step place byte).2 → byte = 10) := by
  cases place with
  | start => exact ⟨first_wide byte, first_newline⟩
  | inside owed low high value =>
    obtain ⟨hlow, htwo, hlast⟩ := hplace
    simp only [step]
    split
    · rename_i hin
      split
      · rename_i howed
        refine ⟨trivial, fun h => ?_⟩
        simp only [List.mem_singleton, Option.some.injEq] at h
        have hten := eq_ten_of_ofNat h.symm
        have := hlast howed
        omega
      · refine ⟨?_, by simp⟩
        simp only [Place.Wide]
        omega
    · -- the byte breaks a character off and is then a first byte
      refine ⟨first_wide byte, fun h => first_newline ?_⟩
      simpa using h

namespace Reader

theorem toList_out_feed (reader : Reader) (byte : UInt8) :
    (reader.feed byte).out.toList = reader.out.toList ++ (step reader.place byte.toNat).2 := by
  simp [feed]

/-- Every byte adds to what the machine has completed, and only the byte 10 adds a newline. -/
theorem feed_adds (reader : Reader) (byte : UInt8) (hplace : reader.place.Wide) :
    (reader.feed byte).place.Wide ∧
      Adds (fun unit => byte ≠ 10 → unit ≠ some '\n') reader.out.toList
        (reader.feed byte).out.toList := by
  obtain ⟨hwide, hnewline⟩ := step_wide hplace byte.toNat
  refine ⟨hwide, _, toList_out_feed reader byte, fun unit hunit hbyte hten => hbyte ?_⟩
  subst hten
  exact UInt8.toNat_inj.mp (hnewline hunit)

/-- The machine after some bytes. -/
def after (bytes : ByteArray) : Reader :=
  bytes.data.toList.foldl feed {}

theorem after_append (bytes more : ByteArray) :
    after (bytes ++ more) = more.data.toList.foldl feed (after bytes) := by
  simp [after, ByteArray.data_append]

/-- What the end of the bytes adds is no character. -/
theorem finish_adds (reader : Reader) :
    Adds (· = none) reader.out.toList reader.finish.toList := by
  unfold finish
  split
  · exact Adds.refl ..
  · exact ⟨[none], by simp, by simp⟩

/-- The machine only adds to what it has completed, and the place it stands at stays wide. -/
theorem foldl_feed_adds {Q : Option Char → Prop} (bytes : List UInt8) (reader : Reader)
    (hQ : ∀ byte ∈ bytes, ∀ unit, (byte ≠ 10 → unit ≠ some '\n') → Q unit)
    (hplace : reader.place.Wide) :
    (bytes.foldl feed reader).place.Wide ∧
      Adds Q reader.out.toList (bytes.foldl feed reader).out.toList :=
  foldl_adds (fun reader => reader.out.toList) (fun reader => reader.place.Wide) feed_adds bytes
    reader hQ hplace

theorem after_wide (bytes : ByteArray) : (after bytes).place.Wide :=
  (foldl_feed_adds (Q := fun _ => True) bytes.data.toList {} (by simp) trivial).1

end Reader

/-- The characters that some bytes have completed, whatever follows. -/
def settled (bytes : ByteArray) : List Char :=
  (Reader.after bytes).out.toList.map (·.getD '\ufffd')

/-- The end of the bytes adds at most a U+FFFD. -/
theorem settled_adds_lossy (bytes : ByteArray) :
    Adds (· ≠ '\n') (settled bytes) (lossy bytes).toList := by
  have hunits : (units bytes).toList = (Reader.after bytes).finish.toList := by
    simp [units, Reader.after]
  rw [lossy, String.toList_ofList, hunits]
  exact (Reader.finish_adds _).map (by rintro _ rfl; decide)

/-- What follows is added to the characters completed so far. -/
theorem settled_append {Q : Char → Prop} (bytes more : ByteArray)
    (hQ : ∀ byte ∈ more.data.toList, ∀ c, (byte ≠ 10 → c ≠ '\n') → Q c) :
    Adds Q (settled bytes) (settled (bytes ++ more)) := by
  unfold settled
  rw [Reader.after_append]
  refine Adds.map (Q := fun unit => Q (unit.getD '\ufffd'))
    (Reader.foldl_feed_adds more.data.toList _ ?_ (Reader.after_wide bytes)).2 (fun _ h => h)
  intro byte hbyte unit hunit
  refine hQ byte hbyte _ fun hten => ?_
  cases unit with
  | none => decide
  | some c => exact fun hc => hunit hten (congrArg some hc)

/-- **Bytes written later never take back a line.** -/
theorem grows_lossy (bytes more : ByteArray) :
    Grows (lossy bytes).toList (lossy (bytes ++ more)).toList := by
  have hmore : Adds (fun _ => True) (settled bytes) (settled (bytes ++ more)) :=
    settled_append bytes more (by simp)
  exact ⟨settled bytes, settled_adds_lossy bytes,
    hmore.isPrefix.trans (settled_adds_lossy (bytes ++ more)).isPrefix⟩

/-- **Bytes without a line end add no line**: the text with them grows back into the text
without them. -/
theorem grows_lossy_of_no_newline (bytes more : ByteArray)
    (hmore : ∀ byte ∈ more.data.toList, byte ≠ 10) :
    Grows (lossy (bytes ++ more)).toList (lossy bytes).toList := by
  have hadds : Adds (· ≠ '\n') (settled bytes) (settled (bytes ++ more)) :=
    settled_append bytes more fun byte hbyte c hc => hc (hmore byte hbyte)
  exact ⟨settled bytes, hadds.trans (settled_adds_lossy (bytes ++ more)),
    (settled_adds_lossy bytes).isPrefix⟩

end Utf8

/-! ## 4. The byte-order mark and line ends -/

/-- Removing the byte-order mark keeps growth.  A mark that the shorter text does not hold yet in
full is part of its open line. -/
theorem grows_withoutMark {t t' : List Char} (h : Grows t t') :
    Grows (withoutMark t) (withoutMark t') := by
  obtain ⟨kept, ⟨tail, rfl, htail⟩, rest, rfl⟩ := h
  cases kept with
  | nil =>
    refine ⟨[], ⟨withoutMark tail, rfl, fun c hc => htail c ?_⟩, List.nil_prefix⟩
    simp only [withoutMark] at hc ⊢
    split at hc
    · exact List.mem_cons_of_mem _ hc
    · exact hc
  | cons c kept =>
    by_cases hc : c = '\ufeff'
    · subst hc
      exact ⟨kept, ⟨tail, rfl, htail⟩, rest, rfl⟩
    · have hsame (t : List Char) : withoutMark (c :: t) = c :: t := by
        unfold withoutMark
        split
        · rename_i heq
          exact absurd (List.cons.inj heq).1 hc
        · rfl
      rw [List.cons_append, List.cons_append, hsame, hsame]
      exact ⟨c :: kept, ⟨tail, rfl, htail⟩, rest, rfl⟩

namespace Newlines

/-- A character adds to the text given out, and a newline only if it is one. -/
theorem feed_adds (s : Newlines) (c : Char) :
    Adds (fun d => c ≠ '\n' → d ≠ '\n') s.text.toList (s.feed c).text.toList := by
  have hheld : Adds (fun d => c ≠ '\n' → d ≠ '\n') s.text.toList
      (if s.heldCr && c != '\n' then s.text.push '\r' else s.text).toList := by
    split
    · exact ⟨['\r'], by simp, by simp⟩
    · exact Adds.refl ..
  simp only [feed]
  by_cases hcr : c = '\r'
  · rw [if_pos hcr]
    exact hheld
  · rw [if_neg hcr]
    exact hheld.trans ⟨[c], String.toList_push c, by simp⟩

/-- The text given out is only added to, and a newline only comes from a newline. -/
theorem foldl_feed_adds {Q : Char → Prop} (t : List Char) (s : Newlines)
    (hQ : ∀ c ∈ t, ∀ d, (c ≠ '\n' → d ≠ '\n') → Q d) :
    Adds Q s.text.toList (t.foldl feed s).text.toList :=
  (foldl_adds (fun s => s.text.toList) (fun _ => True) (fun s c _ => ⟨trivial, feed_adds s c⟩) t s
    hQ trivial).2

/-- The end of the text adds at most a CR. -/
theorem finish_adds (s : Newlines) : Adds (· ≠ '\n') s.text.toList s.finish.toList := by
  unfold finish
  split
  · exact ⟨['\r'], by simp, by simp⟩
  · exact Adds.refl ..

end Newlines

/-- Making line ends LF keeps growth.  A CR at the end of what is kept is held back, and so are
the characters of the open line after it. -/
theorem grows_lfLines {t t' : List Char} (h : Grows t t') :
    Grows (lfLines t).toList (lfLines t').toList := by
  obtain ⟨kept, ⟨tail, rfl, htail⟩, rest, rfl⟩ := h
  refine ⟨(kept.foldl Newlines.feed {}).text.toList, ?_, ?_⟩
  · rw [lfLines, List.foldl_append]
    refine (Newlines.foldl_feed_adds tail _ ?_).trans (Newlines.finish_adds _)
    exact fun c hc d hd => hd (htail c hc)
  · rw [lfLines, List.foldl_append]
    have hrest := Newlines.foldl_feed_adds (Q := fun _ => True) rest
      (kept.foldl Newlines.feed {}) (by simp)
    exact hrest.isPrefix.trans (Newlines.finish_adds _).isPrefix

end Text
end Collector
