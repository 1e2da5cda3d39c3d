/-
# Characters from bytes

A result file may be read while a character is half written, so reading never fails: what is
no character becomes U+FFFD, once for each maximal stretch that begins like a character and
then breaks off (`lossy`).  A configuration file has to be text throughout (`strict?`).

Both are views of one machine that takes a byte at a time.  Its `Place` says how many bytes the
character begun still needs and between which bounds the next one must lie; the bounds are
narrower than those of a continuation byte only after E0, ED, F0 and F4, where they exclude
overlong forms, surrogates and numbers above U+10FFFF.  A byte outside its bounds breaks the
character off and is then read as a first byte.
-/

namespace Collector
namespace Text
namespace Utf8

/-- Where the machine stands between two bytes. -/
inductive Place where
  /-- Between characters. -/
  | start
  /-- Inside a character: `owed` more bytes, the next one from `low` to `high`; `value` is the
  number that the bytes so far spell. -/
  | inside (owed low high value : Nat)
deriving Repr, DecidableEq

/-- What a byte completes: characters, and `none` for a stretch that is no character. -/
abbrev Yield := List (Option Char)

/-- The first byte of a character. -/
def first (byte : Nat) : Place × Yield :=
  if byte < 0x80 then (.start, [some (Char.ofNat byte)])
  else if byte < 0xC2 then (.start, [none])
  else if byte < 0xE0 then (.inside 1 0x80 0xBF (byte - 0xC0), [])
  else if byte = 0xE0 then (.inside 2 0xA0 0xBF 0, [])
  else if byte = 0xED then (.inside 2 0x80 0x9F 0xD, [])
  else if byte < 0xF0 then (.inside 2 0x80 0xBF (byte - 0xE0), [])
  else if byte = 0xF0 then (.inside 3 0x90 0xBF 0, [])
  else if byte < 0xF4 then (.inside 3 0x80 0xBF (byte - 0xF0), [])
  else if byte = 0xF4 then (.inside 3 0x80 0x8F 4, [])
  else (.start, [none])

/-- One byte: where the machine stands after it, and what it completes. -/
def step : Place → Nat → Place × Yield
  | .start, byte => first byte
  | .inside owed low high value, byte =>
    if low ≤ byte ∧ byte ≤ high then
      let value := value * 64 + (byte - 0x80)
      if owed ≤ 1 then (.start, [some (Char.ofNat value)])
      else (.inside (owed - 1) 0x80 0xBF value, [])
    else
      let (place, yielded) := first byte
      (place, none :: yielded)

/-- The machine with everything it has completed so far. -/
structure Reader where
  place : Place := .start
  out : Array (Option Char) := #[]
deriving Repr

namespace Reader

/-- Takes one byte. -/
def feed (reader : Reader) (byte : UInt8) : Reader :=
  let (place, yielded) := step reader.place byte.toNat
  { place, out := reader.out ++ yielded }

/-- The end of the bytes: a character still open is broken off. -/
def finish (reader : Reader) : Array (Option Char) :=
  match reader.place with
  | .start => reader.out
  | .inside .. => reader.out.push none

end Reader

/-- The characters and broken stretches of some bytes, in order. -/
def units (bytes : ByteArray) : Array (Option Char) :=
  (bytes.data.foldl Reader.feed {}).finish

/-- The text of some bytes, with U+FFFD for each stretch that is no character. -/
def lossy (bytes : ByteArray) : String :=
  String.ofList ((units bytes).toList.map (·.getD '\ufffd'))

/-- The text of some bytes, if they are UTF-8 throughout. -/
def strict? (bytes : ByteArray) : Option String :=
  ((units bytes).toList.mapM id).map String.ofList

end Utf8
end Text
end Collector
