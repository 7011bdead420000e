import Linewise.Bytes

/-!
# Text in UTF-8

File names and arguments are byte strings that usually, but not always, spell a
text in UTF-8.  A character takes one to four bytes; its first byte says how
many, and the second byte is kept from spelling a number below the range of that
length, a surrogate, or a number above the last character.

Reading goes byte by byte with at most one character begun.  A byte that cannot
go on with the character begun breaks it off there and is read again as a first
byte.  So every stretch that spells nothing is cut at the first byte that rules
it out, and each such piece counts once.

* `encode` — the bytes of a text;
* `scalars` — the characters read, with `none` for each broken piece;
* `decode?` — the text, if nothing is broken;
* `lossy` — the text with a replacement character for each broken piece.
-/

namespace Linewise

namespace Utf8

/-- The bytes of a text. -/
def encode (text : String) : Bytes :=
  text.toList.flatMap String.utf8EncodeChar

/-- A character of which some bytes are read. -/
structure Begun where
  bits : Nat
  /-- How many bytes are owed after the next one. -/
  owed : Nat
  /-- The least that the next byte may be. -/
  low : UInt8
  /-- The greatest that the next byte may be. -/
  high : UInt8
  deriving Repr, DecidableEq

/-- Read a first byte: a character that is complete or broken, or one that is
begun. -/
def first (b : UInt8) : List (Option Char) × Option Begun :=
  let n := b.toNat
  if n < 0x80 then ([some (Char.ofNat n)], none)
  else if n < 0xC2 then ([none], none)
  else if n < 0xE0 then ([], some ⟨n - 0xC0, 0, 0x80, 0xBF⟩)
  else if n = 0xE0 then ([], some ⟨0, 1, 0xA0, 0xBF⟩)
  else if n = 0xED then ([], some ⟨0xD, 1, 0x80, 0x9F⟩)
  else if n < 0xF0 then ([], some ⟨n - 0xE0, 1, 0x80, 0xBF⟩)
  else if n = 0xF0 then ([], some ⟨0, 2, 0x90, 0xBF⟩)
  else if n < 0xF4 then ([], some ⟨n - 0xF0, 2, 0x80, 0xBF⟩)
  else if n = 0xF4 then ([], some ⟨4, 2, 0x80, 0x8F⟩)
  else ([none], none)

/-- Read one more byte. -/
def feed : Option Begun → UInt8 → List (Option Char) × Option Begun
  | none, b => first b
  | some c, b =>
      if c.low ≤ b ∧ b ≤ c.high then
        let bits := c.bits * 64 + (b.toNat - 0x80)
        match c.owed with
        | 0 => ([some (Char.ofNat bits)], none)
        | owed + 1 => ([], some ⟨bits, owed, 0x80, 0xBF⟩)
      else
        let (read, begun) := first b
        (none :: read, begun)

/-- The characters that a byte string goes on with after the character `begun`.
A character still begun at the end is broken. -/
def scalarsFrom (begun : Option Begun) : Bytes → List (Option Char)
  | [] => if begun.isSome then [none] else []
  | b :: rest => (feed begun b).1 ++ scalarsFrom (feed begun b).2 rest

/-- The characters that the bytes spell, with `none` for each broken piece. -/
def scalars (bytes : Bytes) : List (Option Char) := scalarsFrom none bytes

/-- The text that the bytes spell, if they spell one. -/
def decode? (bytes : Bytes) : Option String :=
  ((scalars bytes).mapM id).map String.ofList

/-- The text that the bytes spell, with a replacement character for each piece
that spells nothing. -/
def lossy (bytes : Bytes) : String :=
  String.ofList ((scalars bytes).map (·.getD (Char.ofNat 0xFFFD)))

end Utf8

end Linewise
