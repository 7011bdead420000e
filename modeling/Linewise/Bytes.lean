/-!
# Byte strings

Everything the library reads or writes is a list of bytes.  A file has no
encoding: only the byte `newline` has a meaning, and text enters where a number
or a message is written.

* `decimal` — the digits of a number, most significant first;
* `padded` — the same digits, moved to the right edge of a column.
-/

namespace Linewise

/-- A byte string. -/
abbrev Bytes := List UInt8

/-- The byte that ends a line. -/
def newline : UInt8 := 10

/-- The byte between a line number and its line. -/
def tab : UInt8 := 9

/-- The byte that fills a column on the left. -/
def blank : UInt8 := 32

/-- A number in decimal, without leading zeros. -/
def decimal (n : Nat) : Bytes :=
  (Nat.toDigits 10 n).map fun digit => digit.toNat.toUInt8

/-- A number in decimal at the right edge of a column of `width` bytes.  A
number that needs more bytes takes them: it is never cut. -/
def padded (width n : Nat) : Bytes :=
  List.replicate (width - (decimal n).length) blank ++ decimal n

theorem padded_of_width_le {width n : Nat} (h : width ≤ (decimal n).length) :
    padded width n = decimal n := by
  simp [padded, Nat.sub_eq_zero_of_le h]

theorem le_length_padded (width n : Nat) : width ≤ (padded width n).length := by
  simp only [padded, List.length_append, List.length_replicate]
  omega

end Linewise
