/-!
Counts as they are read and written: decimal digits, capped at the largest
64-bit word, and padded with zeros on the left.
-/
namespace Scaffold.Numeral

/-- The largest count that is kept; larger ones stop there. -/
def wordMax : Nat := Nat.pow 2 64 - 1

/-- A count capped at the largest word. -/
def saturate (n : Nat) : Nat := min n wordMax

/-- The value of a run of decimal digits, the most significant first. -/
def digitsValue (digits : List Char) : Nat :=
  digits.foldl (fun n c => 10 * n + (c.toNat - '0'.toNat)) 0

/-- The value of a run of digits, if it is at most the largest word. -/
def ofDigits? (digits : List Char) : Option Nat :=
  let n := digitsValue digits
  if n ≤ wordMax then some n else none

/-- The value of a run of digits, capped at the largest word. -/
def ofDigits (digits : List Char) : Nat :=
  saturate (digitsValue digits)

/-- The decimal digits of a count. -/
def digits (n : Nat) : List Char := Nat.toDigits 10 n

/-- The decimal text of a count. -/
def text (n : Nat) : String := String.ofList (digits n)

/-- The decimal text of a count with zeros on the left up to the given width. -/
def padded (width n : Nat) : String :=
  let ds := digits n
  String.ofList (List.replicate (width - ds.length) '0' ++ ds)

theorem saturate_le (n : Nat) : saturate n ≤ wordMax := Nat.min_le_right _ _

theorem saturate_of_le {n : Nat} (h : n ≤ wordMax) : saturate n = n :=
  Nat.min_eq_left h

theorem ofDigits_le (ds : List Char) : ofDigits ds ≤ wordMax := saturate_le _

end Scaffold.Numeral
