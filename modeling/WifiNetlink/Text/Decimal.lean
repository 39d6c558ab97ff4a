/-!
# Decimals of binary floating-point numbers

Signal levels are hundredths of a unit and rates are tenths, printed through the binary64 number
nearest to the quotient. A number of at most fifteen digits is the shortest decimal that reads back
as that binary64 number, so such a quotient prints as itself. Rounding it to fewer places is
another matter: what is rounded is the binary64 number, which can lie on either side of the decimal
it stands for.
-/

namespace WifiNetlink.Decimal

/-- The quotient `num / den` rounded to the nearest whole number, a tie to the even one. -/
def roundDiv (num den : Nat) : Nat :=
  let q := num / den
  let r := num % den
  if 2 * r < den then q
  else if den < 2 * r then q + 1
  else if q % 2 = 0 then q else q + 1

/-- A quotient of whole numbers. -/
structure Ratio where
  num : Nat
  den : Nat
deriving Repr, DecidableEq

/-- The binary64 number nearest to `num / den`, for a quotient in the normal range: the quotient is
scaled by the power of two that leaves 53 bits before the point, rounded there, and scaled back. -/
def Ratio.binary64 (x : Ratio) : Ratio :=
  if x.num = 0 then ⟨0, 1⟩
  else
    let up := 53 + Nat.log2 x.den - Nat.log2 x.num
    let down := Nat.log2 x.num - (53 + Nat.log2 x.den)
    let num := x.num <<< up
    let den := x.den <<< down
    if num / den < 1 <<< 53 then ⟨roundDiv num den <<< down, 1 <<< up⟩
    else ⟨roundDiv num (2 * den) <<< (down + 1), 1 <<< up⟩

/-- The quotient rounded to `places` decimal places, in units of the last place, a tie to even. -/
def Ratio.round (x : Ratio) (places : Nat) : Nat :=
  roundDiv (x.num * Nat.pow 10 places) x.den

/-- The digits of `n`, at least `width` of them. -/
def digits (width n : Nat) : List Char :=
  let ds := Nat.toDigits 10 n
  List.replicate (width - ds.length) '0' ++ ds

/-- A number of units of the last of `places` places, written with a point. -/
def fixed (places units : Nat) : List Char :=
  Nat.toDigits 10 (units / Nat.pow 10 places) ++
    if places = 0 then [] else '.' :: digits places (units % Nat.pow 10 places)

/-- A text without the given character at its end. -/
def trimEnd (c : Char) (text : List Char) : List Char :=
  (text.reverse.dropWhile (· == c)).reverse

/-- The shortest decimal of a number of units of the last of `places` places: no zero at the end,
but at least one digit after the point. -/
def shortest (places units : Nat) : List Char :=
  Nat.toDigits 10 (units / Nat.pow 10 places) ++ '.' ::
    match trimEnd '0' (digits places (units % Nat.pow 10 places)) with
    | [] => ['0']
    | ds => ds

/-- The sign of a number before its digits. -/
def signed (n : Int) (text : List Char) : List Char :=
  if n < 0 then '-' :: text else text

/-- The number of `10 ^ -places` units as the shortest decimal that reads back. -/
def shortestText (places : Nat) (units : Int) : String :=
  String.ofList (signed units (shortest places units.natAbs))

/-- The binary64 number nearest to that many `10 ^ -places` units, rounded to `kept` places. -/
def roundedText (places kept : Nat) (units : Int) : String :=
  let value := Ratio.binary64 ⟨units.natAbs, Nat.pow 10 places⟩
  String.ofList (signed units (fixed kept (value.round kept)))

/-- A text with blanks before it up to the given width. -/
def padStart (width : Nat) (text : String) : String :=
  String.ofList (List.replicate (width - text.length) ' ') ++ text

/-- The even neighbour gets a tie. -/
example : roundDiv 25 10 = 2 ∧ roundDiv 35 10 = 4 ∧ roundDiv 26 10 = 3 := by decide

end WifiNetlink.Decimal
