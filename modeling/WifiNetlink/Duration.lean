/-!
# Durations

A duration is a whole number of nanoseconds. It prints in the largest of four units that leaves a
whole part, with only as many decimals as it needs.
-/

namespace WifiNetlink

/-- A length of time. -/
structure Duration where
  /-- Its length in nanoseconds. -/
  nanos : Nat
deriving Repr, DecidableEq, Inhabited

namespace Duration

/-- So many seconds and nanoseconds. -/
def ofParts (seconds nanos : Nat) : Duration := ⟨seconds * 1000000000 + nanos⟩

/-- So many seconds. -/
def ofSeconds (seconds : Nat) : Duration := ofParts seconds 0

/-- So many milliseconds. -/
def ofMillis (millis : Nat) : Duration := ⟨millis * 1000000⟩

/-- The whole seconds. -/
def seconds (d : Duration) : Nat := d.nanos / 1000000000

/-- The nanoseconds beyond the whole seconds. -/
def subsecond (d : Duration) : Nat := d.nanos % 1000000000

/-- The whole milliseconds. -/
def millis (d : Duration) : Nat := d.nanos / 1000000

/-- The milliseconds, a part of one counted as a whole one. -/
def millisCeil (d : Duration) : Nat := (d.nanos + 999999) / 1000000

/-- The decimals of `rest` units of the last of `places` places, without the zeros at the end. -/
private def decimals : (places : Nat) → (rest : Nat) → List Char
  | 0, _ => []
  | places + 1, rest =>
    if rest = 0 then []
    else Nat.digitChar (rest / Nat.pow 10 places) :: decimals places (rest % Nat.pow 10 places)

/-- A number of nanoseconds counted in units of `10 ^ places` nanoseconds. -/
private def inUnits (places nanos : Nat) (unit : String) : String :=
  let fraction := decimals places (nanos % Nat.pow 10 places)
  toString (nanos / Nat.pow 10 places) ++
    (if fraction.isEmpty then "" else String.ofList ('.' :: fraction)) ++ unit

/-- A duration in seconds, milliseconds, microseconds or nanoseconds. -/
def text (d : Duration) : String :=
  if 1000000000 ≤ d.nanos then inUnits 9 d.nanos "s"
  else if 1000000 ≤ d.nanos then inUnits 6 d.nanos "ms"
  else if 1000 ≤ d.nanos then inUnits 3 d.nanos "µs"
  else inUnits 0 d.nanos "ns"

end Duration

end WifiNetlink
