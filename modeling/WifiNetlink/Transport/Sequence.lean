/-!
# Sequence numbers

A reply carries the sequence number of its request. Zero marks multicast traffic, so requests are
numbered from one, and the counter passes over zero when it wraps. Main statement: no request gets
the number zero.
-/

namespace WifiNetlink

/-- The numbering of requests. -/
structure SequenceCounter where
  /-- The last number given out. -/
  last : UInt32
deriving Repr, DecidableEq, Inhabited

namespace SequenceCounter

/-- No number is given out yet. -/
def fresh : SequenceCounter := ⟨0⟩

/-- The number after `last`, zero left out. -/
def next (c : SequenceCounter) : UInt32 := if c.last + 1 = 0 then 1 else c.last + 1

/-- The counter after its next number is given out. -/
def advance (c : SequenceCounter) : SequenceCounter := ⟨c.next⟩

/-- The next `count` numbers. -/
def take : (count : Nat) → SequenceCounter → List UInt32
  | 0, _ => []
  | count + 1, c => c.next :: take count c.advance

theorem next_ne_zero (c : SequenceCounter) : c.next ≠ 0 := by
  unfold next
  split
  · decide
  · assumption

end SequenceCounter

end WifiNetlink
