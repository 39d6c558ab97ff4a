import WifiNetlink.Bytes

/-!
# Reading UTF-8

Names and network names arrive as bytes. A strict reader reports the first place that is no UTF-8
and how many bytes there begin no character; a lenient reader writes the replacement character for
each such place instead. Both walk the bytes once, holding the character they are inside of.
-/

namespace WifiNetlink.Utf8

/-- A character whose first bytes have been read. -/
structure Partial where
  /-- Least value the next byte may have. -/
  low : UInt8
  /-- Greatest value the next byte may have. -/
  high : UInt8
  /-- Bytes still to come. -/
  owed : Nat
  /-- The bits read so far. -/
  code : Nat
  /-- Bytes read so far. -/
  seen : Nat
deriving Repr, DecidableEq

/-- What a byte between characters does. -/
inductive Lead where
  /-- It is a character of its own. -/
  | char (value : Char)
  /-- It begins a longer character. -/
  | opens (inside : Partial)
  /-- It begins no character. -/
  | bad
deriving Repr, DecidableEq

/-- Classify a byte between characters. The bounds on the second byte leave out overlong forms,
surrogates and values above `0x10FFFF`. -/
def Lead.of (b : UInt8) : Lead :=
  if b < 0x80 then .char (Char.ofNat b.toNat)
  else if b < 0xC2 then .bad
  else if b ≤ 0xDF then .opens ⟨0x80, 0xBF, 1, b.toNat - 0xC0, 1⟩
  else if b = 0xE0 then .opens ⟨0xA0, 0xBF, 2, 0, 1⟩
  else if b = 0xED then .opens ⟨0x80, 0x9F, 2, 0xD, 1⟩
  else if b ≤ 0xEF then .opens ⟨0x80, 0xBF, 2, b.toNat - 0xE0, 1⟩
  else if b = 0xF0 then .opens ⟨0x90, 0xBF, 3, 0, 1⟩
  else if b ≤ 0xF3 then .opens ⟨0x80, 0xBF, 3, b.toNat - 0xF0, 1⟩
  else if b = 0xF4 then .opens ⟨0x80, 0x8F, 3, 4, 1⟩
  else .bad

/-- Whether `b` may follow inside the character. -/
def Partial.admits (p : Partial) (b : UInt8) : Bool := p.low ≤ b && b ≤ p.high

/-- The character after one more byte, all later bytes being free. -/
def Partial.push (p : Partial) (b : UInt8) : Partial :=
  ⟨0x80, 0xBF, p.owed - 1, p.code * 64 + b.toNat % 64, p.seen + 1⟩

/-- The first place that is no UTF-8. -/
structure Fault where
  /-- Bytes before it, all of them UTF-8. -/
  index : Nat
  /-- How many bytes there begin no character; none if the input ends inside one. -/
  length : Option Nat
deriving Repr, DecidableEq

/-- The wording of a fault. -/
def Fault.message (f : Fault) : String :=
  match f.length with
  | some n => "invalid utf-8 sequence of " ++ toString n ++ " bytes from index " ++ toString f.index
  | none => "incomplete utf-8 byte sequence from index " ++ toString f.index

/-- Strict reading, `index` bytes having been read before the character in progress. -/
def decodeFrom (index : Nat) : Option Partial → Bytes → Except Fault (List Char)
  | none, [] => .ok []
  | some _, [] => .error ⟨index, none⟩
  | none, b :: rest =>
    match Lead.of b with
    | .char c => (decodeFrom (index + 1) none rest).map (c :: ·)
    | .opens p => decodeFrom index (some p) rest
    | .bad => .error ⟨index, some 1⟩
  | some p, b :: rest =>
    if p.admits b then
      if p.owed ≤ 1 then
        (decodeFrom (index + p.seen + 1) none rest).map (Char.ofNat (p.push b).code :: ·)
      else decodeFrom index (some (p.push b)) rest
    else .error ⟨index, some p.seen⟩

/-- The text of a byte string, or the first place that is no UTF-8. -/
def decode (bytes : Bytes) : Except Fault String :=
  (decodeFrom 0 none bytes).map String.ofList

/-- The character written for bytes that are no UTF-8. -/
def replacement : Char := '\uFFFD'

/-- Lenient reading from inside the character in progress. -/
def decodeLossyFrom : Option Partial → Bytes → List Char
  | none, [] => []
  | some _, [] => [replacement]
  | none, b :: rest =>
    match Lead.of b with
    | .char c => c :: decodeLossyFrom none rest
    | .opens p => decodeLossyFrom (some p) rest
    | .bad => replacement :: decodeLossyFrom none rest
  | some p, b :: rest =>
    if p.admits b then
      if p.owed ≤ 1 then Char.ofNat (p.push b).code :: decodeLossyFrom none rest
      else decodeLossyFrom (some (p.push b)) rest
    else
      replacement ::
        match Lead.of b with
        | .char c => c :: decodeLossyFrom none rest
        | .opens q => decodeLossyFrom (some q) rest
        | .bad => replacement :: decodeLossyFrom none rest

/-- The text of a byte string, each run of bytes that begins no character written as the
replacement character. -/
def decodeLossy (bytes : Bytes) : String :=
  String.ofList (decodeLossyFrom none bytes)

/-- The bytes of a text. -/
def encode (text : String) : Bytes := text.toUTF8.toList

end WifiNetlink.Utf8
