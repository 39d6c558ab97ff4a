import WifiNetlink.Bytes

/-!
# Reading JSON

A document keeps of a JSON text what a reader of settings can ask for: whether a number is whole,
and whether a text is one at all, since an escape may name half of a surrogate pair. Such a text is
refused only where it is asked for.
-/

namespace WifiNetlink

/-- A JSON text, read. -/
inductive Document where
  | null
  | bool (value : Bool)
  /-- A whole number written without sign, point and exponent. -/
  | natural (value : Nat)
  /-- Any other number. -/
  | number
  /-- A text, if its escapes name characters. -/
  | text (value : Option String)
  | array (items : List Document)
  | object (members : List (Option String × Document))

namespace Document

/-- The blanks between tokens. -/
def isBlank (c : Char) : Bool := c == ' ' || c == '\n' || c == '\t' || c == '\r'

/-- What follows the blanks. -/
def skip (cs : List Char) : List Char := cs.dropWhile isBlank

/-- A digit. -/
def isDigit (c : Char) : Bool := '0' ≤ c && c ≤ '9'

/-- The number of four digits in base sixteen. -/
def hex4? (a b c d : Char) : Option Nat := do
  return (← Bytes.byte? a b).toNat * 256 + (← Bytes.byte? c d).toNat

/-- The character after a backslash, if it stands for one. -/
def unescape? (c : Char) : Option Char :=
  if c = '"' ∨ c = '\\' ∨ c = '/' then some c
  else if c = 'b' then some '\x08'
  else if c = 'f' then some '\x0c'
  else if c = 'n' then some '\n'
  else if c = 'r' then some '\r'
  else if c = 't' then some '\t'
  else none

/-- Sixteen-bit units of a text: a plain character, or a unit given by number. -/
abbrev Units := List (Char ⊕ Nat)

/-- The text of the units, pairs of surrogates put together; none if a surrogate stands alone. -/
def join? : Units → Option (List Char)
  | [] => some []
  | .inl c :: rest => (join? rest).map (c :: ·)
  | .inr high :: .inr low :: rest =>
    if 0xD800 ≤ high ∧ high ≤ 0xDBFF then
      if 0xDC00 ≤ low ∧ low ≤ 0xDFFF then
        (join? rest).map
          (Char.ofNat (0x10000 + (high - 0xD800) * 0x400 + (low - 0xDC00)) :: ·)
      else none
    else if 0xDC00 ≤ high ∧ high ≤ 0xDFFF then none
    else (join? (.inr low :: rest)).map (Char.ofNat high :: ·)
  | .inr unit :: rest =>
    if 0xD800 ≤ unit ∧ unit ≤ 0xDFFF then none
    else (join? rest).map (Char.ofNat unit :: ·)

/-- The units of a text up to its closing quote, and what follows. -/
def units? : List Char → Option (Units × List Char)
  | [] => none
  | '"' :: rest => some ([], rest)
  | '\\' :: 'u' :: a :: b :: c :: d :: rest => do
    let unit ← hex4? a b c d
    let (us, rest) ← units? rest
    return (.inr unit :: us, rest)
  | '\\' :: c :: rest => do
    let c ← unescape? c
    let (us, rest) ← units? rest
    return (.inl c :: us, rest)
  | c :: rest =>
    if c.toNat < 0x20 ∨ c = '\\' then none
    else do
      let (us, rest) ← units? rest
      return (.inl c :: us, rest)

/-- A text after its opening quote, and what follows. -/
def text? (cs : List Char) : Option (Option String × List Char) := do
  let (us, rest) ← units? cs
  return ((join? us).map String.ofList, rest)

/-- The number that digits write. -/
def ofDigits (ds : List Char) : Nat :=
  ds.foldl (fun n c ↦ n * 10 + (c.toNat - '0'.toNat)) 0

/-- What follows a point and its digits, if there is a point. -/
def skipFraction? : List Char → Option (List Char)
  | '.' :: rest =>
    if (rest.takeWhile isDigit).isEmpty then none else some (rest.dropWhile isDigit)
  | cs => some cs

/-- What follows an exponent, if there is one. -/
def skipExponent? : List Char → Option (List Char)
  | c :: rest =>
    if c = 'e' ∨ c = 'E' then
      let digits := match rest with
        | '+' :: ds => ds
        | '-' :: ds => ds
        | ds => ds
      if (digits.takeWhile isDigit).isEmpty then none else some (digits.dropWhile isDigit)
    else some (c :: rest)
  | [] => some []

/-- A number, and what follows. It has no zero before other digits. -/
def number? (cs : List Char) : Option (Document × List Char) := do
  let negative := cs.head? == some '-'
  let cs := if negative then cs.tail else cs
  let digits := cs.takeWhile isDigit
  let rest := cs.dropWhile isDigit
  if digits.isEmpty ∨ (digits.head? = some '0' ∧ 1 < digits.length) then none
  let after ← skipFraction? rest
  let after ← skipExponent? after
  if negative ∨ after.length ≠ rest.length then return (number, after)
  else return (natural (ofDigits digits), rest)

/-- What follows a word, if the word comes first. -/
def word? (word cs : List Char) : Option (List Char) :=
  if word.isPrefixOf cs then some (cs.drop word.length) else none

mutual

/-- A value at the start of the text, and what follows; `fuel` bounds the values in it. -/
def value? : (fuel : Nat) → List Char → Option (Document × List Char)
  | 0, _ => none
  | fuel + 1, cs =>
    match skip cs with
    | '"' :: rest => (text? rest).map fun (value, rest) ↦ (text value, rest)
    | '[' :: rest =>
      match skip rest with
      | ']' :: rest => some (array [], rest)
      | _ => (items? fuel rest).map fun (items, rest) ↦ (array items, rest)
    | '\x7b' :: rest =>
      match skip rest with
      | '\x7d' :: rest => some (object [], rest)
      | _ => (members? fuel rest).map fun (members, rest) ↦ (object members, rest)
    | 'n' :: rest => (word? ['u', 'l', 'l'] rest).map fun rest ↦ (null, rest)
    | 't' :: rest => (word? ['r', 'u', 'e'] rest).map fun rest ↦ (bool true, rest)
    | 'f' :: rest => (word? ['a', 'l', 's', 'e'] rest).map fun rest ↦ (bool false, rest)
    | cs => number? cs

/-- The items of an array up to its closing bracket, and what follows. -/
def items? : (fuel : Nat) → List Char → Option (List Document × List Char)
  | 0, _ => none
  | fuel + 1, cs => do
    let (item, rest) ← value? fuel cs
    match skip rest with
    | ',' :: rest => do
      let (items, rest) ← items? fuel rest
      return (item :: items, rest)
    | ']' :: rest => return ([item], rest)
    | _ => none

/-- The members of an object up to its closing brace, and what follows. -/
def members? : (fuel : Nat) → List Char → Option (List (Option String × Document) × List Char)
  | 0, _ => none
  | fuel + 1, cs =>
    match skip cs with
    | '"' :: rest => do
      let (name, rest) ← text? rest
      match skip rest with
      | ':' :: rest => do
        let (value, rest) ← value? fuel rest
        match skip rest with
        | ',' :: rest => do
          let (members, rest) ← members? fuel rest
          return ((name, value) :: members, rest)
        | '\x7d' :: rest => return ([(name, value)], rest)
        | _ => none
      | _ => none
    | _ => none

end

/-- The document of a text, if the whole text is one JSON value. -/
def parse? (text : String) : Option Document :=
  let cs := text.toList
  match value? (2 * cs.length + 2) cs with
  | some (value, rest) => if (skip rest).isEmpty then some value else none
  | none => none

end Document

end WifiNetlink
