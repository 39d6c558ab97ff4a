import WifiNetlink.Error
import WifiNetlink.Json.Basic

/-!
# Hardware addresses

A hardware address is six bytes, written as six pairs of lower-case digits in base sixteen with
colons between them. A reader takes either case, and a plus sign for the first digit of a pair.
-/

namespace WifiNetlink

/-- A hardware address of 48 bits. -/
structure MacAddress where
  /-- Its six bytes. -/
  octets : Bytes
  length_octets : octets.length = 6
deriving DecidableEq

namespace MacAddress

/-- The address of zeros. -/
def zero : MacAddress := ⟨[0, 0, 0, 0, 0, 0], rfl⟩

instance : Inhabited MacAddress := ⟨zero⟩

/-- The address of exactly six bytes. -/
def ofBytes (bytes : Bytes) : Except Error MacAddress :=
  if h : bytes.length = 6 then .ok ⟨bytes, h⟩
  else .error (.invalidAttribute (.addressSize bytes.length))

theorem ofBytes_eq_ok_iff {bytes : Bytes} {mac : MacAddress} :
    ofBytes bytes = .ok mac ↔ bytes = mac.octets := by
  unfold ofBytes
  constructor
  · intro h
    split at h
    · rw [← Except.ok.inj h]
    · contradiction
  · rintro rfl
    exact dif_pos mac.length_octets

/-- Items with a separator between them. -/
def intercalate (separator : Char) : List (List Char) → List Char
  | [] => []
  | [part] => part
  | part :: rest => part ++ separator :: intercalate separator rest

/-- The address as text. -/
def text (a : MacAddress) : String :=
  String.ofList (intercalate ':' (a.octets.map Bytes.hexByte))

/-- The address as JSON. -/
def toJson (a : MacAddress) : Json := .str a.text

/-- The parts of a text between the separators. -/
def splitOn (separator : Char) : List Char → List (List Char)
  | [] => [[]]
  | c :: rest =>
    if c = separator then [] :: splitOn separator rest
    else
      match splitOn separator rest with
      | [] => [[c]]
      | part :: parts => (c :: part) :: parts

/-- The byte that two characters write. -/
def octet? : List Char → Option UInt8
  | [high, low] =>
    if high = '+' then (Bytes.digit? low).map UInt8.ofNat else Bytes.byte? high low
  | _ => none

/-- The first `count` parts as bytes, with the parts left over. -/
def readOctets (text : String) :
    (count : Nat) → List (List Char) → Except AttributeFault (Bytes × List (List Char))
  | 0, parts => .ok ([], parts)
  | _ + 1, [] => .error (.addressShort text)
  | count + 1, part :: parts =>
    match octet? part with
    | none => .error (.addressOctet (String.ofList part))
    | some octet => (readOctets text count parts).map fun (bytes, parts) ↦ (octet :: bytes, parts)

theorem length_of_readOctets_eq_ok {text : String} {count : Nat} {parts rest : List (List Char)}
    {bytes : Bytes} (h : readOctets text count parts = .ok (bytes, rest)) :
    bytes.length = count := by
  induction count generalizing parts rest bytes with
  | zero =>
    simp only [readOctets, Except.ok.injEq, Prod.mk.injEq] at h
    simp [← h.1]
  | succ count ih =>
    match parts with
    | [] => simp [readOctets] at h
    | part :: parts =>
      simp only [readOctets] at h
      split at h
      · simp at h
      · match hr : readOctets text count parts with
        | .error _ => simp [hr, Except.map] at h
        | .ok (bytes', rest') =>
          simp only [hr, Except.map, Except.ok.injEq, Prod.mk.injEq] at h
          simp [← h.1, ih hr]

/-- The address that a text writes. -/
def parse (text : String) : Except Error MacAddress :=
  match h : readOctets text 6 (splitOn ':' text.toList) with
  | .error fault => .error (.invalidAttribute fault)
  | .ok (bytes, []) => .ok ⟨bytes, length_of_readOctets_eq_ok h⟩
  | .ok (_, _ :: _) => .error (.invalidAttribute (.addressLong text))

end MacAddress

end WifiNetlink
