import WifiNetlink.Error

/-!
# Information elements

A beacon carries a row of elements: an id byte, a length byte and that many bytes of body. A walk
goes on while two bytes are left; an element that runs past the end is one fault and ends the walk.
-/

namespace WifiNetlink

/-- An information element. -/
structure Element where
  id : UInt8
  body : Bytes
deriving Repr, DecidableEq

namespace Element

/-- The id of the element that holds the network name. -/
def ssidId : UInt8 := 0

/-- The elements of a row, up to and with the fault if there is one. -/
def elements : Bytes → List (Except Error Element)
  | id :: length :: rest =>
    if rest.length < length.toNat then
      [.error (.invalidAttribute (.elementOverrun (rest.length + 2)))]
    else .ok ⟨id, rest.take length.toNat⟩ :: elements (rest.drop length.toNat)
  | _ => []
termination_by bytes => bytes.length
decreasing_by
  simp only [List.length_drop, List.length_cons]
  omega

/-- A walk over a row of elements that hands them out one at a time. -/
structure Walk where
  /-- The bytes not yet walked over. -/
  data : Bytes
  /-- Whether the walk met an element that runs past the end. -/
  hasFailed : Bool
deriving Repr, DecidableEq

namespace Walk

/-- The start of a walk. -/
def ofBytes (data : Bytes) : Walk := ⟨data, false⟩

/-- The next element, or the fault in its place, and the walk after it. -/
def next (w : Walk) : Option (Except Error Element) × Walk :=
  if w.hasFailed then (none, w)
  else
    match w.data with
    | id :: length :: rest =>
      if rest.length < length.toNat then
        (some (.error (.invalidAttribute (.elementOverrun (rest.length + 2)))), ⟨rest, true⟩)
      else (some (.ok ⟨id, rest.take length.toNat⟩), ⟨rest.drop length.toNat, false⟩)
    | _ => (none, w)

end Walk

/-- The body of the first network name element in a walk that meets no fault before it. -/
def ssidIn : List (Except Error Element) → Except Error Bytes
  | [] => .error (.missingAttribute "SSID information element")
  | .error e :: _ => .error e
  | .ok element :: rest => if element.id = ssidId then .ok element.body else ssidIn rest

/-- The network name in a row of elements. A hidden network has an empty one. -/
def ssid (bytes : Bytes) : Except Error Bytes := ssidIn (elements bytes)

end Element

end WifiNetlink
