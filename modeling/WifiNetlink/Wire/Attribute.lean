import WifiNetlink.Wire.Payload

/-!
# Attributes

An attribute is a length, a type and a payload. The length counts the four header bytes and the
payload, not the padding after it; the two upper bits of the type are flags and the rest is the
kind. A container is an attribute whose payload is a row of attributes, each starting on a
four-byte boundary. Main statements: an attribute reads back from its bytes, whatever follows them,
and its declared length is the number of its bytes.
-/

namespace WifiNetlink

/-- The flag of a container. -/
def nestedFlag : UInt16 := 0x8000

/-- The kind of an attribute type: the type without its two flags. -/
def kindOf (type : UInt16) : UInt16 := type &&& 0x3FFF

/-- Whether a type has the flag of a container. -/
def isNestedType (type : UInt16) : Bool := type &&& nestedFlag != 0

/-- The two numbers before a payload. -/
structure AttributeHeader where
  /-- Bytes of header and payload. -/
  length : UInt16
  /-- Kind and flags. -/
  type : UInt16
deriving Repr, DecidableEq

namespace AttributeHeader

/-- The kind of the attribute. -/
def kind (h : AttributeHeader) : UInt16 := kindOf h.type

/-- Whether the attribute is a container. -/
def isNested (h : AttributeHeader) : Bool := isNestedType h.type

/-- Bytes of payload, none if the length does not even cover the header. -/
def payloadLength (h : AttributeHeader) : Nat := h.length.toNat - 4

/-- The header as bytes. -/
def toBytes (h : AttributeHeader) : Bytes :=
  Bytes.ofNat 2 h.length.toNat ++ Bytes.ofNat 2 h.type.toNat

/-- The header at the start of `bytes`. -/
def read (bytes : Bytes) : Except Error AttributeHeader :=
  if bytes.length < 4 then .error (.truncated 4 bytes.length)
  else .ok ⟨UInt16.ofNat (bytes.natAt 0 2), UInt16.ofNat (bytes.natAt 2 2)⟩

/-- A header reads back, whatever follows it. -/
theorem read_toBytes_append (h : AttributeHeader) (rest : Bytes) :
    read (h.toBytes ++ rest) = .ok h := by
  have hl := h.length.toNat_lt
  have ht := h.type.toNat_lt
  have hlength : (h.toBytes ++ rest).natAt 0 2 = h.length.toNat := by
    rw [toBytes, List.append_assoc, Bytes.natAt_ofNat_append]
    exact Nat.mod_eq_of_lt hl
  have htype : (h.toBytes ++ rest).natAt 2 2 = h.type.toNat := by
    rw [toBytes, List.append_assoc, Bytes.natAt_append_of_le _ _ (by simp), Bytes.length_ofNat,
      Bytes.natAt_ofNat_append]
    exact Nat.mod_eq_of_lt ht
  have hlen : ¬ (h.toBytes ++ rest).length < 4 := by
    simp [toBytes]
    omega
  rw [read, if_neg hlen, hlength, htype, UInt16.ofNat_toNat, UInt16.ofNat_toNat]

end AttributeHeader

/-- The largest payload that a length of two bytes can declare. -/
def maxPayload : Nat := 65531

/-- An attribute. -/
structure Attribute where
  /-- Kind and flags. -/
  type : UInt16
  /-- What follows the header. -/
  payload : Bytes
  /-- The length fits its two bytes. -/
  fits : payload.length ≤ maxPayload
deriving DecidableEq

namespace Attribute

/-- The attribute of that type and payload, if the payload fits. -/
def ofPayload (type : UInt16) (payload : Bytes) : Except Error Attribute :=
  if h : payload.length ≤ maxPayload then .ok ⟨type, payload, h⟩
  else .error (.invalidAttribute (.payloadTooLarge payload.length type))

/-- The attribute that carries a value. -/
def encode {α : Type} [Payload α] (type : UInt16) (value : α) : Except Error Attribute :=
  ofPayload type (Payload.toPayload value)

/-- The attribute without payload. -/
def flag (type : UInt16) : Attribute := ⟨type, [], Nat.zero_le _⟩

/-- The empty container. -/
def nested (type : UInt16) : Attribute := flag (type ||| nestedFlag)

/-- Bytes of header and payload. -/
def length (a : Attribute) : Nat := 4 + a.payload.length

/-- The kind of the attribute. -/
def kind (a : Attribute) : UInt16 := kindOf a.type

/-- Whether the attribute is a container. -/
def isNested (a : Attribute) : Bool := isNestedType a.type

/-- Whether there is no payload. -/
def isEmpty (a : Attribute) : Bool := a.payload.isEmpty

/-- The header of the attribute. -/
def header (a : Attribute) : AttributeHeader := ⟨UInt16.ofNat a.length, a.type⟩

/-- The attribute as bytes, without padding after it. -/
def toBytes (a : Attribute) : Bytes := a.header.toBytes ++ a.payload

@[simp] theorem length_toBytes (a : Attribute) : a.toBytes.length = a.length := by
  simp only [toBytes, AttributeHeader.toBytes, length, List.length_append, Bytes.length_ofNat]

/-- The declared length is the number of bytes. -/
theorem toNat_length_header (a : Attribute) : a.header.length.toNat = a.toBytes.length := by
  have h := a.fits
  simp only [maxPayload] at h
  simp only [header, length_toBytes, length, UInt16.toNat_ofNat']
  omega

/-- The attribute at the start of `bytes`. -/
def ofBytes (bytes : Bytes) : Except Error Attribute :=
  match AttributeHeader.read bytes with
  | .error e => .error e
  | .ok h =>
    if h.length.toNat < 4 then
      .error (.invalidAttribute (.lengthBelowHeader h.length.toNat))
    else if bytes.length < h.length.toNat then
      .error (.truncated h.length.toNat bytes.length)
    else
      .ok ⟨h.type, (bytes.take h.length.toNat).drop 4, by
        have := h.length.toNat_lt
        simp only [List.length_drop, List.length_take, maxPayload]
        omega⟩

/-- The value of the whole payload. -/
def value (α : Type) [Payload α] (a : Attribute) : Except Error α :=
  Payload.ofPayload a.payload

/-- The container with `child` after its children, on the next four-byte boundary, if the length
still fits. -/
def addChild (a child : Attribute) : Except Error Attribute :=
  if h : align4 a.length + child.length ≤ 65535 then
    .ok ⟨a.type, a.payload.padded ++ child.toBytes, by
      simp only [length, align4] at h
      simp only [List.length_append, Bytes.length_padded, length_toBytes, length, maxPayload,
        align4]
      omega⟩
  else .error (.invalidAttribute (.containerFull a.kind))

/-- The container with all children after its own, in order. -/
def addChildren (a : Attribute) (children : List Attribute) : Except Error Attribute :=
  children.foldlM addChild a

theorem ext {a b : Attribute} (ht : a.type = b.type) (hp : a.payload = b.payload) : a = b := by
  cases a
  cases b
  subst ht hp
  rfl

/-- An attribute reads back, whatever follows it. -/
theorem ofBytes_toBytes_append (a : Attribute) (rest : Bytes) :
    ofBytes (a.toBytes ++ rest) = .ok a := by
  have hread : AttributeHeader.read (a.toBytes ++ rest) = .ok a.header := by
    rw [toBytes, List.append_assoc]
    exact AttributeHeader.read_toBytes_append a.header (a.payload ++ rest)
  have hlength : a.header.length.toNat = a.toBytes.length := toNat_length_header a
  have h4 : a.header.toBytes.length = 4 := by simp [AttributeHeader.toBytes]
  have hpayload : ((a.toBytes ++ rest).take a.header.length.toNat).drop 4 = a.payload := by
    rw [hlength, List.take_left, toBytes]
    exact List.drop_left' h4
  simp only [ofBytes, hread]
  rw [if_neg (by rw [hlength, length_toBytes, length]; omega),
    if_neg (by rw [hlength, List.length_append]; omega)]
  exact congrArg Except.ok (ext rfl hpayload)

@[simp] theorem toBytes_flag (type : UInt16) :
    (flag type).toBytes = Bytes.ofNat 2 4 ++ Bytes.ofNat 2 type.toNat := by
  simp [toBytes, flag, header, length, AttributeHeader.toBytes]

end Attribute

end WifiNetlink
