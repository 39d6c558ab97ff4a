import WifiNetlink.Error

/-!
# Values in payloads

The types of value that an attribute carries. Reading is strict: a number is read only from a
payload of exactly its width, and a text only if it is UTF-8 up to its first zero byte. Main
statements: each number and truth value reads back from what is written of it, and a number is read
from nothing else.
-/

namespace WifiNetlink

/-- A type of value that fits a payload. -/
class Payload (α : Type) where
  /-- The bytes written for a value. -/
  toPayload : α → Bytes
  /-- The value read from all bytes of a payload. -/
  ofPayload : Bytes → Except Error α

export Payload (toPayload ofPayload)

namespace Payload

/-- The number in a payload of exactly `width` bytes; `type` names the type in the refusal. -/
def readNat (width : Nat) (type : String) (bytes : Bytes) : Except Error Nat :=
  if bytes.length = width then .ok (Bytes.toNat bytes)
  else .error (.invalidAttribute (.wrongWidth width type bytes.length))

theorem readNat_ofNat (width : Nat) (type : String) {n : Nat} (h : n < Nat.pow 256 width) :
    readNat width type (Bytes.ofNat width n) = .ok n := by
  simp only [readNat, Bytes.length_ofNat, if_true, Bytes.toNat_ofNat, Nat.mod_eq_of_lt h]

instance : Payload UInt8 where
  toPayload v := Bytes.ofNat 1 v.toNat
  ofPayload bytes := (readNat 1 "u8" bytes).map UInt8.ofNat

instance : Payload UInt16 where
  toPayload v := Bytes.ofNat 2 v.toNat
  ofPayload bytes := (readNat 2 "u16" bytes).map UInt16.ofNat

instance : Payload UInt32 where
  toPayload v := Bytes.ofNat 4 v.toNat
  ofPayload bytes := (readNat 4 "u32" bytes).map UInt32.ofNat

instance : Payload UInt64 where
  toPayload v := Bytes.ofNat 8 v.toNat
  ofPayload bytes := (readNat 8 "u64" bytes).map UInt64.ofNat

instance : Payload Int8 where
  toPayload v := Bytes.ofNat 1 v.toUInt8.toNat
  ofPayload bytes := (readNat 1 "i8" bytes).map fun n ↦ (UInt8.ofNat n).toInt8

instance : Payload Int16 where
  toPayload v := Bytes.ofNat 2 v.toUInt16.toNat
  ofPayload bytes := (readNat 2 "i16" bytes).map fun n ↦ (UInt16.ofNat n).toInt16

instance : Payload Int32 where
  toPayload v := Bytes.ofNat 4 v.toUInt32.toNat
  ofPayload bytes := (readNat 4 "i32" bytes).map fun n ↦ (UInt32.ofNat n).toInt32

instance : Payload Int64 where
  toPayload v := Bytes.ofNat 8 v.toUInt64.toNat
  ofPayload bytes := (readNat 8 "i64" bytes).map fun n ↦ (UInt64.ofNat n).toInt64

/-- A truth value is one byte, and every byte but zero is true. -/
instance : Payload Bool where
  toPayload v := [if v then 1 else 0]
  ofPayload bytes := (ofPayload bytes : Except Error UInt8).map (· != 0)

/-- A byte string is its own payload. -/
instance : Payload Bytes where
  toPayload v := v
  ofPayload bytes := .ok bytes

/-- The text up to the first zero byte, or all of it. -/
def readText (bytes : Bytes) : Except Error String :=
  match Utf8.decode (bytes.takeWhile (· != 0)) with
  | .ok text => .ok text
  | .error fault => .error (.invalidAttribute (.notUtf8 fault))

/-- A text is written with a zero byte after it. -/
instance : Payload String where
  toPayload v := Utf8.encode v ++ [0]
  ofPayload := readText

/-- The byte string itself, if it has exactly `size` bytes. -/
def readArray (size : Nat) (bytes : Bytes) : Except Error Bytes :=
  if bytes.length = size then .ok bytes
  else .error (.invalidAttribute (.arraySize size bytes.length))

@[simp] theorem ofPayload_toPayload_u8 (v : UInt8) :
    ofPayload (toPayload v) = (.ok v : Except Error UInt8) := by
  have h : v.toNat < Nat.pow 256 1 := v.toNat_lt
  simp [toPayload, ofPayload, readNat_ofNat 1 "u8" h, Except.map]

@[simp] theorem ofPayload_toPayload_u16 (v : UInt16) :
    ofPayload (toPayload v) = (.ok v : Except Error UInt16) := by
  have h : v.toNat < Nat.pow 256 2 := v.toNat_lt
  simp [toPayload, ofPayload, readNat_ofNat 2 "u16" h, Except.map]

@[simp] theorem ofPayload_toPayload_u32 (v : UInt32) :
    ofPayload (toPayload v) = (.ok v : Except Error UInt32) := by
  have h : v.toNat < Nat.pow 256 4 := v.toNat_lt
  simp [toPayload, ofPayload, readNat_ofNat 4 "u32" h, Except.map]

@[simp] theorem ofPayload_toPayload_u64 (v : UInt64) :
    ofPayload (toPayload v) = (.ok v : Except Error UInt64) := by
  have h : v.toNat < Nat.pow 256 8 := v.toNat_lt
  simp [toPayload, ofPayload, readNat_ofNat 8 "u64" h, Except.map]

@[simp] theorem ofPayload_toPayload_i8 (v : Int8) :
    ofPayload (toPayload v) = (.ok v : Except Error Int8) := by
  have h : v.toUInt8.toNat < Nat.pow 256 1 := v.toUInt8.toNat_lt
  simp [toPayload, ofPayload, readNat_ofNat 1 "i8" h, Except.map]

@[simp] theorem ofPayload_toPayload_i16 (v : Int16) :
    ofPayload (toPayload v) = (.ok v : Except Error Int16) := by
  have h : v.toUInt16.toNat < Nat.pow 256 2 := v.toUInt16.toNat_lt
  simp [toPayload, ofPayload, readNat_ofNat 2 "i16" h, Except.map]

@[simp] theorem ofPayload_toPayload_i32 (v : Int32) :
    ofPayload (toPayload v) = (.ok v : Except Error Int32) := by
  have h : v.toUInt32.toNat < Nat.pow 256 4 := v.toUInt32.toNat_lt
  simp [toPayload, ofPayload, readNat_ofNat 4 "i32" h, Except.map]

@[simp] theorem ofPayload_toPayload_i64 (v : Int64) :
    ofPayload (toPayload v) = (.ok v : Except Error Int64) := by
  have h : v.toUInt64.toNat < Nat.pow 256 8 := v.toUInt64.toNat_lt
  simp [toPayload, ofPayload, readNat_ofNat 8 "i64" h, Except.map]

@[simp] theorem ofPayload_toPayload_bool (v : Bool) :
    ofPayload (toPayload v) = (.ok v : Except Error Bool) := by
  cases v <;> rfl

/-- Whether each value of a type is read from one payload only, the one that is written for it. -/
class IsExact (α : Type) [Payload α] : Prop where
  ofPayload_eq_ok_iff {payload : Bytes} {v : α} :
    ofPayload payload = .ok v ↔ payload = toPayload v

/-- A number is exact if its writing in `width` bytes keeps it and every number of that many bytes
is the writing of one. -/
theorem readNat_map_eq_ok_iff {α : Type} (width : Nat) {type : String} (decode : Nat → α)
    (encode : α → Nat) (hlt : ∀ v, encode v < Nat.pow 256 width)
    (hdecode : ∀ v, decode (encode v) = v)
    (hencode : ∀ n < Nat.pow 256 width, encode (decode n) = n) {payload : Bytes} {v : α} :
    (readNat width type payload).map decode = .ok v ↔ payload = Bytes.ofNat width (encode v) := by
  constructor
  · intro h
    unfold readNat at h
    split at h
    · next hlength =>
      obtain rfl : decode payload.toNat = v := Except.ok.inj h
      rw [hencode _ (hlength ▸ payload.toNat_lt), ← hlength, Bytes.ofNat_toNat]
    · contradiction
  · rintro rfl
    rw [readNat_ofNat width type (hlt v)]
    exact congrArg Except.ok (hdecode v)

instance : IsExact UInt16 where
  ofPayload_eq_ok_iff := by
    apply readNat_map_eq_ok_iff 2 UInt16.ofNat UInt16.toNat UInt16.toNat_lt
    · exact fun _ ↦ UInt16.ofNat_toNat
    · exact fun _ hn ↦ UInt16.toNat_ofNat_of_lt' hn

instance : IsExact UInt32 where
  ofPayload_eq_ok_iff := by
    apply readNat_map_eq_ok_iff 4 UInt32.ofNat UInt32.toNat UInt32.toNat_lt
    · exact fun _ ↦ UInt32.ofNat_toNat
    · exact fun _ hn ↦ UInt32.toNat_ofNat_of_lt' hn

instance : IsExact UInt64 where
  ofPayload_eq_ok_iff := by
    apply readNat_map_eq_ok_iff 8 UInt64.ofNat UInt64.toNat UInt64.toNat_lt
    · exact fun _ ↦ UInt64.ofNat_toNat
    · exact fun _ hn ↦ UInt64.toNat_ofNat_of_lt' hn

instance : IsExact Int8 where
  ofPayload_eq_ok_iff := by
    apply readNat_map_eq_ok_iff 1 (fun n ↦ (UInt8.ofNat n).toInt8) (fun v ↦ v.toUInt8.toNat)
      fun v ↦ v.toUInt8.toNat_lt
    · intro v
      rw [UInt8.ofNat_toNat, Int8.toInt8_toUInt8]
    · intro n hn
      rw [UInt8.toUInt8_toInt8, UInt8.toNat_ofNat_of_lt' hn]

instance : IsExact Int32 where
  ofPayload_eq_ok_iff := by
    apply readNat_map_eq_ok_iff 4 (fun n ↦ (UInt32.ofNat n).toInt32) (fun v ↦ v.toUInt32.toNat)
      fun v ↦ v.toUInt32.toNat_lt
    · intro v
      rw [UInt32.ofNat_toNat, Int32.toInt32_toUInt32]
    · intro n hn
      rw [UInt32.toUInt32_toInt32, UInt32.toNat_ofNat_of_lt' hn]

end Payload

end WifiNetlink
