import WifiNetlink.Proofs.Tree
import WifiNetlink.Proofs.Utf8

/-!
# Ways to read an attribute

An attribute at the start of some bytes is read whole, met on a walk over them, or asked for by its
kind and a type of value. Each way checks the header by itself. Main statement: on every byte string
they agree, and each of them gives back the value that was written, of every type that attributes
carry, whatever follows it; a number is not read at another width.
-/

namespace WifiNetlink

/-- A type of values that attributes carry. -/
inductive ValueType where
  | u8 | u16 | u32 | u64
  | i8 | i16 | i32 | i64
  | bool
  | bytes
  | text
deriving Repr, DecidableEq

namespace ValueType

/-- The values of a type. -/
def Carrier : ValueType → Type
  | u8 => UInt8
  | u16 => UInt16
  | u32 => UInt32
  | u64 => UInt64
  | i8 => Int8
  | i16 => Int16
  | i32 => Int32
  | i64 => Int64
  | bool => Bool
  | bytes => Bytes
  | text => String

instance : (t : ValueType) → Payload t.Carrier
  | u8 => inferInstanceAs (Payload UInt8)
  | u16 => inferInstanceAs (Payload UInt16)
  | u32 => inferInstanceAs (Payload UInt32)
  | u64 => inferInstanceAs (Payload UInt64)
  | i8 => inferInstanceAs (Payload Int8)
  | i16 => inferInstanceAs (Payload Int16)
  | i32 => inferInstanceAs (Payload Int32)
  | i64 => inferInstanceAs (Payload Int64)
  | bool => inferInstanceAs (Payload Bool)
  | bytes => inferInstanceAs (Payload Bytes)
  | text => inferInstanceAs (Payload String)

/-- How many bytes each number or truth value of a type takes. -/
def width? : ValueType → Option Nat
  | u8 | i8 | bool => some 1
  | u16 | i16 => some 2
  | u32 | i32 => some 4
  | u64 | i64 => some 8
  | bytes | text => none

/-- Whether a value fits an attribute: a text has a zero byte after it. -/
def Fits : (t : ValueType) → t.Carrier → Prop
  | bytes, v => List.length v ≤ maxPayload
  | text, v => (Utf8.encode v).length < maxPayload
  | _, _ => True

/-- Whether a value has no zero character in it, which would end a text. -/
def ZeroFree : (t : ValueType) → t.Carrier → Prop
  | text, v => '\x00' ∉ String.toList v
  | _, _ => True

theorem length_toPayload_of_width? {t : ValueType} {width : Nat} (ht : t.width? = some width)
    (v : t.Carrier) : (toPayload v).length = width := by
  cases t
  case bytes => contradiction
  case text => contradiction
  all_goals
    obtain rfl := Option.some.inj ht
    rfl

/-- Bytes of another number are no value of a type of fixed width. -/
theorem ofPayload_of_length_ne {t : ValueType} {width : Nat} (ht : t.width? = some width)
    {payload : Bytes} (hlength : payload.length ≠ width) :
    (ofPayload payload : Except Error t.Carrier).toOption = none := by
  have hread (type : String) : Payload.readNat width type payload =
      .error (.invalidAttribute (.wrongWidth width type payload.length)) := if_neg hlength
  cases t
  case bytes => contradiction
  case text => contradiction
  case bool =>
    obtain rfl := Option.some.inj ht
    change (((Payload.readNat 1 "u8" payload).map UInt8.ofNat).map (· != 0)).toOption = none
    rw [hread]
    rfl
  all_goals
    obtain rfl := Option.some.inj ht
    change ((Payload.readNat _ _ payload).map _).toOption = none
    rw [hread]
    rfl

/-- A value reads back from what is written of it. -/
theorem ofPayload_toPayload {t : ValueType} {v : t.Carrier} (hv : t.ZeroFree v) :
    ofPayload (toPayload v) = (.ok v : Except Error t.Carrier) := by
  cases t
  case u8 => exact Payload.ofPayload_toPayload_u8 v
  case u16 => exact Payload.ofPayload_toPayload_u16 v
  case u32 => exact Payload.ofPayload_toPayload_u32 v
  case u64 => exact Payload.ofPayload_toPayload_u64 v
  case i8 => exact Payload.ofPayload_toPayload_i8 v
  case i16 => exact Payload.ofPayload_toPayload_i16 v
  case i32 => exact Payload.ofPayload_toPayload_i32 v
  case i64 => exact Payload.ofPayload_toPayload_i64 v
  case bool => exact Payload.ofPayload_toPayload_bool v
  case bytes => rfl
  case text => exact Payload.ofPayload_toPayload_text hv

theorem fits_iff {t : ValueType} (v : t.Carrier) :
    t.Fits v ↔ (toPayload v).length ≤ maxPayload := by
  cases t
  case bytes => exact Iff.rfl
  case text =>
    change _ ↔ (Utf8.encode v ++ [0]).length ≤ maxPayload
    rw [List.length_append, List.length_singleton]
    exact Iff.rfl
  all_goals
    rw [length_toPayload_of_width? rfl]
    exact iff_of_true trivial (by decide)

end ValueType

namespace Attribute

/-- The ways to read the attribute at the start of some bytes, which is of a kind, and the value in
it, if there is one. -/
structure IsReadAs (a : Attribute) (kind : UInt16) {α : Type} [Payload α] (v : Option α)
    (bytes : Bytes) : Prop where
  ofBytes_eq : ofBytes bytes = .ok a
  kind_eq : a.kind = kind
  value_eq : (a.value α).toOption = v
  next_eq : (Cursor.ofBytes bytes).next.1 = some ⟨kind, a.payload⟩
  frontValue?_eq : Region.frontValue? α bytes kind = v
  value?_eq : Region.value? α bytes kind = v

/-- A payload that fits is put into the attribute that has it. -/
theorem ofPayload_eq_ok_iff (type : UInt16) (payload : Bytes) {a : Attribute} :
    ofPayload type payload = .ok a ↔ a.type = type ∧ a.payload = payload := by
  rw [ofPayload]
  constructor
  · intro ha
    split at ha
    · obtain rfl := Except.ok.inj ha
      exact ⟨rfl, rfl⟩
    · contradiction
  · rintro ⟨rfl, rfl⟩
    rw [dif_pos a.fits]

/-- A value is written to the attribute that has its bytes. -/
theorem encode_eq_ok_iff {α : Type} [Payload α] (type : UInt16) (v : α) {a : Attribute} :
    encode type v = .ok a ↔ a.type = type ∧ a.payload = toPayload v :=
  ofPayload_eq_ok_iff type (toPayload v)

end Attribute

/-- What is made in two steps is made if both succeed. -/
theorem bind_eq_ok_iff {ε α β : Type} {x : Except ε α} {f : α → Except ε β} {b : β} :
    x >>= f = .ok b ↔ ∃ a, x = .ok a ∧ f a = .ok b := by
  cases x with
  | ok a => simp [bind, Except.bind]
  | error e => simp [bind, Except.bind]

/-- If each outcome is one that is told or a failure, success is what is told. -/
theorem eq_ok_iff_of_cases {ε α : Type} {x : Except ε α} {P : α → Prop} {v : α}
    (hok : ∀ v, P v → x = .ok v) (h : (∃ v, P v) ∨ ∃ e, x = .error e) :
    x = .ok v ↔ P v := by
  refine ⟨fun hv ↦ ?_, hok v⟩
  rcases h with ⟨w, hw⟩ | ⟨e, he⟩
  · rw [hok w hw] at hv
    rwa [← Except.ok.inj hv]
  · rw [he] at hv
    contradiction

theorem eq_error_iff_of_cases {ε α : Type} {x : Except ε α} {Q : ε → Prop} {e : ε}
    (herror : ∀ e, Q e → x = .error e) (h : (∃ v, x = .ok v) ∨ ∃ e, Q e) :
    x = .error e ↔ Q e := by
  refine ⟨fun he ↦ ?_, herror e⟩
  rcases h with ⟨v, hv⟩ | ⟨f, hf⟩
  · rw [hv] at he
    contradiction
  · rw [herror f hf] at he
    rwa [← Except.error.inj he]

theorem toOption_eq_some_iff {α : Type} {x : Except Error α} {v : α} :
    x.toOption = some v ↔ x = .ok v := by
  cases x with
  | error e => simp [Except.toOption]
  | ok w => simp [Except.toOption]

namespace Region

variable {bytes : Bytes}

/-- Asking for a kind and a type of value reads the attribute whole. -/
theorem frontValue?_eq_bind (α : Type) [Payload α] (bytes : Bytes) (kind : UInt16) :
    frontValue? α bytes kind = (Attribute.ofBytes bytes).toOption.bind fun a ↦
      if a.kind = kind then (a.value α).toOption else none := by
  rw [frontValue?, Attribute.ofBytes]
  cases AttributeHeader.read bytes with
  | error e => rfl
  | ok header =>
    by_cases hleast : header.length.toNat < 4
    · simp only [hleast, true_or, if_true]
      rfl
    by_cases hmost : bytes.length < header.length.toNat
    · simp only [hleast, hmost, true_or, or_true, if_true, if_false]
      rfl
    · simp only [hleast, hmost, false_or, if_false]
      exact ite_not ..

/-- A walk meets first the attribute that is read whole, if there is one. -/
theorem next_ofBytes (bytes : Bytes) :
    (Cursor.ofBytes bytes).next.1 = (Attribute.ofBytes bytes).toOption.map Attribute.item := by
  cases ha : Attribute.ofBytes bytes with
  | ok a =>
    rw [Cursor.next_of_ofBytes (c := .ofBytes bytes) ha]
    rfl
  | error e =>
    rcases hn : (Cursor.ofBytes bytes).next with ⟨_ | item, c⟩
    · rfl
    · obtain ⟨a, ha', -⟩ := Cursor.exists_ofBytes_of_next hn
      have hok : Except.error e = Except.ok a := ha.symm.trans ha'
      contradiction

/-- Among the attributes that a walk meets the first is found first. -/
theorem find?_of_ofBytes {a : Attribute} (ha : Attribute.ofBytes bytes = .ok a) :
    find? bytes a.kind = some a.payload := by
  have hnext := Cursor.next_of_ofBytes (c := .ofBytes bytes) ha
  rw [find?, items, Cursor.drain_of_next_some hnext,
    List.find?_cons_of_pos (by simp [Attribute.item])]
  rfl

/-- Whoever reads the attribute that is read whole gets its value. -/
theorem isReadAs_of_ofBytes (α : Type) [Payload α] {a : Attribute}
    (ha : Attribute.ofBytes bytes = .ok a) :
    a.IsReadAs a.kind (a.value α).toOption bytes := by
  constructor
  case ofBytes_eq => exact ha
  case kind_eq => rfl
  case value_eq => rfl
  case next_eq =>
    rw [next_ofBytes, ha]
    rfl
  case frontValue?_eq =>
    rw [frontValue?_eq_bind, ha]
    exact if_pos rfl
  case value?_eq =>
    rw [value?, find?_of_ofBytes ha]
    rfl

end Region

/-- What the ways to read attributes of a kind have to do with each other, and with what was
written. -/
structure PlainKind.IsReadable (kind : PlainKind) : Prop where
  frontValue?_iff (α : Type) [Payload α] (bytes : Bytes) (v : α) :
    Region.frontValue? α bytes kind.number = some v ↔
      ∃ a, Attribute.ofBytes bytes = .ok a ∧ a.kind = kind.number ∧ a.value α = .ok v
  next_eq (bytes : Bytes) :
    (Cursor.ofBytes bytes).next.1 = (Attribute.ofBytes bytes).toOption.map Attribute.item
  value?_eq {α : Type} [Payload α] {bytes : Bytes} {v : α}
    (hv : Region.frontValue? α bytes kind.number = some v) :
    Region.value? α bytes kind.number = some v
  /-- Exactly the values that fit are written. -/
  fits_iff (t : ValueType) (v : t.Carrier) :
    t.Fits v ↔ ∃ a, Attribute.encode kind.number v = .ok a
  reads {t : ValueType} {v : t.Carrier} (hv : t.ZeroFree v) {a : Attribute}
    (ha : Attribute.encode kind.number v = .ok a) (rest : Bytes) :
    a.IsReadAs kind.number (some v) (a.toBytes ++ rest)
  /-- What is written at a width is not read at another. -/
  refuses {t u : ValueType} {m n : Nat} (ht : t.width? = some m) (hu : u.width? = some n)
    (hne : m ≠ n) {v : t.Carrier} {a : Attribute}
    (ha : Attribute.encode kind.number v = .ok a) (rest : Bytes) :
    a.IsReadAs kind.number (none : Option u.Carrier) (a.toBytes ++ rest)

namespace PlainKind

variable {kind : PlainKind}

@[simp] theorem kindOf_number (kind : PlainKind) : kindOf kind.number = kind.number :=
  congrArg number kind.ofType_number

private theorem frontValue?_eq_some_iff {α : Type} [Payload α] {bytes : Bytes} {v : α} :
    Region.frontValue? α bytes kind.number = some v ↔
      ∃ a, Attribute.ofBytes bytes = .ok a ∧ a.kind = kind.number ∧ a.value α = .ok v := by
  rw [Region.frontValue?_eq_bind]
  constructor
  · intro h
    obtain ⟨a, ha, hv⟩ := Option.bind_eq_some_iff.mp h
    split at hv
    · next hkind => exact ⟨a, toOption_eq_some_iff.mp ha, hkind, toOption_eq_some_iff.mp hv⟩
    · contradiction
  · rintro ⟨a, ha, hkind, hv⟩
    rw [ha, Except.toOption, Option.bind_some, if_pos hkind, hv]
    rfl

/-- What is written under a kind is read as that kind, whatever follows it. -/
private theorem isReadAs_of_encode (u : ValueType) {α : Type} [Payload α] {v : α} {a : Attribute}
    (ha : Attribute.encode kind.number v = .ok a) (rest : Bytes) :
    a.IsReadAs kind.number (Payload.ofPayload (toPayload v) : Except Error u.Carrier).toOption
      (a.toBytes ++ rest) := by
  obtain ⟨htype, hpayload⟩ := (Attribute.encode_eq_ok_iff _ _).mp ha
  have hkind : a.kind = kind.number := by rw [Attribute.kind, htype, kindOf_number]
  have hread := Region.isReadAs_of_ofBytes u.Carrier (a.ofBytes_toBytes_append rest)
  rwa [hkind, Attribute.value, hpayload] at hread

/-- The ways to read an attribute agree on every byte string, and give back what was written. -/
theorem isReadable (kind : PlainKind) : kind.IsReadable := by
  constructor
  case frontValue?_iff =>
    intro α _ bytes v
    exact frontValue?_eq_some_iff
  case next_eq => exact Region.next_ofBytes
  case value?_eq =>
    intro α _ bytes v hv
    obtain ⟨a, ha, hkind, hv⟩ := frontValue?_eq_some_iff.mp hv
    have hread := (Region.isReadAs_of_ofBytes α ha).value?_eq
    rwa [hkind, hv] at hread
  case fits_iff =>
    intro t v
    rw [ValueType.fits_iff]
    constructor
    · intro hfits
      exact ⟨⟨kind.number, toPayload v, hfits⟩, (Attribute.encode_eq_ok_iff _ _).mpr ⟨rfl, rfl⟩⟩
    · rintro ⟨a, ha⟩
      rw [← ((Attribute.encode_eq_ok_iff _ _).mp ha).2]
      exact a.fits
  case reads =>
    intro t v hv a ha rest
    have hread := isReadAs_of_encode t ha rest
    rwa [ValueType.ofPayload_toPayload hv] at hread
  case refuses =>
    intro t u m n ht hu hne v a ha rest
    have hread := isReadAs_of_encode u ha rest
    have hlength : (toPayload v).length ≠ n := by rwa [ValueType.length_toPayload_of_width? ht]
    rwa [ValueType.ofPayload_of_length_ne hu hlength] at hread

/-- The name of an interface is read back with other bytes behind it, and a number that is written
in four bytes is not read from two. -/
theorem isReadAs_interface :
    (∃ a, Attribute.encode 4 "wlan0" = .ok a ∧
      a.IsReadAs 4 (some "wlan0") (a.toBytes ++ [0, 0, 7])) ∧
    ∃ a, Attribute.encode 3 (5 : UInt32) = .ok a ∧
      a.IsReadAs 3 (none : Option UInt16) (a.toBytes ++ [9]) := by
  have hname := isReadable ⟨4, by decide⟩
  have hindex := isReadable ⟨3, by decide⟩
  have hfits : ValueType.text.Fits "wlan0" := by
    change (Utf8.encode "wlan0").length < maxPayload
    rw [Utf8.encode_eq_flatMap]
    decide
  have hzero : ValueType.text.ZeroFree "wlan0" := by
    change '\x00' ∉ "wlan0".toList
    decide
  obtain ⟨a, ha⟩ := (hname.fits_iff .text "wlan0").mp hfits
  obtain ⟨b, hb⟩ := (hindex.fits_iff .u32 (5 : UInt32)).mp trivial
  exact ⟨⟨a, ha, hname.reads hzero ha [0, 0, 7]⟩,
    ⟨b, hb, hindex.refuses (t := .u32) (u := .u16) rfl rfl (by decide) hb [9]⟩⟩

end PlainKind

end WifiNetlink
