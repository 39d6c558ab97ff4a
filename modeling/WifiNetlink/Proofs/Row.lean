import WifiNetlink.Wire.Region

/-!
# Rows of attributes as they are written

Attributes are written one after the other, with zeros after each but the last up to a four-byte
boundary; the kernel writes zeros after the last too. A walk over such a row meets just these
attributes, in order, and does not end early.
-/

namespace WifiNetlink

namespace Attribute

/-- What a walk gives of an attribute. -/
def item (a : Attribute) : Item := ⟨a.kind, a.payload⟩

end Attribute

namespace Region

/-- The bytes of attributes in a row. -/
def row : List Attribute → Bytes
  | [] => []
  | [a] => a.toBytes
  | a :: b :: rest => a.toBytes.padded ++ row (b :: rest)

/-- One more attribute starts on the next four-byte boundary. -/
theorem row_append_singleton (as : List Attribute) (a : Attribute) :
    row (as ++ [a]) = (row as).padded ++ a.toBytes := by
  induction as with
  | nil => rfl
  | cons b as ih =>
    cases as with
    | nil => rfl
    | cons c as =>
      have hpadded : b.toBytes.padded.length % 4 = 0 := by
        rw [Bytes.length_padded]
        exact align4_mod _
      rw [row, Bytes.padded_append _ hpadded, List.append_assoc, ← ih]
      rfl

/-- In a row with zeros after the last attribute too, each has its own. -/
theorem padded_row_cons (a : Attribute) (as : List Attribute) :
    (row (a :: as)).padded = a.toBytes.padded ++ (row as).padded := by
  cases as with
  | nil => exact (List.append_nil _).symm
  | cons b as =>
    have hpadded : a.toBytes.padded.length % 4 = 0 := by
      rw [Bytes.length_padded]
      exact align4_mod _
    rw [row, Bytes.padded_append _ hpadded]

end Region

namespace Cursor

/-- The attribute at the start of a walk is the next that it meets. -/
theorem next_of_ofBytes {c : Cursor} {a : Attribute} (ha : Attribute.ofBytes c.data = .ok a) :
    c.next = (some a.item, ⟨c.data.drop (align4 a.length), c.truncated⟩) := by
  have hdeclared : (UInt16.ofNat (c.data.natAt 0 2)).toNat = c.declared := by
    rw [UInt16.toNat_ofNat']
    exact Nat.mod_eq_of_lt (Bytes.natAt_lt c.data 0 2)
  unfold Attribute.ofBytes AttributeHeader.read at ha
  split at ha
  · contradiction
  · next header hread =>
    split at hread
    · contradiction
    · next hlen =>
      obtain rfl := Except.ok.inj hread
      simp only [hdeclared] at ha
      split at ha
      · contradiction
      · split at ha
        · contradiction
        · next hleast hmost =>
          obtain rfl := Except.ok.inj ha
          have hlength : ((c.data.take c.declared).drop 4).length = c.declared - 4 := by
            rw [List.length_drop, List.length_take]
            omega
          rw [next, if_neg hlen, if_neg (by omega), Attribute.length, hlength,
            Nat.add_sub_cancel' (by omega)]
          rfl

/-- What a walk meets next is the attribute at its start. -/
theorem exists_ofBytes_of_next {c c' : Cursor} {item : Item} (h : c.next = (some item, c')) :
    ∃ a, Attribute.ofBytes c.data = .ok a ∧ item = a.item := by
  have hdeclared : (UInt16.ofNat (c.data.natAt 0 2)).toNat = c.declared := by
    rw [UInt16.toNat_ofNat']
    exact Nat.mod_eq_of_lt (Bytes.natAt_lt c.data 0 2)
  have hok : ∃ a, Attribute.ofBytes c.data = .ok a := by
    unfold next at h
    split at h
    · simp at h
    · next hlen =>
      split at h
      · simp at h
      · next hfits =>
        simp only [Attribute.ofBytes, AttributeHeader.read, if_neg hlen, hdeclared]
        rw [if_neg (by omega), if_neg (by omega)]
        exact ⟨_, rfl⟩
  obtain ⟨a, ha⟩ := hok
  refine ⟨a, ha, ?_⟩
  rw [next_of_ofBytes ha] at h
  exact (Option.some.inj (Prod.mk.inj h).1).symm

theorem drain_of_next_none {c c' : Cursor} (h : c.next = (none, c')) : c.drain = ([], c') := by
  rw [drain]
  split <;> simp_all

theorem drain_of_next_some {c c' : Cursor} {item : Item} (h : c.next = (some item, c')) :
    c.drain = (item :: c'.drain.1, c'.drain.2) := by
  rw [drain]
  split <;> simp_all

/-- The attributes that a walk meets, with their flags. -/
def attributes (c : Cursor) : List Attribute :=
  match _h : c.next with
  | (none, _) => []
  | (some _, c') => (Attribute.ofBytes c.data).toOption.toList ++ c'.attributes
termination_by c.data.length
decreasing_by exact length_data_next_lt _h

theorem attributes_of_next_none {c c' : Cursor} (h : c.next = (none, c')) : c.attributes = [] := by
  rw [attributes]
  split <;> simp_all

theorem attributes_of_ofBytes {c : Cursor} {a : Attribute} (ha : Attribute.ofBytes c.data = .ok a) :
    c.attributes = a :: attributes ⟨c.data.drop (align4 a.length), c.truncated⟩ := by
  have hnext := next_of_ofBytes ha
  rw [attributes]
  split
  · simp_all
  · next hn =>
    rw [hnext] at hn
    rw [← (Prod.mk.inj hn).2, ha]
    rfl

/-- The items of a walk are its attributes without their flags. -/
theorem items_drain (c : Cursor) : c.drain.1 = c.attributes.map Attribute.item := by
  fun_induction drain c with
  | case1 c c' hn => rw [attributes_of_next_none hn, List.map_nil]
  | case2 c item c' hn ih =>
    obtain ⟨a, ha, rfl⟩ := exists_ofBytes_of_next hn
    rw [next_of_ofBytes ha] at hn
    obtain rfl := (Prod.mk.inj hn).2
    rw [attributes_of_ofBytes ha, List.map_cons, ih]

/-- What follows an attribute with its padding. -/
theorem ofBytes_padded_append (a : Attribute) (rest : Bytes) :
    Attribute.ofBytes (a.toBytes.padded ++ rest) = .ok a ∧
      (a.toBytes.padded ++ rest).drop (align4 a.length) = rest := by
  constructor
  · rw [Bytes.padded, List.append_assoc]
    exact Attribute.ofBytes_toBytes_append a _
  · apply List.drop_left'
    rw [Bytes.length_padded, Attribute.length_toBytes]

/-- The first attribute of a row. -/
theorem ofBytes_row (a : Attribute) (as : List Attribute) :
    Attribute.ofBytes (Region.row (a :: as)) = .ok a ∧
      (Region.row (a :: as)).drop (align4 a.length) = Region.row as := by
  cases as with
  | nil =>
    have hread := Attribute.ofBytes_toBytes_append a []
    rw [List.append_nil] at hread
    refine ⟨hread, List.drop_eq_nil_of_le ?_⟩
    rw [Region.row, Attribute.length_toBytes]
    exact le_align4 a.length
  | cons b as =>
    exact ofBytes_padded_append a _

/-- A walk over a row meets its attributes and does not end early. -/
theorem drain_row (as : List Attribute) (truncated : Bool) :
    drain ⟨Region.row as, truncated⟩ = (as.map Attribute.item, ⟨[], truncated⟩) := by
  induction as with
  | nil => exact drain_of_next_none rfl
  | cons a as ih =>
    obtain ⟨hread, hrest⟩ := ofBytes_row a as
    have hnext := next_of_ofBytes (c := ⟨Region.row (a :: as), truncated⟩) hread
    simp only [hrest] at hnext
    rw [drain_of_next_some hnext, ih]
    rfl

/-- Zeros after the last attribute change nothing. -/
theorem drain_padded_row (as : List Attribute) (truncated : Bool) :
    drain ⟨(Region.row as).padded, truncated⟩ = (as.map Attribute.item, ⟨[], truncated⟩) := by
  induction as with
  | nil => exact drain_of_next_none rfl
  | cons a as ih =>
    rw [Region.padded_row_cons]
    obtain ⟨hread, hrest⟩ := ofBytes_padded_append a (Region.row as).padded
    have hnext := next_of_ofBytes (c := ⟨_, truncated⟩) hread
    simp only [hrest] at hnext
    rw [drain_of_next_some hnext, ih]
    rfl

theorem attributes_row (as : List Attribute) (truncated : Bool) :
    attributes ⟨Region.row as, truncated⟩ = as := by
  induction as with
  | nil => exact attributes_of_next_none rfl
  | cons a as ih =>
    obtain ⟨hread, hrest⟩ := ofBytes_row a as
    rw [attributes_of_ofBytes (c := ⟨Region.row (a :: as), truncated⟩) hread]
    simp only [hrest, ih]

end Cursor

namespace Region

@[simp] theorem items_row (as : List Attribute) : items (row as) = as.map Attribute.item := by
  rw [items, Cursor.ofBytes, Cursor.drain_row]

@[simp] theorem items_padded_row (as : List Attribute) :
    items (row as).padded = as.map Attribute.item := by
  rw [items, Cursor.ofBytes, Cursor.drain_padded_row]

@[simp] theorem isTruncated_row (as : List Attribute) : isTruncated (row as) = false := by
  rw [isTruncated, Cursor.ofBytes, Cursor.drain_row]

end Region

end WifiNetlink
