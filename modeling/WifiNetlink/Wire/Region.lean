import WifiNetlink.Wire.Attribute

/-!
# Rows of attributes

A region is a row of attributes, each on a four-byte boundary, as it stands in a message or in a
container. It comes from outside, so a walk over it trusts no length: it ends at fewer than four
bytes, and it ends early, and says so, at a length that is below four or beyond the region.
-/

namespace WifiNetlink

/-- An attribute met on a walk: its kind, without flags, and its payload. -/
structure Item where
  kind : UInt16
  payload : Bytes
deriving Repr, DecidableEq

/-- A walk over a region. -/
structure Cursor where
  /-- The bytes not yet walked over. -/
  data : Bytes
  /-- Whether the walk met a length that cannot be. -/
  truncated : Bool
deriving Repr, DecidableEq

namespace Cursor

/-- The start of a walk. -/
def ofBytes (data : Bytes) : Cursor := ⟨data, false⟩

/-- Whether too few bytes are left for an attribute. -/
def isEmpty (c : Cursor) : Bool := c.data.length < 4

/-- The length that the next attribute declares. -/
def declared (c : Cursor) : Nat := c.data.natAt 0 2

/-- The next attribute, taken at its word. -/
def front (c : Cursor) : Item :=
  ⟨kindOf (UInt16.ofNat (c.data.natAt 2 2)), (c.data.take c.declared).drop 4⟩

/-- The next attribute, and the walk after it. -/
def next (c : Cursor) : Option Item × Cursor :=
  if c.data.length < 4 then (none, c)
  else if c.declared < 4 ∨ c.data.length < c.declared then (none, ⟨[], true⟩)
  else (some c.front, ⟨c.data.drop (align4 c.declared), c.truncated⟩)

/-- Each attribute leaves at least four bytes fewer. -/
theorem length_data_next_lt {c c' : Cursor} {item : Item} (h : c.next = (some item, c')) :
    c'.data.length < c.data.length := by
  unfold next at h
  split at h
  · simp at h
  · split at h
    · simp at h
    · simp only [Prod.mk.injEq] at h
      have := le_align4 c.declared
      rw [← h.2]
      simp only [List.length_drop]
      omega

/-- All further attributes, and the walk after the last. -/
def drain (c : Cursor) : List Item × Cursor :=
  match _h : c.next with
  | (none, c') => ([], c')
  | (some item, c') => (item :: c'.drain.1, c'.drain.2)
termination_by c.data.length
decreasing_by all_goals exact length_data_next_lt _h

/-- A walk that has ended stays ended. -/
theorem next_of_next_eq_none {c c' : Cursor} (h : c.next = (none, c')) :
    c'.next = (none, c') := by
  unfold next at h
  split at h
  · next hc =>
    simp only [Prod.mk.injEq, true_and] at h
    rw [← h]
    simp [next, hc]
  · split at h
    · simp only [Prod.mk.injEq, true_and] at h
      rw [← h]
      simp [next]
    · simp at h

end Cursor

namespace Region

/-- The attributes of a region. -/
def items (data : Bytes) : List Item := (Cursor.ofBytes data).drain.1

/-- Whether the walk over a region ends early. -/
def isTruncated (data : Bytes) : Bool := (Cursor.ofBytes data).drain.2.truncated

/-- The payload of the first attribute of a kind. -/
def find? (data : Bytes) (kind : UInt16) : Option Bytes :=
  ((items data).find? fun item ↦ item.kind == kind).map Item.payload

/-- The value of the first attribute of a kind, if its payload is one. -/
def value? (α : Type) [Payload α] (data : Bytes) (kind : UInt16) : Option α :=
  (find? data kind).bind fun payload ↦ (Payload.ofPayload payload : Except Error α).toOption

/-- The value of the attribute at the start of `bytes`, if it has that kind. -/
def frontValue? (α : Type) [Payload α] (bytes : Bytes) (kind : UInt16) : Option α :=
  match AttributeHeader.read bytes with
  | .error _ => none
  | .ok h =>
    if h.length.toNat < 4 ∨ bytes.length < h.length.toNat ∨ h.kind ≠ kind then none
    else (Payload.ofPayload ((bytes.take h.length.toNat).drop 4) : Except Error α).toOption

end Region

namespace Attribute

/-- A walk over the children of a container. -/
def children (a : Attribute) : Cursor := Cursor.ofBytes a.payload

/-- The payload of the first child of a kind. -/
def child? (a : Attribute) (kind : UInt16) : Option Bytes := Region.find? a.payload kind

/-- The value of the first child of a kind, if its payload is one. -/
def childValue? (α : Type) [Payload α] (a : Attribute) (kind : UInt16) : Option α :=
  Region.value? α a.payload kind

end Attribute

end WifiNetlink
