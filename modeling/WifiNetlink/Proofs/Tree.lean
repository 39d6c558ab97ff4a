import Mathlib.Data.Nat.Bitwise
import WifiNetlink.Proofs.Row

/-!
# Trees of attributes

A tree of attributes is built from its leaves up: a leaf is an attribute with a payload, an inner
node a container to which its children are added one by one. A tree that can be built reads back: a
walk over a container meets its children, in order, and each of them reads back in turn.
-/

namespace WifiNetlink

/-- A kind of attribute: a type without flags. -/
structure PlainKind where
  number : UInt16
  lt : number < 0x4000
deriving DecidableEq

theorem kindOf_toNat (type : UInt16) : (kindOf type).toNat = type.toNat % 2 ^ 14 := by
  rw [kindOf, UInt16.toNat_and]
  exact Nat.and_two_pow_sub_one_eq_mod type.toNat 14

theorem isNestedType_eq_testBit (type : UInt16) : isNestedType type = type.toNat.testBit 15 := by
  have hand : (type &&& nestedFlag).toNat = (type.toNat.testBit 15).toNat * 2 ^ 15 := by
    rw [UInt16.toNat_and]
    exact Nat.and_two_pow type.toNat 15
  cases hbit : type.toNat.testBit 15 with
  | false =>
    have hzero : type &&& nestedFlag = 0 := by
      apply UInt16.toNat_inj.mp
      rw [hand, hbit]
      rfl
    simp [isNestedType, hzero]
  | true =>
    have hne : type &&& nestedFlag ≠ 0 := by
      intro hzero
      rw [hzero, hbit] at hand
      exact absurd hand (by decide)
    simp [isNestedType, hne]

namespace PlainKind

/-- The kind of an attribute type. -/
def ofType (type : UInt16) : PlainKind where
  number := kindOf type
  lt := by
    rw [UInt16.lt_iff_toNat_lt, kindOf_toNat]
    exact Nat.mod_lt _ (by decide)

theorem ext {k k' : PlainKind} (h : k.number = k'.number) : k = k' := by
  cases k
  cases k'
  subst h
  rfl

variable (k : PlainKind)

theorem toNat_lt : k.number.toNat < 2 ^ 14 := UInt16.lt_iff_toNat_lt.mp k.lt

@[simp] theorem ofType_number : ofType k.number = k := by
  apply ext
  apply UInt16.toNat_inj.mp
  exact (kindOf_toNat k.number).trans (Nat.mod_eq_of_lt k.toNat_lt)

@[simp] theorem isNestedType_number : isNestedType k.number = false := by
  rw [isNestedType_eq_testBit]
  exact Nat.testBit_lt_two_pow (Nat.lt_trans k.toNat_lt (by decide))

@[simp] theorem ofType_nested : ofType (k.number ||| nestedFlag) = k := by
  apply ext
  apply UInt16.toNat_inj.mp
  have hflag : nestedFlag.toNat % 2 ^ 14 = 0 := by decide
  refine (kindOf_toNat _).trans ?_
  rw [UInt16.toNat_or, Nat.or_mod_two_pow, Nat.mod_eq_of_lt k.toNat_lt, hflag, Nat.or_zero]

@[simp] theorem isNestedType_nested : isNestedType (k.number ||| nestedFlag) = true := by
  have hflag : nestedFlag.toNat.testBit 15 = true := by decide
  rw [isNestedType_eq_testBit, UInt16.toNat_or, Nat.testBit_or, hflag, Bool.or_true]

end PlainKind

/-- A tree of attributes. -/
inductive AttributeTree where
  | leaf (kind : PlainKind) (payload : Bytes)
  | node (kind : PlainKind) (children : List AttributeTree)

namespace AttributeTree

mutual

/-- The attribute of a tree, if every part of it fits. -/
def build : AttributeTree → Except Error Attribute
  | leaf kind payload => Attribute.ofPayload kind.number payload
  | node kind children => do
    let attributes ← buildAll children
    (Attribute.nested kind.number).addChildren attributes

/-- The attributes of trees. -/
def buildAll : List AttributeTree → Except Error (List Attribute)
  | [] => return []
  | t :: ts => return (← t.build) :: (← buildAll ts)

end

end AttributeTree

namespace Attribute

/-- Whether the length at the start of an attribute is the number of its bytes. -/
def isWhole (a : Attribute) : Bool :=
  (AttributeHeader.read a.toBytes).toOption.any (·.length.toNat == a.toBytes.length)

theorem isWhole_eq_true (a : Attribute) : a.isWhole = true := by
  have hread : AttributeHeader.read a.toBytes = .ok a.header :=
    AttributeHeader.read_toBytes_append a.header a.payload
  simp [isWhole, hread, toNat_length_header, Except.toOption]

/-- A container with children holds them in a row. -/
theorem addChildren_eq_ok {a b : Attribute} {before children : List Attribute}
    (hb : a.addChildren children = .ok b) (ha : a.payload = Region.row before) :
    b.type = a.type ∧ b.payload = Region.row (before ++ children) := by
  induction children generalizing a before with
  | nil =>
    obtain rfl : a = b := Except.ok.inj hb
    exact ⟨rfl, by rw [ha, List.append_nil]⟩
  | cons child children ih =>
    rw [addChildren, List.foldlM_cons] at hb
    cases hadd : a.addChild child with
    | error e =>
      rw [hadd] at hb
      contradiction
    | ok next =>
      rw [hadd] at hb
      have hnext : next.type = a.type ∧ next.payload = Region.row (before ++ [child]) := by
        unfold addChild at hadd
        split at hadd
        · rw [← Except.ok.inj hadd, Region.row_append_singleton, ← ha]
          exact ⟨rfl, rfl⟩
        · contradiction
      obtain ⟨htype, hpayload⟩ := ih hb hnext.2
      rw [List.append_assoc] at hpayload
      exact ⟨htype.trans hnext.1, hpayload⟩

end Attribute

namespace AttributeTree

mutual

/-- An attribute and all it contains, read along the shape of a tree. There is none if a length is
not the number of bytes, if the flag of a container is missing or not expected, if a walk over
children ends early or gives other kinds and payloads than they have, or if there are more or fewer
of them. -/
def readBack : (shape : AttributeTree) → Attribute → Option AttributeTree
  | leaf _ _, a =>
    if a.isWhole && !a.isNested then some (.leaf (.ofType a.type) a.payload) else none
  | node _ shapes, a =>
    if a.isWhole && a.isNested && !a.children.drain.2.truncated &&
        a.children.drain.1 == a.children.attributes.map Attribute.item then
      (readBackAll shapes a.children.attributes).map (.node (.ofType a.type))
    else none

/-- Attributes in a row, read along the shapes of trees. -/
def readBackAll : (shapes : List AttributeTree) → List Attribute → Option (List AttributeTree)
  | [], [] => some []
  | shape :: shapes, a :: as => return (← readBack shape a) :: (← readBackAll shapes as)
  | _, _ => none

end

mutual

/-- What is built from a tree reads back as the tree. -/
private theorem readBack_build {t : AttributeTree} {a : Attribute} (ha : t.build = .ok a) :
    t.readBack a = some t := by
  cases t with
  | leaf kind payload =>
    rw [build, Attribute.ofPayload] at ha
    split at ha
    · obtain rfl := Except.ok.inj ha
      simp [readBack, Attribute.isWhole_eq_true, Attribute.isNested]
    · contradiction
  | node kind children =>
    rw [build] at ha
    cases hall : buildAll children with
    | error e =>
      rw [hall] at ha
      contradiction
    | ok attributes =>
      rw [hall] at ha
      obtain ⟨htype, hpayload⟩ : a.type = _ ∧ a.payload = Region.row ([] ++ attributes) :=
        Attribute.addChildren_eq_ok ha rfl
      have hread := readBackAll_buildAll hall
      rw [List.nil_append] at hpayload
      have hattributes : a.children.attributes = attributes := by
        rw [Attribute.children, Cursor.ofBytes, hpayload, Cursor.attributes_row]
      have hend : a.children.drain.2.truncated = false := by
        rw [Attribute.children, Cursor.ofBytes, hpayload, Cursor.drain_row]
      rw [readBack, Cursor.items_drain, hattributes, hread, hend, Attribute.isWhole_eq_true,
        Attribute.isNested, htype]
      simp [Attribute.nested, Attribute.flag]

private theorem readBackAll_buildAll {ts : List AttributeTree} {as : List Attribute}
    (has : buildAll ts = .ok as) : readBackAll ts as = some ts := by
  cases ts with
  | nil =>
    obtain rfl : [] = as := Except.ok.inj has
    rfl
  | cons t ts =>
    rw [buildAll] at has
    cases ht : t.build with
    | error e =>
      rw [ht] at has
      contradiction
    | ok a =>
      cases hts : buildAll ts with
      | error e =>
        rw [ht, hts] at has
        contradiction
      | ok rest =>
        rw [ht, hts] at has
        obtain rfl : a :: rest = as := Except.ok.inj has
        rw [readBackAll, readBack_build ht, readBackAll_buildAll hts]
        rfl

end

/-- The attribute that is built from a tree reads back as the tree, and its bytes as the attribute,
whatever follows them. -/
theorem reads_back_of_build {t : AttributeTree} {a : Attribute} (ha : t.build = .ok a) :
    t.readBack a = some t ∧ ∀ rest, Attribute.ofBytes (a.toBytes ++ rest) = .ok a :=
  ⟨readBack_build ha, a.ofBytes_toBytes_append⟩

/-- A container with a payload that does not end on a boundary, a container with one more such
payload, and a container without children. -/
def uneven : AttributeTree :=
  .node ⟨1, by decide⟩ [.leaf ⟨2, by decide⟩ [10, 11, 12],
    .node ⟨3, by decide⟩ [.leaf ⟨4, by decide⟩ [13]], .node ⟨5, by decide⟩ []]

/-- The attribute of the uneven tree. -/
def unevenAttribute : Attribute where
  type := 0x8001
  payload := [7, 0, 2, 0, 10, 11, 12, 0] ++ [9, 0, 3, 128, 5, 0, 4, 0, 13, 0, 0, 0] ++
    [4, 0, 5, 128]
  fits := by decide

theorem reads_back_uneven :
    uneven.build = .ok unevenAttribute ∧ uneven.readBack unevenAttribute = some uneven ∧
      ∀ rest, Attribute.ofBytes (unevenAttribute.toBytes ++ rest) = .ok unevenAttribute := by
  have hbuild : uneven.build = .ok unevenAttribute := by rfl
  exact ⟨hbuild, reads_back_of_build hbuild⟩

end AttributeTree

end WifiNetlink
