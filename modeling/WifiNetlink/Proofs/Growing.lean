import WifiNetlink.Proofs.Building

/-!
# Containers that grow

A child is added to a container in place: zeros up to a four-byte boundary, the bytes of the child,
and the new length over the first two bytes. It is refused before anything is written, so that a
refused child leaves the bytes as they were. Main statement: whatever children are offered to an
attribute, each call keeps the length that the bytes declare equal to their number, and the bytes in
the end are those of the attribute with only the children that were taken.
-/

namespace WifiNetlink

namespace Bytes

/-- The kind that the header at the start of the bytes gives, zero if there is none. -/
def kind (bytes : Bytes) : UInt16 :=
  match AttributeHeader.read bytes with
  | .ok header => header.kind
  | .error _ => 0

/-- The outcome of adding a child to a container in place, and the bytes after it. -/
def addChild (container child : Bytes) : Except Error Unit × Bytes :=
  if align4 container.length + child.length ≤ 65535 then
    (.ok (), (container.padded ++ child).overwrite 0
      (ofNat 2 (align4 container.length + child.length)))
  else (.error (.invalidAttribute (.containerFull container.kind)), container)

/-- Whether bytes are one attribute of a type: their header gives the type and their number, which
covers at least the header. -/
structure IsAttribute (type : UInt16) (bytes : Bytes) : Prop where
  declared : ∃ header, AttributeHeader.read bytes = .ok header ∧ header.type = type ∧
    header.length.toNat = bytes.length
  least : 4 ≤ bytes.length
  most : bytes.length ≤ 65535

end Bytes

namespace Attribute

theorem read_toBytes (a : Attribute) : AttributeHeader.read a.toBytes = .ok a.header :=
  AttributeHeader.read_toBytes_append a.header a.payload

theorem isAttribute_toBytes (a : Attribute) : a.toBytes.IsAttribute a.type := by
  constructor
  case declared => exact ⟨a.header, a.read_toBytes, rfl, a.toNat_length_header⟩
  case least =>
    rw [length_toBytes, length]
    omega
  case most =>
    have hlt := a.header.length.toNat_lt
    rw [toNat_length_header] at hlt
    omega

theorem kind_toBytes (a : Attribute) : a.toBytes.kind = a.kind := by
  rw [Bytes.kind, read_toBytes]
  rfl

/-- The outcome of adding a child, and the container after it. -/
def offer (a child : Attribute) : Except Error Unit × Attribute :=
  match a.addChild child with
  | .ok grown => (.ok (), grown)
  | .error e => (.error e, a)

theorem offer_of_addChild {a child grown : Attribute} (h : a.addChild child = .ok grown) :
    a.offer child = (.ok (), grown) := by
  rw [offer, h]

/-- The bytes of a container whose child was taken. -/
theorem toBytes_addChild {a child grown : Attribute} (h : a.addChild child = .ok grown) :
    grown.toBytes = (a.toBytes.padded ++ child.toBytes).overwrite 0
      (Bytes.ofNat 2 (align4 a.toBytes.length + child.toBytes.length)) := by
  have hpayload : grown.type = a.type ∧ grown.payload = a.payload.padded ++ child.toBytes := by
    unfold addChild at h
    split at h
    · obtain rfl := Except.ok.inj h
      exact ⟨rfl, rfl⟩
    · contradiction
  have hpadded : a.toBytes.padded = a.header.toBytes ++ a.payload.padded := by
    apply Bytes.padded_append
    simp [AttributeHeader.toBytes]
  have hlength : grown.header.length.toNat = align4 a.toBytes.length + child.toBytes.length := by
    rw [toNat_length_header, toBytes, hpayload.2, ← List.append_assoc, List.length_append,
      ← Bytes.length_padded, hpadded]
    simp [AttributeHeader.toBytes]
  have hold : a.toBytes.padded ++ child.toBytes =
      [] ++ (Bytes.ofNat 2 a.header.length.toNat ++
        (Bytes.ofNat 2 a.type.toNat ++ (a.payload.padded ++ child.toBytes))) := by
    simp only [hpadded, AttributeHeader.toBytes, header, List.append_assoc, List.nil_append]
  rw [hold, Bytes.overwrite_append _ List.length_nil (by simp), ← hlength, List.nil_append,
    toBytes, AttributeHeader.toBytes, hpayload.2, List.append_assoc]
  show _ ++ (Bytes.ofNat 2 grown.type.toNat ++ _) = _
  rw [hpayload.1]

/-- Adding a child is adding its bytes in place. -/
theorem toBytes_offer (a child : Attribute) :
    a.toBytes.addChild child.toBytes = ((a.offer child).1, (a.offer child).2.toBytes) := by
  by_cases hfits : align4 a.length + child.length ≤ 65535
  · have hadd : ∃ grown, a.addChild child = .ok grown := by
      rw [addChild, dif_pos hfits]
      exact ⟨_, rfl⟩
    obtain ⟨grown, hgrown⟩ := hadd
    rw [Bytes.addChild, if_pos (by rwa [length_toBytes, length_toBytes]), ← toBytes_addChild hgrown,
      offer_of_addChild hgrown]
  · have hadd : a.addChild child = .error (.invalidAttribute (.containerFull a.kind)) :=
      dif_neg hfits
    rw [Bytes.addChild, if_neg (by rwa [length_toBytes, length_toBytes]), kind_toBytes, offer, hadd]

theorem type_offer (a child : Attribute) : (a.offer child).2.type = a.type := by
  unfold offer addChild
  split
  · next grown hadd =>
    split at hadd
    · rw [← Except.ok.inj hadd]
    · contradiction
  · rfl

theorem offer_eq_self_of_error {a child : Attribute} {e : Error}
    (h : (a.offer child).1 = .error e) : (a.offer child).2 = a := by
  unfold offer at h ⊢
  split
  · next grown hadd =>
    rw [hadd] at h
    contradiction
  · rfl

/-- One call that offers a child to a container. -/
structure Call where
  before : Attribute
  child : Attribute
  outcome : Except Error Unit
  after : Attribute

namespace Call

/-- The child, if it was taken. -/
def taken? (call : Call) : Option Attribute :=
  match call.outcome with
  | .ok () => some call.child
  | .error _ => none

/-- Whether a call is one of bytes in place that succeeds exactly if the length still fits, changes
nothing if it fails, and leaves an attribute of the type. -/
structure IsAtomic (type : UInt16) (call : Call) : Prop where
  inPlace : call.before.toBytes.addChild call.child.toBytes = (call.outcome, call.after.toBytes)
  succeeds_iff : call.outcome = .ok () ↔
    align4 call.before.toBytes.length + call.child.toBytes.length ≤ 65535
  unchanged (e : Error) (h : call.outcome = .error e) : call.after.toBytes = call.before.toBytes
  whole : call.after.toBytes.IsAttribute type

end Call

/-- The calls that offer children to a container one after the other. -/
def calls (a : Attribute) : List Attribute → List Call
  | [] => []
  | child :: rest =>
    ⟨a, child, (a.offer child).1, (a.offer child).2⟩ :: (a.offer child).2.calls rest

/-- The container after all children were offered. -/
def filled (a : Attribute) (children : List Attribute) : Attribute :=
  children.foldl (fun a child ↦ (a.offer child).2) a

theorem isAtomic_offer (a child : Attribute) :
    (Call.mk a child (a.offer child).1 (a.offer child).2).IsAtomic a.type := by
  constructor
  case inPlace => exact toBytes_offer a child
  case succeeds_iff =>
    show (a.offer child).1 = .ok () ↔ align4 a.toBytes.length + child.toBytes.length ≤ 65535
    have houtcome : (a.offer child).1 = (a.toBytes.addChild child.toBytes).1 := by
      rw [toBytes_offer]
    rw [houtcome, Bytes.addChild]
    split
    · next hfits => exact iff_of_true rfl hfits
    · next hfull => exact iff_of_false nofun hfull
  case unchanged =>
    intro e he
    exact congrArg toBytes (offer_eq_self_of_error he)
  case whole =>
    show (a.offer child).2.toBytes.IsAttribute a.type
    rw [← type_offer a child]
    exact isAttribute_toBytes _

theorem isAtomic_calls {type : UInt16} {a : Attribute} (ht : a.type = type)
    (children : List Attribute) : ∀ call ∈ a.calls children, call.IsAtomic type := by
  induction children generalizing a with
  | nil => exact fun _ h ↦ absurd h List.not_mem_nil
  | cons child rest ih =>
    intro call hcall
    rcases List.mem_cons.mp hcall with rfl | hrest
    · rw [← ht]
      exact isAtomic_offer a child
    · apply ih _ call hrest
      rw [type_offer, ht]

/-- Only the children that were taken are in the container. -/
theorem addChildren_taken (a : Attribute) (children : List Attribute) :
    a.addChildren ((a.calls children).filterMap Call.taken?) = .ok (a.filled children) := by
  induction children generalizing a with
  | nil => rfl
  | cons child rest ih =>
    show a.addChildren (List.filterMap Call.taken?
      (⟨a, child, (a.offer child).1, (a.offer child).2⟩ :: (a.offer child).2.calls rest)) =
        .ok ((a.offer child).2.filled rest)
    rw [← ih]
    cases hadd : a.addChild child with
    | ok grown =>
      have htaken : (Call.mk a child (.ok ()) grown).taken? = some child := rfl
      rw [offer_of_addChild hadd, List.filterMap_cons_some htaken, addChildren, List.foldlM_cons,
        hadd]
      rfl
    | error e =>
      have hoffer : a.offer child = (.error e, a) := by rw [offer, hadd]
      rw [hoffer, List.filterMap_cons_none rfl]

theorem toBytes_filled (a : Attribute) (children : List Attribute) :
    (a.filled children).toBytes =
      children.foldl (fun bytes child ↦ (bytes.addChild child.toBytes).2) a.toBytes := by
  induction children generalizing a with
  | nil => rfl
  | cons child rest ih =>
    rw [List.foldl_cons, toBytes_offer]
    exact ih (a.offer child).2

/-- Children are taken or refused one by one, each call leaves an attribute that declares its
bytes, and in the end the bytes are those of the attribute with the children that were taken. -/
theorem calls_areAtomic (a : Attribute) (children : List Attribute) :
    (∀ call ∈ a.calls children, call.IsAtomic a.type) ∧
      children.foldl (fun bytes child ↦ (bytes.addChild child.toBytes).2) a.toBytes =
        (a.filled children).toBytes ∧
      a.addChildren ((a.calls children).filterMap Call.taken?) = .ok (a.filled children) :=
  ⟨isAtomic_calls rfl children, (toBytes_filled a children).symm, addChildren_taken a children⟩

end Attribute

end WifiNetlink
