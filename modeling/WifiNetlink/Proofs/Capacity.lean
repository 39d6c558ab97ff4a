import WifiNetlink.Proofs.Tree
import WifiNetlink.Wifi.ScanRequest

/-!
# Containers that fill up

A container takes children as long as its length fits the two bytes that declare it. Children that
are typed by their positions take at least four bytes each, so that a container is full before a
position reaches the flags of a type. Main statement: a container of numbered children is made
exactly if each child can be made and all of them fit, and then a walk over it meets them in order.
-/

namespace WifiNetlink

/-- Whether what is made is as wanted exactly if a condition holds, and refused for an attribute
otherwise. -/
structure Checks {α : Type} (condition : Prop) (wanted : α → Prop) (made : Except Error α) :
    Prop where
  ok (h : condition) : ∃ a, made = .ok a ∧ wanted a
  error (h : ¬ condition) : ∃ fault, made = .error (.invalidAttribute fault)

namespace Checks

variable {α β : Type} {p q : Prop} {wanted wanted' : α → Prop} {made : Except Error α}

theorem congr (hm : Checks p wanted made) (h : p ↔ q) : Checks q wanted made :=
  ⟨fun hq ↦ hm.ok (h.mpr hq), fun hq ↦ hm.error (hq ∘ h.mp)⟩

theorem imp (hm : Checks p wanted made) (h : p → ∀ a, wanted a → wanted' a) :
    Checks p wanted' made := by
  refine ⟨fun hp ↦ ?_, hm.error⟩
  obtain ⟨a, ha, hw⟩ := hm.ok hp
  exact ⟨a, ha, h hp a hw⟩

/-- What is made without a check. -/
theorem pure {a : α} (ha : wanted a) : Checks True wanted (.ok a) :=
  ⟨fun _ ↦ ⟨a, rfl, ha⟩, fun h ↦ absurd trivial h⟩

/-- Checks in a row are passed exactly if each of them is. -/
theorem bind {next : α → Except Error β} {wanted' : β → Prop} (hm : Checks p wanted made)
    (hn : ∀ a, wanted a → Checks q wanted' (next a)) : Checks (p ∧ q) wanted' (made >>= next) := by
  by_cases hp : p
  · obtain ⟨a, rfl, ha⟩ := hm.ok hp
    exact (hn a ha).congr (and_iff_right hp).symm
  · obtain ⟨fault, rfl⟩ := hm.error hp
    exact ⟨fun h ↦ absurd h.1 hp, fun _ ↦ ⟨fault, rfl⟩⟩

/-- What is made of it without a check. -/
theorem map {f : α → β} {wanted' : β → Prop} (hm : Checks p wanted made)
    (hf : ∀ a, wanted a → wanted' (f a)) : Checks p wanted' (made.map f) := by
  constructor
  · intro hp
    obtain ⟨a, rfl, ha⟩ := hm.ok hp
    exact ⟨f a, rfl, hf a ha⟩
  · intro hp
    obtain ⟨fault, rfl⟩ := hm.error hp
    exact ⟨fault, rfl⟩

end Checks

namespace Attribute

/-- The bytes of a container with children of some lengths after its own, if it has so many bytes
without them. -/
def lengthAfter (start : Nat) (lengths : List Nat) : Nat :=
  lengths.foldl (fun n length ↦ align4 n + length) start

/-- The bytes of a container with children of some lengths. -/
def containerLength (lengths : List Nat) : Nat := lengthAfter 4 lengths

theorem lengthAfter_cons (start n : Nat) (lengths : List Nat) :
    lengthAfter start (n :: lengths) = lengthAfter (align4 start + n) lengths := rfl

theorem add_length_le_lengthAfter (start : Nat) (lengths : List Nat) (h : ∀ n ∈ lengths, 4 ≤ n) :
    start + 4 * lengths.length ≤ lengthAfter start lengths := by
  induction lengths generalizing start with
  | nil => exact Nat.le_refl start
  | cons n lengths ih =>
    have hn := h n List.mem_cons_self
    have hrest := ih (align4 start + n) fun m hm ↦ h m (List.mem_cons_of_mem n hm)
    have := le_align4 start
    rw [lengthAfter_cons, List.length_cons]
    omega

theorem le_lengthAfter (start : Nat) (lengths : List Nat) : start ≤ lengthAfter start lengths := by
  induction lengths generalizing start with
  | nil => exact Nat.le_refl start
  | cons n lengths ih =>
    have hrest := ih (align4 start + n)
    have := le_align4 start
    rw [lengthAfter_cons]
    omega

/-- A payload is refused if it does not fit an attribute. -/
theorem checks_ofPayload (type : UInt16) (payload : Bytes) :
    Checks (payload.length ≤ maxPayload) (fun a ↦ a.type = type ∧ a.payload = payload)
      (ofPayload type payload) := by
  constructor
  · intro h
    exact ⟨_, dif_pos h, rfl, rfl⟩
  · intro h
    exact ⟨_, dif_neg h⟩

/-- A container of a type that holds children in a row. -/
structure Holds (type : UInt16) (children : List Attribute) (a : Attribute) : Prop where
  type_eq : a.type = type
  payload_eq : a.payload = Region.row children

theorem holds_nested (type : UInt16) : (nested type).Holds (type ||| nestedFlag) [] := ⟨rfl, rfl⟩

/-- A child is refused if its container is too long with it. -/
theorem Holds.checks_addChild {type : UInt16} {children : List Attribute} {a : Attribute}
    (ha : a.Holds type children) (child : Attribute) :
    Checks (align4 a.length + child.length ≤ 65535)
      (fun b ↦ b.Holds type (children ++ [child]) ∧ b.length = align4 a.length + child.length)
      (a.addChild child) := by
  constructor
  · intro h
    refine ⟨_, dif_pos h, ⟨ha.type_eq, ?_⟩, ?_⟩
    · rw [Region.row_append_singleton, ← ha.payload_eq]
    · simp only [length, List.length_append, Bytes.length_padded, length_toBytes, align4]
      omega
  · intro h
    exact ⟨_, dif_neg h⟩

end Attribute

namespace Region

theorem length_row_le (as : List Attribute) : (row as).length ≤ 65536 * as.length := by
  have hlength (a : Attribute) : align4 a.length ≤ 65536 := by
    have hfits := a.fits
    simp only [maxPayload] at hfits
    simp only [Attribute.length, align4]
    omega
  induction as with
  | nil => exact Nat.le_refl 0
  | cons a as ih =>
    have ha := hlength a
    cases as with
    | nil =>
      have := le_align4 a.length
      rw [row, Attribute.length_toBytes, List.length_singleton]
      omega
    | cons b as =>
      rw [row, List.length_append, Bytes.length_padded, Attribute.length_toBytes,
        List.length_cons]
      omega

end Region

namespace ScanRequest

/-- A type with the flag of a container, or without it. -/
def flagged (isNested : Bool) (type : UInt16) : UInt16 :=
  if isNested then type ||| nestedFlag else type

/-- Types by position and payloads of children, from a position on. -/
def numbered (isNested : Bool) (start : Nat) (payloads : List Bytes) : List (UInt16 × Bytes) :=
  (payloads.zipIdx start).map fun (payload, i) ↦ (flagged isNested (UInt16.ofNat i), payload)

/-- Children are added one by one, and the first that is refused ends it. -/
private theorem checks_foldlM {α : Type} {child : UInt16 → α → Except Error Attribute}
    {fits : α → Prop} {isNested : Bool} {payload : α → Bytes}
    (hchild : ∀ type item, Checks (fits item)
      (fun a ↦ a.type = flagged isNested type ∧ a.payload = payload item) (child type item))
    {type : UInt16} (items : List α) (start : Nat) {before : List Attribute} {a : Attribute}
    (ha : a.Holds type before) :
    Checks ((∀ item ∈ items, fits item) ∧
        Attribute.lengthAfter a.length (items.map fun item ↦ 4 + (payload item).length) ≤ 65535)
      (fun b ↦ ∃ children, b.Holds type (before ++ children) ∧
        children.map (fun a ↦ (a.type, a.payload)) = numbered isNested start (items.map payload))
      ((items.zipIdx start).foldlM
        (fun container (item, i) ↦ do container.addChild (← child (UInt16.ofNat i) item)) a) := by
  induction items generalizing start before a with
  | nil =>
    have hlength : a.length ≤ 65535 := by
      have hfits := a.fits
      simp only [maxPayload] at hfits
      rw [Attribute.length]
      omega
    have hholds : a.Holds type (before ++ []) := by rwa [List.append_nil]
    exact (Checks.pure ⟨[], hholds, rfl⟩).congr
      (iff_of_true trivial ⟨fun _ h ↦ absurd h List.not_mem_nil, hlength⟩)
  | cons item items ih =>
    rw [List.zipIdx_cons, List.foldlM_cons]
    have hadd : Checks (fits item ∧ align4 a.length + (4 + (payload item).length) ≤ 65535)
        (fun b ↦ b.length = align4 a.length + (4 + (payload item).length) ∧
          ∃ c, b.Holds type (before ++ [c]) ∧
            (c.type, c.payload) = (flagged isNested (UInt16.ofNat start), payload item))
        (child (UInt16.ofNat start) item >>= a.addChild) := by
      refine (hchild (UInt16.ofNat start) item).bind fun c hc ↦ ?_
      have hlength : c.length = 4 + (payload item).length := by rw [Attribute.length, hc.2]
      have hroom := ha.checks_addChild c
      rw [hlength] at hroom
      exact hroom.imp fun _ b hb ↦ ⟨hb.2, c, hb.1, Prod.ext hc.1 hc.2⟩
    refine (hadd.bind (q := (∀ item ∈ items, fits item) ∧
      Attribute.lengthAfter (align4 a.length + (4 + (payload item).length))
        (items.map fun item ↦ 4 + (payload item).length) ≤ 65535) ?_).congr ?_
    · rintro b ⟨hlength, c, hb, hc⟩
      have hrest := ih (start + 1) hb
      rw [hlength] at hrest
      refine hrest.imp fun _ d ⟨children, hd, hchildren⟩ ↦ ⟨c :: children, ?_, ?_⟩
      · rwa [List.append_assoc] at hd
      · rw [List.map_cons, hc, hchildren]
        rfl
    · have hmost := Attribute.le_lengthAfter (align4 a.length + (4 + (payload item).length))
        (items.map fun item ↦ 4 + (payload item).length)
      rw [List.map_cons, Attribute.lengthAfter_cons, List.forall_mem_cons]
      constructor
      · rintro ⟨⟨hitem, -⟩, hitems, hroom⟩
        exact ⟨⟨hitem, hitems⟩, hroom⟩
      · rintro ⟨⟨hitem, hitems⟩, hroom⟩
        exact ⟨⟨hitem, by omega⟩, hitems, hroom⟩

/-- A position below the flags of a type is a kind, with or without the flag of a container. -/
theorem kindOf_flagged {i : Nat} (hi : i < 2 ^ 14) (isNested : Bool) :
    (kindOf (flagged isNested (UInt16.ofNat i))).toNat = i ∧
      isNestedType (flagged isNested (UInt16.ofNat i)) = isNested := by
  have htoNat : (UInt16.ofNat i).toNat = i := by
    rw [UInt16.toNat_ofNat']
    exact Nat.mod_eq_of_lt (by omega)
  have hlt : UInt16.ofNat i < 0x4000 := by
    rw [UInt16.lt_iff_toNat_lt, htoNat]
    exact hi
  let kind : PlainKind := ⟨UInt16.ofNat i, hlt⟩
  cases isNested with
  | false => exact ⟨(congrArg (·.number.toNat) kind.ofType_number).trans htoNat,
      kind.isNestedType_number⟩
  | true => exact ⟨(congrArg (·.number.toNat) kind.ofType_nested).trans htoNat,
      kind.isNestedType_nested⟩

/-- A region whose attributes are typed by their positions and have some payloads, in order. -/
structure IsNumbered (isNested : Bool) (payloads : List Bytes) (region : Bytes) : Prop where
  /-- No position reaches the flags of a type. -/
  length_lt : payloads.length < 2 ^ 14
  attributes_eq : (Cursor.ofBytes region).attributes.map (fun a ↦ (a.type, a.payload)) =
    numbered isNested 0 payloads
  isNested_eq : ∀ a ∈ (Cursor.ofBytes region).attributes, a.isNested = isNested
  kinds_eq : (Region.items region).map (·.kind.toNat) = List.range payloads.length
  payloads_eq : (Region.items region).map Item.payload = payloads
  isTruncated : Region.isTruncated region = false

theorem isNumbered_row {isNested : Bool} {payloads : List Bytes} {children : List Attribute}
    (hlength : payloads.length < 2 ^ 14)
    (h : children.map (fun a ↦ (a.type, a.payload)) = numbered isNested 0 payloads) :
    IsNumbered isNested payloads (Region.row children) := by
  have hposition : ∀ x ∈ payloads.zipIdx, x.2 < 2 ^ 14 := by
    intro x hx
    have := List.snd_lt_of_mem_zipIdx hx
    omega
  constructor
  case length_lt => exact hlength
  case attributes_eq => rw [Cursor.ofBytes, Cursor.attributes_row, h]
  case isNested_eq =>
    rw [Cursor.ofBytes, Cursor.attributes_row]
    intro a ha
    have hmem : (a.type, a.payload) ∈ numbered isNested 0 payloads := h ▸ List.mem_map_of_mem ha
    obtain ⟨x, hx, htype⟩ := List.mem_map.mp hmem
    rw [Attribute.isNested, ← (Prod.mk.inj htype).1]
    exact (kindOf_flagged (hposition x hx) isNested).2
  case kinds_eq =>
    have hkinds := congrArg (List.map fun x ↦ (kindOf x.1).toNat) h
    rw [numbered, List.map_map, List.map_map] at hkinds
    rw [Region.items_row, List.map_map]
    refine (hkinds.trans (List.map_congr_left fun x hx ↦ ?_)).trans
      ((List.zipIdx_map_snd 0 payloads).trans List.range_eq_range'.symm)
    exact (kindOf_flagged (hposition x hx) isNested).1
  case payloads_eq =>
    have hpayloads := congrArg (List.map Prod.snd) h
    rw [numbered, List.map_map, List.map_map] at hpayloads
    rw [Region.items_row, List.map_map]
    refine hpayloads.trans ?_
    exact List.zipIdx_map_fst 0 payloads
  case isTruncated => exact Region.isTruncated_row children

/-- A container of numbered children is made if each of them is and all fit. -/
theorem checks_indexed {α : Type} {child : UInt16 → α → Except Error Attribute}
    {fits : α → Prop} (isNested : Bool) {payload : α → Bytes}
    (hchild : ∀ type item, Checks (fits item)
      (fun a ↦ a.type = flagged isNested type ∧ a.payload = payload item) (child type item))
    (type : UInt16) (items : List α) :
    Checks ((∀ item ∈ items, fits item) ∧
        Attribute.containerLength (items.map fun item ↦ 4 + (payload item).length) ≤ 65535)
      (fun a ↦ a.type = type ||| nestedFlag ∧ IsNumbered isNested (items.map payload) a.payload)
      (indexed type child items) := by
  refine (checks_foldlM hchild items 0 (Attribute.holds_nested type)).imp ?_
  rintro ⟨-, hroom⟩ a ⟨children, ha, hchildren⟩
  have hcount := Attribute.add_length_le_lengthAfter 4
    (items.map fun item ↦ 4 + (payload item).length) (by simp)
  change Attribute.lengthAfter 4 _ ≤ 65535 at hroom
  rw [List.length_map] at hcount
  refine ⟨ha.type_eq, ?_⟩
  rw [ha.payload_eq, List.nil_append]
  exact isNumbered_row (by rw [List.length_map]; omega) hchildren

end ScanRequest

end WifiNetlink
