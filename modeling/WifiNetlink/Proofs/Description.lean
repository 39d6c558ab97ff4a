import Mathlib.Data.List.Forall2
import Mathlib.Data.List.Induction
import WifiNetlink.Kernel.Control
import WifiNetlink.Proofs.Decoding
import WifiNetlink.Proofs.Merging
import WifiNetlink.Proofs.Tree
import WifiNetlink.Proofs.Utf8
import WifiNetlink.Wire.Family

/-!
# Descriptions of families

The control family describes a family in one message: its number, name and version, and a list of
multicast groups with an entry for each. The order of the attributes means nothing, nor do the types
of the entries, and attributes of other kinds may stand anywhere; so may the padding that the kernel
writes at the end of a container. Main statement: the family is read from its description as it was
told, entries that lack a name or a number add nothing, and of two entries of one name the later
counts. The control family tells of each family in such a message.
-/

namespace WifiNetlink

/-- The order of attributes means nothing to a reader that passes over those of other kinds, if it
sets something for each that is known and what it sets for two of them is the same in either
order. -/
theorem foldlM_of_perm {σ : Type} {push : σ → Item → Except Error σ} {set : σ → Item → σ}
    {isKnown : Item → Bool} {items told : List Item}
    (hskip : ∀ (s : σ) (item : Item), isKnown item = false → push s item = .ok s)
    (hpush : ∀ (s : σ), ∀ item ∈ told, push s item = .ok (set s item))
    (hcomm : ∀ (s : σ) (x y : Item), set (set s x) y = set (set s y) x)
    (hperm : (items.filter isKnown).Perm told) (s : σ) :
    items.foldlM push s = .ok (told.foldl set s) := by
  have hfilter : ∀ s, items.foldlM push s = .ok ((items.filter isKnown).foldl set s) := by
    have hknown : ∀ s, ∀ item ∈ items, isKnown item = true → push s item = .ok (set s item) := by
      intro s item hi hk
      exact hpush s item (hperm.mem_iff.mp (List.mem_filter.mpr ⟨hi, hk⟩))
    clear hperm hpush
    induction items with
    | nil => exact fun _ ↦ rfl
    | cons item items ih =>
      intro s
      have hrest := ih fun s other ho ↦ hknown s other (List.mem_cons_of_mem item ho)
      rw [List.foldlM_cons]
      cases hk : isKnown item with
      | false =>
        rw [hskip s item hk, List.filter_cons_of_neg (by simp [hk])]
        exact hrest s
      | true =>
        rw [hknown s item List.mem_cons_self hk, List.filter_cons_of_pos hk]
        exact hrest (set s item)
  rw [hfilter]
  exact congrArg Except.ok (hperm.foldl_eq' (fun x _ y _ s ↦ hcomm s x y) s)

namespace Table

/-- The table with an entry for each pair, one after the other. -/
def ofPairs (pairs : List (String × UInt32)) : Table String UInt32 :=
  pairs.foldl (fun t pair ↦ t.insert pair.1 pair.2) []

theorem ofPairs_append_singleton (pairs : List (String × UInt32)) (pair : String × UInt32) :
    ofPairs (pairs ++ [pair]) = (ofPairs pairs).insert pair.1 pair.2 := by
  rw [ofPairs, List.foldl_append]
  rfl

/-- The last pair of a name counts. -/
theorem get?_ofPairs (pairs : List (String × UInt32)) (name : String) :
    (ofPairs pairs).get? name = pairs.reverse.lookup name := by
  induction pairs using List.reverseRecOn with
  | nil => rfl
  | append_singleton pairs pair ih =>
    rw [ofPairs_append_singleton, get?_insert, ih, List.reverse_append, List.reverse_singleton,
      List.singleton_append, List.lookup_cons]
    by_cases h : name = pair.1
    · simp [h]
    · simp [h, beq_false_of_ne h]

theorem get?_ofPairs_eq_some_iff {pairs : List (String × UInt32)} {name : String} {id : UInt32} :
    (ofPairs pairs).get? name = some id ↔
      ∃ before after, pairs = before ++ (name, id) :: after ∧ ∀ pair ∈ after, pair.1 ≠ name := by
  rw [get?_ofPairs, List.lookup_eq_some_iff]
  constructor
  · rintro ⟨after, before, hsplit, hafter⟩
    refine ⟨before.reverse, after.reverse, ?_, ?_⟩
    · rw [← List.reverse_reverse pairs, hsplit]
      simp
    · intro pair hpair
      have hne := hafter pair (List.mem_reverse.mp hpair)
      exact (bne_iff_ne.mp hne).symm
  · rintro ⟨before, after, rfl, hafter⟩
    refine ⟨after.reverse, before.reverse, by simp, ?_⟩
    intro pair hpair
    exact bne_iff_ne.mpr (hafter pair (List.mem_reverse.mp hpair)).symm

/-- If no name comes twice, the table has just these pairs. -/
theorem ofPairs_of_nodup {pairs : List (String × UInt32)} (h : (pairs.map Prod.fst).Nodup) :
    ofPairs pairs = pairs.reverse := by
  induction pairs using List.reverseRecOn with
  | nil => rfl
  | append_singleton pairs pair ih =>
    rw [List.map_append, List.nodup_append] at h
    obtain ⟨hpairs, -, hnew⟩ := h
    have herase : erase pairs.reverse pair.1 = pairs.reverse := by
      apply List.filter_eq_self.mpr
      intro other hother
      apply bne_iff_ne.mpr
      exact hnew other.1 (List.mem_map_of_mem (List.mem_reverse.mp hother)) pair.1 (by simp)
    rw [ofPairs_append_singleton, ih hpairs, insert, herase, List.reverse_append]
    rfl

theorem get?_ofPairs_of_nodup {pairs : List (String × UInt32)} (h : (pairs.map Prod.fst).Nodup)
    {name : String} {id : UInt32} : (ofPairs pairs).get? name = some id ↔ (name, id) ∈ pairs := by
  rw [get?_ofPairs_eq_some_iff]
  constructor
  · rintro ⟨before, after, rfl, -⟩
    exact List.mem_append_right before List.mem_cons_self
  · intro hmem
    obtain ⟨before, after, rfl⟩ := List.append_of_mem hmem
    refine ⟨before, after, rfl, ?_⟩
    intro pair hpair heq
    rw [List.map_append, List.map_cons, List.nodup_append] at h
    have hname : name ∈ after.map Prod.fst := by
      rw [← heq]
      exact List.mem_map_of_mem hpair
    exact (List.nodup_cons.mp h.2.1).1 hname

end Table

namespace Family

namespace GroupEntry

/-- The attributes that tell of an entry. -/
def items (entry : GroupEntry) : List Item :=
  (entry.name.map fun name ↦ ⟨groupNameAttribute, toPayload name⟩).toList ++
    (entry.id.map fun id ↦ ⟨groupIdAttribute, toPayload id⟩).toList

/-- Whether an attribute tells of an entry. -/
def isKnown (item : Item) : Bool :=
  item.kind == groupNameAttribute || item.kind == groupIdAttribute

/-- The group of an entry that has a name and a number. -/
def pair? (entry : GroupEntry) : Option (String × UInt32) :=
  entry.name.bind fun name ↦ entry.id.map fun id ↦ (name, id)

/-- Whether an attribute of any type carries an entry: what tells of the entry stands in some order
among attributes of other kinds. -/
structure IsIn (entry : GroupEntry) (carrier : Item) : Prop where
  items : ((Region.items carrier.payload).filter isKnown).Perm entry.items
  noZero : ∀ name ∈ entry.name, '\x00' ∉ name.toList

theorem push_of_not_isKnown {item : Item} (h : isKnown item = false) (entry : GroupEntry) :
    entry.push item = .ok entry := by
  have hkinds : item.kind ≠ groupNameAttribute ∧ item.kind ≠ groupIdAttribute := by
    simpa [isKnown] using h
  rw [push, if_neg hkinds.1, if_neg hkinds.2]
  rfl

theorem push_name {name : String} (hz : '\x00' ∉ name.toList) (entry : GroupEntry) :
    entry.push ⟨groupNameAttribute, toPayload name⟩ = .ok { entry with name := some name } := by
  have hread : Payload.readText (toPayload name) = .ok name := Payload.ofPayload_toPayload_text hz
  rw [push, if_pos rfl, hread]
  rfl

theorem push_id (id : UInt32) (entry : GroupEntry) :
    entry.push ⟨groupIdAttribute, toPayload id⟩ = .ok { entry with id := some id } := by
  have hkind : groupIdAttribute ≠ groupNameAttribute := by decide
  rw [push, if_neg hkind, if_pos rfl, Payload.ofPayload_toPayload_u32]
  rfl

/-- What an attribute of an entry sets. -/
def set (entry made : GroupEntry) (item : Item) : GroupEntry :=
  if item.kind = groupNameAttribute then { made with name := entry.name }
  else if item.kind = groupIdAttribute then { made with id := entry.id }
  else made

theorem set_comm (entry made : GroupEntry) (x y : Item) :
    entry.set (entry.set made x) y = entry.set (entry.set made y) x := by
  simp only [set]
  split_ifs <;> rfl

theorem push_of_mem_items {entry : GroupEntry} (hz : ∀ name ∈ entry.name, '\x00' ∉ name.toList)
    {item : Item} (hi : item ∈ entry.items) (made : GroupEntry) :
    made.push item = .ok (entry.set made item) := by
  obtain ⟨name, id⟩ := entry
  rcases List.mem_append.mp hi with hi | hi
  · obtain ⟨text, rfl, rfl⟩ := Option.map_eq_some_iff.mp (Option.mem_toList.mp hi)
    exact push_name (hz text rfl) made
  · obtain ⟨number, rfl, rfl⟩ := Option.map_eq_some_iff.mp (Option.mem_toList.mp hi)
    exact push_id number made

/-- An entry is read from the attribute that carries it. -/
theorem foldlM_push {entry : GroupEntry} {carrier : Item} (h : entry.IsIn carrier) :
    (Region.items carrier.payload).foldlM push ⟨none, none⟩ = .ok entry := by
  have hset : entry.items.foldl entry.set ⟨none, none⟩ = entry := by
    obtain ⟨name, id⟩ := entry
    cases name <;> cases id <;> rfl
  rw [foldlM_of_perm (fun made item hi ↦ push_of_not_isKnown hi made)
    (fun made item hi ↦ push_of_mem_items h.noZero hi made) entry.set_comm h.items, hset]

end GroupEntry

/-- An entry adds its group, if it has a name and a number. -/
theorem pushGroup_of_isIn {entry : GroupEntry} {carrier : Item} (h : entry.IsIn carrier)
    (groups : Table String UInt32) :
    pushGroup groups carrier.payload =
      .ok (entry.pair?.toList.foldl (fun t pair ↦ t.insert pair.1 pair.2) groups) := by
  rw [pushGroup, GroupEntry.foldlM_push h]
  obtain ⟨name, id⟩ := entry
  cases name <;> cases id <;> rfl

/-- The entries of a list add their groups one after the other. -/
private theorem foldlM_pushGroup {entries : List GroupEntry} {listed : List Item}
    (h : List.Forall₂ GroupEntry.IsIn entries listed) (groups : Table String UInt32) :
    listed.foldlM (fun groups item ↦ pushGroup groups item.payload) groups =
      .ok ((entries.filterMap GroupEntry.pair?).foldl
        (fun t pair ↦ t.insert pair.1 pair.2) groups) := by
  induction h generalizing groups with
  | nil => rfl
  | cons hentry _ ih =>
    rw [List.foldlM_cons, pushGroup_of_isIn hentry]
    show List.foldlM _ _ _ = _
    rw [ih, List.filterMap_cons]
    split
    · next hnone => rw [hnone]; rfl
    · next pair hsome => rw [hsome]; rfl

/-- The groups of a list are those of its entries, whatever their types. -/
theorem readGroups_of_forall₂ {entries : List GroupEntry} {payload : Bytes}
    (h : List.Forall₂ GroupEntry.IsIn entries (Region.items payload)) :
    readGroups payload = .ok (.ofPairs (entries.filterMap GroupEntry.pair?)) :=
  foldlM_pushGroup h []

/-! ### The whole description -/

/-- The checks before a description is read. -/
theorem ofPacket_eq_checks (p : Packet) : ofPacket p =
    match p.kind with
    | .error errno => .error ((Error.ofErrno (-errno)).during "get family")
    | _ =>
      if p.type ≠ controlId then .error (.unexpectedType controlId p.type)
      else if p.command ≠ newFamilyCommand then
        .error (.unexpectedCommand newFamilyCommand p.command)
      else p.attributes.foldlM Draft.push ⟨none, none, 0, []⟩ >>= Draft.finish := by
  unfold ofPacket
  by_cases htype : p.type ≠ controlId
  · cases p.kind <;> simp only [if_pos htype] <;> rfl
  · by_cases hcommand : p.command ≠ newFamilyCommand
    · cases p.kind <;> simp only [if_neg htype, if_pos hcommand] <;> rfl
    · cases p.kind with
      | error errno => rfl
      | _ => simp only [if_neg htype, if_neg hcommand]

namespace Draft

/-- Whether an attribute tells of a family. -/
def isKnown (item : Item) : Bool :=
  item.kind == idAttribute || item.kind == nameAttribute || item.kind == versionAttribute ||
    item.kind == groupsAttribute

theorem push_of_not_isKnown {item : Item} (h : isKnown item = false) (draft : Draft) :
    draft.push item = .ok draft := by
  have hkinds : ((item.kind ≠ idAttribute ∧ item.kind ≠ nameAttribute) ∧
      item.kind ≠ versionAttribute) ∧ item.kind ≠ groupsAttribute := by
    simpa [isKnown] using h
  rw [push, if_neg hkinds.1.1.1, if_neg hkinds.1.1.2, if_neg hkinds.1.2, if_neg hkinds.2]
  rfl

theorem push_id (id : UInt16) (draft : Draft) :
    draft.push ⟨idAttribute, toPayload id⟩ = .ok { draft with id := some id } := by
  rw [push, if_pos rfl, Payload.ofPayload_toPayload_u16]
  rfl

theorem push_name {name : String} (hz : '\x00' ∉ name.toList) (draft : Draft) :
    draft.push ⟨nameAttribute, toPayload name⟩ = .ok { draft with name := some name } := by
  have hread : Payload.readText (toPayload name) = .ok name := Payload.ofPayload_toPayload_text hz
  have hid : nameAttribute ≠ idAttribute := by decide
  rw [push, if_neg hid, if_pos rfl, hread]
  rfl

theorem push_version (version : UInt32) (draft : Draft) :
    draft.push ⟨versionAttribute, toPayload version⟩ = .ok { draft with version } := by
  have hid : versionAttribute ≠ idAttribute := by decide
  have hname : versionAttribute ≠ nameAttribute := by decide
  rw [push, if_neg hid, if_neg hname, if_pos rfl, Payload.ofPayload_toPayload_u32]
  rfl

theorem push_groups {payload : Bytes} {groups : Table String UInt32}
    (h : readGroups payload = .ok groups) (draft : Draft) :
    draft.push ⟨groupsAttribute, payload⟩ = .ok { draft with groups } := by
  have hid : groupsAttribute ≠ idAttribute := by decide
  have hname : groupsAttribute ≠ nameAttribute := by decide
  have hversion : groupsAttribute ≠ versionAttribute := by decide
  rw [push, if_neg hid, if_neg hname, if_neg hversion, if_pos rfl, h]
  rfl

end Draft

/-- What there is to tell of a family. -/
structure Description where
  name : String
  id : UInt16
  version : UInt32
  /-- The entries of the list of groups, complete or not. -/
  entries : List GroupEntry

namespace Description

/-- The groups of the complete entries. -/
def pairs (d : Description) : List (String × UInt32) := d.entries.filterMap GroupEntry.pair?

/-- The family that is told of. -/
def family (d : Description) : Family := ⟨d.name, d.id, d.version, .ofPairs d.pairs⟩

/-- The attributes that tell of a family, with a list of groups if there is one. -/
def items (d : Description) (list? : Option Bytes) : List Item :=
  [⟨idAttribute, toPayload d.id⟩, ⟨nameAttribute, toPayload d.name⟩,
    ⟨versionAttribute, toPayload d.version⟩] ++
      (list?.map fun listed ↦ ⟨groupsAttribute, listed⟩).toList

/-- Whether a packet describes a family: what tells of the family stands in some order among
attributes of other kinds. A family without groups may have no list of them. -/
structure IsToldBy (d : Description) (p : Packet) : Prop where
  type_eq : p.type = controlId
  command_eq : p.command = newFamilyCommand
  attributes : ∃ list?, (p.attributes.filter Draft.isKnown).Perm (d.items list?) ∧
    List.Forall₂ GroupEntry.IsIn d.entries (Region.items (list?.getD []))
  noZero : '\x00' ∉ d.name.toList

variable {d : Description} {p : Packet}

/-- What an attribute of the description sets. -/
def set (d : Description) (draft : Draft) (item : Item) : Draft :=
  if item.kind = idAttribute then { draft with id := some d.id }
  else if item.kind = nameAttribute then { draft with name := some d.name }
  else if item.kind = versionAttribute then { draft with version := d.version }
  else if item.kind = groupsAttribute then { draft with groups := .ofPairs d.pairs }
  else draft

theorem set_comm (d : Description) (draft : Draft) (x y : Item) :
    d.set (d.set draft x) y = d.set (d.set draft y) x := by
  simp only [set]
  split_ifs <;> rfl

theorem push_of_mem_items {list? : Option Bytes} (hz : '\x00' ∉ d.name.toList)
    (hlist : List.Forall₂ GroupEntry.IsIn d.entries (Region.items (list?.getD []))) {item : Item}
    (hi : item ∈ d.items list?) (draft : Draft) : draft.push item = .ok (d.set draft item) := by
  rcases List.mem_append.mp hi with hi | hi
  · simp only [List.mem_cons, List.not_mem_nil, or_false] at hi
    rcases hi with rfl | rfl | rfl
    · exact Draft.push_id d.id draft
    · exact Draft.push_name hz draft
    · exact Draft.push_version d.version draft
  · obtain ⟨listed, rfl, rfl⟩ := Option.map_eq_some_iff.mp (Option.mem_toList.mp hi)
    exact Draft.push_groups (readGroups_of_forall₂ hlist) draft

/-- The draft is made of what tells of the family, in whatever order. -/
theorem foldlM_push {items : List Item} {list? : Option Bytes} (hz : '\x00' ∉ d.name.toList)
    (hperm : (items.filter Draft.isKnown).Perm (d.items list?))
    (hlist : List.Forall₂ GroupEntry.IsIn d.entries (Region.items (list?.getD []))) :
    items.foldlM Draft.push ⟨none, none, 0, []⟩ =
      .ok ⟨some d.id, some d.name, d.version, .ofPairs d.pairs⟩ := by
  have hset : (d.items list?).foldl d.set ⟨none, none, 0, []⟩ =
      ⟨some d.id, some d.name, d.version, .ofPairs d.pairs⟩ := by
    cases list? with
    | some listed => rfl
    | none =>
      have hnone : d.pairs = [] := by
        have hempty : Region.items [] = [] := Region.items_row []
        rw [Option.getD_none, hempty] at hlist
        rw [pairs, List.forall₂_nil_right_iff.mp hlist]
        rfl
      rw [hnone]
      rfl
  rw [foldlM_of_perm (fun draft item hi ↦ Draft.push_of_not_isKnown hi draft)
    (fun draft item hi ↦ push_of_mem_items hz hlist hi draft) d.set_comm hperm, hset]

/-- A family is read from its description. -/
theorem ofPacket_eq (h : d.IsToldBy p) : ofPacket p = .ok d.family := by
  obtain ⟨list?, hperm, hlist⟩ := h.attributes
  have hleast : leastFamilyType ≤ p.type := by
    rw [h.type_eq]
    decide
  rw [ofPacket_eq_checks]
  split
  · next errno hk => exact absurd hk (Packet.kind_ne_error hleast errno)
  · rw [if_neg (not_not.mpr h.type_eq), if_neg (not_not.mpr h.command_eq),
      foldlM_push h.noZero hperm hlist]
    rfl

/-! ### What the control family tells -/

/-- What there is to tell of a family, with an entry for each of its groups. -/
def ofFamily (f : Family) : Description :=
  ⟨f.name, f.id, f.version, f.groups.map fun group ↦ ⟨some group.1, some group.2⟩⟩

theorem pairs_ofFamily (f : Family) : (ofFamily f).pairs = f.groups := by
  rw [pairs, ofFamily, List.filterMap_map]
  exact List.filterMap_some

private theorem item_of_encode {α : Type} [Payload α] {type kind : UInt16} {value : α}
    {a : Attribute} (ha : Attribute.encode type value = .ok a) (hk : kindOf type = kind) :
    a.item = ⟨kind, toPayload value⟩ := by
  obtain ⟨htype, hpayload⟩ := (Attribute.encode_eq_ok_iff type value).mp ha
  rw [Attribute.item, Attribute.kind, htype, hk, hpayload]

private theorem exists_of_addValue {α : Type} [Payload α] {p q : Packet} {type : UInt16} {value : α}
    (hq : p.addValue type value = .ok q) :
    ∃ a, Attribute.encode type value = .ok a ∧ p.addAttribute a = q := by
  unfold Packet.addValue at hq
  cases ha : Attribute.encode type value with
  | error e =>
    rw [ha] at hq
    contradiction
  | ok a =>
    rw [ha] at hq
    exact ⟨a, rfl, Except.ok.inj hq⟩

/-- The entry of a group tells of it, whatever its index. -/
private theorem isIn_of_groupEntry {index : Nat} {name : String} {id : UInt32} {a : Attribute}
    (ha : ControlKernel.groupEntry index name id = .ok a) (hz : '\x00' ∉ name.toList) :
    GroupEntry.IsIn ⟨some name, some id⟩ a.item := by
  obtain ⟨first, hfirst, ha⟩ := bind_eq_ok_iff.mp ha
  obtain ⟨second, hsecond, ha⟩ := bind_eq_ok_iff.mp ha
  obtain ⟨entry, hentry, ha⟩ := bind_eq_ok_iff.mp ha
  have hrow : entry.type = _ ∧ entry.payload = Region.row ([] ++ [first, second]) :=
    Attribute.addChildren_eq_ok hentry rfl
  have hid : first.item = ⟨groupIdAttribute, toPayload id⟩ := item_of_encode hfirst rfl
  have hname : second.item = ⟨groupNameAttribute, toPayload name⟩ := item_of_encode hsecond rfl
  have hitems : Region.items a.payload =
      [⟨groupIdAttribute, toPayload id⟩, ⟨groupNameAttribute, toPayload name⟩] := by
    rw [((Attribute.ofPayload_eq_ok_iff ..).mp ha).2, hrow.2, Region.items_padded_row]
    exact congrArg₂ (fun x y ↦ [x, y]) hid hname
  constructor
  · rw [Attribute.item, hitems]
    exact List.Perm.swap _ _ _
  · intro other hother
    rw [← Option.mem_some_iff.mp hother]
    exact hz

/-- The entries of a list tell of its groups in order. -/
private theorem forall₂_of_mapM {groups : List ((String × UInt32) × Nat)} {listed : List Attribute}
    (h : (groups.mapM fun ((name, id), index) ↦ ControlKernel.groupEntry (index + 1) name id) =
      .ok listed) (hz : ∀ group ∈ groups, '\x00' ∉ group.1.1.toList) :
    List.Forall₂ GroupEntry.IsIn (groups.map fun group ↦ ⟨some group.1.1, some group.1.2⟩)
      (listed.map Attribute.item) := by
  induction groups generalizing listed with
  | nil =>
    obtain rfl : [] = listed := Except.ok.inj h
    exact .nil
  | cons group groups ih =>
    rw [List.mapM_cons] at h
    obtain ⟨entry, hentry, h⟩ := bind_eq_ok_iff.mp h
    obtain ⟨rest, hrest, h⟩ := bind_eq_ok_iff.mp h
    obtain rfl : entry :: rest = listed := Except.ok.inj h
    apply List.Forall₂.cons
    · exact isIn_of_groupEntry hentry (hz group List.mem_cons_self)
    · exact ih hrest fun other ho ↦ hz other (List.mem_cons_of_mem group ho)

/-- A message with a row of attributes tells of a family if they do. -/
private theorem IsToldBy.of_row (as : List Attribute) (list? : Option Bytes) {head : CommandHeader}
    (htype : p.type = controlId) (hrow : p.HasRow head as)
    (hcommand : head.command = newFamilyCommand)
    (hperm : ((as.map Attribute.item).filter Draft.isKnown).Perm (d.items list?))
    (hlist : List.Forall₂ GroupEntry.IsIn d.entries (Region.items (list?.getD [])))
    (hz : '\x00' ∉ d.name.toList) : d.IsToldBy p := by
  have hleast : leastFamilyType ≤ p.type := by
    rw [htype]
    decide
  refine ⟨htype, (hrow.command_eq hleast).trans hcommand, ⟨list?, ?_, hlist⟩, hz⟩
  rwa [Packet.attributes, hrow.region_eq hleast, Region.items_row]

/-- The control family's message tells of the family. -/
theorem isToldBy_describe {f : Family} {flags : UInt16} {sequence port : UInt32}
    (hp : ControlKernel.describe f flags sequence port = .ok p) (hz : '\x00' ∉ f.name.toList)
    (hgroups : ∀ group ∈ f.groups, '\x00' ∉ group.1.toList) : (ofFamily f).IsToldBy p := by
  obtain ⟨listed, hlisted, hp⟩ := bind_eq_ok_iff.mp hp
  obtain ⟨groups, hadded, hp⟩ := bind_eq_ok_iff.mp hp
  obtain ⟨named, hnamed, hp⟩ := bind_eq_ok_iff.mp hp
  obtain ⟨numbered, hnumbered, hp⟩ := bind_eq_ok_iff.mp hp
  obtain ⟨versioned, hversioned, hp⟩ := bind_eq_ok_iff.mp hp
  obtain rfl := Except.ok.inj hp
  obtain ⟨name, hname, rfl⟩ := exists_of_addValue hnamed
  obtain ⟨id, hid, rfl⟩ := exists_of_addValue hnumbered
  obtain ⟨version, hversion, rfl⟩ := exists_of_addValue hversioned
  have hlist : groups.type = _ ∧ groups.payload = Region.row ([] ++ listed) :=
    Attribute.addChildren_eq_ok hadded rfl
  have hgroupsItem : groups.item = ⟨groupsAttribute, Region.row listed⟩ := by
    rw [Attribute.item, Attribute.kind, hlist.1, hlist.2]
    rfl
  have hempty : (⟨controlId, flags, sequence, port,
      (CommandHeader.ofCommand newFamilyCommand 2).toBytes⟩ : Packet).HasRow
        (.ofCommand newFamilyCommand 2) [] := (List.append_nil _).symm
  have hrow := (((hempty.addAttribute name).addAttribute id).addAttribute version).addAttribute
    groups
  refine .of_row _ (some (Region.row listed)) rfl hrow rfl ?_ ?_ hz
  · simp only [List.nil_append, List.cons_append, List.map_cons, List.map_nil, hgroupsItem,
      item_of_encode hname rfl, item_of_encode hid rfl, item_of_encode hversion rfl]
    exact List.Perm.swap _ _ _
  · have hzip : f.groups.zipIdx.map Prod.fst = f.groups := List.zipIdx_map_fst 0 f.groups
    have hentries := forall₂_of_mapM hlisted fun group hg ↦
      hgroups group.1 (hzip ▸ List.mem_map_of_mem hg)
    rw [Option.getD_some, Region.items_row, ofFamily, ← hzip, List.map_map]
    exact hentries

/-- A family that the control family describes is read as it is, its groups in another order. -/
theorem ofPacket_describe {f : Family} {flags : UInt16} {sequence port : UInt32}
    (hp : ControlKernel.describe f flags sequence port = .ok p) (hz : '\x00' ∉ f.name.toList)
    (hgroups : ∀ group ∈ f.groups, '\x00' ∉ group.1.toList) (hnodup : f.groups.keys.Nodup) :
    ofPacket p = .ok { f with groups := f.groups.reverse } := by
  rw [ofPacket_eq (isToldBy_describe hp hz hgroups), family, pairs_ofFamily,
    Table.ofPairs_of_nodup hnodup]
  rfl

/-! ### Reading descriptions -/

/-- How a family is read of a message that describes it: of two entries of one name the later
counts, so that distinct groups may come in any order, and only complete entries matter. -/
structure IsReadOf (d : Description) (p : Packet) (f : Family) : Prop where
  read : ofPacket p = .ok f
  name_eq : f.name = d.name
  id_eq : f.id = d.id
  version_eq : f.version = d.version
  group?_eq_some_iff : ∀ name id, f.group? name = some id ↔
    ∃ before after, d.pairs = before ++ (name, id) :: after ∧ ∀ pair ∈ after, pair.1 ≠ name
  distinct : ∀ groups, d.pairs.Perm groups → (groups.map Prod.fst).Nodup →
    f.groups.Perm groups ∧ ∀ name id, f.group? name = some id ↔ (name, id) ∈ groups
  alike : ∀ (other : Description) (q : Packet), other.IsToldBy q → other.name = d.name →
    other.id = d.id → other.version = d.version → other.pairs = d.pairs → ofPacket q = .ok f

theorem isReadOf_family (h : d.IsToldBy p) : d.IsReadOf p d.family where
  read := ofPacket_eq h
  name_eq := rfl
  id_eq := rfl
  version_eq := rfl
  group?_eq_some_iff _ _ := Table.get?_ofPairs_eq_some_iff
  distinct groups hperm hnodup := by
    have hpairs : (d.pairs.map Prod.fst).Nodup := (hperm.map Prod.fst).nodup_iff.mpr hnodup
    constructor
    · show (Table.ofPairs d.pairs).Perm groups
      rw [Table.ofPairs_of_nodup hpairs]
      exact (List.reverse_perm d.pairs).trans hperm
    · intro name id
      rw [← hperm.mem_iff]
      exact Table.get?_ofPairs_of_nodup hpairs
  alike other q hq hname hid hversion hgroups := by
    have hfamily : other.family = d.family := by
      rw [family, family, hname, hid, hversion, hgroups]
    rw [← hfamily]
    exact ofPacket_eq hq

/-- A family is read from its description as it was told, and the control family's own messages are
descriptions: what it tells of a family is what is read. -/
theorem ofPacket_of_isToldBy :
    (∀ (d : Description) (p : Packet), d.IsToldBy p → ∃ f, d.IsReadOf p f) ∧
    ∀ (f : Family) (flags : UInt16) (sequence port : UInt32) (p : Packet),
      ControlKernel.describe f flags sequence port = .ok p → '\x00' ∉ f.name.toList →
      (∀ group ∈ f.groups, '\x00' ∉ group.1.toList) → f.groups.keys.Nodup →
        (ofFamily f).IsToldBy p ∧ ofPacket p = .ok { f with groups := f.groups.reverse } :=
  ⟨fun d _ h ↦ ⟨d.family, isReadOf_family h⟩, fun _ _ _ _ _ hp hz hgroups hnodup ↦
    ⟨isToldBy_describe hp hz hgroups, ofPacket_describe hp hz hgroups hnodup⟩⟩

/-! ### A description in an odd order, and one of a kernel -/

/-- A family with two groups, one of them told twice, and two entries that are not complete. -/
def odd : Description :=
  ⟨"wifi", 28, 1, [⟨some "scan", some 4⟩, ⟨none, some 9⟩, ⟨some "mlme", some 5⟩,
    ⟨some "vendor", none⟩, ⟨some "scan", some 6⟩]⟩

/-- The entries, typed 0, 3, 3, 9 and 1. -/
def oddEntries : List Attribute :=
  [Query.container 0 [Query.word groupIdAttribute 4,
      ⟨groupNameAttribute, [115, 99, 97, 110, 0], by decide⟩] (by decide),
    Query.container 3 [Query.word groupIdAttribute 9] (by decide),
    Query.container 3 [⟨groupNameAttribute, [109, 108, 109, 101, 0], by decide⟩, .flag 8,
      Query.word groupIdAttribute 5] (by decide),
    Query.container 9 [⟨groupNameAttribute, [118, 101, 110, 100, 111, 114, 0], by decide⟩]
      (by decide),
    Query.container 1 [Query.word groupIdAttribute 6,
      ⟨groupNameAttribute, [115, 99, 97, 110, 0], by decide⟩] (by decide)]

/-- The list of the entries, the last one padded. -/
def oddList : Bytes := (Region.row oddEntries).padded

/-- The attributes of the message, the list of groups among the first. -/
def oddAttributes : List Attribute :=
  [Query.word 5 64, ⟨groupsAttribute, oddList, by decide +kernel⟩, Query.word versionAttribute 1,
    ⟨nameAttribute, [119, 105, 102, 105, 0], by decide⟩, ⟨idAttribute, [28, 0], by decide⟩]

/-- The message that tells of the family. -/
def oddPacket : Packet :=
  ⟨controlId, 0, 1, 0, (CommandHeader.ofCommand newFamilyCommand 2).toBytes ++
    Region.row oddAttributes⟩

private theorem isIn_oddEntries :
    List.Forall₂ GroupEntry.IsIn odd.entries (oddEntries.map Attribute.item) := by
  have hscan : toPayload "scan" = [115, 99, 97, 110, 0] := by decide +kernel
  have hmlme : toPayload "mlme" = [109, 108, 109, 101, 0] := by decide +kernel
  have hvendor : toPayload "vendor" = [118, 101, 110, 100, 111, 114, 0] := by decide +kernel
  -- Each entry is told by its children, whatever the type of its container.
  have hin {entry : GroupEntry} {type : UInt16} {as : List Attribute}
      (fits : (Region.row as).length ≤ maxPayload)
      (hperm : ((as.map Attribute.item).filter GroupEntry.isKnown).Perm entry.items)
      (hz : ∀ name ∈ entry.name, '\x00' ∉ name.toList) :
      entry.IsIn (Query.container type as fits).item :=
    ⟨(Region.items_row as).symm ▸ hperm, hz⟩
  apply List.Forall₂.cons
  · apply hin
    · simp only [GroupEntry.items, Option.map_some, hscan]
      decide
    · decide
  apply List.Forall₂.cons
  · apply hin <;> decide
  apply List.Forall₂.cons
  · apply hin
    · simp only [GroupEntry.items, Option.map_some, hmlme]
      decide
    · decide
  apply List.Forall₂.cons
  · apply hin
    · simp only [GroupEntry.items, Option.map_some, hvendor]
      decide
    · decide
  apply List.Forall₂.cons
  · apply hin
    · simp only [GroupEntry.items, Option.map_some, hscan]
      decide
    · decide
  exact .nil

theorem isToldBy_oddPacket : odd.IsToldBy oddPacket := by
  have hwifi : toPayload "wifi" = [119, 105, 102, 105, 0] := by decide +kernel
  refine .of_row oddAttributes (some oddList) rfl rfl rfl ?_ ?_ (by decide)
  · simp only [items, odd, hwifi]
    decide +kernel
  · rw [Option.getD_some, oddList, Region.items_padded_row]
    exact isIn_oddEntries

/-- The family of wireless devices with its groups. -/
def nl80211 : Family :=
  ⟨"nl80211", 28, 1, [("config", 4), ("scan", 5), ("regulatory", 6), ("mlme", 7)]⟩

/-- The message in which a kernel describes it. -/
def nl80211Packet : Packet :=
  ⟨controlId, 0, 1, 0, [1, 2, 0, 0] ++
    [12, 0, 2, 0, 110, 108, 56, 48, 50, 49, 49, 0] ++ [6, 0, 1, 0, 28, 0, 0, 0] ++
    [8, 0, 3, 0, 1, 0, 0, 0] ++ [104, 0, 7, 0] ++
    [24, 0, 1, 0, 8, 0, 2, 0, 4, 0, 0, 0, 11, 0, 1, 0, 99, 111, 110, 102, 105, 103, 0, 0] ++
    [24, 0, 2, 0, 8, 0, 2, 0, 5, 0, 0, 0, 9, 0, 1, 0, 115, 99, 97, 110, 0, 0, 0, 0] ++
    [28, 0, 3, 0, 8, 0, 2, 0, 6, 0, 0, 0, 15, 0, 1, 0, 114, 101, 103, 117, 108, 97, 116, 111,
      114, 121, 0, 0] ++
    [24, 0, 4, 0, 8, 0, 2, 0, 7, 0, 0, 0, 9, 0, 1, 0, 109, 108, 109, 101, 0, 0, 0, 0]⟩

/-- The later number of the group that is told twice counts, and the kernel's message is read with
the padding that is in it. -/
theorem ofPacket_oddPacket :
    odd.IsToldBy oddPacket ∧ (∃ f, ofPacket oddPacket = .ok f ∧ f.name = "wifi" ∧ f.id = 28 ∧
      f.group? "scan" = some 6 ∧ f.group? "mlme" = some 5) ∧
    (ofFamily nl80211).IsToldBy nl80211Packet ∧
      ofPacket nl80211Packet = .ok { nl80211 with groups := nl80211.groups.reverse } := by
  obtain ⟨hread, hkernel⟩ := ofPacket_of_isToldBy
  obtain ⟨f, hodd⟩ := hread odd oddPacket isToldBy_oddPacket
  refine ⟨isToldBy_oddPacket, ⟨f, hodd.read, hodd.name_eq, hodd.id_eq, ?_, ?_⟩, ?_⟩
  · exact (hodd.group?_eq_some_iff "scan" 6).mpr
      ⟨[("scan", 4), ("mlme", 5)], [], rfl, List.forall_mem_nil _⟩
  · exact (hodd.group?_eq_some_iff "mlme" 5).mpr ⟨[("scan", 4)], [("scan", 6)], rfl, by decide⟩
  · exact hkernel nl80211 0 1 0 nl80211Packet (by decide +kernel) (by decide) (by decide)
      (by decide)

end Description

end Family

end WifiNetlink
