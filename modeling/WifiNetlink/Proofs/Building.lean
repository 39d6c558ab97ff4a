import WifiNetlink.Proofs.Row
import WifiNetlink.Wire.Packet

/-!
# Building packets

A request is made without attributes and then edited: flags are added, its number and port are set,
attributes are added. However it is edited, the packet is what the edits say and reads back from
its bytes. An edit of the packet is one of its bytes in place: it writes over one field of the
header, or adds an attribute at the end and writes the length anew.
-/

namespace WifiNetlink

namespace Bytes

/-- Bytes written over others in place. -/
def overwrite (bytes : Bytes) (start : Nat) (new : Bytes) : Bytes :=
  bytes.take start ++ new ++ bytes.drop (start + new.length)

theorem overwrite_append {before old new : Bytes} {start : Nat} (rest : Bytes)
    (hs : before.length = start) (hl : old.length = new.length) :
    overwrite (before ++ (old ++ rest)) start new = before ++ (new ++ rest) := by
  have hskip : (before ++ (old ++ rest)).drop (start + new.length) = rest := by
    rw [← List.append_assoc]
    apply List.drop_left'
    rw [List.length_append, hs, hl]
  rw [overwrite, List.take_left' hs, hskip, List.append_assoc]

/-- Only the last bytes of a number are written. -/
theorem ofNat_mod (width n : Nat) : ofNat width (n % Nat.pow 256 width) = ofNat width n := by
  have h := ofNat_toNat (ofNat width n)
  rwa [length_ofNat, toNat_ofNat] at h

end Bytes

namespace Packet

/-- A change to a packet in the making. -/
inductive Edit : Type 1 where
  | addFlags (flags : UInt16)
  | setSequence (sequence : UInt32)
  | setPort (port : UInt32)
  | addAttribute (a : Attribute)
  | addValue {α : Type} [Payload α] (type : UInt16) (value : α)

namespace Edit

/-- The outcome of an edit, and the packet after it. -/
def run : Edit → Packet → Except Error Unit × Packet
  | addFlags flags, p => (.ok (), p.addFlags flags)
  | setSequence sequence, p => (.ok (), p.setSequence sequence)
  | setPort port, p => (.ok (), p.setPort port)
  | addAttribute a, p => (.ok (), p.addAttribute a)
  | addValue type value, p =>
    match p.addValue type value with
    | .ok edited => (.ok (), edited)
    | .error e => (.error e, p)

/-- The flags that an edit adds. -/
def flags? : Edit → Option UInt16
  | addFlags flags => some flags
  | _ => none

/-- The sequence number that an edit gives. -/
def sequence? : Edit → Option UInt32
  | setSequence sequence => some sequence
  | _ => none

/-- The port that an edit gives. -/
def port? : Edit → Option UInt32
  | setPort port => some port
  | _ => none

/-- The attribute that an edit adds, if it succeeds. -/
def attribute? : Edit → Option Attribute
  | addAttribute a => some a
  | addValue type value => (Attribute.encode type value).toOption
  | _ => none

/-- The bytes of a packet after an attribute is added in place. -/
def extend (bytes : Bytes) (a : Attribute) : Bytes :=
  (bytes.padded ++ a.toBytes).overwrite 0 (Bytes.ofNat 4 (bytes.padded ++ a.toBytes).length)

/-- The bytes of a packet after an edit in place. -/
def write : Edit → Bytes → Bytes
  | addFlags flags, bytes =>
    bytes.overwrite 6 (Bytes.ofNat 2 (UInt16.ofNat (bytes.natAt 6 2) ||| flags).toNat)
  | setSequence sequence, bytes => bytes.overwrite 8 (Bytes.ofNat 4 sequence.toNat)
  | setPort port, bytes => bytes.overwrite 12 (Bytes.ofNat 4 port.toNat)
  | addAttribute a, bytes => extend bytes a
  | addValue type value, bytes =>
    match Attribute.encode type value with
    | .ok a => extend bytes a
    | .error _ => bytes

end Edit

/-- A packet after edits in a row. -/
def edited (p : Packet) (edits : List Edit) : Packet :=
  edits.foldl (fun p edit ↦ (edit.run p).2) p

/-- The bytes of a packet, field by field. -/
theorem toBytes_eq (p : Packet) :
    p.toBytes = Bytes.ofNat 4 p.length ++ (Bytes.ofNat 2 p.type.toNat ++
      (Bytes.ofNat 2 p.flags.toNat ++ (Bytes.ofNat 4 p.sequence.toNat ++
        (Bytes.ofNat 4 p.port.toNat ++ p.body)))) := by
  have hlength : Bytes.ofNat 4 (UInt32.ofNat p.length).toNat = Bytes.ofNat 4 p.length := by
    rw [UInt32.toNat_ofNat']
    exact Bytes.ofNat_mod 4 p.length
  simp only [toBytes, MessageHeader.toBytes, header, hlength, List.append_assoc]

theorem toBytes_addFlags (p : Packet) (flags : UInt16) :
    (p.addFlags flags).toBytes = (Edit.addFlags flags).write p.toBytes := by
  have hold : p.toBytes = (Bytes.ofNat 4 p.length ++ Bytes.ofNat 2 p.type.toNat) ++
      (Bytes.ofNat 2 p.flags.toNat ++
        (Bytes.ofNat 4 p.sequence.toNat ++ (Bytes.ofNat 4 p.port.toNat ++ p.body))) := by
    rw [toBytes_eq, List.append_assoc]
  have hflags : UInt16.ofNat (p.toBytes.natAt 6 2) = p.flags := by
    rw [hold, Bytes.natAt_append_of_le _ _ (by simp), List.length_append, Bytes.length_ofNat,
      Bytes.length_ofNat, Bytes.natAt_ofNat_append]
    exact (congrArg UInt16.ofNat (Nat.mod_eq_of_lt p.flags.toNat_lt)).trans UInt16.ofNat_toNat
  rw [Edit.write, hflags, hold, Bytes.overwrite_append _ (by simp) (by simp), toBytes_eq,
    List.append_assoc]
  rfl

theorem toBytes_setSequence (p : Packet) (sequence : UInt32) :
    (p.setSequence sequence).toBytes = (Edit.setSequence sequence).write p.toBytes := by
  have hold : p.toBytes =
      (Bytes.ofNat 4 p.length ++ (Bytes.ofNat 2 p.type.toNat ++ Bytes.ofNat 2 p.flags.toNat)) ++
        (Bytes.ofNat 4 p.sequence.toNat ++ (Bytes.ofNat 4 p.port.toNat ++ p.body)) := by
    rw [toBytes_eq, List.append_assoc, List.append_assoc]
  rw [Edit.write, hold, Bytes.overwrite_append _ (by simp) (by simp), toBytes_eq, List.append_assoc,
    List.append_assoc]
  rfl

theorem toBytes_setPort (p : Packet) (port : UInt32) :
    (p.setPort port).toBytes = (Edit.setPort port).write p.toBytes := by
  have hold : p.toBytes =
      (Bytes.ofNat 4 p.length ++ (Bytes.ofNat 2 p.type.toNat ++ (Bytes.ofNat 2 p.flags.toNat ++
        Bytes.ofNat 4 p.sequence.toNat))) ++ (Bytes.ofNat 4 p.port.toNat ++ p.body) := by
    rw [toBytes_eq, List.append_assoc, List.append_assoc, List.append_assoc]
  rw [Edit.write, hold, Bytes.overwrite_append _ (by simp) (by simp), toBytes_eq, List.append_assoc,
    List.append_assoc, List.append_assoc]
  rfl

theorem toBytes_addAttribute (p : Packet) (a : Attribute) :
    (p.addAttribute a).toBytes = Edit.extend p.toBytes a := by
  have hpadded : p.toBytes.padded = p.header.toBytes ++ p.body.padded := by
    rw [toBytes]
    exact Bytes.padded_append _ (by rw [MessageHeader.length_toBytes])
  have hlength : (p.toBytes.padded ++ a.toBytes).length = (p.addAttribute a).length := by
    rw [hpadded, addAttribute, length, List.length_append, List.length_append, List.length_append,
      MessageHeader.length_toBytes, Nat.add_assoc]
  have hold : p.toBytes.padded ++ a.toBytes = [] ++ (Bytes.ofNat 4 p.header.length.toNat ++
      (Bytes.ofNat 2 p.type.toNat ++ (Bytes.ofNat 2 p.flags.toNat ++
        (Bytes.ofNat 4 p.sequence.toNat ++ (Bytes.ofNat 4 p.port.toNat ++
          (p.addAttribute a).body))))) := by
    simp only [hpadded, MessageHeader.toBytes, header, addAttribute, List.append_assoc,
      List.nil_append]
  rw [Edit.extend, hlength, hold, Bytes.overwrite_append _ List.length_nil (by simp),
    toBytes_eq, List.nil_append]
  rfl

/-- An edit of a packet is one of its bytes in place. -/
theorem toBytes_run (edit : Edit) (p : Packet) :
    (edit.run p).2.toBytes = edit.write p.toBytes := by
  cases edit with
  | addFlags flags => exact toBytes_addFlags p flags
  | setSequence sequence => exact toBytes_setSequence p sequence
  | setPort port => exact toBytes_setPort p port
  | addAttribute a => exact toBytes_addAttribute p a
  | addValue type value =>
    rw [Edit.run, addValue, Edit.write]
    cases Attribute.encode type value with
    | ok a => exact toBytes_addAttribute p a
    | error e => rfl

/-- Whether the body of a packet is a command header and a row of attributes. -/
def HasRow (p : Packet) (h : CommandHeader) (as : List Attribute) : Prop :=
  p.body = h.toBytes ++ Region.row as

namespace HasRow

variable {p : Packet} {h : CommandHeader} {as : List Attribute}

theorem addAttribute (hp : p.HasRow h as) (a : Attribute) :
    (p.addAttribute a).HasRow h (as ++ [a]) := by
  have hpadded : p.body.padded = h.toBytes ++ (Region.row as).padded := by
    rw [hp]
    exact Bytes.padded_append _ (by rw [CommandHeader.length_toBytes])
  rw [HasRow, Packet.addAttribute, hpadded, Region.row_append_singleton, List.append_assoc]

/-- What an edit adds is the last attribute. -/
theorem run (hp : p.HasRow h as) (edit : Edit) :
    (edit.run p).2.HasRow h (as ++ edit.attribute?.toList) := by
  have hkept {q : Packet} (hq : q.body = p.body) : q.HasRow h (as ++ []) := by
    rw [List.append_nil, HasRow, hq]
    exact hp
  cases edit with
  | addFlags flags => exact hkept rfl
  | setSequence sequence => exact hkept rfl
  | setPort port => exact hkept rfl
  | addAttribute a => exact hp.addAttribute a
  | addValue type value =>
    rw [Edit.run, addValue, Edit.attribute?]
    cases Attribute.encode type value with
    | ok a => exact hp.addAttribute a
    | error e => exact hkept rfl

theorem edited (hp : p.HasRow h as) (edits : List Edit) :
    (p.edited edits).HasRow h (as ++ edits.filterMap Edit.attribute?) := by
  induction edits generalizing p as with
  | nil => simpa [Packet.edited] using hp
  | cons edit edits ih =>
    have hrest := ih (hp.run edit)
    rw [List.append_assoc] at hrest
    cases hadded : edit.attribute? with
    | none => simpa [hadded, Packet.edited] using hrest
    | some a => simpa [hadded, Packet.edited] using hrest

theorem command_eq (hp : p.HasRow h as) (ht : leastFamilyType ≤ p.type) :
    p.command = h.command := by
  have hn : ¬ p.type < leastFamilyType := UInt16.not_lt.mpr ht
  rw [command, commandHeader?, if_neg hn, hp, CommandHeader.read?_toBytes_append]
  rfl

theorem region_eq (hp : p.HasRow h as) (ht : leastFamilyType ≤ p.type) :
    p.region = Region.row as := by
  have hn : ¬ p.type < leastFamilyType := UInt16.not_lt.mpr ht
  rw [region, commandHeader?, if_neg hn, hp, CommandHeader.read?_toBytes_append]
  exact List.drop_left' (CommandHeader.length_toBytes h)

end HasRow

namespace Edit

/-- An edit changes no field of the header but its own. -/
theorem run_header (edit : Edit) (p : Packet) :
    (edit.run p).2.type = p.type ∧
    (edit.run p).2.flags = (edit.flags?.map (p.flags ||| ·)).getD p.flags ∧
    (edit.run p).2.sequence = edit.sequence?.getD p.sequence ∧
    (edit.run p).2.port = edit.port?.getD p.port := by
  cases edit with
  | addValue type value =>
    rw [run, Packet.addValue]
    cases Attribute.encode type value with
    | ok a => exact ⟨rfl, rfl, rfl, rfl⟩
    | error e => exact ⟨rfl, rfl, rfl, rfl⟩
  | _ => exact ⟨rfl, rfl, rfl, rfl⟩

end Edit

/-- A field that an edit can only replace has the value that was given last. -/
theorem edited_eq_last {β : Type} (field : Packet → β) (given : Edit → Option β)
    (hrun : ∀ (edit : Edit) (p : Packet), field (edit.run p).2 = (given edit).getD (field p))
    (p : Packet) (edits : List Edit) :
    field (p.edited edits) = (edits.filterMap given).getLast?.getD (field p) := by
  induction edits generalizing p with
  | nil => rfl
  | cons edit edits ih =>
    have hrest : field (p.edited (edit :: edits)) =
        (edits.filterMap given).getLast?.getD (field (edit.run p).2) := ih (edit.run p).2
    rw [hrest, hrun]
    cases hgiven : given edit with
    | none => rw [List.filterMap_cons_none hgiven, Option.getD_none]
    | some value =>
      rw [List.filterMap_cons_some hgiven, List.getLast?_cons, Option.getD_some, Option.getD_some]

theorem flags_edited (p : Packet) (edits : List Edit) :
    (p.edited edits).flags = (edits.filterMap Edit.flags?).foldl (· ||| ·) p.flags := by
  induction edits generalizing p with
  | nil => rfl
  | cons edit edits ih =>
    have hrest : (p.edited (edit :: edits)).flags =
        (edits.filterMap Edit.flags?).foldl (· ||| ·) (edit.run p).2.flags := ih (edit.run p).2
    rw [hrest, (edit.run_header p).2.1]
    cases hadded : edit.flags? with
    | none => rw [List.filterMap_cons_none hadded, Option.map_none, Option.getD_none]
    | some flags =>
      rw [List.filterMap_cons_some hadded, Option.map_some, Option.getD_some, List.foldl_cons]

theorem toBytes_edited (p : Packet) (edits : List Edit) :
    (p.edited edits).toBytes = edits.foldl (fun bytes edit ↦ edit.write bytes) p.toBytes := by
  induction edits generalizing p with
  | nil => rfl
  | cons edit edits ih =>
    rw [List.foldl_cons, ← toBytes_run]
    exact ih (edit.run p).2

/-- Whether a packet is what edits make of a request, reads back from its bytes, and has the bytes
that the edits make in place of those of the request. -/
structure IsMade (type : UInt16) (command : UInt8) (sequence port : UInt32) (edits : List Edit)
    (p : Packet) : Prop where
  isValid : p.isValid = true
  declared : p.header.length.toNat = p.toBytes.length
  type_eq : p.type = type
  command_eq : p.command = command
  sequence_eq : p.sequence = (edits.filterMap Edit.sequence?).getLast?.getD sequence
  port_eq : p.port = (edits.filterMap Edit.port?).getLast?.getD port
  flags_eq : p.flags = (edits.filterMap Edit.flags?).foldl (· ||| ·) requestFlag
  attributes_eq : p.attributes = (edits.filterMap Edit.attribute?).map Attribute.item
  isTruncated : Region.isTruncated p.region = false
  parse_append (rest : Bytes) : parse (p.toBytes ++ rest) = .ok p
  toBytes_eq : p.toBytes = edits.foldl (fun bytes edit ↦ edit.write bytes)
    (request type command sequence port).toBytes

/-- A request of a family is what edits make of it, and an edit that fails leaves it as it was. -/
theorem isMade_edited {type : UInt16} {command : UInt8} {sequence port : UInt32}
    {edits : List Edit} (ht : leastFamilyType ≤ type)
    (hsize : ((request type command sequence port).edited edits).length < UInt32.size) :
    ((request type command sequence port).edited edits).IsMade type command sequence port edits ∧
      ∀ (edit : Edit) (p : Packet) (e : Error), (edit.run p).1 = .error e → (edit.run p).2 = p := by
  have hrow : ((request type command sequence port).edited edits).HasRow
      (.ofCommand command requestVersion) (edits.filterMap Edit.attribute?) := by
    have hrequest : (request type command sequence port).HasRow
        (.ofCommand command requestVersion) [] := (List.append_nil _).symm
    exact hrequest.edited edits
  have htype : ((request type command sequence port).edited edits).type = type := by
    rw [edited_eq_last Packet.type (fun _ ↦ none) fun edit p ↦ (edit.run_header p).1,
      List.filterMap_eq_nil_iff.mpr fun _ _ ↦ rfl]
    rfl
  have hfamily : leastFamilyType ≤ ((request type command sequence port).edited edits).type := by
    rwa [htype]
  have hdeclared : ((request type command sequence port).edited edits).header.length.toNat =
      ((request type command sequence port).edited edits).length := by
    rw [header, UInt32.toNat_ofNat']
    exact Nat.mod_eq_of_lt hsize
  constructor
  · constructor
    case isValid =>
      rw [isValid, hdeclared]
      simp [length]
    case declared => rw [hdeclared, length_toBytes]
    case type_eq => exact htype
    case command_eq => exact hrow.command_eq hfamily
    case sequence_eq =>
      exact edited_eq_last _ _ (fun edit p ↦ (edit.run_header p).2.2.1) _ edits
    case port_eq => exact edited_eq_last _ _ (fun edit p ↦ (edit.run_header p).2.2.2) _ edits
    case flags_eq => exact flags_edited _ edits
    case attributes_eq => rw [attributes, hrow.region_eq hfamily, Region.items_row]
    case isTruncated => rw [hrow.region_eq hfamily, Region.isTruncated_row]
    case parse_append =>
      intro rest
      exact parse_eq_ok_iff.mpr ⟨hsize, List.prefix_append _ rest⟩
    case toBytes_eq => exact toBytes_edited _ edits
  · intro edit p e he
    cases edit with
    | addValue type value =>
      rw [Edit.run] at he ⊢
      cases hadd : p.addValue type value with
      | ok q => simp [hadd] at he
      | error e => rfl
    | _ => simp [Edit.run] at he

/-- Edits of which one fails, since its value is too long, and some give a field again. -/
def manyEdits : List Edit :=
  [.addFlags ackFlag, .addValue 3 (5 : UInt32), .setSequence 7,
    .addValue 52 (List.replicate 65532 0 : Bytes), .setPort 2,
    .addValue 6 ([1, 2, 3, 4, 5] : Bytes),
    .addFlags dumpFlags, .addAttribute (.flag 174), .setSequence 8]

theorem isMade_manyEdits :
    leastFamilyType ≤ 28 ∧ ((request 28 5 1 0).edited manyEdits).length < UInt32.size ∧
      ((request 28 5 1 0).edited manyEdits).IsMade 28 5 1 0 manyEdits := by
  have ht : leastFamilyType ≤ 28 := by decide
  have hsize : ((request 28 5 1 0).edited manyEdits).length < UInt32.size := by
    have hlong (value : Bytes) (hv : ¬ value.length ≤ maxPayload) :
        Attribute.encode 52 value = .error (.invalidAttribute (.payloadTooLarge value.length 52)) :=
      dif_neg hv
    have hfails := hlong (List.replicate 65532 0) (by rw [List.length_replicate]; decide)
    simp only [manyEdits, edited, List.foldl, Edit.run, addValue, hfails]
    decide
  exact ⟨ht, hsize, (isMade_edited ht hsize).1⟩

end Packet

end WifiNetlink
