import WifiNetlink.Table
import WifiNetlink.Wire.Packet

/-!
# Families

The kernel numbers its generic netlink families and their multicast groups when it loads them. The
control family, whose own number is fixed, tells the number and the groups of a family by name.
-/

namespace WifiNetlink

/-- A family of generic netlink. -/
structure Family where
  /-- The name under which the kernel knows it. -/
  name : String
  /-- The message type of its messages. -/
  id : UInt16
  version : UInt32
  /-- The numbers of its multicast groups. -/
  groups : Table String UInt32
deriving Repr, DecidableEq

namespace Family

/-- The control family. -/
def controlId : UInt16 := 0x10

/-- The control family describes a family. -/
def newFamilyCommand : UInt8 := 1

/-- The control family is asked for a family. -/
def getFamilyCommand : UInt8 := 3

/-- A family's number. -/
def idAttribute : UInt16 := 1

/-- A family's name. -/
def nameAttribute : UInt16 := 2

/-- A family's version. -/
def versionAttribute : UInt16 := 3

/-- A family's multicast groups. -/
def groupsAttribute : UInt16 := 7

/-- A multicast group's name. -/
def groupNameAttribute : UInt16 := 1

/-- A multicast group's number. -/
def groupIdAttribute : UInt16 := 2

/-- The number of a multicast group. -/
def group? (f : Family) (name : String) : Option UInt32 := f.groups.get? name

/-- The request for the family of that name. -/
def request (name : String) (sequence port : UInt32) : Except Error Packet :=
  (Packet.request controlId getFamilyCommand sequence port).addValue nameAttribute name

/-- A group entry read so far. -/
structure GroupEntry where
  name : Option String
  id : Option UInt32
deriving Repr, DecidableEq

/-- The entry after one more of its attributes. -/
def GroupEntry.push (entry : GroupEntry) (item : Item) : Except Error GroupEntry := do
  if item.kind = groupNameAttribute then
    return { entry with name := some (← Payload.readText item.payload) }
  else if item.kind = groupIdAttribute then
    return { entry with id := some (← Payload.ofPayload item.payload) }
  else return entry

/-- The groups after one more entry. An entry without name or number adds nothing; of two entries
of one name the later counts. -/
def pushGroup (groups : Table String UInt32) (payload : Bytes) :
    Except Error (Table String UInt32) := do
  let entry ← (Region.items payload).foldlM GroupEntry.push ⟨none, none⟩
  match entry.name, entry.id with
  | some name, some id => return groups.insert name id
  | _, _ => return groups

/-- The groups listed in a payload. The kinds of the entries say nothing. -/
def readGroups (payload : Bytes) : Except Error (Table String UInt32) :=
  (Region.items payload).foldlM (fun groups item ↦ pushGroup groups item.payload) []

/-- A description of a family read so far. -/
structure Draft where
  id : Option UInt16
  name : Option String
  version : UInt32
  groups : Table String UInt32
deriving Repr, DecidableEq

/-- The description after one more attribute. -/
def Draft.push (draft : Draft) (item : Item) : Except Error Draft := do
  if item.kind = idAttribute then
    return { draft with id := some (← Payload.ofPayload item.payload) }
  else if item.kind = nameAttribute then
    return { draft with name := some (← Payload.readText item.payload) }
  else if item.kind = versionAttribute then
    return { draft with version := ← Payload.ofPayload item.payload }
  else if item.kind = groupsAttribute then
    return { draft with groups := ← readGroups item.payload }
  else return draft

/-- The family of a complete description. -/
def Draft.finish (draft : Draft) : Except Error Family :=
  match draft.id, draft.name with
  | none, _ => .error (.missingAttribute "CTRL_ATTR_FAMILY_ID")
  | some _, none => .error (.missingAttribute "CTRL_ATTR_FAMILY_NAME")
  | some id, some name => .ok ⟨name, id, draft.version, draft.groups⟩

/-- The family that the control family describes. -/
def ofPacket (p : Packet) : Except Error Family := do
  if let .error errno := p.kind then
    throw ((Error.ofErrno (-errno)).during "get family")
  if p.type ≠ controlId then
    throw (.unexpectedType controlId p.type)
  if p.command ≠ newFamilyCommand then
    throw (.unexpectedCommand newFamilyCommand p.command)
  let draft ← p.attributes.foldlM Draft.push ⟨none, none, 0, []⟩
  draft.finish

/-- The family that the replies to a request for it describe. There has to be one reply, and a
refusal because nothing has that name says so. -/
def ofReplies (name : String) : List Packet → Except Error Family
  | [] => .error .emptyResponse
  | [reply] =>
    match ofPacket reply with
    | .ok family => .ok family
    | .error e => .error (if e.errno? = some Errno.noent then .familyNotFound name else e)
  | replies => .error (.invalidMessage (.familyReplies replies.length))

end Family

end WifiNetlink
