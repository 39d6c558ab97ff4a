import WifiNetlink.Wire.Message
import WifiNetlink.Wire.Region

/-!
# Packets

A packet is one message: its header and its body. The body of a message to or from a family starts
with a four-byte command header, and the rest is a row of attributes; the body of an error message
starts with a code, zero for an acknowledgement. A packet holds no length of its own: the length it
declares is the number of its bytes. Main statements: a packet reads back from its bytes, whatever
follows them.
-/

namespace WifiNetlink

/-- The numbers before the attributes of a message to or from a family. -/
structure CommandHeader where
  command : UInt8
  version : UInt8
  reserved : UInt16
deriving Repr, DecidableEq

namespace CommandHeader

/-- The header of a command. -/
def ofCommand (command version : UInt8) : CommandHeader := ⟨command, version, 0⟩

/-- The header as bytes. -/
def toBytes (h : CommandHeader) : Bytes := h.command :: h.version :: Bytes.ofNat 2 h.reserved.toNat

@[simp] theorem length_toBytes (h : CommandHeader) : h.toBytes.length = 4 := by
  simp [toBytes]

/-- The header at the start of `bytes`. -/
def read? : Bytes → Option CommandHeader
  | command :: version :: low :: high :: _ =>
    some ⟨command, version, UInt16.ofNat (Bytes.toNat [low, high])⟩
  | _ => none

theorem read?_toBytes_append (h : CommandHeader) (rest : Bytes) :
    read? (h.toBytes ++ rest) = some h := by
  have hr := h.reserved.toNat_lt
  have he : UInt16.ofNat (Bytes.toNat [UInt8.ofNat h.reserved.toNat,
      UInt8.ofNat (h.reserved.toNat / 256)]) = h.reserved := by
    apply UInt16.toNat_inj.mp
    simp only [Bytes.toNat, UInt8.toNat_ofNat', UInt16.toNat_ofNat']
    omega
  simp only [toBytes, Bytes.ofNat, List.cons_append, List.nil_append, read?, he]

end CommandHeader

/-- What a packet is. -/
inductive PacketKind where
  /-- An answer of a family to a request. -/
  | data
  /-- A notification of a family. -/
  | multicast
  /-- The request was carried out. -/
  | ack
  /-- The request was refused, with a positive error number. -/
  | error (errno : Int32)
  /-- A reply in many parts is complete. -/
  | done
  | noop
  /-- Replies were lost. -/
  | overrun
  /-- Another control message. -/
  | control (type : UInt16)
deriving Repr, DecidableEq

/-- The name of a kind of packet. -/
def PacketKind.text : PacketKind → String
  | data => "Data"
  | multicast => "Multicast"
  | ack => "Ack"
  | error errno => "Error(" ++ toString errno ++ ")"
  | done => "Done"
  | noop => "Noop"
  | overrun => "Overrun"
  | control type => "Control(" ++ toString type ++ ")"

/-- The opposite of a number, the greatest number standing in for the opposite of the least. -/
def saturatingNeg (n : Int32) : Int32 := if n = Int32.minValue then Int32.maxValue else -n

/-- One message. -/
structure Packet where
  /-- A family, or the type of a control message. -/
  type : UInt16
  flags : UInt16
  /-- The number that a reply shares with its request; zero for multicast traffic. -/
  sequence : UInt32
  /-- The port of the sender. -/
  port : UInt32
  /-- What follows the message header. -/
  body : Bytes
deriving Repr, DecidableEq

namespace Packet

/-- The version that requests name. -/
def requestVersion : UInt8 := 1

/-- A request without attributes. -/
def request (type : UInt16) (command : UInt8) (sequence port : UInt32) : Packet :=
  ⟨type, requestFlag, sequence, port, (CommandHeader.ofCommand command requestVersion).toBytes⟩

/-- Bytes of header and body. -/
def length (p : Packet) : Nat := 16 + p.body.length

/-- The header of the packet. -/
def header (p : Packet) : MessageHeader :=
  ⟨UInt32.ofNat p.length, p.type, p.flags, p.sequence, p.port⟩

/-- The packet as bytes. -/
def toBytes (p : Packet) : Bytes := p.header.toBytes ++ p.body

@[simp] theorem length_toBytes (p : Packet) : p.toBytes.length = p.length := by
  simp [toBytes, length]

/-- The message at the start of `data`. -/
def parse (data : Bytes) : Except Error Packet :=
  match MessageHeader.read data with
  | .error e => .error e
  | .ok h =>
    if h.length.toNat < 16 then .error (.invalidMessage (.lengthBelowHeader h.length.toNat))
    else if data.length < h.length.toNat then .error (.truncated h.length.toNat data.length)
    else .ok ⟨h.type, h.flags, h.sequence, h.port, (data.take h.length.toNat).drop 16⟩

/-- A message is read exactly if its bytes come first. -/
theorem parse_eq_ok_iff {data : Bytes} {p : Packet} :
    parse data = .ok p ↔ p.length < UInt32.size ∧ p.toBytes <+: data := by
  constructor
  · intro hp
    unfold parse at hp
    split at hp
    · contradiction
    · next h hread =>
      obtain ⟨hlen, hbytes, -⟩ := MessageHeader.toBytes_of_read hread
      split at hp
      · contradiction
      · split at hp
        · contradiction
        · next hleast hmost =>
          have hbody : ((data.take h.length.toNat).drop 16).length = h.length.toNat - 16 := by
            rw [List.length_drop, List.length_take]
            omega
          have hlength : p.length = h.length.toNat := by
            rw [← Except.ok.inj hp, length, hbody]
            omega
          have hheader : p.header = h := by
            rw [header, hlength, UInt32.ofNat_toNat, ← Except.ok.inj hp]
          refine ⟨by rw [hlength]; exact h.length.toNat_lt, ?_⟩
          have htaken : p.toBytes = data.take h.length.toNat := by
            have hfront : data.take 16 = (data.take h.length.toNat).take 16 := by
              rw [List.take_take, Nat.min_eq_left (by omega)]
            rw [toBytes, hheader, hbytes, hfront, ← Except.ok.inj hp]
            exact List.take_append_drop 16 (data.take h.length.toNat)
          rw [htaken]
          exact List.take_prefix _ _
  · rintro ⟨hlength, rest, rfl⟩
    have hread : MessageHeader.read (p.toBytes ++ rest) = .ok p.header := by
      rw [toBytes, List.append_assoc]
      exact MessageHeader.read_toBytes_append p.header (p.body ++ rest)
    have hdeclared : p.header.length.toNat = p.length := by
      rw [header, UInt32.toNat_ofNat']
      exact Nat.mod_eq_of_lt hlength
    have hbody : ((p.toBytes ++ rest).take p.length).drop 16 = p.body := by
      rw [← length_toBytes, List.take_left, toBytes]
      exact List.drop_left' (MessageHeader.length_toBytes p.header)
    simp only [parse, hread, hdeclared]
    rw [if_neg (by rw [length]; omega), if_neg (by rw [List.length_append, length_toBytes]; omega),
      hbody]
    rfl

/-- All messages of a datagram, or the first fault in it. -/
def parseDatagram (data : Bytes) : Except Error (List Packet) :=
  (Datagram.messages data).mapM fun message ↦ message.bind parse

/-- Whether the declared length covers the header and nothing beyond the packet. -/
def isValid (p : Packet) : Bool :=
  16 ≤ p.header.length.toNat && p.header.length.toNat ≤ p.length

/-- Whether there is nothing beyond the two headers. -/
def isEmpty (p : Packet) : Bool := p.length ≤ 20

/-- The command header, if the packet is to or from a family and has room for one. -/
def commandHeader? (p : Packet) : Option CommandHeader :=
  if p.type < leastFamilyType then none else CommandHeader.read? p.body

/-- The command, zero if there is none. -/
def command (p : Packet) : UInt8 := (p.commandHeader?.map CommandHeader.command).getD 0

/-- The row of attributes. -/
def region (p : Packet) : Bytes := if p.commandHeader?.isNone then [] else p.body.drop 4

/-- The attributes. -/
def attributes (p : Packet) : List Item := Region.items p.region

/-- The payload of the first attribute of a kind. -/
def attribute? (p : Packet) (kind : UInt16) : Option Bytes := Region.find? p.region kind

/-- The value of the first attribute of a kind, if its payload is one. -/
def value? (α : Type) [Payload α] (p : Packet) (kind : UInt16) : Option α :=
  Region.value? α p.region kind

/-- Whether the packet is a part of many. -/
def isMultipart (p : Packet) : Bool := p.flags &&& multiFlag != 0

/-- Whether the packet asks for all entries of a table. -/
def isDumpRequest (p : Packet) : Bool := p.flags &&& dumpFlags == dumpFlags

/-- The error number of an error message, zero in an acknowledgement, if the message is long
enough to have one. -/
def errorCode? (p : Packet) : Option Int32 :=
  if p.type ≠ errorType ∨ p.body.length < 4 then none
  else some (saturatingNeg (UInt32.ofNat (p.body.natAt 0 4)).toInt32)

/-- What the packet is. An error message too short for a code counts as a bad message. -/
def kind (p : Packet) : PacketKind :=
  if p.type = errorType then
    match p.errorCode? with
    | none => .error Errno.badmsg
    | some errno => if errno = 0 then .ack else .error errno
  else if p.type = doneType then .done
  else if p.type = noopType then .noop
  else if p.type = overrunType then .overrun
  else if p.type < leastFamilyType then .control p.type
  else if p.sequence = 0 then .multicast
  else .data

/-- Fails if the packet is an error. -/
def checkError (p : Packet) : Except Error Unit :=
  match p.kind with
  | .error errno => .error (.ofErrno (-errno))
  | _ => .ok ()

/-- The packet with an attribute after its others, on the next four-byte boundary. -/
def addAttribute (p : Packet) (a : Attribute) : Packet :=
  { p with body := p.body.padded ++ a.toBytes }

/-- The packet with a value as one more attribute. -/
def addValue {α : Type} [Payload α] (p : Packet) (type : UInt16) (value : α) :
    Except Error Packet :=
  (Attribute.encode type value).map p.addAttribute

/-- The packet with more flags. -/
def addFlags (p : Packet) (flags : UInt16) : Packet := { p with flags := p.flags ||| flags }

/-- The packet with another sequence number. -/
def setSequence (p : Packet) (sequence : UInt32) : Packet := { p with sequence := sequence }

/-- The packet with another port. -/
def setPort (p : Packet) (port : UInt32) : Packet := { p with port := port }

@[simp] theorem command_request (type : UInt16) (command : UInt8) (sequence port : UInt32)
    (h : leastFamilyType ≤ type) : (request type command sequence port).command = command := by
  have hn : ¬ type < leastFamilyType := by simpa [UInt16.not_lt] using h
  have := CommandHeader.read?_toBytes_append (.ofCommand command requestVersion) []
  rw [List.append_nil] at this
  simp only [Packet.command, commandHeader?, request, hn, if_false, this, Option.map_some,
    Option.getD_some]
  rfl

end Packet

end WifiNetlink
