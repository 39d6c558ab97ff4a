import WifiNetlink.Loop.Poll
import WifiNetlink.Table
import WifiNetlink.Transport.Host
import WifiNetlink.Wire.Family

/-!
# The control family's kernel

A kernel that knows one generic netlink family, the control family, which every kernel knows. It
executes each request as it is sent: it looks a family up by name, lists all families, and refuses
what it does not know. A refusal carries the whole request back, an acknowledgement only its header.
Datagrams that find no room in an inbox are lost, which is told once, as an error of the socket.
-/

namespace WifiNetlink

/-- An open socket. -/
structure KernelSocket where
  /-- The number by which the kernel addresses it. -/
  port : UInt32
  /-- The memory that the datagrams that wait may take. -/
  room : Nat
  /-- The datagrams that wait, the first first. -/
  inbox : List Bytes
  /-- Whether a datagram was lost. No other is taken in until the inbox is empty. -/
  isCongested : Bool
  /-- Whether a loss was not told yet. -/
  hasFault : Bool
  /-- Whether the descriptor stands for something else than a socket. -/
  isBroken : Bool
deriving Repr, DecidableEq

/-- A kernel with nothing but the control family. -/
structure ControlKernel where
  sockets : Table Nat KernelSocket
  nextDescriptor : Nat
  nextPort : UInt32
  /-- The time in nanoseconds. -/
  clock : Nat
deriving Repr, DecidableEq

namespace ControlKernel

/-- No socket is open. -/
def standard : ControlKernel := ⟨[], 3, 1, 0⟩

/-! ### The control family -/

/-- The control family as it describes itself. -/
def family : Family := ⟨"nlctrl", Family.controlId, 2, [("notify", 16)]⟩

/-- The bytes in which the name of a family has to end. -/
def nameLimit : Nat := 16

/-- The greatest multicast group that there is room for. -/
def greatestGroup : UInt32 := 64

/-- The room of a receive buffer for which no room was asked. -/
def leastCapacity : Nat := 64

/-- The nanoseconds that reading the clock takes. -/
def clockReading : Nat := 100

/-- The entry of a multicast group. The kernel pads each attribute that it writes, also the last of
a container, which counts the padding in its length; and it does not mark these containers. -/
def groupEntry (index : Nat) (name : String) (id : UInt32) : Except Error Attribute := do
  let entry ← (Attribute.flag (UInt16.ofNat index)).addChildren
    [← Attribute.encode Family.groupIdAttribute id,
      ← Attribute.encode Family.groupNameAttribute name]
  Attribute.ofPayload entry.type entry.payload.padded

/-- The message that describes a family. -/
def describe (f : Family) (flags : UInt16) (sequence port : UInt32) : Except Error Packet := do
  let entries ← f.groups.zipIdx.mapM fun ((name, id), index) ↦ groupEntry (index + 1) name id
  let groups ← (Attribute.flag Family.groupsAttribute).addChildren entries
  let head := CommandHeader.ofCommand Family.newFamilyCommand 2
  let p : Packet := ⟨Family.controlId, flags, sequence, port, head.toBytes⟩
  let p ← p.addValue Family.nameAttribute f.name
  let p ← p.addValue Family.idAttribute f.id
  let p ← p.addValue Family.versionAttribute f.version
  return p.addAttribute groups

/-- The answer to a request: messages, or an error number. -/
def execute (request : Packet) (port : UInt32) : Except Int32 (List Packet) :=
  if request.type < leastFamilyType then .ok []
  else if request.type ≠ Family.controlId then .error Errno.noent
  else if request.body.length < 4 then .error Errno.inval
  else if request.command ≠ Family.getFamilyCommand then .error Errno.opnotsupp
  else if request.isDumpRequest then
    match describe family multiFlag request.sequence port with
    | .ok p => .ok [p, ⟨doneType, multiFlag, request.sequence, port, [0, 0, 0, 0]⟩]
    | .error _ => .error Errno.inval
  else
    match request.attribute? Family.nameAttribute with
    | none => .error Errno.inval
    | some payload =>
      if !(payload.take nameLimit).contains 0 then .error Errno.inval
      else if payload.takeWhile (· != 0) ≠ Utf8.encode family.name then .error Errno.noent
      else
        match describe family 0 request.sequence port with
        | .ok p => .ok [p]
        | .error _ => .error Errno.inval

/-- The message that refuses a request, with the request itself. -/
def refusal (request : Packet) (port : UInt32) (errno : Int32) : Packet :=
  ⟨errorType, 0, request.sequence, port,
    Bytes.padded (Bytes.ofNat 4 (-errno).toUInt32.toNat ++ request.toBytes)⟩

/-- The message that acknowledges a request, with the request's header. -/
def acknowledgement (request : Packet) (port : UInt32) : Packet :=
  ⟨errorType, cappedFlag, request.sequence, port, [0, 0, 0, 0] ++ request.header.toBytes⟩

/-- The answer to a message, and whether it was a refusal. -/
def respond (message : Packet) (port : UInt32) : List Packet × Bool :=
  match if message.flags &&& requestFlag = 0 then .ok [] else execute message port with
  | .error errno => ([refusal message port errno], true)
  | .ok replies =>
    if message.flags &&& ackFlag ≠ 0 ∧ !message.isDumpRequest then
      (replies ++ [acknowledgement message port], false)
    else (replies, false)

/-- The answers to the messages of a buffer. A refusal ends the buffer, and so does what is no
message. -/
def respondAll (port : UInt32) : (count : Nat) → (buffer : Bytes) → List Packet
  | 0, _ => []
  | count + 1, buffer =>
    match Packet.parse buffer with
    | .error _ => []
    | .ok message =>
      match respond message port with
      | (answers, true) => answers
      | (answers, false) => answers ++ respondAll port count (buffer.drop (align4 message.length))

/-! ### Sockets -/

/-- The least memory that any socket has for datagrams. -/
def leastRoom : Nat := 2304

/-- The memory that a datagram of a length takes while it waits. -/
def footprint (length : Nat) : Nat :=
  if length ≤ 256 then 832 else (length + 320).nextPowerOfTwo + 256

/-- The memory that the datagrams of an inbox take. -/
def occupied (inbox : List Bytes) : Nat :=
  inbox.foldl (fun total datagram ↦ total + footprint datagram.length) 0

/-- A datagram reaches a socket. The first one always finds room. -/
def offer (s : KernelSocket) (datagram : Bytes) : KernelSocket :=
  let inbox := s.inbox ++ [datagram]
  if s.isCongested then s
  else if s.inbox.isEmpty ∨ occupied inbox ≤ s.room then { s with inbox }
  else { s with isCongested := true, hasFault := true }

/-- The socket of a descriptor, if it is one. -/
def socket (descriptor : Nat) (k : ControlKernel) : Except SystemFault KernelSocket :=
  match k.sockets.get? descriptor with
  | some s => if s.isBroken then .error (.errno Errno.notsock) else .ok s
  | none => .error (.errno Errno.badf)

/-- The port of a descriptor's socket, zero if there is none. -/
def port (k : ControlKernel) (descriptor : Nat) : UInt32 :=
  ((k.sockets.get? descriptor).map KernelSocket.port).getD 0

/-- Open a socket with receive buffers of a size. -/
def openSocket (size : Nat) (k : ControlKernel) : Except SystemFault Nat × ControlKernel :=
  if size < 1 <<< 31 then
    (.ok k.nextDescriptor,
      { k with
        sockets := k.sockets.insert k.nextDescriptor
          ⟨k.nextPort, max (2 * size) leastRoom, [], false, false, false⟩
        nextDescriptor := k.nextDescriptor + 1
        nextPort := k.nextPort + 1 })
  else (.error .receiveBufferTooLarge, k)

/-- Close a socket. -/
def closeSocket (descriptor : Nat) (k : ControlKernel) : ControlKernel :=
  { k with sockets := k.sockets.erase descriptor }

/-- Make a descriptor stand for the writing end of a pipe that nobody reads. -/
def breakSocket (descriptor : Nat) (k : ControlKernel) : ControlKernel :=
  match k.sockets.get? descriptor with
  | none => k
  | some s => { k with sockets := k.sockets.insert descriptor { s with isBroken := true } }

/-- Send a buffer, which is executed at once. -/
def send (descriptor : Nat) (buffer : Bytes) (k : ControlKernel) :
    Except SystemFault Nat × ControlKernel :=
  match k.socket descriptor with
  | .error fault => (.error fault, k)
  | .ok s =>
    let answers := (respondAll s.port buffer.length buffer).map Packet.toBytes
    (.ok buffer.length,
      { k with sockets := k.sockets.insert descriptor (answers.foldl offer s) })

/-- The room of a receive buffer of that capacity. -/
def roomFor (capacity : Nat) : Nat := if capacity = 0 then leastCapacity else capacity

/-- Take the next datagram into a buffer of that capacity. What does not fit is lost. A loss that
was not told yet is told first. -/
def receive (descriptor capacity : Nat) (k : ControlKernel) :
    Except SystemFault Reception × ControlKernel :=
  match k.socket descriptor with
  | .error fault => (.error fault, k)
  | .ok s =>
    if s.hasFault then
      (.error (.errno Errno.nobufs),
        { k with sockets := k.sockets.insert descriptor { s with hasFault := false } })
    else
      match s.inbox with
      | [] => (.error (.errno Errno.again), k)
      | datagram :: inbox =>
        let isCongested := s.isCongested && !inbox.isEmpty
        (.ok (.whole (datagram.take (roomFor capacity))),
          { k with sockets := k.sockets.insert descriptor { s with inbox, isCongested } })

/-- The events on a descriptor. -/
def events (descriptor : Nat) (k : ControlKernel) : Nat :=
  match k.sockets.get? descriptor with
  | none => Poll.invalidEvent
  | some s =>
    if s.isBroken then Poll.errorEvent
    else
      (if s.inbox.isEmpty then 0 else Poll.inputEvent) |||
        (if s.hasFault then Poll.errorEvent else 0)

/-- Wait for events. The time goes by only if there are none; a signal may end it. -/
def poll (descriptor : Nat) (millis : Int32) (isInterrupted : Bool) (k : ControlKernel) :
    Poll.Answer × ControlKernel :=
  if k.events descriptor ≠ 0 then (.reported (k.events descriptor), k)
  else if isInterrupted then (.failed Errno.intr, k)
  else (.reported 0, { k with clock := k.clock + millis.toInt.toNat * 1000000 })

/-- Wait for input at most so many nanoseconds. -/
def pollReadable (descriptor timeout : Nat) (isInterrupted : Bool) (k : ControlKernel) :
    Except SystemFault Bool × ControlKernel :=
  match k.poll descriptor (Poll.timeoutMillis ⟨timeout⟩) isInterrupted with
  | (outcome, k) => (outcome.isReadable, k)

/-- Join or leave a group, which has to be one that there is room for. -/
def changeGroup (descriptor : Nat) (group : UInt32) (k : ControlKernel) :
    Except SystemFault Unit :=
  match k.socket descriptor with
  | .error fault => .error fault
  | .ok _ =>
    if group = 0 ∨ greatestGroup < group then .error (.errno Errno.inval) else .ok ()

/-- Whether whoever waits for input on a descriptor is called back. -/
def isHeard (k : ControlKernel) (descriptor : Nat) : Bool :=
  match (Poll.Answer.reported (k.events descriptor)).isReadable with
  | .ok isReadable => isReadable
  | .error _ => false

/-- Wait for the first of several sockets that has input. -/
def await (watched : List Nat) (timeout : Option Nat) (k : ControlKernel) :
    Option Nat × ControlKernel :=
  match watched.find? k.isHeard with
  | some descriptor => (some descriptor, k)
  | none => (none, { k with clock := k.clock + timeout.getD 0 })

/-- Read the clock, which takes time itself. -/
def readClock (k : ControlKernel) : Nat × ControlKernel :=
  (k.clock, { k with clock := k.clock + clockReading })

/-- The system of this kernel. -/
def host : Host ControlKernel where
  now := readClock
  openChannel := openSocket
  closeChannel := closeSocket
  send := send
  receive := receive
  poll descriptor timeout k := k.pollReadable descriptor timeout false
  joinGroup descriptor group k := (k.changeGroup descriptor group, k)
  leaveGroup descriptor group k := (k.changeGroup descriptor group, k)
  watch descriptor k := ((k.sockets.get? descriptor).isSome, k)
  unwatch _ k := k
  await := await

end ControlKernel

end WifiNetlink
