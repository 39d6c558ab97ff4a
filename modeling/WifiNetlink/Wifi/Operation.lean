import WifiNetlink.Transport.Sequence
import WifiNetlink.Wifi.Scan

/-!
# Operations

An operation of nl80211 is one request and a reading of the replies to it. It knows no transport:
a transport numbers the request, sends it, gathers the replies and hands them back.
-/

namespace WifiNetlink

/-- One request to the nl80211 family, and what its replies mean. -/
structure Operation (α : Type) where
  /-- Arguments that no request can carry are refused before a sequence number is taken. -/
  refusal : Option Error
  /-- The command of the request. -/
  command : Command
  /-- The request, made from one without attributes. -/
  fill : Packet → Except Error Packet
  /-- The result of a row of replies, which is not empty, to a request of the given family. -/
  read : (family : UInt16) → List Packet → Except Error α

namespace Operation

variable {α β : Type}

/-- An operation with another form of its result. -/
def map (f : α → β) (op : Operation α) : Operation β :=
  { op with read := fun family replies ↦ (op.read family replies).map f }

/-- A request that is ready to be sent, with the counter after its number is taken. -/
def prepare (op : Operation α) (family : Option UInt16) (counter : SequenceCounter)
    (port : UInt32) : Except Error (UInt16 × Packet) × SequenceCounter :=
  match op.refusal, family with
  | some e, _ => (.error e, counter)
  | none, none => (.error .notStarted, counter)
  | none, some family =>
    ((op.fill (.request family op.command.number counter.next port)).map fun p ↦ (family, p),
      counter.advance)

/-- The result of an exchange. -/
def conclude (op : Operation α) (family : UInt16) : Except Error (List Packet) → Except Error α
  | .error e => .error e
  | .ok [] => .error .emptyResponse
  | .ok replies => op.read family replies

/-- Fails unless a reply comes from the family and has the command. -/
def checkReply (family : UInt16) (expected : Command) (operation : String) (p : Packet) :
    Except Error Unit :=
  match p.kind with
  | .error errno => .error (.ofErrnoDuring operation (-errno))
  | _ =>
    if p.type ≠ family then .error (.unexpectedType family p.type)
    else if p.command ≠ expected.number then .error (.unexpectedCommand expected.number p.command)
    else .ok ()

/-- Fails unless the first reply is an acknowledgement. -/
def expectAck (operation : String) : List Packet → Except Error Unit
  | [] => .error .emptyResponse
  | reply :: _ =>
    match reply.kind with
    | .ack => .ok ()
    | .error errno => .error (.ofErrnoDuring operation (-errno))
    | _ => .error (.unexpectedType errorType reply.type)

end Operation

end WifiNetlink
