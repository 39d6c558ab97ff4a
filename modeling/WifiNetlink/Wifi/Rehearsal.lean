import WifiNetlink.Wifi.Operation

/-!
# Rehearsing operations

A rehearsal answers each request from a script, whatever the request says, and keeps what was sent.
It runs an operation without channels, clock and other traffic.
-/

namespace WifiNetlink

/-- A transport that answers from a script. -/
structure Rehearsal where
  /-- The number of the family, if it is known. -/
  family : Option UInt16
  counter : SequenceCounter
  /-- The answers to come; after the last, no request has a reply. -/
  script : List (Except Error (List Packet))
  /-- The requests sent, the last first. -/
  sent : List Packet

namespace Rehearsal

/-- Send a request and take the next answer. -/
def exchange (r : Rehearsal) (request : Packet) : Except Error (List Packet) × Rehearsal :=
  match r.script with
  | [] => (.ok [], { r with sent := request :: r.sent })
  | answer :: script => (answer, { r with script, sent := request :: r.sent })

/-- Run an operation. -/
def perform {α : Type} (r : Rehearsal) (op : Operation α) : Except Error α × Rehearsal :=
  match op.prepare r.family r.counter 0 with
  | (.error e, counter) => (.error e, { r with counter })
  | (.ok (family, request), counter) =>
    match exchange { r with counter } request with
    | (answer, r) => (op.conclude family answer, r)

end Rehearsal

end WifiNetlink
