import WifiNetlink.Transport.Host
import WifiNetlink.Wifi.Scan

/-!
# The journal of a transport

Everything that happens in a run of a transport, as a list of events with the latest first: what it
asked of the system and got, which messages it dispatched, which handlers it called with what, how
its exchanges ended, and what client code noted. Statements about the order of things are statements
about journals.
-/

namespace WifiNetlink

/-- What happens in a run, with notes of type `ν`. -/
inductive Event (ν : Type) where
  /-- The clock was read. -/
  | clockRead (instant : Nat)
  | opened (descriptor size : Nat)
  | openFailed (size : Nat) (fault : SystemFault)
  | closed (descriptor : Nat)
  | sent (descriptor : Nat) (message : Bytes) (outcome : Except SystemFault Nat)
  | polled (descriptor timeout : Nat) (outcome : Except SystemFault Bool)
  | received (descriptor : Nat) (outcome : Except SystemFault Reception)
  | joined (descriptor : Nat) (group : UInt32) (outcome : Except SystemFault Unit)
  | left (descriptor : Nat) (group : UInt32) (outcome : Except SystemFault Unit)
  | watched (descriptor : Nat) (accepted : Bool)
  | unwatched (descriptor : Nat)
  /-- The event loop waited for a watched channel. -/
  | awaited (timeout : Option Nat) (readable : Option Nat)
  /-- A synchronous exchange waits for replies from now on. -/
  | exchangeBegan (sequence : UInt32)
  | exchangeEnded (sequence : UInt32) (outcome : Except Error (List Packet))
  /-- A handler waits for replies from now on. -/
  | registered (sequence : UInt32)
  /-- A message of an accepted datagram was looked at. -/
  | dispatched (packet : Packet)
  /-- The handler of a request was called with a reply. -/
  | replied (sequence : UInt32) (packet : Packet)
  /-- The handler of a scan subscription was called. -/
  | scanEnded (subscription : Nat) (notification : ScanNotification)
  /-- The handler of a subscription to scheduled scans was called. -/
  | scheduleFired (subscription : Nat) (ifindex : UInt32)
  /-- The last handle of the transport was dropped. -/
  | released
  /-- Client code left a note. -/
  | noted (note : ν)

/-- The events of a run, the latest first. -/
abbrev Journal (ν : Type) := List (Event ν)

namespace Journal

variable {ν : Type}

/-- The notes of a run, the latest first. -/
def notes (journal : Journal ν) : List ν :=
  journal.filterMap fun
    | .noted note => some note
    | _ => none

end Journal

end WifiNetlink
