import WifiNetlink.Table
import WifiNetlink.Transport.Config
import WifiNetlink.Transport.Program
import WifiNetlink.Transport.Sequence

/-!
# The state of a transport

Two channels, the requests that wait for replies, the families looked up so far and the
subscriptions. Handlers are kept in tables: one for each sequence number that waits, one for each
interface and kind of notification.
-/

namespace WifiNetlink

/-- What becomes of the replies to a request. -/
inductive Handler (σ ν : Type) where
  /-- They are gathered for a synchronous exchange. -/
  | gather (exchange : Nat)
  /-- Client code is called with each. -/
  | client (react : Journal ν → Packet → Program σ ν)

/-- A handler of the notifications about one interface. Its number tells it from the handlers
before and after it. -/
structure Subscription (σ ν α : Type) where
  number : Nat
  react : Journal ν → α → Program σ ν

/-- A transport for one family. -/
structure Transport (σ ν : Type) where
  config : Config
  /-- The port that requests name. -/
  port : UInt32
  isStarted : Bool
  counter : SequenceCounter
  /-- The families looked up so far. -/
  families : Table String Family
  /-- The requests that wait for replies. -/
  pending : Table UInt32 (Handler σ ν)
  scans : Table UInt32 (Subscription σ ν ScanNotification)
  schedules : Table UInt32 (Subscription σ ν UInt32)
  syncChannel : Option Nat
  asyncChannel : Option Nat
  /-- The descriptor that the event loop was asked to watch. -/
  watched : Option Nat
  /-- Whether a handle is left. -/
  isHeld : Bool
  /-- Whether the transport still has what it was made of. -/
  isAlive : Bool

namespace Transport

variable {σ ν : Type}

/-- A transport that is not started. -/
def fresh (config : Config) (port : UInt32) : Transport σ ν where
  config
  port
  isStarted := false
  counter := .fresh
  families := []
  pending := []
  scans := []
  schedules := []
  syncChannel := none
  asyncChannel := none
  watched := none
  isHeld := true
  isAlive := true

/-- The configured family, once it is looked up. -/
def family? (t : Transport σ ν) : Option Family := t.families.get? t.config.familyName

/-- The number of the configured family. -/
def familyId (t : Transport σ ν) : Except Error UInt16 :=
  match t.family? with
  | some family => .ok family.id
  | none => .error .notStarted

/-- The number of a multicast group of the configured family. -/
def groupId (t : Transport σ ν) (group : String) : Except Error UInt32 :=
  match t.family? with
  | none => .error .notStarted
  | some family =>
    match family.group? group with
    | some id => .ok id
    | none => .error (.groupNotFound t.config.familyName group)

/-- The transport after a sequence number is taken. -/
def advance (t : Transport σ ν) : Transport σ ν := { t with counter := t.counter.advance }

/-- A request to the configured family with the next sequence number. -/
def request (t : Transport σ ν) (command : UInt8) : Except Error Packet × Transport σ ν :=
  match t.familyId with
  | .error e => (.error e, t)
  | .ok family => (.ok (.request family command t.counter.next t.port), t.advance)

/-- The transport with a handler for the replies to a request. -/
def expect (t : Transport σ ν) (sequence : UInt32) (handler : Handler σ ν) : Transport σ ν :=
  { t with pending := t.pending.insert sequence handler }

/-- The transport without a handler for the replies to a request. -/
def forget (t : Transport σ ν) (sequence : UInt32) : Transport σ ν :=
  { t with pending := t.pending.erase sequence }

/-- The transport after a family is looked up. -/
def remember (t : Transport σ ν) (name : String) (family : Family) : Transport σ ν :=
  { t with families := t.families.insert name family }

end Transport

end WifiNetlink
