import WifiNetlink.Transport.Event
import WifiNetlink.Wifi.Operation
import WifiNetlink.Wire.Family

/-!
# Client code

Code that uses a transport is data: one call, and what to do with its answer. Handlers are client
code too, and may call the transport they are called from. A handler is a function of the journal,
which holds all it could remember, so every handler with a memory of its own is one of these.
-/

namespace WifiNetlink

/-- What came of running the callback of a watch. -/
inductive Firing where
  | fired
  /-- The descriptor is not watched. -/
  | notWatched
  /-- The callback is running. -/
  | busy
deriving Repr, DecidableEq

/-- What came of it, in words. -/
def Firing.text : Firing → String
  | fired => "fired"
  | notWatched => "not watched"
  | busy => "busy"

/-- Code that uses a transport, in a system with states `σ` and with notes of type `ν`. -/
inductive Program (σ ν : Type) : Type where
  | done
  /-- Leave a note in the journal. -/
  | note (note : ν) (next : Program σ ν)
  /-- The system changes by itself. -/
  | meanwhile (change : σ → σ) (next : Program σ ν)
  /-- Whether the transport is still held. -/
  | isHeld (next : Bool → Program σ ν)
  /-- Drop the last handle of the transport. -/
  | release (next : Program σ ν)
  /-- Open the channels, look up the family, watch for traffic and join the configured groups. -/
  | start (next : Except Error Unit → Program σ ν)
  | isStarted (next : Bool → Program σ ν)
  /-- The number of the configured family. -/
  | familyId (next : Except Error UInt16 → Program σ ν)
  /-- A family that was looked up before. -/
  | family (name : String) (next : Option Family → Program σ ν)
  /-- Look a family up. -/
  | discover (name : String) (next : Except Error Family → Program σ ν)
  | nextSequence (next : UInt32 → Program σ ν)
  /-- A request to the configured family with a fresh sequence number. -/
  | newRequest (command : UInt8) (next : Except Error Packet → Program σ ν)
  /-- Join a multicast group of the configured family. -/
  | joinGroup (group : String) (next : Except Error Unit → Program σ ν)
  | leaveGroup (group : String) (next : Except Error Unit → Program σ ν)
  /-- Send a request on the synchronous channel and gather its replies. -/
  | collect (request : Packet) (next : Except Error (List Packet) → Program σ ν)
  /-- Send a request on the asynchronous channel and have a handler called with its replies. -/
  | register (request : Packet) (handler : Journal ν → Packet → Program σ ν)
      (next : Except Error Unit → Program σ ν)
  /-- Have a handler called when a scan of an interface ends. -/
  | subscribeScan (ifindex : UInt32) (handler : Journal ν → ScanNotification → Program σ ν)
      (next : Program σ ν)
  | unsubscribeScan (ifindex : UInt32) (next : Program σ ν)
  /-- Have a handler called when a scheduled scan of an interface has results. -/
  | subscribeSchedule (ifindex : UInt32) (handler : Journal ν → UInt32 → Program σ ν)
      (next : Program σ ν)
  | unsubscribeSchedule (ifindex : UInt32) (next : Program σ ν)
  /-- Run the callback of a watch once. -/
  | fire (descriptor : Nat) (next : Firing → Program σ ν)
  /-- Let the event loop run its callbacks until the journal is as wanted, time is up, or the
  program is interrupted. -/
  | await (wanted : Journal ν → Bool) (budget : Option Nat) (next : Journal ν → Program σ ν)

namespace Program

variable {σ ν α : Type}

/-- Run an operation: number its request, fill it, gather the replies and read them. -/
def perform (op : Operation α) (next : Except Error α → Program σ ν) : Program σ ν :=
  match op.refusal with
  | some e => next (.error e)
  | none =>
    .newRequest op.command.number fun
      | .error e => next (.error e)
      | .ok request =>
        match op.fill request with
        | .error e => next (.error e)
        | .ok filled => .collect filled fun replies ↦ next (op.conclude request.type replies)

/-- Whether the program's next call needs a handle of the transport. -/
def needsHandle : Program σ ν → Bool
  | done | note .. | meanwhile .. | isHeld .. | fire .. | await .. => false
  | _ => true

end Program

end WifiNetlink
