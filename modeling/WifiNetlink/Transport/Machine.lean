import WifiNetlink.Transport.State
import WifiNetlink.Wifi.Notice

/-!
# Machines

A machine is a transport in a system, together with the code that runs: the client code in control
and a stack of what goes on when it is done. Handlers run on top of the exchange or the callback
that dispatched their message, and may begin exchanges of their own. This module has the machine and
its calls to the system, each of which is entered in the journal.
-/

namespace WifiNetlink

/-- Who gets a family that is looked up. -/
inductive Discoverer (σ ν : Type) where
  | client (next : Except Error Family → Program σ ν)
  /-- The start of the transport, with what goes on after it. -/
  | start (next : Except Error Unit → Program σ ν)

/-- Who gets the replies of an exchange. -/
inductive Waiter (σ ν : Type) where
  | client (next : Except Error (List Packet) → Program σ ν)
  | discovery (name : String) (discoverer : Discoverer σ ν)

/-- A synchronous exchange that goes on. -/
structure Exchange (σ ν : Type) where
  /-- Tells the exchange from all others. -/
  number : Nat
  sequence : UInt32
  /-- The instant after its request was sent. -/
  begun : Nat
  /-- The replies so far, the latest first. -/
  gathered : List Packet
  waiter : Waiter σ ν

/-- Client code that waits for the event loop. -/
structure Vigil (σ ν : Type) where
  wanted : Journal ν → Bool
  budget : Option Nat
  begun : Nat
  /-- Whether a callback ran; then all others that are due run first. -/
  isDraining : Bool
  next : Journal ν → Program σ ν

/-- What goes on when the code above it is done. -/
inductive Frame (σ ν : Type) where
  /-- An exchange waits for its replies. -/
  | collecting (exchange : Exchange σ ν)
  /-- The messages of a datagram are to be dispatched. -/
  | dispatching (rest : List Packet)
  /-- A handler runs; if it is to be called again it goes back into its table. -/
  | replying (sequence : UInt32) (handler : Handler σ ν) (again : Bool)
  /-- The handler of a subscription runs. -/
  | notifying (subscription : Nat)
  /-- The callback of a watch runs. -/
  | firing (descriptor : Nat)
  /-- Client code goes on. -/
  | returning (program : Program σ ν)
  | awaiting (vigil : Vigil σ ν)

/-- Whether code of the transport is at work in the frame, which keeps the transport. -/
def Frame.keeps {σ ν : Type} : Frame σ ν → Bool
  | returning _ | awaiting _ => false
  | _ => true

/-- What runs. -/
inductive Control (σ ν : Type) where
  | run (program : Program σ ν)
  /-- The top of the stack goes on. -/
  | resume

/-- A transport, the system around it, and the code that runs. -/
structure Machine (σ ν : Type) where
  transport : Transport σ ν
  world : σ
  /-- The descriptors that the event loop watches. -/
  watches : List Nat
  journal : Journal ν
  /-- The number of the next exchange or subscription. -/
  nextNumber : Nat
  stack : List (Frame σ ν)
  control : Control σ ν

namespace Machine

variable {σ ν : Type}

/-- A machine that has nothing to do. -/
def fresh (config : Config) (port : UInt32) (world : σ) : Machine σ ν where
  transport := .fresh config port
  world
  watches := []
  journal := []
  nextNumber := 0
  stack := []
  control := .resume

/-- The machine with one more event in its journal. -/
def log (m : Machine σ ν) (e : Event ν) : Machine σ ν := { m with journal := e :: m.journal }

/-- The machine after the system did something. -/
def after (m : Machine σ ν) (world : σ) (e : Event ν) : Machine σ ν :=
  { m with world, journal := e :: m.journal }

/-- The machine with client code in control. -/
def run (m : Machine σ ν) (program : Program σ ν) : Machine σ ν :=
  { m with control := .run program }

/-- The machine with the top of its stack in control. -/
def resume (m : Machine σ ν) : Machine σ ν := { m with control := .resume }

/-- The machine with one more frame on its stack. -/
def push (m : Machine σ ν) (frame : Frame σ ν) : Machine σ ν :=
  { m with stack := frame :: m.stack }

/-- The machine with another transport. -/
def adjust (m : Machine σ ν) (f : Transport σ ν → Transport σ ν) : Machine σ ν :=
  { m with transport := f m.transport }

/-- The machine after its next number is given out. -/
def advance (m : Machine σ ν) : Machine σ ν := { m with nextNumber := m.nextNumber + 1 }

/-! ### Calls to the system -/

variable (h : Host σ)

/-- Read the clock. -/
def readClock (m : Machine σ ν) : Nat × Machine σ ν :=
  match h.now m.world with
  | (instant, world) => (instant, m.after world (.clockRead instant))

/-- Open a channel. -/
def openChannel (m : Machine σ ν) : Except Error Nat × Machine σ ν :=
  match h.openChannel m.transport.config.receiveBufferSize m.world with
  | (.ok descriptor, world) =>
    (.ok descriptor,
      m.after world (.opened descriptor m.transport.config.receiveBufferSize))
  | (.error fault, world) =>
    (.error (.io fault),
      m.after world (.openFailed m.transport.config.receiveBufferSize fault))

/-- Close a channel, if there is one. -/
def closeChannel (m : Machine σ ν) : Option Nat → Machine σ ν
  | none => m
  | some descriptor => m.after (h.closeChannel descriptor m.world) (.closed descriptor)

/-- Send a packet on a channel. -/
def send (channel : Option Nat) (p : Packet) (m : Machine σ ν) : Except Error Unit × Machine σ ν :=
  match channel with
  | none => (.error .notStarted, m)
  | some descriptor =>
    match h.send descriptor p.toBytes m.world with
    | (outcome, world) =>
      (match outcome with
        | .error fault => .error (.io fault)
        | .ok sent => if sent = p.length then .ok () else .error (.io (.shortSend sent p.length)),
        m.after world (.sent descriptor p.toBytes outcome))

/-- Wait until a channel is readable. -/
def poll (channel : Option Nat) (timeout : Nat) (m : Machine σ ν) :
    Except Error Bool × Machine σ ν :=
  match channel with
  | none => (.error (.io .notConnected), m)
  | some descriptor =>
    match h.poll descriptor timeout m.world with
    | (outcome, world) =>
      (outcome.mapError .io, m.after world (.polled descriptor timeout outcome))

/-- The messages to dispatch after an attempt to receive a datagram. Where there is none there are
no messages, and a malformed datagram counts for nothing. -/
def messagesOf : Except SystemFault Reception → Except Error (List Packet)
  | .error fault => if fault = .errno Errno.again then .ok [] else .error (.io fault)
  | .ok reception =>
    match Packet.parseDatagram reception.datagram with
    | .ok packets => .ok packets
    | .error _ => .ok []

/-- Take the next datagram of a channel. -/
def receive (channel : Option Nat) (m : Machine σ ν) :
    Except Error (List Packet) × Machine σ ν :=
  match channel with
  | none => (.error .notStarted, m)
  | some descriptor =>
    match h.receive descriptor m.transport.config.receiveBufferSize m.world with
    | (outcome, world) => (messagesOf outcome, m.after world (.received descriptor outcome))

/-- Have the event loop watch the asynchronous channel. -/
def startWatching (m : Machine σ ν) : Except Error Unit × Machine σ ν :=
  match m.transport.asyncChannel with
  | none => (.error .notStarted, m)
  | some descriptor =>
    match h.watch descriptor m.world with
    | (true, world) =>
      (.ok (), { m.after world (.watched descriptor true) with
        watches := descriptor :: m.watches
        transport := { m.transport with watched := some descriptor } })
    | (false, world) =>
      (.error (.eventLoop (.watchRefused descriptor)), m.after world (.watched descriptor false))

/-- End the watch, if there is one. -/
def stopWatching (m : Machine σ ν) : Machine σ ν :=
  match m.transport.watched with
  | none => m
  | some descriptor =>
    { m.after (h.unwatch descriptor m.world) (.unwatched descriptor) with
      watches := m.watches.filter (· != descriptor)
      transport := { m.transport with watched := none } }

/-- Join a multicast group of the configured family on the asynchronous channel. -/
def joinGroup (group : String) (m : Machine σ ν) : Except Error Unit × Machine σ ν :=
  match m.transport.groupId group, m.transport.asyncChannel with
  | .error e, _ => (.error e, m)
  | .ok _, none => (.error .notStarted, m)
  | .ok id, some descriptor =>
    match h.joinGroup descriptor id m.world with
    | (outcome, world) => (outcome.mapError .io, m.after world (.joined descriptor id outcome))

/-- Leave a multicast group of the configured family on the asynchronous channel. -/
def leaveGroup (group : String) (m : Machine σ ν) : Except Error Unit × Machine σ ν :=
  match m.transport.groupId group, m.transport.asyncChannel with
  | .error e, _ => (.error e, m)
  | .ok _, none => (.error .notStarted, m)
  | .ok id, some descriptor =>
    match h.leaveGroup descriptor id m.world with
    | (outcome, world) => (outcome.mapError .io, m.after world (.left descriptor id outcome))

/-- Join multicast groups until one fails. -/
def joinGroups : List String → Machine σ ν → Except Error Unit × Machine σ ν
  | [], m => (.ok (), m)
  | group :: groups, m =>
    match m.joinGroup h group with
    | (.error e, m) => (.error e, m)
    | (.ok (), m) => joinGroups groups m

/-- Open a channel and put it into the place of the synchronous one. -/
def renewSync (m : Machine σ ν) : Except Error Unit × Machine σ ν :=
  match m.openChannel h with
  | (.error e, m) => (.error e, m)
  | (.ok descriptor, m) =>
    (.ok (), (m.adjust fun t ↦ { t with syncChannel := some descriptor }).closeChannel h
      m.transport.syncChannel)

/-- Open a channel and put it into the place of the asynchronous one. -/
def renewAsync (m : Machine σ ν) : Except Error Unit × Machine σ ν :=
  match m.openChannel h with
  | (.error e, m) => (.error e, m)
  | (.ok descriptor, m) =>
    (.ok (), (m.adjust fun t ↦ { t with asyncChannel := some descriptor }).closeChannel h
      m.transport.asyncChannel)

end Machine

end WifiNetlink
