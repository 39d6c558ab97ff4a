import WifiNetlink.Table
import WifiNetlink.Transport.Host

/-!
# A scripted kernel

A system whose kernel, clock and event loop follow a script: which opening fails, what each message
sent brings into the inboxes of the channels, how waiting ends. What the script leaves open goes
well, and waiting for an empty inbox takes time. It serves to put a transport through any order of
events.
-/

namespace WifiNetlink

/-- What the next attempt to receive finds. -/
inductive Arrival where
  | datagram (bytes : Bytes)
  | fault (fault : SystemFault)
  /-- A datagram whose length is reported wrong. -/
  | misreported (reported : Nat) (stored : Bytes)
deriving Repr, DecidableEq

/-- What attempting to receive gives. -/
def Arrival.outcome : Arrival → Except SystemFault Reception
  | datagram bytes => .ok (.whole bytes)
  | fault f => .error f
  | misreported reported stored => .ok ⟨reported, stored⟩

/-- What sending a message brings about. -/
structure Reaction where
  /-- A fault, or the length reported as sent if it is not the whole one. -/
  outcome : Except SystemFault (Option Nat)
  /-- What arrives on the channel of the message. -/
  arrivals : List Arrival
  /-- What arrives on other channels. -/
  others : List (Nat × List Arrival)

/-- How waiting ends. -/
structure Wakening where
  /-- The time it takes. -/
  advance : Nat
  /-- Whether the channel is readable, if that does not depend on its inbox. -/
  outcome : Option (Except SystemFault Bool)

/-- A kernel with a script. -/
structure ScriptedKernel where
  clock : Nat
  /-- The longest wait for an empty inbox. -/
  pollDelay : Nat
  /-- The time that waiting takes if an inbox is not empty. -/
  busyDelay : Nat
  refusesWatch : Bool
  /-- The groups that cannot be joined or left. -/
  groupFaults : Table UInt32 SystemFault
  /-- How the next openings end. -/
  openings : List (Option SystemFault)
  /-- What the next messages bring about. -/
  reactions : List Reaction
  /-- How the next waits end, where the script says. -/
  wakenings : List (Option Wakening)
  /-- What waits on each channel. -/
  inboxes : Table Nat (List Arrival)
  nextDescriptor : Nat

namespace ScriptedKernel

/-- The descriptor of the first channel. -/
def firstDescriptor : Nat := 1000

/-- A kernel whose script says nothing. -/
def standard : ScriptedKernel where
  clock := 0
  pollDelay := 10000000
  busyDelay := 0
  refusesWatch := false
  groupFaults := []
  openings := []
  reactions := []
  wakenings := []
  inboxes := []
  nextDescriptor := firstDescriptor

/-- What waits on a channel. -/
def inbox (k : ScriptedKernel) (descriptor : Nat) : List Arrival :=
  (k.inboxes.get? descriptor).getD []

/-- The kernel after more arrived on a channel. -/
def deliver (k : ScriptedKernel) (descriptor : Nat) (arrivals : List Arrival) : ScriptedKernel :=
  { k with inboxes := k.inboxes.insert descriptor (k.inbox descriptor ++ arrivals) }

/-- The kernel after time went by. -/
def elapse (k : ScriptedKernel) (nanos : Nat) : ScriptedKernel :=
  { k with clock := k.clock + nanos }

/-- Open a channel. -/
def openChannel (k : ScriptedKernel) : Except SystemFault Nat × ScriptedKernel :=
  let rest := { k with openings := k.openings.tail }
  match k.openings.head?.join with
  | some fault => (.error fault, rest)
  | none =>
    (.ok k.nextDescriptor, { rest with nextDescriptor := k.nextDescriptor + 1 })

/-- React to a message. -/
def send (descriptor : Nat) (message : Bytes) (k : ScriptedKernel) :
    Except SystemFault Nat × ScriptedKernel :=
  match k.reactions with
  | [] => (.ok message.length, k)
  | r :: reactions =>
    let k := (r.others.foldl (fun k (other, arrivals) ↦ k.deliver other arrivals)
      ({ k with reactions }.deliver descriptor r.arrivals))
    (r.outcome.map (·.getD message.length), k)

/-- Take what arrived first on a channel. -/
def receive (descriptor : Nat) (k : ScriptedKernel) :
    Except SystemFault Reception × ScriptedKernel :=
  match k.inbox descriptor with
  | [] => (.error (.errno Errno.again), k)
  | arrival :: rest =>
    (arrival.outcome, { k with inboxes := k.inboxes.insert descriptor rest })

/-- Wait for a channel. -/
def poll (descriptor timeout : Nat) (k : ScriptedKernel) :
    Except SystemFault Bool × ScriptedKernel :=
  let rest := { k with wakenings := k.wakenings.tail }
  let byInbox (k : ScriptedKernel) : Except SystemFault Bool × ScriptedKernel :=
    if (k.inbox descriptor).isEmpty then (.ok false, k.elapse (min k.pollDelay timeout))
    else (.ok true, k.elapse k.busyDelay)
  match k.wakenings.head?.join with
  | none => byInbox rest
  | some wakening =>
    match wakening.outcome with
    | some outcome => (outcome, rest.elapse wakening.advance)
    | none => byInbox (rest.elapse wakening.advance)

/-- Join or leave a group. -/
def changeGroup (group : UInt32) (k : ScriptedKernel) :
    Except SystemFault Unit × ScriptedKernel :=
  match k.groupFaults.get? group with
  | some fault => (.error fault, k)
  | none => (.ok (), k)

/-- Wait for the first watched channel that has something. -/
def await (watched : List Nat) (timeout : Option Nat) (k : ScriptedKernel) :
    Option Nat × ScriptedKernel :=
  match watched.find? fun descriptor ↦ !(k.inbox descriptor).isEmpty with
  | some descriptor => (some descriptor, k)
  | none => (none, k.elapse (timeout.getD 0))

/-- The system of a scripted kernel. -/
def host : Host ScriptedKernel where
  now k := (k.clock, k)
  openChannel _ k := k.openChannel
  closeChannel _ k := k
  send := send
  receive descriptor _ k := k.receive descriptor
  poll := poll
  joinGroup _ group k := k.changeGroup group
  leaveGroup _ group k := k.changeGroup group
  watch _ k := (!k.refusesWatch, k)
  unwatch _ k := k
  await := await

end ScriptedKernel

end WifiNetlink
