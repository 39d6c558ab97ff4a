import WifiNetlink.Transport.Dispatch
import WifiNetlink.Transport.Exchange

/-!
# Running a transport

A machine runs in small steps: a call of client code, a turn of an exchange, the dispatch of one
message, the end of a handler. As soon as no handle is left and none of its own code is at work, the
transport is taken down: the watch ends before the channels are closed. A run is a number of steps;
a machine that has nothing to do stays as it is.
-/

namespace WifiNetlink.Machine

variable {σ ν : Type} (h : Host σ)

/-- Run the callback of a watch: take one datagram of the asynchronous channel and dispatch its
messages. What fails here is nobody's answer. -/
def fireWatch (descriptor : Nat) (m : Machine σ ν) : Machine σ ν :=
  match (m.push (.firing descriptor)).receive h m.transport.asyncChannel with
  | (.error _, m) => m.resume
  | (.ok packets, m) => (m.push (.dispatching packets)).resume

/-- Whether the callback of a descriptor's watch can be run. -/
def canFire (descriptor : Nat) (m : Machine σ ν) : Firing :=
  if !m.watches.contains descriptor then .notWatched
  else if m.stack.any (Frame.fires descriptor) then .busy
  else .fired

/-- Wait for the event loop, or go on. -/
def turnVigil (v : Vigil σ ν) (m : Machine σ ν) : Machine σ ν :=
  let isWanted := v.wanted m.journal
  if isWanted && !v.isDraining then m.run (v.next m.journal)
  else
    match m.readClock h with
    | (instant, m) =>
      let timeout := if isWanted then some 0 else v.budget.map (· - (instant - v.begun))
      match h.await m.watches timeout m.world with
      | (readable, world) =>
        let m := m.after world (.awaited timeout readable)
        match readable with
        | none => m.run (v.next m.journal)
        | some descriptor =>
          if m.canFire descriptor = .fired then
            (m.push (.awaiting { v with isDraining := true })).fireWatch h descriptor
          else m.run (v.next m.journal)

/-- Make a call of client code. -/
def call : Program σ ν → Machine σ ν → Machine σ ν
  | .done, m => m.resume
  | .note note next, m => (m.log (.noted note)).run next
  | .meanwhile change next, m => { m with world := change m.world }.run next
  | .isHeld next, m => m.run (next m.transport.isHeld)
  | .release next, m =>
    ((m.adjust fun t ↦ { t with isHeld := false }).log .released).run next
  | .start next, m => m.start h next
  | .isStarted next, m => m.run (next m.transport.isStarted)
  | .familyId next, m => m.run (next m.transport.familyId)
  | .family name next, m => m.run (next (m.transport.families.get? name))
  | .discover name next, m => m.discover h name (.client next)
  | .nextSequence next, m => (m.adjust Transport.advance).run (next m.transport.counter.next)
  | .newRequest command next, m =>
    match m.transport.request command with
    | (request, transport) => { m with transport }.run (next request)
  | .joinGroup group next, m =>
    match m.joinGroup h group with
    | (outcome, m) => m.run (next outcome)
  | .leaveGroup group next, m =>
    match m.leaveGroup h group with
    | (outcome, m) => m.run (next outcome)
  | .collect request next, m => m.beginExchange h request (.client next)
  | .register request handler next, m =>
    match m.register h request handler with
    | (outcome, m) => m.run (next outcome)
  | .subscribeScan ifindex react next, m =>
    ((m.adjust fun t ↦
      { t with scans := t.scans.insert ifindex ⟨m.nextNumber, react⟩ }).advance).run next
  | .unsubscribeScan ifindex next, m =>
    (m.adjust fun t ↦ { t with scans := t.scans.erase ifindex }).run next
  | .subscribeSchedule ifindex react next, m =>
    ((m.adjust fun t ↦
      { t with schedules := t.schedules.insert ifindex ⟨m.nextNumber, react⟩ }).advance).run next
  | .unsubscribeSchedule ifindex next, m =>
    (m.adjust fun t ↦ { t with schedules := t.schedules.erase ifindex }).run next
  | .fire descriptor next, m =>
    match m.canFire descriptor with
    | .fired => (m.push (.returning (next .fired))).fireWatch h descriptor
    | refusal => m.run (next refusal)
  | .await wanted budget next, m =>
    match m.readClock h with
    | (begun, m) =>
      (m.push (.awaiting { wanted, budget, begun, isDraining := false, next })).resume

/-- Go on with a frame that was taken from the stack. -/
def goOn : Frame σ ν → Machine σ ν → Machine σ ν
  | .collecting x, m => m.turnExchange h x
  | .dispatching [], m => m.resume
  | .dispatching (p :: rest), m => (m.push (.dispatching rest)).dispatch p
  | .replying sequence handler again, m =>
    (if again then m.adjust (·.expect sequence handler) else m).resume
  | .notifying _, m => m.resume
  | .firing _, m => m.resume
  | .returning program, m => m.run program
  | .awaiting v, m => m.turnVigil h v

/-- Whether the transport is to be taken down: it is there, no handle is left, and none of its code
is at work. -/
def isAbandoned (m : Machine σ ν) : Bool :=
  m.transport.isAlive && !m.transport.isHeld && !m.stack.any Frame.keeps

/-- Take the transport down. -/
def tearDown (m : Machine σ ν) : Machine σ ν :=
  (((m.stopWatching h).closeChannel h m.transport.asyncChannel).closeChannel h
    m.transport.syncChannel).adjust fun t ↦
      { t with
        asyncChannel := none, syncChannel := none, pending := [], scans := [], schedules := []
        isAlive := false }

/-- One step. Client code that has dropped the last handle ends at its next use of the transport. -/
def step (m : Machine σ ν) : Machine σ ν :=
  if m.isAbandoned then m.tearDown h
  else
    match m.control with
    | .run program =>
      if program.needsHandle && !m.transport.isHeld then m.resume else m.call h program
    | .resume =>
      match m.stack with
      | frame :: stack => { m with stack }.goOn h frame
      | [] => m

/-- Whether nothing is left to do. -/
def isIdle (m : Machine σ ν) : Bool :=
  match m.control, m.stack with
  | .resume, [] => !m.isAbandoned
  | _, _ => false

/-- The machine after a number of steps, or fewer if it has nothing to do. -/
def steps : (count : Nat) → Machine σ ν → Machine σ ν
  | 0, m => m
  | count + 1, m => if m.isIdle then m else steps count (m.step h)

end WifiNetlink.Machine
