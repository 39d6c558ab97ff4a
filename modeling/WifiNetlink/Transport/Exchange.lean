import WifiNetlink.Transport.Machine

/-!
# Exchanges

A synchronous exchange sends a request and waits for its replies on the synchronous channel. It
ends when no handler waits for its sequence number any more, when its budget is spent, or when
waiting or receiving fails. Looking up a family is an exchange, and starting the transport looks up
its family.
-/

namespace WifiNetlink.Machine

variable {σ ν : Type} (h : Host σ)

/-- The transport's start after its family is looked up: watch for traffic, join the configured
groups. -/
def finishStart (next : Except Error Unit → Program σ ν) (m : Machine σ ν) : Machine σ ν :=
  match m.startWatching h with
  | (.error e, m) => m.run (next (.error e))
  | (.ok (), m) =>
    match m.joinGroups h m.transport.config.multicastGroups with
    | (.error e, m) => m.run (next (.error e))
    | (.ok (), m) => (m.adjust fun t ↦ { t with isStarted := true }).run (next (.ok ()))

/-- Hand over a family that was looked up. -/
def handFamily (discoverer : Discoverer σ ν) (outcome : Except Error Family) (m : Machine σ ν) :
    Machine σ ν :=
  match discoverer, outcome with
  | .client next, outcome => m.run (next outcome)
  | .start next, .error e => m.run (next (.error e))
  | .start next, .ok _ => m.finishStart h next

/-- Hand over the outcome of an exchange. A family is kept if the lookup succeeded. -/
def handReplies (waiter : Waiter σ ν) (outcome : Except Error (List Packet)) (m : Machine σ ν) :
    Machine σ ν :=
  match waiter with
  | .client next => m.run (next outcome)
  | .discovery name discoverer =>
    match outcome.bind (Family.ofReplies name) with
    | .error e => m.handFamily h discoverer (.error e)
    | .ok family => (m.adjust (·.remember name family)).handFamily h discoverer (.ok family)

/-- End an exchange. -/
def endExchange (sequence : UInt32) (waiter : Waiter σ ν) (outcome : Except Error (List Packet))
    (m : Machine σ ν) : Machine σ ν :=
  (m.log (.exchangeEnded sequence outcome)).handReplies h waiter outcome

/-- End an exchange that failed. Its handler is taken out. -/
def failExchange (sequence : UInt32) (waiter : Waiter σ ν) (e : Error) (m : Machine σ ν) :
    Machine σ ν :=
  (m.adjust (·.forget sequence)).endExchange h sequence waiter (.error e)

/-- Begin an exchange. Its handler is in place before the request is sent. -/
def beginExchange (request : Packet) (waiter : Waiter σ ν) (m : Machine σ ν) : Machine σ ν :=
  if request.sequence = 0 then
    m.endExchange h 0 waiter (.error (.invalidMessage .reservedSequence))
  else
    let ready := ((m.adjust (·.expect request.sequence (.gather m.nextNumber))).log
      (.exchangeBegan request.sequence)).advance
    match ready.send h m.transport.syncChannel request with
    | (.error e, sent) => sent.failExchange h request.sequence waiter e
    | (.ok (), sent) =>
      match sent.readClock h with
      | (begun, sent) =>
        (sent.push (.collecting
          { number := m.nextNumber, sequence := request.sequence, begun, gathered := [],
            waiter })).resume

/-- One turn of an exchange: see whether it is over, wait within what is left of the budget, and
take one datagram. -/
def turnExchange (x : Exchange σ ν) (m : Machine σ ν) : Machine σ ν :=
  if m.transport.pending.contains x.sequence then
    match m.readClock h with
    | (instant, m) =>
      let budget := m.transport.config.syncTimeout
      let elapsed := instant - x.begun
      if budget.nanos ≤ elapsed then
        m.failExchange h x.sequence x.waiter (.timeout budget)
      else
        match m.poll h m.transport.syncChannel (budget.nanos - elapsed) with
        | (.error e, m) => m.failExchange h x.sequence x.waiter e
        | (.ok false, m) => (m.push (.collecting x)).resume
        | (.ok true, m) =>
          match m.receive h m.transport.syncChannel with
          | (.error e, m) => m.failExchange h x.sequence x.waiter e
          | (.ok packets, m) => ((m.push (.collecting x)).push (.dispatching packets)).resume
  else m.endExchange h x.sequence x.waiter (.ok x.gathered.reverse)

/-- Look a family up. -/
def discover (name : String) (discoverer : Discoverer σ ν) (m : Machine σ ν) : Machine σ ν :=
  let numbered := m.adjust Transport.advance
  match Family.request name m.transport.counter.next m.transport.port with
  | .error e => numbered.handFamily h discoverer (.error e)
  | .ok request => numbered.beginExchange h request (.discovery name discoverer)

/-- Start the transport, unless it is started. What an attempt before left behind is given up: its
watch first, then each channel once the one that takes its place is open. -/
def start (next : Except Error Unit → Program σ ν) (m : Machine σ ν) : Machine σ ν :=
  if m.transport.isStarted then m.run (next (.ok ()))
  else
    match (m.stopWatching h).renewSync h with
    | (.error e, m) => m.run (next (.error e))
    | (.ok (), m) =>
      match m.renewAsync h with
      | (.error e, m) => m.run (next (.error e))
      | (.ok (), m) => m.discover h m.transport.config.familyName (.start next)

/-- Send a request whose replies a handler is called with. -/
def register (request : Packet) (handler : Journal ν → Packet → Program σ ν)
    (m : Machine σ ν) : Except Error Unit × Machine σ ν :=
  if request.isDumpRequest then (.error .dumpNotAllowed, m)
  else if request.sequence = 0 then (.error (.invalidMessage .reservedSequence), m)
  else
    match m.send h m.transport.asyncChannel request with
    | (.error e, m) => (.error e, m)
    | (.ok (), m) =>
      (.ok (), (m.adjust (·.expect request.sequence (.client handler))).log
        (.registered request.sequence))

end WifiNetlink.Machine
