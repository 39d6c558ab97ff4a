import WifiNetlink.Proofs.Traffic

/-!
# Where exchanges begin and end

A step begins an exchange only if client code asks for one, and ends one only at the turn of an
exchange that waits on top of the stack, or if the request of a new one cannot be sent. What is done
to channels, watches and groups besides leaves handlers and the stack alone.
-/

namespace WifiNetlink

variable {σ ν : Type}

namespace Event

/-- Whether an exchange begins or ends. -/
def isBoundary : Event ν → Bool
  | exchangeBegan _ | exchangeEnded .. => true
  | _ => false

/-- Whether an exchange of a sequence number ends. -/
def ends (sequence : UInt32) : Event ν → Bool
  | exchangeEnded s _ => s == sequence
  | _ => false

/-- Whether a channel is opened, closed or watched, or joins a group. -/
def isWiring : Event ν → Bool
  | opened .. | openFailed .. | closed _ | joined .. | watched .. | unwatched _ => true
  | _ => false

/-- Whether the clock is read, or a message is sent, waited for or received. -/
def isTalk : Event ν → Bool
  | clockRead _ | sent .. | polled .. | received .. => true
  | _ => false

/-- Whether the clock is read, or a message is sent, waited for or fails to be received. -/
def isAttempt : Event ν → Bool
  | clockRead _ | sent .. | polled .. | received _ (.error _) => true
  | _ => false

theorem marks_eq (e : Event ν) (sequence : UInt32) :
    e.marks sequence = (e.opens sequence || e.ends sequence) := by
  cases e <;> simp [marks, opens, ends]

theorem ends_of_isBoundary {e : Event ν} (he : e.isBoundary = false) (sequence : UInt32) :
    e.ends sequence = false := by
  cases e <;> simp_all [ends, isBoundary]

theorem isBoundary_of_isTalk {e : Event ν} (he : e.isTalk = true) : e.isBoundary = false := by
  cases e <;> simp_all [isTalk, isBoundary]

theorem ends_of_isTalk {e : Event ν} (he : e.isTalk = true) (sequence : UInt32) :
    e.ends sequence = false :=
  ends_of_isBoundary (isBoundary_of_isTalk he) sequence

theorem isTalk_of_isAttempt {e : Event ν} (he : e.isAttempt = true) : e.isTalk = true := by
  cases e <;> simp_all [isTalk, isAttempt]

/-- An attempt is no matter of messages that are read or dispatched. -/
theorem silent_of_isAttempt {e : Event ν} (he : e.isAttempt = true) (sequence : UInt32) :
    e.marks sequence = false ∧ e.dispatches = [] ∧ e.accepted = [] := by
  cases e with
  | received descriptor outcome =>
    cases outcome with
    | error fault => exact ⟨rfl, rfl, rfl⟩
    | ok reception => contradiction
  | clockRead | sent | polled => exact ⟨rfl, rfl, rfl⟩
  | _ => contradiction

theorem isBoundary_of_isCall {e : Event ν} (he : e.isCall = true) : e.isBoundary = false := by
  cases e <;> simp_all [isCall, isBoundary]

theorem isBoundary_of_isWiring {e : Event ν} (he : e.isWiring = true) : e.isBoundary = false := by
  cases e <;> simp_all [isWiring, isBoundary]

theorem isWiring_of_kind {e : Event ν} (he : e.kind = .wiring) : e.isWiring = true := by
  cases e <;> simp_all [kind, isWiring]

theorem isBoundary_of_kind {e : Event ν} (hb : e.kind ≠ .begin) (he : e.kind ≠ .ending) :
    e.isBoundary = false := by
  cases e <;> simp_all [kind, isBoundary]

end Event

/-- Whether what waits for a family is in control with the result: client code, or what goes on
after the start of the transport, which may fail even if the family is found. -/
def Discoverer.GoesOn (result : Except Error Family) (control : Control σ ν) :
    Discoverer σ ν → Prop
  | .client next => control = .run (next result)
  | .start next =>
    match result with
    | .error e => control = .run (next (.error e))
    | .ok _ => ∃ started, control = .run (next started)

/-- Whether what waits for an exchange is in control: client code with the outcome, or what goes on
after the lookup of a family with what is read from it. -/
def Waiter.GoesOn (outcome : Except Error (List Packet)) (control : Control σ ν) :
    Waiter σ ν → Prop
  | .client next => control = .run (next outcome)
  | .discovery name discoverer =>
    discoverer.GoesOn (outcome.bind (Family.ofReplies name)) control

/-- What goes on is client code. -/
theorem Discoverer.GoesOn.exists_run {result : Except Error Family} {control : Control σ ν}
    {discoverer : Discoverer σ ν} (hg : discoverer.GoesOn result control) :
    ∃ program, control = .run program := by
  cases discoverer with
  | client next => exact ⟨_, hg⟩
  | start next =>
    cases result with
    | error e => exact ⟨_, hg⟩
    | ok family =>
      obtain ⟨started, hg⟩ := hg
      exact ⟨_, hg⟩

theorem Waiter.GoesOn.exists_run {outcome : Except Error (List Packet)} {control : Control σ ν}
    {waiter : Waiter σ ν} (hg : waiter.GoesOn outcome control) :
    ∃ program, control = .run program := by
  cases waiter with
  | client next => exact ⟨_, hg⟩
  | discovery name discoverer => exact Discoverer.GoesOn.exists_run hg

/-- The handlers of notifications. -/
def Transport.subscriptions (t : Transport σ ν) :
    Table UInt32 (Subscription σ ν ScanNotification) × Table UInt32 (Subscription σ ν UInt32) :=
  (t.scans, t.schedules)

/-- What is left of a transport without its channels, watch, families and numbers. -/
def Transport.bare (t : Transport σ ν) : Transport σ ν :=
  { t with
    isStarted := false, counter := .fresh, families := []
    syncChannel := none, asyncChannel := none, watched := none }

/-- What is left of a transport without the requests that wait, its families and numbers. -/
def Transport.wiring (t : Transport σ ν) : Transport σ ν :=
  { t with counter := .fresh, families := [], pending := [] }

/-- Whether an error is one in which exchanges fail: the system failed, the budget is spent, or
there is no channel. -/
def Error.isOfExchange : Error → Bool
  | io _ | timeout _ | notStarted => true
  | _ => false

/-- The request for a family has the number that it is made with. -/
theorem Family.sequence_of_request {name : String} {sequence port : UInt32} {p : Packet}
    (hp : Family.request name sequence port = .ok p) : p.sequence = sequence := by
  unfold Family.request Packet.addValue at hp
  cases ha : Attribute.encode Family.nameAttribute name with
  | error e => simp [ha, Except.map] at hp
  | ok a =>
    simp only [ha, Except.map, Except.ok.injEq] at hp
    rw [← hp]
    rfl

/-- A request for a family whose name does not fit is no matter of time. -/
theorem Family.ne_timeout_of_request {name : String} {sequence port : UInt32} {e : Error}
    (he : Family.request name sequence port = .error e) (budget : Duration) :
    e ≠ .timeout budget := by
  rintro rfl
  unfold Family.request Packet.addValue Attribute.encode Attribute.ofPayload at he
  split at he
  · simp [Except.map] at he
  · simp [Except.map] at he

namespace Machine

/-- Whether no exchange begins or ends between two machines. -/
def Bypasses : Machine σ ν → Machine σ ν → Prop := Adds fun e ↦ e.isBoundary = false

/-- Whether between two machines all channels, watches and subscriptions stay. -/
structure KeepsWiring (m m' : Machine σ ν) : Prop where
  wiring : m'.transport.wiring = m.transport.wiring
  watches : m'.watches = m.watches

theorem KeepsWiring.subscriptions {m m' : Machine σ ν} (hm : m.KeepsWiring m') :
    m'.transport.subscriptions = m.transport.subscriptions := by
  simpa only [Transport.wiring, Transport.subscriptions] using
    congrArg Transport.subscriptions hm.wiring

theorem KeepsWiring.config {m m' : Machine σ ν} (hm : m.KeepsWiring m') :
    m'.transport.config = m.transport.config := by
  simpa only [Transport.wiring] using congrArg Transport.config hm.wiring

theorem KeepsWiring.isHeld {m m' : Machine σ ν} (hm : m.KeepsWiring m') :
    m'.transport.isHeld = m.transport.isHeld := by
  simpa only [Transport.wiring] using congrArg Transport.isHeld hm.wiring

theorem KeepsWiring.asyncChannel {m m' : Machine σ ν} (hm : m.KeepsWiring m') :
    m'.transport.asyncChannel = m.transport.asyncChannel := by
  simpa only [Transport.wiring] using congrArg Transport.asyncChannel hm.wiring

theorem KeepsWiring.scans {m m' : Machine σ ν} (hm : m.KeepsWiring m') :
    m'.transport.scans = m.transport.scans :=
  (Prod.mk.inj hm.subscriptions).1

/-- Whether between two machines only the requests that wait and the stack change. -/
structure KeepsTransport (m m' : Machine σ ν) : Prop where
  transport : m'.transport = { m.transport with pending := m'.transport.pending }
  watches : m'.watches = m.watches

namespace KeepsTransport

variable {m m' : Machine σ ν}

theorem keepsWiring (hm : m.KeepsTransport m') : m.KeepsWiring m' where
  wiring := by rw [hm.transport]; rfl
  watches := hm.watches

theorem families (hm : m.KeepsTransport m') : m'.transport.families = m.transport.families := by
  rw [hm.transport]

theorem counter (hm : m.KeepsTransport m') : m'.transport.counter = m.transport.counter := by
  rw [hm.transport]

theorem config (hm : m.KeepsTransport m') : m'.transport.config = m.transport.config := by
  rw [hm.transport]

theorem subscriptions (hm : m.KeepsTransport m') :
    m'.transport.subscriptions = m.transport.subscriptions :=
  hm.keepsWiring.subscriptions

end KeepsTransport

/-- Whether between two machines only channels, watches and groups change. -/
structure Wires (m m' : Machine σ ν) : Prop where
  bare : m'.transport.bare = m.transport.bare
  stack : m'.stack = m.stack
  nextNumber : m'.nextNumber = m.nextNumber
  journal : m.Adds (fun e ↦ e.isWiring = true) m'

namespace Wires

variable {m m' m'' : Machine σ ν}

theorem refl (m : Machine σ ν) : m.Wires m := ⟨rfl, rfl, rfl, Adds.refl rfl⟩

theorem trans (hm : m.Wires m') (hm' : m'.Wires m'') : m.Wires m'' where
  bare := hm'.bare.trans hm.bare
  stack := hm'.stack.trans hm.stack
  nextNumber := hm'.nextNumber.trans hm.nextNumber
  journal := Adds.trans hm.journal hm'.journal

theorem run (hm : m.Wires m') (program : Program σ ν) : m.Wires (m'.run program) :=
  ⟨hm.bare, hm.stack, hm.nextNumber, hm.journal⟩

/-- A row of moves about wiring. -/
theorem of_row (hr : Row .wiring m.ledger m'.ledger) : m.Wires m' where
  bare := congrArg (fun l : Ledger σ ν ↦ l.toTransport.bare) hr.eq_wiredAs
  stack := congrArg Ledger.stack hr.eq_wiredAs
  nextNumber := congrArg Ledger.nextNumber hr.eq_wiredAs
  journal := by
    obtain ⟨new, hj, hnew⟩ := hr.kind_of_mem (by simp) (by simp)
    exact ⟨new, hj, fun e he ↦ Event.isWiring_of_kind (hnew e he)⟩

theorem pending (hm : m.Wires m') : m'.transport.pending = m.transport.pending := by
  simpa only [Transport.bare] using congrArg Transport.pending hm.bare

theorem subscriptions (hm : m.Wires m') :
    m'.transport.subscriptions = m.transport.subscriptions := by
  simpa only [Transport.bare, Transport.subscriptions] using
    congrArg Transport.subscriptions hm.bare

theorem isHeld (hm : m.Wires m') : m'.transport.isHeld = m.transport.isHeld := by
  simpa only [Transport.bare] using congrArg Transport.isHeld hm.bare

/-- Wiring is no matter of exchanges. -/
theorem bypasses (hm : m.Wires m') : m.Bypasses m' :=
  hm.journal.mono fun _ ↦ Event.isBoundary_of_isWiring

end Wires

variable (h : Host σ) (m : Machine σ ν)

/-! ### Wiring -/

theorem wires_handFamily (discoverer : Discoverer σ ν) (outcome : Except Error Family) :
    m.Wires (m.handFamily h discoverer outcome) :=
  .of_row (row_handFamily h m discoverer outcome)

/-- Whoever waits for an exchange gets its outcome, and no handler is touched. -/
theorem wires_handReplies (waiter : Waiter σ ν) (outcome : Except Error (List Packet)) :
    m.Wires (m.handReplies h waiter outcome) := by
  have hlearned : m.Wires (m.adjust fun t ↦
      { t with families := waiter.learn t.families outcome }) := ⟨rfl, rfl, rfl, Adds.refl rfl⟩
  exact hlearned.trans (.of_row (row_handReplies h m waiter outcome))

/-- The end of an exchange takes no number. -/
theorem counter_endExchange (sequence : UInt32) (waiter : Waiter σ ν)
    (outcome : Except Error (List Packet)) :
    (m.endExchange h sequence waiter outcome).transport.counter = m.transport.counter :=
  congrArg (fun l : Ledger σ ν ↦ l.counter) (row_handReplies h
    (m.log (.exchangeEnded sequence outcome)) waiter outcome).eq_wiredAs

/-- Whoever waits for a family goes on with the result. -/
theorem goesOn_handFamily (discoverer : Discoverer σ ν) (outcome : Except Error Family) :
    discoverer.GoesOn outcome (m.handFamily h discoverer outcome).control := by
  unfold handFamily
  split
  · rfl
  · rfl
  · unfold finishStart
    split
    · exact ⟨_, rfl⟩
    · split
      · exact ⟨_, rfl⟩
      · exact ⟨_, rfl⟩

/-- Whoever waits for an exchange goes on with the outcome. -/
theorem goesOn_handReplies (waiter : Waiter σ ν) (outcome : Except Error (List Packet)) :
    waiter.GoesOn outcome (m.handReplies h waiter outcome).control := by
  cases waiter with
  | client next => rfl
  | discovery name discoverer =>
    simp only [handReplies, Waiter.GoesOn]
    split
    · next e he =>
      rw [he]
      exact goesOn_handFamily h m discoverer _
    · next family he =>
      rw [he]
      exact goesOn_handFamily h (m.adjust _) discoverer _

/-! ### The ends of an exchange -/

/-- What is known of a machine at the end of an exchange: its number has no handler, all others have
theirs, and the stack is the one below the exchange. -/
structure Leaves (sequence : UInt32) (stack : List (Frame σ ν))
    (pending : Table UInt32 (Handler σ ν)) (ready : Machine σ ν) : Prop where
  stack_eq : ready.stack = stack
  pending_eq : ∀ key, ready.transport.pending.get? key =
    if key = sequence then none else pending.get? key

/-- Handing over the outcome of an exchange changes nothing about this. -/
theorem Leaves.endExchange {sequence : UInt32} {stack : List (Frame σ ν)}
    {pending : Table UInt32 (Handler σ ν)} {ready : Machine σ ν}
    (hl : Leaves sequence stack pending ready) (other : UInt32) (waiter : Waiter σ ν)
    (outcome : Except Error (List Packet)) :
    Leaves sequence stack pending (ready.endExchange h other waiter outcome) := by
  have hend := wires_handReplies h (ready.log (.exchangeEnded other outcome)) waiter outcome
  constructor
  · exact hend.stack.trans hl.stack_eq
  · intro key
    rw [Machine.endExchange, hend.pending]
    exact hl.pending_eq key

/-- What the attempt to begin an exchange leads to. -/
inductive Begins (sequence : UInt32) (waiter : Waiter σ ν) (m : Machine σ ν) :
    Machine σ ν → Prop where
  /-- The request could not be sent. -/
  | refused (e : Error) (ready : Machine σ ν) (new : Journal ν)
    (hl : Leaves sequence m.stack m.transport.pending ready)
    (hj : ready.journal = new ++ .exchangeBegan sequence :: m.journal)
    (hnew : ∀ e ∈ new, e.isAttempt = true) (hk : m.KeepsTransport ready)
    (he : e.isOfExchange = true) (ht : ∀ budget, e ≠ .timeout budget) :
    Begins sequence waiter m (ready.endExchange h sequence waiter (.error e))
  | sent (begun : Nat) (m' : Machine σ ν) (new : Journal ν)
    (hs : m'.stack = .collecting ⟨m.nextNumber, sequence, begun, [], waiter⟩ :: m.stack)
    (hp : m'.transport.pending = m.transport.pending.insert sequence (.gather m.nextNumber))
    (hj : m'.journal = new ++ .exchangeBegan sequence :: m.journal)
    (hnew : ∀ e ∈ new, e.isAttempt = true) (hk : m.KeepsTransport m') (hc : m'.control = .resume) :
    Begins sequence waiter m m'

/-- An exchange with the number of multicast traffic is turned down, every other one is begun. -/
theorem begins_beginExchange (request : Packet) (waiter : Waiter σ ν)
    (hn : request.sequence ≠ 0) :
    Begins h request.sequence waiter m (m.beginExchange h request waiter) := by
  -- A handler that is put in place and taken out again leaves the others as they were.
  have hleaves (key : UInt32) :
      ((m.transport.pending.insert request.sequence (.gather m.nextNumber)).erase
        request.sequence).get? key =
      if key = request.sequence then none else m.transport.pending.get? key := by
    rw [Table.get?_erase, Table.get?_insert]
    split <;> rfl
  simp only [beginExchange, hn, if_false]
  cases hc : m.transport.syncChannel with
  | none =>
    exact .refused .notStarted _ [] ⟨rfl, hleaves⟩ rfl (by simp) ⟨rfl, rfl⟩ rfl (by simp)
  | some descriptor =>
    simp only [send]
    split
    · next e m' he =>
      obtain ⟨hfails, rfl⟩ := Prod.mk.inj he
      -- The system fails, or sends only a part of the request.
      have hfault : ∃ fault, e = .io fault := by
        split at hfails
        · exact ⟨_, (Except.error.inj hfails).symm⟩
        · split at hfails
          · contradiction
          · exact ⟨_, (Except.error.inj hfails).symm⟩
      obtain ⟨fault, rfl⟩ := hfault
      exact .refused _ _ [.sent descriptor request.toBytes _] ⟨rfl, hleaves⟩ rfl
        (by simp [Event.isAttempt]) ⟨rfl, rfl⟩ rfl (by simp)
    · next m' he =>
      obtain ⟨-, rfl⟩ := Prod.mk.inj he
      exact .sent _ _ [.clockRead _, .sent descriptor request.toBytes _] rfl rfl rfl
        (by simp [Event.isAttempt]) ⟨rfl, rfl⟩ rfl

/-- Whether an exchange that is about to have its turn is not over, and its budget is spent. -/
def IsSpent (x : Exchange σ ν) (m : Machine σ ν) : Prop :=
  m.transport.pending.contains x.sequence = true ∧
    m.transport.config.syncTimeout.nanos ≤ (h.now m.world).1 - x.begun

/-- What is known of a machine in which an exchange has come to its end: unless it was found without
a handler something failed, and that is the budget exactly if it is spent. -/
structure Closes (x : Exchange σ ν) (outcome : Except Error (List Packet)) (m ready : Machine σ ν) :
    Prop where
  leaves : Leaves x.sequence m.stack m.transport.pending ready
  eq_ok_iff : ∀ replies, outcome = .ok replies ↔
    m.transport.pending.get? x.sequence = none ∧ replies = x.gathered.reverse
  eq_timeout_iff : ∀ budget, outcome = .error (.timeout budget) ↔
    budget = m.transport.config.syncTimeout ∧ m.IsSpent h x
  attempts : m.Adds (fun e ↦ e.isAttempt = true) ready
  keeps : m.KeepsTransport ready
  isOfExchange : ∀ e, outcome = .error e → e.isOfExchange = true

/-- An exchange that fails with anything but its budget. -/
private theorem Closes.of_failure {x : Exchange σ ν} {m ready : Machine σ ν} {e : Error}
    (hp : m.transport.pending.contains x.sequence = true)
    (hb : ¬ m.transport.config.syncTimeout.nanos ≤ (h.now m.world).1 - x.begun)
    (he : e.isOfExchange = true) (hne : ∀ budget, e ≠ .timeout budget)
    (ht : ready.transport = m.transport.forget x.sequence) (hs : ready.stack = m.stack)
    (hw : ready.watches = m.watches) (hj : m.Adds (fun e ↦ e.isAttempt = true) ready) :
    Closes h x (.error e) m ready where
  leaves := ⟨hs, fun key ↦ by rw [ht]; exact Table.get?_erase ..⟩
  eq_ok_iff replies := by
    refine iff_of_false (by simp) fun hnone ↦ ?_
    simp [Table.contains, hnone.1] at hp
  eq_timeout_iff budget := by
    refine iff_of_false (fun hsame ↦ hne budget (Except.error.inj hsame)) fun hspent ↦ ?_
    exact hb hspent.2.2
  attempts := hj
  keeps := ⟨by rw [ht]; rfl, hw⟩
  isOfExchange e' hsame := Except.error.inj hsame ▸ he

/-- What a turn of an exchange leads to. -/
inductive Turns (x : Exchange σ ν) (m : Machine σ ν) : Machine σ ν → Prop where
  | ends (outcome : Except Error (List Packet)) (ready : Machine σ ν)
    (hcloses : Closes h x outcome m ready) :
    Turns x m (ready.endExchange h x.sequence x.waiter outcome)
  /-- The exchange goes on, and the messages of a datagram are dispatched before if one was read. -/
  | waits (m' : Machine σ ν) (read : Option (List Packet))
    (hs : m'.stack = read.toList.map .dispatching ++ .collecting x :: m.stack)
    (hj : m.Adds (fun e ↦ e.isTalk = true) m') (ht : m'.transport = m.transport)
    (hw : m'.watches = m.watches) (hc : m'.control = .resume) (hb : ¬ m.IsSpent h x) : Turns x m m'

theorem turns_turnExchange (x : Exchange σ ν) : Turns h x m (m.turnExchange h x) := by
  unfold turnExchange
  -- An exchange waits for as long as it has a handler; what ends it before is a failure.
  by_cases hp : m.transport.pending.contains x.sequence = true
  · rcases hn : h.now m.world with ⟨instant, world⟩
    simp only [hp, if_true, readClock, hn, after]
    by_cases hb : m.transport.config.syncTimeout.nanos ≤ instant - x.begun
    · have hspent : m.IsSpent h x := ⟨hp, by rw [hn]; exact hb⟩
      simp only [hb, if_true]
      refine .ends _ _ ⟨⟨rfl, fun key ↦ Table.get?_erase ..⟩, fun replies ↦ ?_, fun budget ↦ ?_,
        Adds.single rfl rfl, ⟨rfl, rfl⟩, fun e he ↦ Except.error.inj he ▸ rfl⟩
      · refine iff_of_false (by simp) fun hnone ↦ ?_
        simp [Table.contains, hnone.1] at hp
      · exact ⟨fun hsame ↦ ⟨(Error.timeout.inj (Except.error.inj hsame)).symm, hspent⟩,
          fun hsame ↦ by rw [hsame.1]⟩
    · have hleft : ¬ m.transport.config.syncTimeout.nanos ≤ (h.now m.world).1 - x.begun := by
        rwa [hn]
      have hwaits : ¬ m.IsSpent h x := fun hspent ↦ hleft hspent.2
      simp only [hb, if_false]
      cases hc : m.transport.syncChannel with
      | none =>
        exact .ends _ _ (.of_failure h hp hleft rfl (by simp) rfl rfl rfl (Adds.single rfl rfl))
      | some descriptor =>
        rcases hw : h.poll descriptor (m.transport.config.syncTimeout.nanos - (instant - x.begun))
          world with ⟨waited, world'⟩
        simp only [poll, hw, after]
        have hwaited : ∀ e ∈ [Event.polled descriptor
            (m.transport.config.syncTimeout.nanos - (instant - x.begun)) waited,
            .clockRead (ν := ν) instant], e.isAttempt = true := by
          simp [Event.isAttempt]
        cases waited with
        | error fault =>
          exact .ends _ _ (.of_failure h hp hleft rfl (by simp) rfl rfl rfl ⟨_, rfl, hwaited⟩)
        | ok ready =>
          cases ready with
          | false =>
            exact .waits _ none rfl ⟨_, rfl, fun e he ↦ Event.isTalk_of_isAttempt (hwaited e he)⟩
              rfl rfl rfl hwaits
          | true =>
            rcases hr : h.receive descriptor m.transport.config.receiveBufferSize world'
              with ⟨outcome, world''⟩
            simp only [Error.mapError_io_ok, hc, receive, hr, after]
            cases hmessages : messagesOf outcome with
            | error e =>
              obtain ⟨fault, rfl, rfl⟩ := messagesOf_eq_error hmessages
              exact .ends _ _ (.of_failure h hp hleft rfl (by simp) rfl rfl rfl
                ⟨_, rfl, List.forall_mem_cons.mpr ⟨rfl, hwaited⟩⟩)
            | ok packets =>
              exact .waits _ (some packets) rfl ⟨_, rfl, List.forall_mem_cons.mpr
                ⟨rfl, fun e he ↦ Event.isTalk_of_isAttempt (hwaited e he)⟩⟩ rfl rfl rfl hwaits
  · have hnone : m.transport.pending.get? x.sequence = none := by
      simpa [Table.contains] using hp
    simp only [hp, Bool.false_eq_true, if_false]
    refine .ends _ m ⟨⟨rfl, fun key ↦ ?_⟩, fun replies ↦ ?_, fun budget ↦ ?_, Adds.refl rfl,
      ⟨rfl, rfl⟩, by simp⟩
    · split
      · next hkey => rw [hkey, hnone]
      · rfl
    · exact ⟨fun hsame ↦ ⟨hnone, (Except.ok.inj hsame).symm⟩, fun hsame ↦ by rw [hsame.2]⟩
    · exact iff_of_false (by simp) fun hspent ↦ hp hspent.2.1

/-! ### Steps -/

variable {m}

/-- A channel that is not opened is a fault of the system. -/
private theorem ne_timeout_of_openChannel {m' : Machine σ ν} {e : Error}
    (he : m.openChannel h = (.error e, m')) (budget : Duration) : e ≠ .timeout budget := by
  unfold openChannel at he
  split at he
  · simp at he
  · rw [← Except.error.inj (Prod.mk.inj he).1]
    simp

private theorem ne_timeout_of_renewSync {m' : Machine σ ν} {e : Error}
    (he : m.renewSync h = (.error e, m')) (budget : Duration) : e ≠ .timeout budget := by
  unfold renewSync at he
  split at he
  · next e' m'' ho =>
    obtain rfl := Except.error.inj (Prod.mk.inj he).1
    exact ne_timeout_of_openChannel h ho budget
  · simp at he

private theorem ne_timeout_of_renewAsync {m' : Machine σ ν} {e : Error}
    (he : m.renewAsync h = (.error e, m')) (budget : Duration) : e ≠ .timeout budget := by
  unfold renewAsync at he
  split at he
  · next e' m'' ho =>
    obtain rfl := Except.error.inj (Prod.mk.inj he).1
    exact ne_timeout_of_openChannel h ho budget
  · simp at he

/-- Whether a call for an exchange fails before there is one: nothing but wiring changes, and what
waits for it goes on with an error, but none of time. -/
def FailsEarly (waiter : Waiter σ ν) (m m' : Machine σ ν) : Prop :=
  m.Wires m' ∧ ∃ e, (∀ budget, e ≠ .timeout budget) ∧ waiter.GoesOn (.error e) m'.control

/-- A family is asked for with the next sequence number, unless its name is too long. -/
private theorem discover_eq (name : String) (discoverer : Discoverer σ ν) :
    FailsEarly (.discovery name discoverer) m (m.discover h name discoverer) ∨
    ∃ request, request.sequence = m.transport.counter.next ∧
      m.discover h name discoverer =
        (m.adjust Transport.advance).beginExchange h request (.discovery name discoverer) := by
  simp only [discover]
  split
  · next e he =>
    have hnumbered : m.Wires (m.adjust Transport.advance) := ⟨rfl, rfl, rfl, Adds.refl rfl⟩
    exact .inl ⟨hnumbered.trans (wires_handFamily h _ discoverer (.error e)), e,
      Family.ne_timeout_of_request he, goesOn_handFamily ..⟩
  · next request hr => exact .inr ⟨request, Family.sequence_of_request hr, rfl⟩

/-- A step that asks for an exchange begins it after some wiring, unless something fails before. -/
theorem step_of_asks {sequence : UInt32} {waiter : Waiter σ ν}
    (ha : m.asks? = some (sequence, waiter)) (hh : m.transport.isHeld = true) :
    FailsEarly waiter m (m.step h) ∨
    ∃ ready request, m.Wires ready ∧ request.sequence = sequence ∧
      m.step h = ready.beginExchange h request waiter := by
  unfold asks? at ha
  split at ha
  · next request next hc =>
    obtain ⟨rfl, rfl⟩ := Prod.mk.inj (Option.some.inj ha)
    rw [step_eq_call h hc hh]
    exact .inr ⟨m, request, .refl m, rfl, rfl⟩
  · next name next hc =>
    obtain ⟨rfl, rfl⟩ := Prod.mk.inj (Option.some.inj ha)
    rw [step_eq_call h hc hh]
    rcases discover_eq h (m := m) name (.client next) with hfails | ⟨request, hs, hm⟩
    · exact .inl hfails
    · have hready : m.Wires (m.adjust Transport.advance) := ⟨rfl, rfl, rfl, Adds.refl rfl⟩
      exact .inr ⟨_, request, hready, hs, hm⟩
  · next next hc =>
    rw [step_eq_call h hc hh]
    split at ha
    · contradiction
    · next hstarted =>
      obtain ⟨rfl, rfl⟩ := Prod.mk.inj (Option.some.inj ha)
      have hout := setsOut_start h m next hh (Bool.eq_false_iff.mpr hstarted)
      simp only [call]
      generalize m.start h next = m' at hout ⊢
      cases hout with
      | noSync e hr he =>
        exact .inl ⟨(Wires.of_row hr).run _, e, ne_timeout_of_renewSync h he, rfl⟩
      | noAsync e hr he he' =>
        exact .inl ⟨(Wires.of_row hr).run _, e, ne_timeout_of_renewAsync h he', rfl⟩
      | @looksUp _ ready sync async hr he he' ht =>
        have hready := Wires.of_row hr
        have hcounter : ready.transport.counter = m.transport.counter := by rw [ht]
        rcases discover_eq h (m := ready) m.transport.config.familyName (.start next)
          with ⟨hw, hfails⟩ | ⟨request, hs, hm⟩
        · exact .inl ⟨hready.trans hw, hfails⟩
        · rw [hcounter] at hs
          have hnumbered : ready.Wires (ready.adjust Transport.advance) :=
            ⟨rfl, rfl, rfl, Adds.refl rfl⟩
          exact .inr ⟨_, request, hready.trans hnumbered, hs, hm⟩
  · contradiction

/-! ### Steps without boundaries -/

/-- A step that neither asks for an exchange nor is a turn of one bypasses all exchanges. -/
theorem bypasses_step (ha : m.asks? = none ∨ m.transport.isHeld = false)
    (ht : ∀ x stack, m.stack = .collecting x :: stack → m.control ≠ .resume) :
    m.Bypasses (m.step h) := by
  cases hdue : m.due? with
  | none =>
    obtain ⟨new, hj, hnew⟩ := (m.aside_step h hdue ha ht).journal
    exact ⟨new, hj, fun e he ↦ Event.isBoundary_of_kind (hnew e he).1 (hnew e he).2.1⟩
  | some p =>
    obtain ⟨new, hj, -, -, hnew⟩ := (m.dispatch_step h hdue).journal
    refine ⟨new, hj, fun e he ↦ ?_⟩
    rcases hnew e he with hcall | rfl
    · exact Event.isBoundary_of_isCall hcall
    · rfl

/-! ### Ends -/

/-- Whether no exchange of a sequence number ends between two machines. -/
def Outlasts (sequence : UInt32) : Machine σ ν → Machine σ ν → Prop :=
  Adds fun e ↦ e.ends sequence = false

theorem Bypasses.outlasts {m' : Machine σ ν} (hb : m.Bypasses m') (sequence : UInt32) :
    m.Outlasts sequence m' := by
  apply hb.mono
  intro e he
  exact Event.ends_of_isBoundary he sequence

/-- Where no exchange of a number ends, nothing is marked that is not put to use. -/
theorem Outlasts.marks {m' : Machine σ ν} {sequence : UInt32} {new : Journal ν}
    (hm : m.Outlasts sequence m') (hj : m'.journal = new ++ m.journal)
    (ho : Journal.opens sequence new = false) : new.any (Event.marks sequence) = false := by
  obtain ⟨new', hj', hends⟩ := hm
  obtain rfl := List.append_cancel_right (hj.symm.trans hj')
  rw [List.any_eq_false]
  intro e he
  have hopens := List.any_eq_false.mp ho e he
  rw [Event.marks_eq, hends e he, Bool.or_false]
  exact hopens

/-- The end of another exchange. -/
private theorem outlasts_endExchange {sequence other : UInt32} (hne : other ≠ sequence)
    (waiter : Waiter σ ν) (outcome : Except Error (List Packet)) (m : Machine σ ν) :
    m.Outlasts sequence (m.endExchange h other waiter outcome) := by
  have hended : m.Outlasts sequence (m.log (.exchangeEnded other outcome)) :=
    Adds.single rfl (by simpa [Event.ends] using hne)
  have hhanded := wires_handReplies h (m.log (.exchangeEnded other outcome)) waiter outcome
  exact Adds.trans hended (hhanded.bypasses.outlasts sequence)

/-- Another exchange that begins, even if it ends at once. -/
private theorem Begins.outlasts {sequence other : UInt32} {waiter : Waiter σ ν}
    {m' : Machine σ ν} (hb : Begins h other waiter m m') (hne : other ≠ sequence) :
    m.Outlasts sequence m' := by
  have hbegan (new : Journal ν) (hnew : ∀ e ∈ new, e.isAttempt = true) :
      ∀ e ∈ new ++ [.exchangeBegan other], e.ends sequence = false := by
    intro e he
    rcases List.mem_append.mp he with he | he
    · exact Event.ends_of_isTalk (Event.isTalk_of_isAttempt (hnew e he)) sequence
    · rw [List.mem_singleton.mp he]
      rfl
  cases hb with
  | refused e ready new hl hj hnew hk =>
    have hready : m.Outlasts sequence ready := ⟨_, by rw [hj]; simp, hbegan new hnew⟩
    exact Adds.trans hready (outlasts_endExchange h hne waiter _ ready)
  | sent begun m' new hs hp hj hnew hk hc => exact ⟨_, by rw [hj]; simp, hbegan new hnew⟩

/-- An exchange that begins is entered in the journal. -/
theorem Begins.journal {sequence : UInt32} {waiter : Waiter σ ν} {m' : Machine σ ν}
    (hb : Begins h sequence waiter m m') :
    ∃ new, m'.journal = new ++ .exchangeBegan sequence :: m.journal := by
  cases hb with
  | refused e ready new hl hj hnew hk =>
    obtain ⟨after, hafter, -⟩ := (wires_handReplies h
      (ready.log (.exchangeEnded sequence (.error e))) waiter (.error e)).journal
    refine ⟨after ++ .exchangeEnded sequence (.error e) :: new, ?_⟩
    rw [endExchange, hafter, log, hj]
    simp
  | sent begun m' new hs hp hj hnew hk hc => exact ⟨new, hj⟩

/-- An exchange that is asked for ends no exchange of a number that it does not put to use. -/
private theorem outlasts_of_asks {sequence : UInt32} (hn : sequence ≠ 0) {new : Journal ν}
    (hj : (m.step h).journal = new ++ m.journal) (ho : Journal.opens sequence new = false)
    (ha : m.asks? ≠ none) (hh : m.transport.isHeld = true) : m.Outlasts sequence (m.step h) := by
  obtain ⟨⟨other, waiter⟩, hasks⟩ := Option.ne_none_iff_exists'.mp ha
  rcases step_of_asks h hasks hh with ⟨hw, -⟩ | ⟨ready, request, hw, hs, hm⟩
  · exact hw.bypasses.outlasts sequence
  · have hready := hw.bypasses.outlasts sequence
    rw [hm] at hj ⊢
    by_cases hzero : request.sequence = 0
    · simp only [beginExchange, hzero, if_true]
      exact Adds.trans hready (outlasts_endExchange h (Ne.symm hn) waiter _ ready)
    · have hb := begins_beginExchange h ready request waiter hzero
      have hne : request.sequence ≠ sequence := by
        intro hsame
        obtain ⟨began, hbegan⟩ := hb.journal
        obtain ⟨wiring, hwiring, -⟩ := hw.journal
        have hnew : new ++ m.journal =
            (began ++ .exchangeBegan request.sequence :: wiring) ++ m.journal := by
          rw [← hj, hbegan, hwiring, List.append_assoc, List.cons_append]
        rw [List.append_cancel_right hnew, hsame, Journal.opens_append, Journal.opens_cons] at ho
        simp [Event.opens] at ho
      exact Adds.trans hready (hb.outlasts h hne)

/-- A step that does not put a number to use ends an exchange of it only at a turn of the exchange
on top of the stack. -/
theorem step_ends {sequence : UInt32} (hn : sequence ≠ 0) {new : Journal ν}
    (hj : (m.step h).journal = new ++ m.journal) (ho : Journal.opens sequence new = false) :
    m.Outlasts sequence (m.step h) ∨
    ∃ x stack, x.sequence = sequence ∧ m.stack = .collecting x :: stack ∧
      (m.step h).stack = stack := by
  by_cases hturn : ∃ x stack, m.stack = .collecting x :: stack ∧ m.control = .resume
  · obtain ⟨x, stack, hs, hc⟩ := hturn
    have ht := turns_turnExchange h { m with stack } x
    rw [← step_of_collecting h hc hs] at ht
    generalize m.step h = m' at ht ⊢
    cases ht with
    | ends outcome ready hcloses =>
      by_cases hne : x.sequence = sequence
      · exact .inr ⟨x, stack, hne, hs,
          (hcloses.leaves.endExchange h x.sequence x.waiter outcome).stack_eq⟩
      · have hready : m.Outlasts sequence ready :=
          hcloses.attempts.mono fun e he ↦
            Event.ends_of_isTalk (Event.isTalk_of_isAttempt he) sequence
        exact .inl (Adds.trans hready (outlasts_endExchange h hne x.waiter outcome ready))
    | waits m' read hs' htalk ht' hw hc' =>
      exact .inl (Adds.mono htalk fun e he ↦ Event.ends_of_isTalk he sequence)
  · left
    by_cases ha : m.asks? = none ∨ m.transport.isHeld = false
    · refine (bypasses_step h ha fun x stack hs hc ↦ ?_).outlasts sequence
      exact hturn ⟨x, stack, hs, hc⟩
    · rw [not_or, Bool.not_eq_false] at ha
      exact outlasts_of_asks h hn hj ho ha.1 ha.2

end Machine

end WifiNetlink
