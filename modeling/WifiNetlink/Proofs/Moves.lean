import WifiNetlink.Proofs.Ledger

/-!
# The moves of a step

Each function of a machine changes the ledger by moves, most of them by a row of moves of one kind.
Main statements: a step is either the dispatch of the message that is due, or a number of moves; and
unless it asks for an exchange or is the turn of one, they are a row of one kind.
-/

namespace WifiNetlink

variable {σ ν : Type}

/-- Whether the program's next call changes the subscriptions. -/
def Program.subscribes : Program σ ν → Bool
  | subscribeScan .. | unsubscribeScan .. | subscribeSchedule .. | unsubscribeSchedule .. => true
  | _ => false

/-- What a system call gives is handed on. -/
theorem Error.mapError_io_ok {α : Type} (a : α) :
    (Except.ok a : Except SystemFault α).mapError io = .ok a := rfl

namespace Machine

/-- What a step does that dispatches no message, asks for no exchange and is not the turn of one. -/
inductive Aside (m : Machine σ ν) (l : Ledger σ ν) : Prop where
  | routine (hr : Row .routine m.ledger l)
  | wiring (hr : Row .wiring m.ledger l)
  | request {program : Program σ ν} (hc : m.control = .run program) (hr : Row .request m.ledger l)
  | state (hm : Move m.ledger .state l)
  | subscription {program : Program σ ν} (hc : m.control = .run program)
    (hs : program.subscribes = true) (hh : m.transport.isHeld = true)
    (hm : Move m.ledger .subscription l)
  | teardown {l' : Ledger σ ν} (hr : Row .wiring m.ledger l') (hm : Move l' .teardown l)

theorem Aside.moves {m : Machine σ ν} {l : Ledger σ ν} (ha : Aside m l) : Moves m.ledger l := by
  cases ha with
  | routine hr => exact hr.moves
  | wiring hr => exact hr.moves
  | request _ hr => exact hr.moves
  | state hm => exact hm.moves
  | subscription _ _ _ hm => exact hm.moves
  | teardown hr hm => exact hr.moves.trans hm.moves

/-- Such a step begins and ends no exchange, and sends something only if client code is in
control. -/
theorem Aside.journal {m : Machine σ ν} {l : Ledger σ ν} (ha : Aside m l) :
    ∃ new, l.journal = new ++ m.journal ∧ ∀ e ∈ new, e.kind ≠ .begin ∧ e.kind ≠ .ending ∧
      (e.kind = .request → m.control ≠ .resume) := by
  have hrow {kind : MoveKind} {l : Ledger σ ν} (hr : Row kind m.ledger l) (hb : kind ≠ .begin)
      (he : kind ≠ .ending) (hq : kind = .request → m.control ≠ .resume) :
      ∃ new, l.journal = new ++ m.journal ∧ ∀ e ∈ new, e.kind ≠ .begin ∧ e.kind ≠ .ending ∧
        (e.kind = .request → m.control ≠ .resume) := by
    obtain ⟨new, hj, hnew⟩ := hr.kind_of_mem hb he
    exact ⟨new, hj, fun e hmem ↦ by rw [hnew e hmem]; exact ⟨hb, he, hq⟩⟩
  cases ha with
  | routine hr => exact hrow hr (by simp) (by simp) (by simp)
  | wiring hr => exact hrow hr (by simp) (by simp) (by simp)
  | request hc hr => exact hrow hr (by simp) (by simp) (by simp [hc])
  | state hm => exact hrow (.single hm) (by simp) (by simp) (by simp)
  | subscription _ _ _ hm => exact hrow (.single hm) (by simp) (by simp) (by simp)
  | teardown hr hm =>
    obtain ⟨new, hj, hnew⟩ := hrow hr (by simp) (by simp) (by simp)
    exact ⟨new, hm.journal_of_teardown.trans hj, hnew⟩

/-- Such a step gives out one number at most. -/
theorem Aside.counter {m : Machine σ ν} {l : Ledger σ ν} (ha : Aside m l) :
    l.counter = m.transport.counter ∨ l.counter = m.transport.counter.advance := by
  cases ha with
  | routine hr => exact .inl (hr.counter_eq (by simp))
  | wiring hr => exact .inl (hr.counter_eq (by simp))
  | request _ hr => exact .inl (hr.counter_eq (by simp))
  | state hm =>
    cases hm with
    | count => exact .inr rfl
    | entry | release => exact .inl rfl
  | subscription _ _ _ hm => exact .inl (hm.counter_eq (by simp))
  | teardown hr hm =>
    exact .inl ((hm.counter_eq (by simp)).trans (hr.counter_eq (by simp)))

variable (h : Host σ) (m : Machine σ ν)

/-! ### Calls to the system -/

private theorem row_openChannel : Row .wiring m.ledger (m.openChannel h).2.ledger := by
  unfold openChannel
  split
  · exact .single (.entry m.ledger _ rfl rfl)
  · exact .single (.entry m.ledger _ rfl rfl)

theorem row_closeChannel (channel : Option Nat) :
    Row .wiring m.ledger (m.closeChannel h channel).ledger := by
  cases channel with
  | none => exact .refl
  | some descriptor => exact .single (.entry m.ledger (.closed descriptor) rfl rfl)

private theorem row_startWatching : Row .wiring m.ledger (m.startWatching h).2.ledger := by
  unfold startWatching
  split
  · exact .refl
  · next descriptor hc =>
    split
    · exact .single (.watch m.ledger descriptor hc)
    · exact .single (.entry m.ledger (.watched descriptor false) rfl rfl)

theorem row_stopWatching : Row .wiring m.ledger (m.stopWatching h).ledger := by
  unfold stopWatching
  split
  · exact .refl
  · next descriptor hw => exact .single (.unwatch m.ledger descriptor hw)

theorem transport_stopWatching :
    (m.stopWatching h).transport = { m.transport with watched := none } := by
  unfold stopWatching
  split
  · next hw => rw [← hw]
  · rfl

private theorem row_joinGroup (group : String) :
    Row .wiring m.ledger (m.joinGroup h group).2.ledger := by
  unfold joinGroup
  split
  · exact .refl
  · exact .refl
  · next id descriptor _ _ => exact .single (.entry m.ledger (.joined descriptor id _) rfl rfl)

private theorem row_leaveGroup (group : String) :
    Row .routine m.ledger (m.leaveGroup h group).2.ledger := by
  unfold leaveGroup
  split
  · exact .refl
  · exact .refl
  · next id descriptor _ _ => exact .single (.entry m.ledger (.left descriptor id _) rfl rfl)

private theorem row_joinGroups (groups : List String) :
    Row .wiring m.ledger (m.joinGroups h groups).2.ledger := by
  induction groups generalizing m with
  | nil => exact .refl
  | cons group groups ih =>
    have hj := row_joinGroup h m group
    unfold joinGroups
    split
    · next e m' he => simpa only [he] using hj
    · next m' he =>
      rw [he] at hj
      exact hj.trans (ih m')

private theorem transport_openChannel : (m.openChannel h).2.transport = m.transport := by
  unfold openChannel
  split <;> rfl

theorem transport_closeChannel (channel : Option Nat) :
    (m.closeChannel h channel).transport = m.transport := by
  cases channel <;> rfl

theorem stack_closeChannel (channel : Option Nat) :
    (m.closeChannel h channel).stack = m.stack := by
  cases channel <;> rfl

theorem stack_stopWatching : (m.stopWatching h).stack = m.stack := by
  unfold stopWatching
  split <;> rfl

private theorem row_renewSync : Row .wiring m.ledger (m.renewSync h).2.ledger := by
  have ho := row_openChannel h m
  unfold renewSync
  split
  · next e m' he => simpa only [he] using ho
  · next descriptor m' he =>
    rw [he] at ho
    exact (ho.tail (.renewSync m'.ledger descriptor)).trans (row_closeChannel h
      (m'.adjust fun t ↦ { t with syncChannel := some descriptor }) m'.transport.syncChannel)

theorem transport_renewSync {m m' : Machine σ ν} (he : m.renewSync h = (.ok (), m')) :
    ∃ descriptor, m'.transport = { m.transport with syncChannel := some descriptor } := by
  have ht := transport_openChannel h m
  unfold renewSync at he
  split at he
  · simp at he
  · next descriptor m'' ho =>
    rw [ho] at ht
    rw [← (Prod.mk.inj he).2, transport_closeChannel]
    exact ⟨descriptor, by rw [← ht]; rfl⟩

private theorem row_renewAsync (hh : m.transport.isHeld = true) (hw : m.transport.watched = none) :
    Row .wiring m.ledger (m.renewAsync h).2.ledger := by
  have ho := row_openChannel h m
  have ht := transport_openChannel h m
  unfold renewAsync
  split
  · next e m' he => simpa only [he] using ho
  · next descriptor m' he =>
    rw [he] at ho ht
    have hheld : m'.transport.isHeld = true := by rw [ht, hh]
    have hwatched : m'.transport.watched = none := by rw [ht, hw]
    exact (ho.tail (.renewAsync m'.ledger descriptor hheld hwatched)).trans (row_closeChannel h
      (m'.adjust fun t ↦ { t with asyncChannel := some descriptor }) m'.transport.asyncChannel)

theorem transport_renewAsync {m m' : Machine σ ν} (he : m.renewAsync h = (.ok (), m')) :
    ∃ descriptor, m'.transport = { m.transport with asyncChannel := some descriptor } := by
  have ht := transport_openChannel h m
  unfold renewAsync at he
  split at he
  · simp at he
  · next descriptor m'' ho =>
    rw [ho] at ht
    rw [← (Prod.mk.inj he).2, transport_closeChannel]
    exact ⟨descriptor, by rw [← ht]; rfl⟩

/-- What a start leads to unless the transport is started: one of the channels is refused, or both
are there and the family is looked up. -/
inductive SetsOut (next : Except Error Unit → Program σ ν) : Machine σ ν → Prop where
  | noSync {m' : Machine σ ν} (e : Error) (hr : Row .wiring m.ledger m'.ledger)
    (he : (m.stopWatching h).renewSync h = (.error e, m')) : SetsOut next (m'.run (next (.error e)))
  | noAsync {m' m'' : Machine σ ν} (e : Error) (hr : Row .wiring m.ledger m''.ledger)
    (he : (m.stopWatching h).renewSync h = (.ok (), m'))
    (he' : m'.renewAsync h = (.error e, m'')) : SetsOut next (m''.run (next (.error e)))
  | looksUp {m' m'' : Machine σ ν} (sync async : Nat) (hr : Row .wiring m.ledger m''.ledger)
    (he : (m.stopWatching h).renewSync h = (.ok (), m')) (he' : m'.renewAsync h = (.ok (), m''))
    (ht : m''.transport = { m.transport with
      watched := none, syncChannel := some sync, asyncChannel := some async }) :
    SetsOut next (m''.discover h m.transport.config.familyName (.start next))

theorem setsOut_start (next : Except Error Unit → Program σ ν) (hh : m.transport.isHeld = true)
    (hs : m.transport.isStarted = false) : SetsOut h m next (m.start h next) := by
  have hsync := (row_stopWatching h m).trans (row_renewSync h (m.stopWatching h))
  simp only [start, hs, Bool.false_eq_true, if_false]
  split
  · next e m' he => exact .noSync e (by rwa [he] at hsync) he
  · next m' he =>
    rw [he] at hsync
    obtain ⟨sync, ht⟩ := transport_renewSync h he
    rw [transport_stopWatching] at ht
    have hasync := hsync.trans (row_renewAsync h m' (by rw [ht, hh]) (by rw [ht]))
    split
    · next e m'' he' => exact .noAsync e (by rwa [he'] at hasync) he he'
    · next m'' he' =>
      rw [he'] at hasync
      obtain ⟨async, ht'⟩ := transport_renewAsync h he'
      rw [ht] at ht'
      have hconfig : m''.transport.config = m.transport.config := by rw [ht']
      rw [hconfig]
      exact .looksUp sync async hasync he he' ht'

/-! ### Exchanges -/

private theorem row_finishStart (next : Except Error Unit → Program σ ν) :
    Row .wiring m.ledger (m.finishStart h next).ledger := by
  have hs := row_startWatching h m
  unfold finishStart
  split
  · next e m' he =>
    rw [he] at hs
    exact hs
  · next m' he =>
    rw [he] at hs
    have hj := row_joinGroups h m' m'.transport.config.multicastGroups
    split
    · next e m'' he' =>
      rw [he'] at hj
      exact hs.trans hj
    · next m'' he' =>
      rw [he'] at hj
      exact (hs.trans hj).tail (.started m''.ledger)

/-- Handing over a family is a matter of wiring. -/
theorem row_handFamily (discoverer : Discoverer σ ν) (outcome : Except Error Family) :
    Row .wiring m.ledger (m.handFamily h discoverer outcome).ledger := by
  unfold handFamily
  split
  · exact .refl
  · exact .refl
  · exact row_finishStart h m _

/-- Once a family is known, handing over the outcome of an exchange is a matter of wiring. -/
theorem row_handReplies (waiter : Waiter σ ν) (outcome : Except Error (List Packet)) :
    Row .wiring { m.ledger with families := waiter.learn m.transport.families outcome }
      (m.handReplies h waiter outcome).ledger := by
  cases waiter with
  | client next => exact .refl
  | discovery name discoverer =>
    cases ho : outcome.bind (Family.ofReplies name) with
    | error e =>
      simp only [handReplies, Waiter.learn, ho]
      exact row_handFamily h m _ _
    | ok family =>
      simp only [handReplies, Waiter.learn, ho]
      exact row_handFamily h (m.adjust (·.remember name family)) _ _

private theorem moves_endExchange {l : Ledger σ ν} {kind : MoveKind} {sequence : UInt32}
    {outcome} (waiter : Waiter σ ν)
    (hl : Move l kind { (m.log (.exchangeEnded sequence outcome)).ledger with
      families := waiter.learn m.transport.families outcome }) :
    Moves l (m.endExchange h sequence waiter outcome).ledger :=
  hl.moves.trans (row_handReplies h (m.log (.exchangeEnded sequence outcome)) waiter outcome).moves

private theorem moves_failExchange {l : Ledger σ ν} {kind : MoveKind} {sequence : UInt32}
    {e : Error} (waiter : Waiter σ ν)
    (hl : Move l kind
      ((m.adjust (·.forget sequence)).log (.exchangeEnded sequence (.error e))).ledger) :
    Moves l (m.failExchange h sequence waiter e).ledger := by
  apply moves_endExchange h (m.adjust (·.forget sequence)) waiter
  rw [Waiter.learn_error]
  exact hl

private theorem moves_beginExchange (request : Packet) (waiter : Waiter σ ν)
    (hh : m.transport.isHeld = true) :
    Moves m.ledger (m.beginExchange h request waiter).ledger := by
  unfold beginExchange
  split
  · apply moves_endExchange h m waiter
    rw [Waiter.learn_error]
    exact .reject m.ledger _ (by simp)
  · next hn =>
    cases hc : m.transport.syncChannel with
    | none =>
      exact moves_failExchange h _ waiter (.refuse m.ledger _ _ [] hn hh (by simp) (.inl rfl))
    | some descriptor =>
      simp only [send]
      split
      · next e m' he =>
        obtain ⟨hr, rfl⟩ := Prod.mk.inj he
        refine moves_failExchange h _ waiter (.refuse m.ledger _ e [.sent descriptor
          request.toBytes _] hn hh ?_ (.inr ⟨_, _, _, rfl⟩))
        rintro budget rfl
        split at hr
        · simp at hr
        · split at hr <;> simp at hr
      · next m' he =>
        obtain ⟨hr, rfl⟩ := Prod.mk.inj he
        split at hr
        · simp at hr
        · next count ho =>
          rw [ho]
          exact (Move.begin m.ledger request.sequence waiter _ descriptor count request.toBytes hn
            hh hc).moves

/-- What is to be dispatched after a datagram was read are its messages. -/
theorem messagesOf_eq_ok {outcome : Except SystemFault Reception} {packets : List Packet}
    (ho : messagesOf outcome = .ok packets) : Event.messagesIn outcome = packets := by
  unfold messagesOf at ho
  unfold Event.messagesIn
  cases outcome with
  | error fault =>
    simp only at ho
    split at ho
    · exact Except.ok.inj ho
    · contradiction
  | ok reception =>
    simp only at ho ⊢
    cases hp : Packet.parseDatagram reception.datagram with
    | error e => simpa [hp] using ho
    | ok ps => simpa [hp] using ho

/-- An attempt to receive fails only with a fault of the system. -/
theorem messagesOf_eq_error {outcome : Except SystemFault Reception} {e : Error}
    (ho : messagesOf outcome = .error e) :
    ∃ fault, outcome = .error fault ∧ e = .io fault := by
  unfold messagesOf at ho
  cases outcome with
  | error fault =>
    simp only at ho
    split at ho
    · contradiction
    · exact ⟨fault, rfl, (Except.error.inj ho).symm⟩
  | ok reception =>
    simp only at ho
    split at ho <;> contradiction

private theorem moves_turnExchange (x : Exchange σ ν) :
    Moves (m.push (.collecting x)).ledger (m.turnExchange h x).ledger := by
  let l := (m.push (.collecting x)).ledger
  unfold turnExchange
  split
  · next hp =>
    rcases hn : h.now m.world with ⟨instant, world⟩
    simp only [readClock, hn, after]
    by_cases hb : m.transport.config.syncTimeout.nanos ≤ instant - x.begun
    · simp only [hb, if_true]
      exact moves_failExchange h _ x.waiter (.timeout l x m.stack _ rfl hp hb)
    · simp only [hb, if_false]
      have hl : instant - x.begun < m.transport.config.syncTimeout.nanos := by omega
      cases hc : m.transport.syncChannel with
      | none =>
        have hclock : Move l .routine (l.log (.clockRead instant)) := .entry l _ rfl rfl
        exact hclock.moves.trans
          (moves_failExchange h _ x.waiter (.fail _ x m.stack _ rfl (by simp)))
      | some descriptor =>
        rcases hw : h.poll descriptor (m.transport.config.syncTimeout.nanos - (instant - x.begun))
          world with ⟨waited, world'⟩
        simp only [poll, hw, after]
        have hpoll := (Move.poll l x m.stack instant descriptor waited rfl hp hl).moves
        cases waited with
        | error fault =>
          exact hpoll.trans (moves_failExchange h _ x.waiter (.fail _ x m.stack _ rfl (by simp)))
        | ok ready =>
          cases ready with
          | false => exact hpoll
          | true =>
            rcases hr : h.receive descriptor m.transport.config.receiveBufferSize world'
              with ⟨outcome, world''⟩
            simp only [Error.mapError_io_ok, hc, receive, hr, after]
            cases ho : messagesOf outcome with
            | error e =>
              obtain ⟨fault, rfl, rfl⟩ := messagesOf_eq_error ho
              have hread := hpoll.tail
                ⟨.routine, .entry _ (.received descriptor (.error fault)) rfl rfl⟩
              exact hread.trans
                (moves_failExchange h _ x.waiter (.fail _ x m.stack _ rfl (by simp)))
            | ok packets =>
              rw [← messagesOf_eq_ok ho]
              exact hpoll.tail ⟨.routine, .read _ descriptor outcome rfl⟩
  · next hp =>
    have hg : m.transport.pending.get? x.sequence = none := by
      simpa [Table.contains] using hp
    exact moves_endExchange h m x.waiter (.finish l x m.stack rfl hg)

private theorem moves_discover (name : String) (discoverer : Discoverer σ ν)
    (hh : m.transport.isHeld = true) : Moves m.ledger (m.discover h name discoverer).ledger := by
  have hcount := (Move.count m.ledger).moves
  simp only [discover]
  split
  · exact hcount.trans (row_handFamily h (m.adjust Transport.advance) _ _).moves
  · exact hcount.trans (moves_beginExchange h (m.adjust Transport.advance) _ _ hh)

private theorem moves_start (next : Except Error Unit → Program σ ν)
    (hh : m.transport.isHeld = true) : Moves m.ledger (m.start h next).ledger := by
  cases hs : m.transport.isStarted with
  | true =>
    simp only [start, hs, if_true]
    exact .refl
  | false =>
    have hout := setsOut_start h m next hh hs
    generalize m.start h next = m' at hout ⊢
    cases hout with
    | noSync e hr he => exact hr.moves
    | noAsync e hr he he' => exact hr.moves
    | looksUp sync async hr he he' ht =>
      exact hr.moves.trans (moves_discover h _ _ _ (by rw [ht, hh]))

private theorem row_register (request : Packet) (react : Journal ν → Packet → Program σ ν)
    (hh : m.transport.isHeld = true) :
    Row .request m.ledger (m.register h request react).2.ledger := by
  unfold register
  split
  · exact .refl
  · split
    · exact .refl
    · next hn =>
      cases hc : m.transport.asyncChannel with
      | none => exact .refl
      | some descriptor =>
        simp only [send]
        have hsent : Row .request m.ledger (m.ledger.log (.sent descriptor request.toBytes
          (h.send descriptor request.toBytes m.world).1)) := .single (.entry m.ledger _ rfl rfl)
        split
        · next e m' he =>
          obtain ⟨-, rfl⟩ := Prod.mk.inj he
          exact hsent
        · next m' he =>
          obtain ⟨-, rfl⟩ := Prod.mk.inj he
          exact hsent.tail (.register _ request.sequence react hn hh)

/-! ### Callbacks, client code and teardown -/

private theorem row_fireWatch (descriptor : Nat) (hd : descriptor ∈ m.watches) :
    Row .routine m.ledger (m.fireWatch h descriptor).ledger := by
  have hfire : Row .routine m.ledger (m.push (.firing descriptor)).ledger :=
    .single (.fire m.ledger descriptor hd)
  unfold fireWatch
  cases hc : m.transport.asyncChannel with
  | none => exact hfire
  | some channel =>
    rcases hr : h.receive channel m.transport.config.receiveBufferSize m.world
      with ⟨outcome, world⟩
    simp only [receive, push, hr, after]
    cases ho : messagesOf outcome with
    | error e =>
      obtain ⟨fault, rfl, -⟩ := messagesOf_eq_error ho
      exact hfire.tail (.entry _ (.received channel (.error fault)) rfl rfl)
    | ok packets =>
      rw [← messagesOf_eq_ok ho]
      exact hfire.tail (.read _ channel outcome rfl)

/-- A callback that can begin is that of a watch, and is not running. -/
theorem of_canFire {m : Machine σ ν} {descriptor : Nat}
    (hf : m.canFire descriptor = .fired) :
    descriptor ∈ m.watches ∧ m.stack.any (Frame.fires descriptor) = false := by
  unfold canFire at hf
  split at hf
  · contradiction
  · next hw =>
    split at hf
    · contradiction
    · next hs => exact ⟨by simpa using hw, by simpa using hs⟩

private theorem row_turnVigil (v : Vigil σ ν) :
    Row .routine m.ledger (m.turnVigil h v).ledger := by
  unfold turnVigil
  by_cases hg : (v.wanted m.journal && !v.isDraining) = true
  · simp only [hg, if_true]
    exact .refl
  · rcases hn : h.now m.world with ⟨instant, world⟩
    simp only [hg, Bool.false_eq_true, if_false, readClock, hn]
    generalize (if v.wanted m.journal = true then some 0
      else v.budget.map (· - (instant - v.begun))) = timeout
    rcases ha : h.await m.watches timeout world with ⟨readable, world'⟩
    simp only [after, ha]
    have hclock : Row .routine m.ledger (m.ledger.log (.clockRead instant)) :=
      .single (.entry m.ledger _ rfl rfl)
    have hwait := hclock.tail (.entry _ (.awaited timeout readable) rfl rfl)
    split
    · exact hwait
    · next descriptor =>
      split
      · next hf =>
        have hd := (of_canFire hf).1
        refine .trans ?_ (row_fireWatch h _ descriptor ?_)
        · exact hwait.tail (.push _ _ rfl)
        · exact hd
      · exact hwait

private theorem aside_tearDown (ha : m.isAbandoned = true) : Aside m (m.tearDown h).ledger := by
  have hs := row_stopWatching h m
  have hasync := row_closeChannel h (m.stopWatching h) m.transport.asyncChannel
  have hsync := row_closeChannel h ((m.stopWatching h).closeChannel h m.transport.asyncChannel)
    m.transport.syncChannel
  simp only [isAbandoned, Bool.and_eq_true, Bool.not_eq_true'] at ha
  refine .teardown ((hs.trans hasync).trans hsync) (.takeDown _ ?_ ?_ ?_)
  · simp only [ledger, transport_closeChannel, transport_stopWatching, ha.1.2]
  · simp only [ledger, stack_closeChannel, stack_stopWatching, ha.2]
  · simp only [ledger, transport_closeChannel, transport_stopWatching]

/-- A call that asks for no exchange. -/
private theorem aside_call {program : Program σ ν} (hc : m.control = .run program)
    (hh : program.needsHandle = true → m.transport.isHeld = true) (ha : m.asks? = none) :
    Aside m (m.call h program).ledger := by
  cases program with
  | note note next => exact .routine (.single (.entry m.ledger (.noted note) rfl rfl))
  | release next => exact .state (.release m.ledger)
  | start next =>
    have hstarted : m.transport.isStarted = true := by
      simpa [asks?, hc] using ha
    simp only [call, start, hstarted, if_true]
    exact .routine .refl
  | discover name next => simp [asks?, hc] at ha
  | nextSequence next => exact .state (.count m.ledger)
  | newRequest command next =>
    simp only [call, Transport.request]
    split
    · exact .routine .refl
    · exact .state (.count m.ledger)
  | joinGroup group next => exact .wiring (row_joinGroup h m group)
  | leaveGroup group next => exact .routine (row_leaveGroup h m group)
  | collect request next => simp [asks?, hc] at ha
  | register request react next => exact .request hc (row_register h m request react (hh rfl))
  | subscribeScan ifindex react next =>
    exact .subscription hc rfl (hh rfl) (.subscribe m.ledger _ m.transport.schedules)
  | unsubscribeScan ifindex next =>
    exact .subscription hc rfl (hh rfl) (.unsubscribe m.ledger _ m.transport.schedules)
  | subscribeSchedule ifindex react next =>
    exact .subscription hc rfl (hh rfl) (.subscribe m.ledger m.transport.scans _)
  | unsubscribeSchedule ifindex next =>
    exact .subscription hc rfl (hh rfl) (.unsubscribe m.ledger m.transport.scans _)
  | fire descriptor next =>
    simp only [call]
    split
    · next hf =>
      have hpush : Row .routine m.ledger (m.push (.returning (next .fired))).ledger :=
        .single (.push m.ledger _ rfl)
      exact .routine (hpush.trans (row_fireWatch h (m.push _) descriptor (of_canFire hf).1))
    · exact .routine .refl
  | await wanted budget next =>
    have hclock : Row .routine m.ledger (m.ledger.log (.clockRead (h.now m.world).1)) :=
      .single (.entry m.ledger _ rfl rfl)
    exact .routine (hclock.tail (.push _ _ rfl))
  | _ => exact .routine .refl

/-! ### Steps -/

/-- A frame that goes on and is neither an exchange nor about to dispatch a message. -/
private theorem row_goOn (frame : Frame σ ν) (hx : ∀ x, frame ≠ .collecting x)
    (hd : ∀ p rest, frame ≠ .dispatching (p :: rest)) :
    Row .routine (m.push frame).ledger (m.goOn h frame).ledger := by
  have hpop (hf : frame.isPlain = true) : Row .routine (m.push frame).ledger m.ledger :=
    .single (.pop _ frame m.stack hf rfl)
  cases frame with
  | collecting x => exact absurd rfl (hx x)
  | dispatching rest =>
    cases rest with
    | nil => exact hpop rfl
    | cons p rest => exact absurd rfl (hd p rest)
  | replying sequence handler again =>
    cases again with
    | true => exact .single (.settle _ sequence handler true m.stack rfl)
    | false => exact .single (.settle _ sequence handler false m.stack rfl)
  | notifying subscription => exact hpop rfl
  | firing descriptor => exact hpop rfl
  | returning program => exact hpop rfl
  | awaiting v => exact (hpop rfl).trans (row_turnVigil h m v)

/-- A step that dispatches no message, asks for no exchange and is not the turn of one makes moves
of one kind. -/
theorem aside_step (hd : m.due? = none) (ha : m.asks? = none ∨ m.transport.isHeld = false)
    (ht : ∀ x stack, m.stack = .collecting x :: stack → m.control ≠ .resume) :
    Aside m (m.step h).ledger := by
  unfold step
  by_cases hab : m.isAbandoned = true
  · simp only [hab, if_true]
    exact aside_tearDown h m hab
  · simp only [hab, Bool.false_eq_true, if_false]
    cases hc : m.control with
    | run program =>
      simp only
      split
      · exact .routine .refl
      · next hn =>
        apply aside_call h m hc
        · intro hp
          simpa [hp] using hn
        · rcases ha with ha | hheld
          · exact ha
          · -- Code without a handle gets here only with calls that need none.
            cases program <;> simp_all [asks?, Program.needsHandle]
    | resume =>
      simp only
      cases hst : m.stack with
      | nil => exact .routine .refl
      | cons frame stack =>
        let popped : Machine σ ν := { m with stack, control := .resume }
        have hm : m.ledger = (popped.push frame).ledger := by
          simp only [ledger, push, hst, popped]
        refine .routine (hm ▸ row_goOn h popped frame ?_ ?_)
        · rintro x rfl
          exact ht x stack hst hc
        · rintro p rest rfl
          simp [due?, hc, hst] at hd

/-- A step that asks for an exchange makes moves. -/
private theorem moves_of_asks (ha : m.asks? ≠ none) (hh : m.transport.isHeld = true) :
    Moves m.ledger (m.step h).ledger := by
  unfold asks? at ha
  split at ha
  · next request next hc =>
    rw [step_eq_call h hc hh]
    exact moves_beginExchange h m request _ hh
  · next name next hc =>
    rw [step_eq_call h hc hh]
    exact moves_discover h m name _ hh
  · next next hc =>
    rw [step_eq_call h hc hh]
    exact moves_start h m next hh
  · contradiction

/-- A step that dispatches no message makes moves. -/
theorem moves_step (hd : m.due? = none) : Moves m.ledger (m.step h).ledger := by
  by_cases hturn : ∃ x stack, m.stack = .collecting x :: stack ∧ m.control = .resume
  · obtain ⟨x, stack, hs, hc⟩ := hturn
    have hm : m.ledger = (({ m with stack } : Machine σ ν).push (.collecting x)).ledger := by
      simp only [ledger, push, hs]
    rw [step_of_collecting h hc hs, hm]
    exact moves_turnExchange h { m with stack } x
  · by_cases hasks : m.asks? = none ∨ m.transport.isHeld = false
    · exact (aside_step h m hd hasks fun x stack hs hc ↦ hturn ⟨x, stack, hs, hc⟩).moves
    · rw [not_or, Bool.not_eq_false] at hasks
      exact moves_of_asks h m hasks.1 hasks.2

/-- Dispatching the message that is due changes the ledger as the kind of the message says. -/
theorem dispatch_step {p : Packet} (hd : m.due? = some p) :
    Dispatch p m.ledger (m.step h).ledger := by
  obtain ⟨rest, stack, hs, hstep⟩ := step_of_due h hd
  rw [hstep]
  unfold dispatch
  by_cases hp : p.sequence = 0
  · have hpass := Dispatch.pass m.ledger rest stack hs (.inl hp)
    simp only [hp, if_true]
    unfold dispatchMulticast
    split
    · exact hpass
    · next n _ =>
      unfold notify
      split
      · exact hpass
      · next s _ =>
        split
        · exact hpass
        · exact .notify m.ledger rest stack s.number _ hs hp (.inl ⟨n, rfl⟩)
    · next ifindex _ =>
      unfold notify
      split
      · exact hpass
      · next s _ =>
        split
        · exact hpass
        · exact .notify m.ledger rest stack s.number _ hs hp (.inr ⟨ifindex, rfl⟩)
  · simp only [hp, if_false]
    unfold dispatchReply
    split
    · next hg => exact .pass m.ledger rest stack hs (.inr hg)
    · next handler hg =>
      cases hdel : p.delivery with
      | finish => exact .close m.ledger rest stack handler hs hp hg hdel
      | handOn =>
        cases handler with
        | gather number =>
          have hgather := Dispatch.gather m.ledger rest stack number hs hp hg (by simp [hdel])
          simp only [hdel, if_true] at hgather
          exact hgather
        | client react =>
          have hcall := Dispatch.call m.ledger rest stack react hs hp hg (by simp [hdel])
          simp only [hdel, decide_true] at hcall
          exact hcall
      | handLast =>
        cases handler with
        | gather number =>
          have hgather := Dispatch.gather m.ledger rest stack number hs hp hg (by simp [hdel])
          simp only [hdel, reduceCtorEq, if_false] at hgather
          exact hgather
        | client react =>
          have hcall := Dispatch.call m.ledger rest stack react hs hp hg (by simp [hdel])
          simp only [hdel, reduceCtorEq, decide_false] at hcall
          exact hcall

end Machine

end WifiNetlink
