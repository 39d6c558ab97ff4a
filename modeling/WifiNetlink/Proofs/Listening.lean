import WifiNetlink.CommandLine.Session
import WifiNetlink.Proofs.Arrival
import WifiNetlink.Proofs.Lifecycle
import WifiNetlink.Proofs.Routing

/-!
# What a session hears

A session listens with handlers that note what is announced and do nothing else. Between two of its
calls messages are read, dispatched and heard: every message that is read is dispatched, and what is
heard is what the messages tell that are dispatched, in their order.
-/

namespace WifiNetlink

open CommandLine

variable {σ ν : Type}

/-- The end of a scan that a message announces to a handler: the message is multicast traffic of the
configured family about an interface with a subscription. -/
def Transport.tells? (t : Transport σ ν) (p : Packet) : Option ScanNotification :=
  if p.sequence = 0 then
    match t.family?.bind fun family ↦ Notice.ofPacket? family.id p with
    | some (.scan n) => (t.scans.get? n.ifindex).map fun _ ↦ n
    | _ => none
  else none

/-- What messages tell depends on the looked up families and the subscriptions. -/
theorem Transport.tells?_congr {t t' : Transport σ ν} (hw : t'.wiring = t.wiring)
    (hf : t'.families = t.families) : t'.tells? = t.tells? := by
  have hscans : t'.scans = t.scans := by
    simpa only [wiring] using congrArg Transport.scans hw
  have hconfig : t'.config = t.config := by
    simpa only [wiring] using congrArg Transport.config hw
  funext p
  simp only [tells?, family?, hf, hscans, hconfig]

/-- Whether these events are traffic to which a session listens: of the messages that were left to
dispatch and those that were read, all were dispatched but those that are left; what is heard is
what they told; and the datagrams were taken from their channels in the order of their arrival. -/
structure Journal.Hearing {h : Host σ} (I : h.Inboxes) (t : Transport σ Remark)
    (before after : List Packet) (world world' : σ) (new : Journal Remark) : Prop where
  dispatched : before ++ new.accepted = new.dispatched ++ after
  heard : new.notes.reverse = (new.dispatched.filterMap t.tells?).map fun n ↦ .heard (.scan n)
  taken : I.Passes (new.taken ·) world world'
  calm : ∀ e ∈ new, e.isQuiet = true ∨ ∃ n, e = .noted (.heard (.scan n))

namespace Journal.Hearing

variable {h : Host σ} {I : h.Inboxes} {t : Transport σ Remark} {before between after : List Packet}
  {world world' world'' : σ} {new new' : Journal Remark}

theorem append (hn : new.Hearing I t before between world world')
    (hn' : new'.Hearing I t between after world' world'') :
    (new' ++ new).Hearing I t before after world world'' := by
  constructor
  · rw [accepted_append, dispatched_append, ← List.append_assoc, hn.dispatched, List.append_assoc,
      hn'.dispatched, List.append_assoc]
  · have hnotes : Journal.notes (new' ++ new) = new'.notes ++ new.notes :=
      List.filterMap_append
    rw [hnotes, List.reverse_append, hn.heard, hn'.heard, dispatched_append,
      List.filterMap_append, List.map_append]
  · simpa only [taken_append] using hn.taken.trans hn'.taken
  · intro e he
    rcases List.mem_append.mp he with he | he
    · exact hn'.calm e he
    · exact hn.calm e he

/-- A call to the system, and a message that is told to nobody. -/
theorem single {e : Event Remark} (hd : before ++ e.accepted = e.dispatches ++ after)
    (ht : ∀ p ∈ e.dispatches, t.tells? p = none) (hq : e.isQuiet = true)
    (hw : I.Passes e.taken world world') : Hearing I t before after world world' [e] := by
  constructor
  · simpa [Journal.accepted, Journal.dispatched] using hd
  · have hnotes : Journal.notes [e] = [] := by
      cases e <;> first | rfl | cases hq
    have hnone : Journal.dispatched [e] = e.dispatches := by simp [Journal.dispatched]
    rw [hnotes, hnone, List.filterMap_eq_nil_iff.mpr ht]
    rfl
  · simpa [Journal.taken, Function.comp_def] using hw
  · exact List.forall_mem_singleton.mpr (.inl hq)

/-- A message that is told to the session. -/
theorem told {p : Packet} {n : ScanNotification} (ht : t.tells? p = some n) (number : Nat)
    (rest : List Packet) (world : σ) : Hearing I t (p :: rest) rest world world
      [.noted (.heard (.scan n)), .scanEnded number n, .dispatched p] where
  dispatched := by simp [Journal.accepted, Journal.dispatched, Event.accepted, Event.dispatches]
  heard := by simp [Journal.notes, Journal.dispatched, Event.dispatches, ht]
  taken := .refl world
  calm := by simp [Event.isQuiet]

/-- What was heard is told by messages that were dispatched, and every message that tells something
was heard. -/
theorem scansHeard_append (hn : new.Hearing I t before after world world')
    (journal : Journal Remark) : Script.scansHeard (new ++ journal) =
      Script.scansHeard journal ++ new.dispatched.filterMap t.tells? := by
  have hnotes : Journal.notes (new ++ journal) = new.notes ++ journal.notes :=
    List.filterMap_append
  simp only [Script.scansHeard, Script.heard, hnotes, List.reverse_append, hn.heard,
    List.filterMap_append, List.filterMap_map]
  congr 1
  simp

end Journal.Hearing

namespace Machine

variable {h : Host σ} (I : h.Inboxes) {before between after : List Packet}
  {m m' m'' : Machine σ Remark}

/-- Whether between two machines a session only listens. -/
structure Listens (before after : List Packet) (m m' : Machine σ Remark) : Prop
    extends m.KeepsWiring m' where
  families : m'.transport.families = m.transport.families
  journal : ∃ new, m'.journal = new ++ m.journal ∧
    Journal.Hearing I m.transport before after m.world m'.world new

namespace Listens

variable {I}

theorem refl (m : Machine σ Remark) (rest : List Packet) : m.Listens I rest rest m :=
  ⟨⟨rfl, rfl⟩, rfl, [], rfl, by simp [Journal.accepted, Journal.dispatched], rfl, .refl _, by simp⟩

theorem tells? (hm : m.Listens I before after m') : m'.transport.tells? = m.transport.tells? :=
  Transport.tells?_congr hm.wiring hm.families

theorem trans (hm : m.Listens I before between m') (hm' : m'.Listens I between after m'') :
    m.Listens I before after m'' := by
  obtain ⟨new, hj, hnew⟩ := hm.journal
  obtain ⟨new', hj', hnew'⟩ := hm'.journal
  refine ⟨⟨hm'.wiring.trans hm.wiring, hm'.watches.trans hm.watches⟩,
    hm'.families.trans hm.families, new' ++ new, by rw [hj', hj, List.append_assoc], ?_⟩
  refine hnew.append ⟨hnew'.dispatched, ?_, hnew'.taken, hnew'.calm⟩
  rw [← hm.tells?]
  exact hnew'.heard

/-- Which code goes on does not matter to what is heard. -/
theorem goesOn (hm : m.Listens I before after m') (stack : List (Frame σ Remark))
    (control : Control σ Remark) : m.Listens I before after { m' with stack, control } :=
  ⟨⟨hm.wiring, hm.watches⟩, hm.families, hm.journal⟩

/-- What the session hears while it listens comes after what it heard before. -/
theorem scansHeard (hm : m.Listens I before after m') :
    ∃ new, m'.journal = new ++ m.journal ∧ before ++ new.accepted = new.dispatched ++ after ∧
      Script.scansHeard m'.journal = Script.scansHeard m.journal ++
        new.dispatched.filterMap m.transport.tells? := by
  obtain ⟨new, hj, hnew⟩ := hm.journal
  exact ⟨new, hj, hnew.dispatched, hj ▸ hnew.scansHeard_append m.journal⟩

/-- Without subscriptions nothing is heard. -/
theorem calms (hm : m.Listens I before after m') (hs : m.transport.scans = []) : m.Calms m' := by
  obtain ⟨new, hj, hnew⟩ := hm.journal
  refine ⟨hm.toKeepsWiring, new, hj, fun e he ↦ ?_⟩
  have hnone (p : Packet) : m.transport.tells? p = none := by
    unfold Transport.tells?
    split
    · split
      · rw [hs]
        rfl
      · rfl
    · rfl
  have hnotes : new.notes = [] := by
    have hheard := hnew.heard
    rw [List.filterMap_eq_nil_iff.mpr fun p _ ↦ hnone p] at hheard
    simpa using hheard
  rcases hnew.calm e he with hq | ⟨n, rfl⟩
  · exact hq
  · have hmem : Remark.heard (.scan n) ∈ new.notes := List.mem_filterMap.mpr ⟨_, he, rfl⟩
    rw [hnotes] at hmem
    cases hmem

end Listens

/-! ### Calls to the system -/

/-- Whether between two machines the system was called, and the messages of a datagram were read. -/
structure Talks (read : List Packet) (m m' : Machine σ Remark) : Prop
    extends m.Listens I [] read m' where
  transport : m'.transport = m.transport
  stack : m'.stack = m.stack

variable {I} in
theorem Talks.trans {read : List Packet} (hm : m.Talks I [] m') (hm' : m'.Talks I read m'') :
    m.Talks I read m'' where
  toListens := hm.toListens.trans hm'.toListens
  transport := hm'.transport.trans hm.transport
  stack := hm'.stack.trans hm.stack

/-- One call to the system. -/
theorem talks_after (world : σ) (e : Event Remark) (hd : e.dispatches = [])
    (hq : e.isQuiet = true) (hw : I.Passes e.taken m.world world) :
    m.Talks I e.accepted (m.after world e) where
  wiring := rfl
  watches := rfl
  families := rfl
  journal := ⟨[e], rfl, .single (by simp [hd]) (by simp [hd]) hq hw⟩
  transport := rfl
  stack := rfl

theorem talks_readClock : m.Talks I [] (m.readClock h).2 :=
  talks_after I _ (.clockRead _) rfl rfl (.of_isPrefix fun channel ↦ I.now channel m.world)

theorem talks_send (channel : Option Nat) (p : Packet) : m.Talks I [] (m.send h channel p).2 := by
  cases channel with
  | none => exact ⟨.refl m [], rfl, rfl⟩
  | some descriptor =>
    exact talks_after I _ (.sent descriptor p.toBytes _) rfl rfl
      (.of_isPrefix fun channel ↦ I.send channel descriptor p.toBytes m.world)

theorem talks_poll (channel : Option Nat) (timeout : Nat) :
    m.Talks I [] (m.poll h channel timeout).2 := by
  cases channel with
  | none => exact ⟨.refl m [], rfl, rfl⟩
  | some descriptor =>
    exact talks_after I _ (.polled descriptor timeout _) rfl rfl
      (.of_isPrefix fun channel ↦ I.poll channel descriptor timeout m.world)

/-- The messages of a datagram that is received are to be dispatched. -/
theorem talks_receive (channel : Option Nat) {outcome : Except Error (List Packet)}
    (ho : (m.receive h channel).1 = outcome) :
    m.Talks I (outcome.toOption.getD []) (m.receive h channel).2 := by
  cases channel with
  | none =>
    subst ho
    exact ⟨.refl m [], rfl, rfl⟩
  | some descriptor =>
    let size := m.transport.config.receiveBufferSize
    have hread : Event.messagesIn (h.receive descriptor size m.world).1 =
        outcome.toOption.getD [] := by
      have ho : messagesOf (h.receive descriptor size m.world).1 = outcome := ho
      cases outcome with
      | error e =>
        obtain ⟨fault, hf, -⟩ := messagesOf_eq_error ho
        rw [hf]
        rfl
      | ok packets => exact messagesOf_eq_ok ho
    rw [← hread]
    exact talks_after I _ (.received descriptor _) rfl rfl
      fun channel ↦ I.receive channel descriptor size m.world

/-! ### Exchanges -/

/-- Nothing is heard in the end of an exchange. -/
theorem Listens.endExchange {I : h.Inboxes} (hm : m.Listens I [] [] m') (sequence : UInt32)
    (outcome : Except Error (List Packet)) :
    m.Listens I [] [] (m'.log (.exchangeEnded sequence outcome)) :=
  hm.trans ⟨⟨rfl, rfl⟩, rfl, [_], rfl, .single rfl (by simp [Event.dispatches]) rfl (.refl _)⟩

/-- What is known of a machine in which an exchange is about to end. -/
structure Concludes (m ready : Machine σ Remark) : Prop where
  listens : m.Listens I [] [] ready
  stack : ready.stack = m.stack
  gathers : m.OnlyGathers → ready.OnlyGathers

/-- What is known of a machine in which an exchange waits, perhaps with a datagram to dispatch. -/
structure Waits (x : Exchange σ Remark) (read : Option (List Packet)) (m m' : Machine σ Remark) :
    Prop where
  listens : m.Listens I [] (read.getD []) m'
  stack : m'.stack = read.toList.map .dispatching ++ .collecting x :: m.stack
  control : m'.control = .resume
  gathers : m.OnlyGathers → m'.OnlyGathers

variable {I} in
/-- An exchange that fails after the system was called. -/
private theorem Talks.concludes (ht : m.Talks I [] m') (sequence : UInt32) :
    m.Concludes I (m'.adjust (·.forget sequence)) where
  listens := ⟨⟨ht.wiring, ht.watches⟩, ht.families, ht.journal⟩
  stack := ht.stack
  gathers hg := (hg.congr (congrArg Transport.pending ht.transport)).forget sequence

/-- An exchange cannot begin, or its request is sent and it waits. -/
theorem beginExchange_cases (request : Packet) (waiter : Waiter σ Remark)
    (m : Machine σ Remark) :
    (∃ e ready, m.Concludes I ready ∧
      m.beginExchange h request waiter =
        ready.endExchange h request.sequence waiter (.error e)) ∨
    ∃ x channel outcome, x.waiter = waiter ∧ x.sequence = request.sequence ∧
      m.Waits I x none (m.beginExchange h request waiter) ∧
      .sent channel request.toBytes outcome ∈ (m.beginExchange h request waiter).journal := by
  by_cases hzero : request.sequence = 0
  · refine .inl ⟨.invalidMessage .reservedSequence, m, ⟨.refl m [], rfl, id⟩, ?_⟩
    simp only [beginExchange, hzero, if_true]
  · let ready := ((m.adjust (·.expect request.sequence (.gather m.nextNumber))).log
      (.exchangeBegan request.sequence)).advance
    have hready : m.Listens I [] [] ready :=
      ⟨⟨rfl, rfl⟩, rfl, [.exchangeBegan request.sequence], rfl,
        .single rfl (by simp [Event.dispatches]) rfl (.refl _)⟩
    have hgathers (hg : m.OnlyGathers) : ready.OnlyGathers :=
      hg.expect request.sequence m.nextNumber
    have hsend := talks_send I (m := ready) m.transport.syncChannel request
    rcases hs : ready.send h m.transport.syncChannel request with ⟨outcome, sent⟩
    rw [hs] at hsend
    cases outcome with
    | error e =>
      have hbegin : m.beginExchange h request waiter =
          sent.failExchange h request.sequence waiter e := by
        simp only [beginExchange, hzero, if_false]
        rw [hs]
      obtain ⟨hl, hstack, hg⟩ := hsend.concludes request.sequence
      exact .inl ⟨e, _, ⟨hready.trans hl, hstack, fun hm ↦ hg (hgathers hm)⟩, hbegin⟩
    | ok _ =>
      have hbegin : m.beginExchange h request waiter =
          ((sent.readClock h).2.push (.collecting ⟨m.nextNumber, request.sequence,
            (sent.readClock h).1, [], waiter⟩)).resume := by
        simp only [beginExchange, hzero, if_false]
        rw [hs]
      rw [hbegin]
      have hclock := talks_readClock I (m := sent)
      have hwaits := hsend.trans hclock
      obtain ⟨hkeeps, hfamilies, hjournal⟩ := hready.trans hwaits.toListens
      obtain ⟨channel, outcome, hmem⟩ : ∃ channel outcome,
          .sent channel request.toBytes outcome ∈ sent.journal := by
        unfold send at hs
        split at hs
        · cases hs
        · obtain ⟨-, rfl⟩ := Prod.mk.inj hs
          exact ⟨_, _, List.mem_cons_self⟩
      refine .inr ⟨⟨m.nextNumber, request.sequence, (sent.readClock h).1, [], waiter⟩, channel,
        outcome, rfl, rfl, ⟨⟨⟨hkeeps.wiring, hkeeps.watches⟩, hfamilies, hjournal⟩,
          congrArg (List.cons _) hwaits.stack, rfl, fun hm ↦ ?_⟩, ?_⟩
      · exact (hgathers hm).congr (congrArg Transport.pending hwaits.transport)
      · obtain ⟨new, hj, -⟩ := hclock.journal
        change _ ∈ (sent.readClock h).2.journal
        rw [hj]
        exact List.mem_append_right _ hmem

/-- An exchange that takes a turn ends or goes on to wait. -/
theorem turnExchange_cases (x : Exchange σ Remark) (m : Machine σ Remark) :
    (∃ outcome ready, m.Concludes I ready ∧
      m.turnExchange h x = ready.endExchange h x.sequence x.waiter outcome) ∨
    ∃ read, m.Waits I x read (m.turnExchange h x) := by
  -- The system is called step by step, and what fails ends the exchange.
  have hwaits {m' : Machine σ Remark} (ht : m.Talks I [] m') :
      m.Waits I x none (m'.push (.collecting x)).resume :=
    ⟨ht.goesOn _ _, congrArg (List.cons _) ht.stack, rfl,
      fun hg ↦ hg.congr (congrArg Transport.pending ht.transport)⟩
  unfold turnExchange
  split
  · have hclock := talks_readClock I (m := m)
    rcases hn : m.readClock h with ⟨instant, m₁⟩
    rw [hn] at hclock
    dsimp only
    split
    · exact .inl ⟨_, _, hclock.concludes x.sequence, rfl⟩
    · have hpoll := hclock.trans (talks_poll I (m := m₁) m₁.transport.syncChannel
        (m₁.transport.config.syncTimeout.nanos - (instant - x.begun)))
      split
      · next e m₂ he =>
        rw [he] at hpoll
        exact .inl ⟨_, _, hpoll.concludes x.sequence, rfl⟩
      · next m₂ he =>
        rw [he] at hpoll
        exact .inr ⟨none, hwaits hpoll⟩
      · next m₂ he =>
        rw [he] at hpoll
        split
        · next e m₃ hr =>
          have hread := hpoll.trans (talks_receive I m₂.transport.syncChannel
            (congrArg Prod.fst hr))
          rw [hr] at hread
          exact .inl ⟨_, _, hread.concludes x.sequence, rfl⟩
        · next packets m₃ hr =>
          have hread := hpoll.trans (talks_receive I m₂.transport.syncChannel
            (congrArg Prod.fst hr))
          rw [hr] at hread
          exact .inr ⟨some packets, hread.goesOn _ _,
            congrArg (List.cons _) (congrArg (List.cons _) hread.stack), rfl,
            fun hg ↦ hg.congr (congrArg Transport.pending hread.transport)⟩
  · exact .inl ⟨_, m, ⟨.refl m [], rfl, id⟩, rfl⟩

/-! ### Messages that are dispatched -/

/-- Whether all handlers are those of a session: replies are gathered for exchanges, and of scans it
is noted that they ended. -/
structure OnlyHears (m : Machine σ Remark) : Prop where
  pending : m.OnlyGathers
  scans : ∀ ifindex s, m.transport.scans.get? ifindex = some s → s.react = Script.hear
  schedules : m.transport.schedules = []

/-- Which handlers there are is up to the transport. -/
theorem OnlyHears.congr (hm : m.OnlyHears) (ht : m'.transport = m.transport) : m'.OnlyHears where
  pending := hm.pending.congr (congrArg Transport.pending ht)
  scans := by
    rw [ht]
    exact hm.scans
  schedules := ht ▸ hm.schedules

/-- The handlers of notifications stay where channels and subscriptions do. -/
theorem OnlyHears.keep (hm : m.OnlyHears) (hk : m.KeepsWiring m') (hp : m'.OnlyGathers) :
    m'.OnlyHears := by
  obtain ⟨hscans, hschedules⟩ := Prod.mk.inj hk.subscriptions
  refine ⟨hp, ?_, hschedules.trans hm.schedules⟩
  rw [hscans]
  exact hm.scans

/-- What the dispatch of a message leads to. -/
inductive Hands (p : Packet) (m m' : Machine σ Remark) : Prop where
  /-- The message is gathered for an exchange, or for nobody. -/
  | passed (ht : m.transport.tells? p = none) (hc : m'.control = .resume)
    (hj : m'.journal = .dispatched p :: m.journal)
    (hs : m'.stack = m.stack ∨ ∃ number, m'.stack = m.stack.map (Frame.gather number p))
  /-- The message is told to the session. -/
  | told (n : ScanNotification) (number : Nat) (ht : m.transport.tells? p = some n)
    (hc : m'.control = .run (.note (.heard (.scan n)) .done))
    (hj : m'.journal = .scanEnded number n :: .dispatched p :: m.journal)
    (hs : m'.stack = .notifying number :: m.stack)

section dispatch

variable (hm : m.OnlyHears) (p : Packet)
include hm

private theorem OnlyHears.hands_dispatchMulticast
    (hfree : ∀ number, m.stack.any (Frame.notifies number) = false) (hp : p.sequence = 0) :
    m.Hands p ((m.log (.dispatched p)).dispatchMulticast p) ∧
      ((m.log (.dispatched p)).dispatchMulticast p).transport = m.transport ∧
      ((m.log (.dispatched p)).dispatchMulticast p).watches = m.watches ∧
      ((m.log (.dispatched p)).dispatchMulticast p).world = m.world := by
  have hlog : (m.log (.dispatched p)).transport = m.transport := rfl
  have hpassed (ht : m.transport.tells? p = none) :
      m.Hands p (m.log (.dispatched p)).resume := .passed ht rfl rfl (.inl rfl)
  have htells : m.transport.tells? p =
      match m.transport.family?.bind fun family ↦ Notice.ofPacket? family.id p with
      | some (.scan n) => (m.transport.scans.get? n.ifindex).map fun _ ↦ n
      | _ => none := if_pos hp
  unfold dispatchMulticast
  rw [hlog]
  cases hn : m.transport.family?.bind fun family ↦ Notice.ofPacket? family.id p with
  | none =>
    rw [hn] at htells
    exact ⟨hpassed htells, rfl, rfl, rfl⟩
  | some notice =>
    rw [hn] at htells
    cases notice with
    | schedule ifindex =>
      dsimp only
      rw [hm.schedules]
      exact ⟨hpassed htells, rfl, rfl, rfl⟩
    | scan n =>
      dsimp only at htells ⊢
      cases hs : m.transport.scans.get? n.ifindex with
      | none =>
        rw [hs] at htells
        exact ⟨hpassed htells, rfl, rfl, rfl⟩
      | some s =>
        rw [hs] at htells
        have hidle : (m.log (.dispatched p)).stack.any (Frame.notifies s.number) = false :=
          hfree s.number
        simp only [notify, hidle, Bool.false_eq_true, if_false]
        refine ⟨.told n s.number htells ?_ rfl rfl, rfl, rfl, rfl⟩
        rw [hm.scans _ _ hs]
        rfl

private theorem OnlyHears.hands_dispatchReply (hp : p.sequence ≠ 0) :
    m.Hands p ((m.log (.dispatched p)).dispatchReply p) ∧
      ((m.log (.dispatched p)).dispatchReply p).OnlyGathers ∧
      m.KeepsWiring ((m.log (.dispatched p)).dispatchReply p) ∧
      ((m.log (.dispatched p)).dispatchReply p).transport.families = m.transport.families ∧
      ((m.log (.dispatched p)).dispatchReply p).world = m.world := by
  have htells : m.transport.tells? p = none := if_neg hp
  have hforgotten := hm.pending.forget p.sequence
  unfold dispatchReply
  split
  · exact ⟨.passed htells rfl rfl (.inl rfl), hm.pending, ⟨rfl, rfl⟩, rfl, rfl⟩
  · next handler hg =>
    obtain ⟨number, rfl⟩ := hm.pending _ _ hg
    cases p.delivery with
    | finish =>
      exact ⟨.passed htells rfl rfl (.inl rfl), hforgotten, ⟨rfl, rfl⟩, rfl, rfl⟩
    | handOn =>
      exact ⟨.passed htells rfl rfl (.inr ⟨number, rfl⟩), hforgotten.expect p.sequence number,
        ⟨rfl, rfl⟩, rfl, rfl⟩
    | handLast =>
      exact ⟨.passed htells rfl rfl (.inr ⟨number, rfl⟩), hforgotten, ⟨rfl, rfl⟩, rfl, rfl⟩

/-- A message is told to the session if it tells something, and to nobody else. -/
theorem OnlyHears.dispatch (hfree : ∀ number, m.stack.any (Frame.notifies number) = false) :
    m.Hands p (m.dispatch p) ∧ (m.dispatch p).OnlyHears ∧ m.KeepsWiring (m.dispatch p) ∧
      (m.dispatch p).transport.families = m.transport.families ∧
      (m.dispatch p).world = m.world := by
  unfold Machine.dispatch
  split
  · next hp =>
    obtain ⟨hhands, ht, hwatches, hworld⟩ := hm.hands_dispatchMulticast p hfree hp
    have hkeeps : m.KeepsWiring ((m.log (.dispatched p)).dispatchMulticast p) :=
      ⟨congrArg Transport.wiring ht, hwatches⟩
    exact ⟨hhands, hm.congr ht, hkeeps, congrArg Transport.families ht, hworld⟩
  · next hp =>
    obtain ⟨hhands, hgathers, hkeeps, hfamilies, hworld⟩ := hm.hands_dispatchReply p hp
    exact ⟨hhands, hm.keep hkeeps hgathers, hkeeps, hfamilies, hworld⟩

end dispatch

/-! ### Messages that are read -/

/-- What goes on above the frames `under` since a machine: the messages of a datagram are
dispatched, and a handler notes what one of them told. -/
inductive Works (m₀ m : Machine σ Remark) (under : List (Frame σ Remark)) : Prop where
  | resting (hl : m₀.Listens I [] [] m) (hc : m.control = .resume) (hs : m.stack = under)
  | dispatching (rest : List Packet) (hl : m₀.Listens I [] rest m) (hc : m.control = .resume)
    (hs : m.stack = .dispatching rest :: under)
  | hearing (n : ScanNotification) (number : Nat) (rest : List Packet)
    (hl : m₀.Listens I [] rest (m.log (.noted (.heard (.scan n)))))
    (hc : m.control = .run (.note (.heard (.scan n)) .done))
    (hs : m.stack = .notifying number :: .dispatching rest :: under)
  | heard (number : Nat) (rest : List Packet) (hl : m₀.Listens I [] rest m)
    (hc : m.control = .run .done ∨ m.control = .resume)
    (hs : m.stack = .notifying number :: .dispatching rest :: under)

/-- A machine with code of the transport on top of its stack goes on with it. -/
theorem step_eq_goOn (h : Host σ) {m : Machine σ ν} {frame : Frame σ ν} {stack : List (Frame σ ν)}
    (hc : m.control = .resume) (hs : m.stack = frame :: stack)
    (hh : m.transport.isHeld = true) : m.step h = { m with stack }.goOn h frame := by
  have hab : m.isAbandoned = false := by simp [isAbandoned, hh]
  simp only [step, hab, hc, hs]
  rfl

/-- What a step above a frame leads to: replies that are gathered change the exchanges below. -/
structure WorksOn (m₀ m' : Machine σ Remark) (under : List (Frame σ Remark)) : Prop where
  works : m₀.Works I m' under ∨
    ∃ number p, m₀.Works I m' (under.map (Frame.gather number p))
  hears : m'.OnlyHears

variable {I} in
theorem Works.keeps {m₀ : Machine σ Remark} {under : List (Frame σ Remark)}
    (hw : m₀.Works I m under) : m₀.KeepsWiring m := by
  cases hw with
  | resting hl hc hs => exact hl.toKeepsWiring
  | dispatching rest hl hc hs => exact hl.toKeepsWiring
  | hearing n number rest hl hc hs => exact ⟨hl.wiring, hl.watches⟩
  | heard number rest hl hc hs => exact hl.toKeepsWiring

variable {I} in
/-- Where nothing is above the frames all messages that were read are dispatched. -/
theorem Works.listens {m₀ : Machine σ Remark} {under : List (Frame σ Remark)}
    (hw : m₀.Works I m under) (hc : m.control = .resume) (hs : m.stack = under) :
    m₀.Listens I [] [] m := by
  have hshort {above : List (Frame σ Remark)} (hs' : m.stack = above ++ under) : above = [] :=
    List.append_left_eq_self.mp (hs'.symm.trans hs)
  cases hw with
  | resting hl => exact hl
  | dispatching rest hl hc' hs' => cases @hshort [_] hs'
  | hearing n number rest hl hc' => cases hc.symm.trans hc'
  | heard number rest hl hc' hs' => cases @hshort [_, _] hs'

section works

variable {I} {m₀ : Machine σ Remark} {under : List (Frame σ Remark)} (hm : m.OnlyHears)
  (hh : m.transport.isHeld = true)
include hm hh

/-- A message of a datagram is dispatched. -/
private theorem worksOn_dispatch {p : Packet} {rest : List Packet}
    (hfree : ∀ number, under.any (Frame.notifies number) = false)
    (hl : m₀.Listens I [] (p :: rest) m) (hc : m.control = .resume)
    (hs : m.stack = .dispatching (p :: rest) :: under) : m₀.WorksOn I (m.step h) under := by
  have hready : ({ m with stack := .dispatching rest :: under } : Machine σ Remark).OnlyHears :=
    hm.congr rfl
  have hdispatch := hready.dispatch p hfree
  have hstep : m.step h = { m with stack := .dispatching rest :: under }.dispatch p :=
    step_eq_goOn h hc hs hh
  rw [← hstep] at hdispatch
  obtain ⟨hhands, hhears, hkeeps, hfamilies, hworld⟩ := hdispatch
  refine ⟨?_, hhears⟩
  cases hhands with
  | passed ht hc' hj hs' =>
    have hpassed : m.Listens I (p :: rest) rest (m.step h) :=
      ⟨⟨hkeeps.wiring, hkeeps.watches⟩, hfamilies, [.dispatched p], hj,
        .single (List.append_nil _) (by simpa [Event.dispatches] using ht) rfl
          (hworld ▸ .refl _)⟩
    rcases hs' with hs' | ⟨number, hs'⟩
    · exact .inl (.dispatching rest (hl.trans hpassed) hc' hs')
    · exact .inr ⟨number, p, .dispatching rest (hl.trans hpassed) hc' hs'⟩
  | told n number ht hc' hj hs' =>
    have htold : m.Listens I (p :: rest) rest ((m.step h).log (.noted (.heard (.scan n)))) :=
      ⟨⟨hkeeps.wiring, hkeeps.watches⟩, hfamilies,
        [.noted (.heard (.scan n)), .scanEnded number n, .dispatched p],
        congrArg (List.cons _) hj, hworld ▸ .told ht number rest _⟩
    exact .inl (.hearing n number rest (hl.trans htold) hc' hs')

/-- A step above a frame goes on with the messages of the datagram, until nothing is left. -/
theorem Works.step (hfree : ∀ number, under.any (Frame.notifies number) = false)
    (hw : m₀.Works I m under) (hbusy : m.control = .resume → m.stack ≠ under) :
    m₀.WorksOn I (m.step h) under := by
  cases hw with
  | resting hl hc hs => exact absurd hs (hbusy hc)
  | dispatching rest hl hc hs =>
    cases rest with
    | nil =>
      have hstep : m.step h = ({ m with stack := under } : Machine σ Remark).resume :=
        step_eq_goOn h hc hs hh
      rw [hstep]
      exact ⟨.inl (.resting (hl.goesOn _ _) rfl rfl), hm.congr rfl⟩
    | cons p rest => exact worksOn_dispatch hm hh hfree hl hc hs
  | hearing n number rest hl hc hs =>
    have hstep : m.step h = (m.log (.noted (.heard (.scan n)))).run .done :=
      step_eq_call h hc hh
    rw [hstep]
    exact ⟨.inl (.heard number rest (hl.goesOn _ _) (.inl rfl) hs), hm.congr rfl⟩
  | heard number rest hl hc hs =>
    rcases hc with hc | hc
    · have hstep : m.step h = m.resume := step_eq_call h hc hh
      rw [hstep]
      exact ⟨.inl (.heard number rest (hl.goesOn _ _) (.inr rfl) hs), hm.congr rfl⟩
    · have hstep : m.step h =
          ({ m with stack := .dispatching rest :: under } : Machine σ Remark).resume :=
        step_eq_goOn h hc hs hh
      rw [hstep]
      exact ⟨.inl (.dispatching rest (hl.goesOn _ _) rfl rfl), hm.congr rfl⟩

end works

end Machine

end WifiNetlink
