import WifiNetlink.Proofs.Wiring

/-!
# Starting, starting again, and dropping a transport

An attempt to start a transport can fail at each of its steps and leaves behind what it had done by
then. A row of attempts is followed through the phases of its run: client code attempts to start the
transport, the exchange that looks its family up goes on, an outcome is noted, the transport is
dropped.
-/

namespace WifiNetlink

variable {σ ν : Type}

namespace Machine

variable (h : Host σ) {m m' : Machine σ ν}

/-- Whether between two machines nothing changes that starting depends on. -/
structure Calms (m m' : Machine σ ν) : Prop extends m.KeepsWiring m' where
  journal : m.Adds (fun e ↦ e.isQuiet = true) m'

namespace Calms

theorem isWired (hc : m.Calms m') (hm : m.IsWired) : m'.IsWired := by
  apply hm.of_isStill (hc.journal.mono fun _ ↦ Event.isStill_of_isQuiet) hc.watches
  · simpa only [Transport.wiring] using congrArg Transport.watched hc.wiring
  · simpa only [Transport.wiring] using congrArg Transport.syncChannel hc.wiring
  · simpa only [Transport.wiring] using congrArg Transport.asyncChannel hc.wiring

theorem isReady (hc : m.Calms m') (hm : m.IsReady) : m'.IsReady := by
  obtain ⟨hstarted, hwatched, sync, async, earlier, hs, ha, ho, hg⟩ := hm
  obtain ⟨new, hj, hnew⟩ := hc.journal
  have hstill (e : Event ν) (he : e ∈ new) : e.isStill = true :=
    Event.isStill_of_isQuiet (hnew e he)
  have hsame : m'.transport.isStarted = m.transport.isStarted ∧
      m'.transport.watched = m.transport.watched ∧
      m'.transport.syncChannel = m.transport.syncChannel ∧
      m'.transport.asyncChannel = m.transport.asyncChannel := by
    have hw := hc.wiring
    simp only [Transport.wiring, Transport.mk.injEq] at hw
    obtain ⟨-, -, hstarted, -, -, -, -, -, hsync, hasync, hwatched, -⟩ := hw
    exact ⟨hstarted, hwatched, hsync, hasync⟩
  refine ⟨hsame.1.trans hstarted, hsame.2.1.trans hwatched, sync, async, earlier,
    hsame.2.2.1.trans hs, hsame.2.2.2.trans ha, ?_, ?_⟩
  · rw [hj, (Journal.append_of_isStill m.journal hstill).1, ho]
  · rw [hj, (Journal.append_of_isQuiet m.journal hnew).1, hg]

theorem notes (hc : m.Calms m') : m'.journal.notes = m.journal.notes := by
  obtain ⟨new, hj, hnew⟩ := hc.journal
  rw [hj, (Journal.append_of_isQuiet m.journal hnew).2]

end Calms

/-- Wiring leaves no notes. -/
theorem Wires.notes (hw : m.Wires m') : m'.journal.notes = m.journal.notes := by
  obtain ⟨new, hj, hnew⟩ := hw.journal
  have hnone : Journal.notes new = [] := by
    rw [Journal.notes, List.filterMap_eq_nil_iff]
    intro e he
    have hwiring := hnew e he
    cases e <;> simp_all [Event.isWiring]
  rw [hj, Journal.notes, List.filterMap_append]
  exact (congrArg (· ++ m.journal.notes) hnone)

/-! ### What an attempt to start leads to -/

/-- Whether an attempt to start has returned: its outcome is handed to client code, and tells
whether the transport is up. -/
def Returned (next : Except Error Unit → Program σ ν) (m : Machine σ ν) : Prop :=
  ∃ outcome, m.control = .run (next outcome) ∧ m.IsWired ∧
    (m.transport.isStarted = true ↔ outcome = .ok ()) ∧ (outcome = .ok () → m.IsUp)

/-- An attempt returns when the exchange ends that looks the family up. -/
theorem returned_endExchange {ready : Machine σ ν} (hw : ready.IsWired) (hr : ready.IsReady)
    (sequence : UInt32) (name : String) (next : Except Error Unit → Program σ ν)
    (outcome : Except Error (List Packet)) :
    (ready.endExchange h sequence (.discovery name (.start next)) outcome).Returned next := by
  have hended : ready.Calms (ready.log (.exchangeEnded sequence outcome)) :=
    ⟨⟨rfl, rfl⟩, Adds.single rfl rfl⟩
  unfold endExchange
  simp only [handReplies]
  split
  · next e _ =>
    refine ⟨.error e, rfl, (hended.isWired hw).run _, ?_, fun hok ↦ by contradiction⟩
    simp [handFamily, run, log, hr.isStarted]
  · next family _ =>
    have hkept : ready.Calms ((ready.log (.exchangeEnded sequence outcome)).adjust
      (·.remember name family)) := ⟨⟨rfl, rfl⟩, Adds.single rfl rfl⟩
    exact finishStart_cases h _ next (hkept.isWired hw) (hkept.isReady hr)

/-- A transport that is started is not started again: nothing is opened, sent, watched or joined. -/
theorem step_start_of_isStarted {next : Except Error Unit → Program σ ν}
    (hc : m.control = .run (.start next)) (hh : m.transport.isHeld = true)
    (hs : m.transport.isStarted = true) : m.step h = m.run (next (.ok ())) := by
  rw [step_eq_call h hc hh]
  simp only [call, start, hs, if_true]

/-- An attempt to start fails before the family is asked for, or has its channels ready and asks. -/
theorem start_cases (hw : m.IsWired) (hh : m.transport.isHeld = true)
    (hs : m.transport.isStarted = false) (next : Except Error Unit → Program σ ν) :
    (m.Wires (m.start h next) ∧ (m.start h next).Returned next) ∨
    ∃ ready request name, m.Wires ready ∧ ready.IsWired ∧ ready.IsReady ∧
      m.start h next = ready.beginExchange h request (.discovery name (.start next)) := by
  have hstopped := hw.stopWatching h
  have hwatched : (m.stopWatching h).transport.watched = none := by
    rw [transport_stopWatching]
  have hsame : (m.stopWatching h).transport.isStarted = false := by
    rw [transport_stopWatching, hs]
  -- An attempt that fails leaves the transport as little started as it was.
  have hfailed {m' : Machine σ ν} (e : Error) (hwired : m'.IsWired)
      (hsame : m'.transport.isStarted = false) : (m'.run (next (.error e))).Returned next := by
    refine ⟨.error e, rfl, hwired.run _, ?_, fun hok ↦ by contradiction⟩
    simp [run, hsame]
  have hout := setsOut_start h m next hh hs
  generalize m.start h next = begun at hout ⊢
  cases hout with
  | noSync e hr he =>
    obtain ⟨hwired, hsame', -⟩ := hstopped.renewSync h hwatched he
    exact .inl ⟨(Wires.of_row hr).run _, hfailed e hwired (hsame'.trans hsame)⟩
  | @noAsync m' m'' e hr he he' =>
    obtain ⟨hwired, hsame', hok⟩ := hstopped.renewSync h hwatched he
    obtain ⟨sync, ht, ho⟩ := hok rfl
    have hwatched' : m'.transport.watched = none := by rw [ht, hwatched]
    obtain ⟨hwired', hsame'', -⟩ := hwired.renewAsync h hwatched' he'
    exact .inl ⟨(Wires.of_row hr).run _, hfailed e hwired' (hsame''.trans (hsame'.trans hsame))⟩
  | @looksUp m' m'' _ _ hr he he' _ =>
    obtain ⟨hwired, hsame', hok⟩ := hstopped.renewSync h hwatched he
    obtain ⟨sync, ht, ho⟩ := hok rfl
    have hwatched' : m'.transport.watched = none := by rw [ht, hwatched]
    obtain ⟨hwired', hsame'', hok'⟩ := hwired.renewAsync h hwatched' he'
    obtain ⟨async, ht', ho', hg⟩ := hok' rfl
    have hnumbered : m''.Calms (m''.adjust Transport.advance) :=
      ⟨⟨rfl, rfl⟩, Adds.refl rfl⟩
    have hwires := (Wires.of_row hr).trans
      (⟨rfl, rfl, rfl, Adds.refl rfl⟩ : m''.Wires (m''.adjust Transport.advance))
    have hready : m''.IsReady := by
      refine ⟨hsame''.trans (hsame'.trans hsame), ?_, sync, async,
        (m.stopWatching h).journal.opened, ?_, ?_, ?_, hg⟩
      · rw [ht', hwatched']
      · rw [ht', ht]
      · rw [ht']
      · rw [ho', ho]
    simp only [discover]
    split
    · next e _ =>
      exact .inl ⟨hwires.run _,
        hfailed e (hnumbered.isWired hwired') (hnumbered.isReady hready).isStarted⟩
    · next request _ =>
      exact .inr ⟨_, request, _, hwires, hnumbered.isWired hwired', hnumbered.isReady hready, rfl⟩

/-! ### A transport without handlers -/

/-- Whether all replies that are waited for are gathered for exchanges. -/
def OnlyGathers (m : Machine σ ν) : Prop :=
  ∀ key handler, m.transport.pending.get? key = some handler → ∃ number, handler = .gather number

namespace OnlyGathers

/-- It depends on the handlers alone. -/
theorem congr (ho : m.OnlyGathers) (hp : m'.transport.pending = m.transport.pending) :
    m'.OnlyGathers := by
  unfold OnlyGathers
  rw [hp]
  exact ho

/-- Handlers that are taken out leave those of exchanges. -/
theorem forget (ho : m.OnlyGathers) (sequence : UInt32) :
    (m.adjust (·.forget sequence)).OnlyGathers := by
  intro key handler hg
  have hg : (m.transport.pending.erase sequence).get? key = some handler := hg
  rw [Table.get?_erase] at hg
  split at hg
  · contradiction
  · exact ho key handler hg

/-- So do exchanges that begin. -/
theorem expect (ho : m.OnlyGathers) (sequence : UInt32) (number : Nat) :
    (m.adjust (·.expect sequence (.gather number))).OnlyGathers := by
  intro key handler hg
  have hg : (m.transport.pending.insert sequence (.gather number)).get? key = some handler := hg
  rw [Table.get?_insert] at hg
  split at hg
  · exact ⟨number, (Option.some.inj hg).symm⟩
  · exact ho key handler hg

/-- The handlers that are left at the end of an exchange were there before. -/
theorem leaves {sequence : UInt32} {stack : List (Frame σ ν)} (ho : m.OnlyGathers)
    (hl : Leaves sequence stack m.transport.pending m') : m'.OnlyGathers := by
  intro key handler hg
  rw [hl.pending_eq] at hg
  split at hg
  · contradiction
  · exact ho key handler hg

end OnlyGathers

/-- Whether no handler of client code waits for messages. -/
structure IsAlone (m : Machine σ ν) : Prop where
  pending : m.OnlyGathers
  subscriptions : m.transport.subscriptions = ([], [])

namespace IsAlone

theorem wires (ha : m.IsAlone) (hw : m.Wires m') : m'.IsAlone :=
  ⟨ha.pending.congr hw.pending, hw.subscriptions.trans ha.subscriptions⟩

theorem forget (ha : m.IsAlone) (sequence : UInt32) : (m.adjust (·.forget sequence)).IsAlone :=
  ⟨ha.pending.forget sequence, ha.subscriptions⟩

theorem expect (ha : m.IsAlone) (sequence : UInt32) (number : Nat) :
    (m.adjust (·.expect sequence (.gather number))).IsAlone :=
  ⟨ha.pending.expect sequence number, ha.subscriptions⟩

theorem leaves {sequence : UInt32} {stack : List (Frame σ ν)} (ha : m.IsAlone)
    (hl : Leaves sequence stack m.transport.pending m') (hk : m.KeepsWiring m') : m'.IsAlone :=
  ⟨ha.pending.leaves hl, hk.subscriptions.trans ha.subscriptions⟩

/-- Without subscriptions a message without a sequence number is for nobody. -/
private theorem dispatchMulticast (ha : m.IsAlone) (p : Packet) :
    m.dispatchMulticast p = m.resume := by
  obtain ⟨hscans, hschedules⟩ := Prod.mk.inj ha.subscriptions
  unfold Machine.dispatchMulticast
  split
  · rfl
  · rw [hscans]
    rfl
  · rw [hschedules]
    rfl

/-- A message that is dispatched is gathered for an exchange or is for nobody. -/
theorem dispatch (ha : m.IsAlone) (p : Packet) :
    (m.dispatch p).IsAlone ∧ m.Calms (m.dispatch p) ∧ (m.dispatch p).control = .resume ∧
      ((m.dispatch p).stack = m.stack ∨
        ∃ number, (m.dispatch p).stack = m.stack.map (Frame.gather number p)) := by
  have hentered : (m.log (.dispatched p)).IsAlone := ⟨ha.pending, ha.subscriptions⟩
  have hforgotten := hentered.forget p.sequence
  unfold Machine.dispatch
  split
  · rw [hentered.dispatchMulticast]
    exact ⟨⟨ha.pending, ha.subscriptions⟩, ⟨⟨rfl, rfl⟩, Adds.single rfl rfl⟩, rfl, .inl rfl⟩
  · simp only [dispatchReply]
    split
    · exact ⟨⟨ha.pending, ha.subscriptions⟩, ⟨⟨rfl, rfl⟩, Adds.single rfl rfl⟩, rfl, .inl rfl⟩
    · next handler hg =>
      obtain ⟨number, rfl⟩ := hentered.pending _ _ hg
      have hkept := hforgotten.expect p.sequence number
      cases p.delivery with
      | finish =>
        exact ⟨⟨hforgotten.pending, ha.subscriptions⟩, ⟨⟨rfl, rfl⟩, Adds.single rfl rfl⟩, rfl,
          .inl rfl⟩
      | handOn =>
        exact ⟨⟨hkept.pending, ha.subscriptions⟩, ⟨⟨rfl, rfl⟩, Adds.single rfl rfl⟩, rfl,
          .inr ⟨number, rfl⟩⟩
      | handLast =>
        exact ⟨⟨hforgotten.pending, ha.subscriptions⟩, ⟨⟨rfl, rfl⟩, Adds.single rfl rfl⟩, rfl,
          .inr ⟨number, rfl⟩⟩

end IsAlone

end Machine

/-! ### A row of attempts -/

/-- Client code that attempts to start the transport a number of times, notes how each attempt
ended, and drops the transport. -/
def Program.attempts : Nat → Program σ (Except Error Unit)
  | 0 => .release .done
  | count + 1 => .start fun outcome ↦ .note outcome (attempts count)

namespace Machine

variable (h : Host σ) {m m' : Machine σ (Except Error Unit)}

/-- How the attempts ended that have returned, the latest first. -/
def outcomes (m : Machine σ (Except Error Unit)) : List (Except Error Unit) :=
  match m.control with
  | .run (.note outcome _) => outcome :: m.journal.notes
  | _ => m.journal.notes

theorem outcomes_attempts {count : Nat} (hc : m.control = .run (.attempts count)) :
    m.outcomes = m.journal.notes := by
  unfold outcomes
  rw [hc]
  cases count <;> rfl

/-- How far a row of attempts has got. -/
inductive Phase (m : Machine σ (Except Error Unit)) : Prop where
  /-- The next attempt is about to be made, or the transport to be dropped. -/
  | attempting (count : Nat) (hc : m.control = .run (.attempts count)) (hs : m.stack = [])
    (hh : m.transport.isHeld = true)
  /-- An attempt has returned. -/
  | told (outcome : Except Error Unit) (count : Nat)
    (hc : m.control = .run (.note outcome (.attempts count))) (hs : m.stack = [])
    (hh : m.transport.isHeld = true)
  /-- The exchange that looks the family up goes on, perhaps with a datagram to dispatch. -/
  | waiting (read : Option (List Packet)) (x : Exchange σ (Except Error Unit)) (name : String)
    (count : Nat) (hc : m.control = .resume)
    (hs : m.stack = read.toList.map .dispatching ++ [.collecting x])
    (hx : x.waiter = .discovery name (.start fun outcome ↦ .note outcome (.attempts count)))
    (hr : m.IsReady) (hh : m.transport.isHeld = true)
  /-- The transport is dropped. -/
  | dropped (hc : m.control = .run .done ∨ m.control = .resume) (hs : m.stack = [])
    (hh : m.transport.isHeld = false)

/-- What is kept along a row of attempts. -/
structure Lives (m : Machine σ (Except Error Unit)) : Prop where
  isWired : m.IsWired
  isAlone : m.IsAlone
  isStarted_iff : m.transport.isStarted = true ↔ .ok () ∈ m.outcomes
  isUp : m.transport.isStarted = true → m.transport.isAlive = true → m.IsUp
  phase : m.Phase

/-- An attempt that has returned. -/
private theorem Lives.of_returned {count : Nat}
    (hr : m.Returned fun outcome ↦ .note outcome (.attempts count)) (ha : m.IsAlone)
    (hs : m.stack = []) (hh : m.transport.isHeld = true) (hn : .ok () ∉ m.journal.notes) :
    m.Lives := by
  obtain ⟨outcome, hc, hw, hstarted, hup⟩ := hr
  have houtcomes : m.outcomes = outcome :: m.journal.notes := by
    unfold outcomes
    rw [hc]
  refine ⟨hw, ha, ?_, fun h _ ↦ hup (hstarted.mp h), .told outcome count hc hs hh⟩
  rw [hstarted, houtcomes, List.mem_cons, or_iff_left hn, eq_comm]

/-- An attempt that waits for the exchange that looks the family up. -/
private theorem Lives.of_waiting (hw : m.IsWired) (ha : m.IsAlone) (hr : m.IsReady)
    (hc : m.control = .resume) (hh : m.transport.isHeld = true) (hn : .ok () ∉ m.journal.notes)
    (read : Option (List Packet)) {x : Exchange σ (Except Error Unit)} {name : String} {count : Nat}
    (hs : m.stack = read.toList.map .dispatching ++ [.collecting x])
    (hx : x.waiter = .discovery name (.start fun outcome ↦ .note outcome (.attempts count))) :
    m.Lives := by
  have houtcomes : m.outcomes = m.journal.notes := by
    unfold outcomes
    rw [hc]
  refine ⟨hw, ha, ?_, ?_, .waiting read x name count hc hs hx hr hh⟩
  · rw [houtcomes, hr.isStarted]
    exact iff_of_false Bool.false_ne_true hn
  · rw [hr.isStarted]
    exact fun h _ ↦ absurd h Bool.false_ne_true

/-- An attempt returns when the exchange ends that looks the family up. -/
private theorem Lives.of_endExchange {ready : Machine σ (Except Error Unit)} (hw : ready.IsWired)
    (ha : ready.IsAlone) (hr : ready.IsReady) (hs : ready.stack = [])
    (hh : ready.transport.isHeld = true) (hn : .ok () ∉ ready.journal.notes) (sequence : UInt32)
    {waiter : Waiter σ (Except Error Unit)} {name : String} {count : Nat}
    (hx : waiter = .discovery name (.start fun outcome ↦ .note outcome (.attempts count)))
    (outcome : Except Error (List Packet)) :
    (ready.endExchange h sequence waiter outcome).Lives := by
  have hended : (ready.log (.exchangeEnded sequence outcome)).IsAlone := ⟨ha.1, ha.2⟩
  have hwires := wires_handReplies h (ready.log (.exchangeEnded sequence outcome)) waiter outcome
  subst hx
  refine .of_returned (returned_endExchange h hw hr sequence name _ outcome) (hended.wires hwires)
    (hwires.stack.trans hs) (hwires.isHeld.trans hh) ?_
  rw [endExchange, hwires.notes]
  exact hn

/-- An attempt waits for the exchange that looks the family up, unless it cannot be begun. -/
private theorem Lives.of_beginExchange {ready : Machine σ (Except Error Unit)}
    (hw : ready.IsWired) (ha : ready.IsAlone) (hr : ready.IsReady) (hs : ready.stack = [])
    (hh : ready.transport.isHeld = true) (hn : .ok () ∉ ready.journal.notes) (request : Packet)
    (name : String) (count : Nat) :
    (ready.beginExchange h request
      (.discovery name (.start fun outcome ↦ .note outcome (.attempts count)))).Lives := by
  by_cases hzero : request.sequence = 0
  · simp only [beginExchange, hzero, if_true]
    exact .of_endExchange h hw ha hr hs hh hn 0 rfl _
  · have hb := begins_beginExchange h ready request
      (.discovery name (.start fun outcome ↦ .note outcome (.attempts count))) hzero
    generalize ready.beginExchange h request _ = m' at hb ⊢
    -- What is entered when an exchange begins is quiet.
    have hcalm {m' : Machine σ (Except Error Unit)} {new : Journal (Except Error Unit)}
        (hk : ready.KeepsTransport m')
        (hj : m'.journal = new ++ .exchangeBegan request.sequence :: ready.journal)
        (hnew : ∀ e ∈ new, e.isAttempt = true) : ready.Calms m' := by
      refine ⟨hk.keepsWiring, new ++ [.exchangeBegan request.sequence], by rw [hj]; simp,
        fun e he ↦ ?_⟩
      rcases List.mem_append.mp he with he | he
      · exact Event.isQuiet_of_isTalk (Event.isTalk_of_isAttempt (hnew e he))
      · rw [List.mem_singleton.mp he]
        rfl
    cases hb with
    | refused e ready' new hl hj hnew hk =>
      have hc := hcalm hk hj hnew
      exact .of_endExchange h (hc.isWired hw) (ha.leaves hl hk.keepsWiring) (hc.isReady hr)
        (hl.stack_eq.trans hs) (hc.isHeld.trans hh) (hc.notes ▸ hn) _ rfl _
    | sent begun m' new hs' hp hj hnew hk hc' =>
      have hc := hcalm hk hj hnew
      have ha' : m'.IsAlone :=
        ⟨(ha.pending.expect request.sequence ready.nextNumber).congr hp,
          hk.subscriptions.trans ha.subscriptions⟩
      rw [hs] at hs'
      exact .of_waiting (hc.isWired hw) ha' (hc.isReady hr) hc' (hc.isHeld.trans hh)
        (hc.notes ▸ hn) none hs' rfl

/-! ### Steps along a row of attempts -/

/-- The next attempt is made. -/
private theorem Lives.step_start (hm : m.Lives) {count : Nat}
    (hc : m.control = .run (.attempts (count + 1))) (hs : m.stack = [])
    (hh : m.transport.isHeld = true) : (m.step h).Lives := by
  have hnotes := hm.isStarted_iff
  rw [outcomes_attempts hc] at hnotes
  cases hstarted : m.transport.isStarted with
  | true =>
    rw [step_start_of_isStarted h hc hh hstarted]
    refine ⟨hm.isWired.run _, ⟨hm.isAlone.1, hm.isAlone.2⟩, ?_, hm.isUp, .told _ count rfl hs hh⟩
    exact iff_of_true hstarted List.mem_cons_self
  | false =>
    have hn : .ok () ∉ m.journal.notes := by
      rw [← hnotes, hstarted]
      exact Bool.false_ne_true
    rw [step_eq_call h hc hh]
    rcases start_cases h hm.isWired hh hstarted (fun outcome ↦ .note outcome (.attempts count))
      with ⟨hw, hr⟩ | ⟨ready, request, name, hw, hwired, hr, hbegin⟩
    · exact .of_returned hr (hm.isAlone.wires hw) (hw.stack.trans hs) (hw.isHeld.trans hh)
        (hw.notes ▸ hn)
    · have hcall : m.call h (.attempts (count + 1)) = _ := hbegin
      rw [hcall]
      exact .of_beginExchange h hwired (hm.isAlone.wires hw) hr (hw.stack.trans hs)
        (hw.isHeld.trans hh) (hw.notes ▸ hn) request name count

/-- No attempt has succeeded yet while the next one waits. -/
private theorem Lives.notes_of_isReady (hm : m.Lives) (hc : m.control = .resume) (hr : m.IsReady) :
    .ok () ∉ m.journal.notes := by
  have hnotes := hm.isStarted_iff
  unfold outcomes at hnotes
  rw [hc, hr.isStarted] at hnotes
  exact fun hok ↦ absurd (hnotes.mpr hok) Bool.false_ne_true

section waiting

variable {x : Exchange σ (Except Error Unit)} {name : String} {count : Nat}
  (hm : m.Lives) (hc : m.control = .resume) (hr : m.IsReady) (hh : m.transport.isHeld = true)
  (hx : x.waiter = .discovery name (.start fun outcome ↦ .note outcome (.attempts count)))
include hm hc hr hh hx

/-- The exchange that looks the family up takes a turn. -/
private theorem Lives.step_turn (hs : m.stack = [.collecting x]) : (m.step h).Lives := by
  have hn := hm.notes_of_isReady hc hr
  have ht := turns_turnExchange h { m with stack := [] } x
  rw [← step_of_collecting h hc hs] at ht
  generalize m.step h = m' at ht ⊢
  cases ht with
  | ends outcome ready hcloses =>
    have hk : m.KeepsWiring ready := ⟨hcloses.keeps.keepsWiring.wiring, hcloses.keeps.watches⟩
    have hcalm : m.Calms ready := ⟨hk, hcloses.attempts.mono fun _ he ↦
      Event.isQuiet_of_isTalk (Event.isTalk_of_isAttempt he)⟩
    have ha : ready.IsAlone := hm.isAlone.leaves hcloses.leaves hk
    exact .of_endExchange h (hcalm.isWired hm.isWired) ha (hcalm.isReady hr) hcloses.leaves.stack_eq
      (hcalm.isHeld.trans hh) (hcalm.notes ▸ hn) _ hx _
  | waits m' read hs' hj ht hw hc' =>
    have hcalm : m.Calms m' := ⟨⟨by rw [ht], hw⟩, hj.mono fun _ ↦ Event.isQuiet_of_isTalk⟩
    have ha : m'.IsAlone :=
      ⟨hm.isAlone.pending.congr (congrArg Transport.pending ht),
        (congrArg Transport.subscriptions ht).trans hm.isAlone.subscriptions⟩
    exact .of_waiting (hcalm.isWired hm.isWired) ha (hcalm.isReady hr) hc'
      (hcalm.isHeld.trans hh) (hcalm.notes ▸ hn) read hs' hx

/-- All messages of a datagram are dispatched. -/
private theorem Lives.step_drained (hs : m.stack = [.dispatching [], .collecting x]) :
    (m.step h).Lives := by
  have hn := hm.notes_of_isReady hc hr
  have hab : m.isAbandoned = false := by simp [isAbandoned, hh]
  have hstep : m.step h = ({ m with stack := [.collecting x] } : Machine σ _).resume := by
    simp only [step, hab, hc, hs]
    rfl
  have hcalm : m.Calms (m.step h) := by
    rw [hstep]
    exact ⟨⟨rfl, rfl⟩, Adds.refl rfl⟩
  rw [hstep] at hcalm ⊢
  exact .of_waiting (hcalm.isWired hm.isWired) ⟨hm.isAlone.1, hm.isAlone.2⟩ (hcalm.isReady hr)
    rfl hh hn none rfl hx

/-- A message of a datagram is dispatched. The exchange may gather it, but hands its outcome to the
same attempt. -/
private theorem Lives.step_dispatch {p : Packet} {rest : List Packet}
    (hs : m.stack = [.dispatching (p :: rest), .collecting x]) : (m.step h).Lives := by
  have hn := hm.notes_of_isReady hc hr
  have hdue : m.due? = some p := by
    unfold due?
    rw [hc, hs]
  obtain ⟨rest', stack, hs', hstep⟩ := step_of_due h hdue
  rw [hs] at hs'
  obtain ⟨hrest, rfl⟩ := List.cons.inj hs'
  cases hrest
  have ha : ({ m with stack := [.dispatching rest, .collecting x] } :
    Machine σ (Except Error Unit)).IsAlone := ⟨hm.isAlone.1, hm.isAlone.2⟩
  obtain ⟨ha', hcalm, hc', hstack⟩ := ha.dispatch p
  have hcalm : m.Calms (m.step h) := by
    rw [hstep]
    exact ⟨⟨hcalm.wiring, hcalm.watches⟩, hcalm.journal⟩
  have hwaits : ∃ y : Exchange σ (Except Error Unit), y.waiter = x.waiter ∧
      (m.step h).stack = [.dispatching rest, .collecting y] := by
    rw [hstep]
    rcases hstack with hstack | ⟨number, hstack⟩
    · exact ⟨x, rfl, hstack⟩
    · exact ⟨x.gather number p, by unfold Exchange.gather; split <;> rfl, hstack⟩
  obtain ⟨y, hy, hstack⟩ := hwaits
  exact .of_waiting (hcalm.isWired hm.isWired) (hstep ▸ ha') (hcalm.isReady hr) (hstep ▸ hc')
    (hcalm.isHeld.trans hh) (hcalm.notes ▸ hn) (some rest) hstack (hy.trans hx)

/-- The exchange that looks the family up takes a turn, or goes on with a datagram that it read. -/
private theorem Lives.step_waiting {read : Option (List Packet)}
    (hs : m.stack = read.toList.map .dispatching ++ [.collecting x]) : (m.step h).Lives := by
  cases read with
  | none => exact hm.step_turn h hc hr hh hx hs
  | some packets =>
    cases packets with
    | nil => exact hm.step_drained h hc hr hh hx hs
    | cons p rest => exact hm.step_dispatch h hc hr hh hx hs

end waiting

/-- Taking a transport down leaves the code that runs as it is. -/
private theorem control_tearDown : (m.tearDown h).control = m.control := by
  have hclose (m : Machine σ (Except Error Unit)) (channel : Option Nat) :
      (m.closeChannel h channel).control = m.control := by
    cases channel <;> rfl
  have hstop : (m.stopWatching h).control = m.control := by
    unfold stopWatching
    split <;> rfl
  calc (m.tearDown h).control
      = (((m.stopWatching h).closeChannel h m.transport.asyncChannel).closeChannel h
          m.transport.syncChannel).control := rfl
    _ = m.control := by rw [hclose, hclose, hstop]

/-- The transport is taken down, and the client code is done. -/
private theorem Lives.step_dropped (hm : m.Lives)
    (hc : m.control = .run .done ∨ m.control = .resume) (hs : m.stack = [])
    (hh : m.transport.isHeld = false) : (m.step h).Lives := by
  have hquiet {m' : Machine σ (Except Error Unit)}
      (hc : m'.control = .run .done ∨ m'.control = .resume) :
      m'.outcomes = m'.journal.notes := by
    unfold outcomes
    rcases hc with hc | hc <;> rw [hc]
  have hnotes := hm.isStarted_iff
  rw [hquiet hc] at hnotes
  by_cases hab : m.isAbandoned = true
  · have hstep : m.step h = m.tearDown h := by simp only [step, hab, if_true]
    have hrow := (row_stopWatching h m).trans (row_closeChannel h _ m.transport.asyncChannel)
    have hwires := Wires.of_row (hrow.trans (row_closeChannel h _ m.transport.syncChannel))
    have hc' : (m.tearDown h).control = .run .done ∨ (m.tearDown h).control = .resume := by
      rw [control_tearDown]
      exact hc
    have hstarted : (m.tearDown h).transport.isStarted = m.transport.isStarted := by
      simp only [tearDown, adjust, transport_closeChannel, transport_stopWatching]
    rw [hstep]
    refine ⟨hm.isWired.tearDown h, ⟨fun _ _ hg ↦ absurd hg (Option.some_ne_none _).symm, rfl⟩, ?_,
      fun _ ha ↦ absurd ha Bool.false_ne_true, .dropped hc' (hwires.stack.trans hs)
        (hwires.isHeld.trans hh)⟩
    rw [hquiet hc', hstarted, hnotes]
    exact iff_of_eq (congrArg (.ok () ∈ ·) hwires.notes.symm)
  · rcases hc with hc | hc
    · have hstep : m.step h = m.resume := by
        simp only [step, hab, Bool.false_eq_true, if_false, hc]
        rfl
      rw [hstep]
      exact ⟨⟨hm.isWired.1, hm.isWired.2, hm.isWired.3, hm.isWired.4, hm.isWired.5⟩,
        ⟨hm.isAlone.1, hm.isAlone.2⟩, hnotes, hm.isUp, .dropped (.inr rfl) hs hh⟩
    · have hstep : m.step h = m := by
        simp only [step, hab, Bool.false_eq_true, if_false, hc, hs]
      rw [hstep]
      exact hm

/-- Every step keeps what is kept along a row of attempts. -/
theorem Lives.step (hm : m.Lives) : (m.step h).Lives := by
  cases hm.phase with
  | attempting count hc hs hh =>
    cases count with
    | zero =>
      have hstep : m.step h =
          ((m.adjust fun t ↦ { t with isHeld := false }).log .released).run .done := by
        rw [step_eq_call h hc hh]
        rfl
      have hnotes := hm.isStarted_iff
      rw [outcomes_attempts hc] at hnotes
      rw [hstep]
      refine ⟨?_, ⟨hm.isAlone.1, hm.isAlone.2⟩, hnotes, hm.isUp, .dropped (.inl rfl) hs rfl⟩
      exact (hm.isWired.of_isStill (Adds.single rfl rfl) rfl rfl rfl rfl)
    | succ count => exact hm.step_start h hc hs hh
  | told outcome count hc hs hh =>
    have hstep : m.step h = (m.log (.noted outcome)).run (.attempts count) := by
      rw [step_eq_call h hc hh]
      rfl
    have hnotes := hm.isStarted_iff
    unfold outcomes at hnotes
    rw [hc] at hnotes
    rw [hstep]
    refine ⟨?_, ⟨hm.isAlone.1, hm.isAlone.2⟩, ?_, hm.isUp, .attempting count rfl hs hh⟩
    · exact hm.isWired.of_isStill (Adds.single rfl rfl) rfl rfl rfl rfl
    · rw [outcomes_attempts rfl]
      exact hnotes
  | waiting read x name count hc hs hx hr hh => exact hm.step_waiting h hc hr hh hx hs
  | dropped hc hs hh => exact hm.step_dropped h hc hs hh

/-- Every number of steps keeps what is kept along a row of attempts. -/
theorem Lives.steps (hm : m.Lives) (count : Nat) : (m.steps h count).Lives := by
  induction count generalizing m with
  | zero => exact hm
  | succ count ih =>
    unfold Machine.steps
    split
    · exact hm
    · exact ih (hm.step h)

/-- A row of attempts begins without channels, watches and handlers. -/
theorem lives_fresh (config : Config) (port : UInt32) (world : σ) (count : Nat) :
    ((Machine.fresh config port world).run (.attempts count)).Lives := by
  refine ⟨⟨rfl, rfl, fun _ hd ↦ absurd hd (Option.some_ne_none _).symm, .nil, trivial⟩,
    ⟨fun _ _ hg ↦ absurd hg (Option.some_ne_none _).symm, rfl⟩, ?_,
    fun hs ↦ absurd hs Bool.false_ne_true, .attempting count rfl rfl rfl⟩
  rw [outcomes_attempts rfl]
  exact iff_of_false Bool.false_ne_true List.not_mem_nil

/-- What a row of attempts shows at a moment of its run. -/
structure IsOrderly (m : Machine σ (Except Error Unit)) : Prop where
  /-- Nothing is watched, or the asynchronous channel that is held. -/
  watches : m.watches = [] ∨
    ∃ async, m.transport.asyncChannel = some async ∧ m.watches = [async]
  /-- The event loop watches what it was asked to, -/
  watching : m.journal.watching = m.watches
  /-- which was at every moment before nothing or the channel that was opened last, -/
  moments : ∀ later earlier : Journal (Except Error Unit), m.journal = later ++ earlier →
    earlier.watching = [] ∨
      ∃ descriptor, earlier.opened.head? = some descriptor ∧ earlier.watching = [descriptor]
  /-- and never a channel when it was closed. -/
  closes : ∀ (later earlier : Journal (Except Error Unit)) (descriptor : Nat),
    m.journal = later ++ .closed descriptor :: earlier → descriptor ∉ earlier.watching
  /-- Every channel that was opened is held or was closed. -/
  opened : m.journal.opened.Perm (m.channels ++ m.journal.closed)
  isStarted_iff : m.transport.isStarted = true ↔ .ok () ∈ m.outcomes
  /-- Once an attempt has succeeded the transport is up until it is taken down, -/
  isUp : .ok () ∈ m.outcomes → m.transport.isAlive = true → m.IsUp
  /-- and all further attempts succeed and do nothing. -/
  again : ∀ next, m.control = .run (.start next) → .ok () ∈ m.outcomes →
    m.step h = m.run (next (.ok ()))

/-- What is kept along a row of attempts keeps it orderly. -/
theorem Lives.isOrderly (hm : m.Lives) : m.IsOrderly h := by
  have hw := hm.isWired
  constructor
  · cases hwatched : m.transport.watched with
    | none =>
      left
      rw [hw.watches, hwatched]
      rfl
    | some descriptor =>
      right
      refine ⟨descriptor, (hw.newest descriptor hwatched).1, ?_⟩
      rw [hw.watches, hwatched]
      rfl
  · exact hw.watching
  · intro later earlier hj
    apply Journal.watching_of_timely
    have htimely := hw.timely
    rw [hj] at htimely
    exact htimely.tail
  · intro later earlier descriptor hj
    have htimely := hw.timely
    rw [hj] at htimely
    have hnone : earlier.watching = [] := htimely.of_append
    rw [hnone]
    exact List.not_mem_nil
  · exact hw.opened
  · exact hm.isStarted_iff
  · exact fun hok ha ↦ hm.isUp (hm.isStarted_iff.mpr hok) ha
  · intro next hc hok
    have hh : m.transport.isHeld = true := by
      cases hm.phase with
      | attempting count hc' hs hh => exact hh
      | told outcome count hc' hs hh => exact hh
      | waiting read x name count hc' hs hx hr hh => exact hh
      | dropped hc' hs hh =>
        rcases hc' with hc' | hc' <;> cases hc.symm.trans hc'
    exact step_start_of_isStarted h hc hh (hm.isStarted_iff.mpr hok)

end Machine

/-- Every row of attempts to start a transport and to drop it is orderly at every moment, whatever
fails on the way. -/
theorem isOrderly_attempts (h : Host σ) (config : Config) (port : UInt32) (world : σ)
    (count steps : Nat) :
    (((Machine.fresh config port world).run (.attempts count)).steps h steps).IsOrderly h :=
  ((Machine.lives_fresh config port world count).steps h steps).isOrderly h

/-- The asynchronous channel cannot be opened at first; the second attempt succeeds, and the third
has nothing left to do. -/
example :
    let kernel : ScriptedKernel := { describingKernel [] with
      openings := [none, some (.errno Errno.again)] }
    let m := ((Machine.fresh .standard 0 kernel).run (.attempts 3)).steps ScriptedKernel.host 10
    m.outcomes.map Except.isOk = [true, true, false] ∧ m.watches = [1002] ∧
      m.journal.opened = [1002, 1001, 1000] ∧ m.journal.closed = [1000] ∧
      m.journal.groups 1002 = [5] := by
  cbv

end WifiNetlink
