import WifiNetlink.Proofs.Listening

/-!
# What the code of a session tells

What every run of a session shows is read off its code call by call. Each kind of call has a rule:
what the machine is like when the call returns, whatever the system did in between. Code that keeps
to the rules leaves only notes that tell the truth.
-/

namespace WifiNetlink

open CommandLine

variable {σ : Type} {h : Host σ}

namespace Machine

variable (I : h.Inboxes) {m₀ m m' m'' : Machine σ Remark}

/-! ### An exchange, and a wait for the event loop -/

/-- A step of an exchange: it goes on with the same request, or it ends. -/
inductive Steps (m₀ : Machine σ Remark) (x : Exchange σ Remark) : Machine σ Remark → Prop where
  | goes {m' : Machine σ Remark} (x' : Exchange σ Remark) (hx : x'.waiter = x.waiter)
    (hn : x'.sequence = x.sequence) (hw : m₀.Works I m' [.collecting x']) (hm : m'.OnlyHears) :
    Steps m₀ x m'
  | ends {ready : Machine σ Remark} (outcome : Except Error (List Packet))
    (hl : m₀.Listens I [] [] ready) (hs : ready.stack = []) (hm : ready.OnlyHears) :
    Steps m₀ x (ready.endExchange h x.sequence x.waiter outcome)

variable {I}

/-- A machine that waits for an exchange, with what was read. -/
private theorem Waits.works {x : Exchange σ Remark} {read : Option (List Packet)}
    (hl : m₀.Listens I [] [] m) (hs : m.stack = []) (hw : m.Waits I x read m') :
    m₀.Works I m' [.collecting x] := by
  have hstack := hw.stack
  have hlistens := hl.trans hw.listens
  rw [hs] at hstack
  cases read with
  | none => exact .resting hlistens hw.control hstack
  | some packets => exact .dispatching packets hlistens hw.control hstack

theorem steps_of_collecting {x : Exchange σ Remark} (hm : m.OnlyHears)
    (hh : m.transport.isHeld = true) (hw : m₀.Works I m [.collecting x]) :
    Steps I m₀ x (m.step h) := by
  by_cases hrest : m.control = .resume ∧ m.stack = [.collecting x]
  · obtain ⟨hc, hs⟩ := hrest
    have hready : m₀.Listens I [] [] { m with stack := [] } := (hw.listens hc hs).goesOn _ _
    rw [step_of_collecting h hc hs]
    rcases turnExchange_cases I x { m with stack := [] } with
      ⟨outcome, ready, hr, hend⟩ | ⟨read, hwaits⟩
    · rw [hend]
      refine .ends outcome (hready.trans hr.listens) hr.stack ?_
      exact hm.keep ⟨hr.listens.wiring, hr.listens.watches⟩ (hr.gathers hm.pending)
    · refine .goes x rfl rfl (hwaits.works hready rfl) ?_
      exact hm.keep ⟨hwaits.listens.wiring, hwaits.listens.watches⟩ (hwaits.gathers hm.pending)
  · obtain ⟨hworks, hears⟩ := hw.step hm hh (fun _ ↦ rfl) fun hc hs ↦ hrest ⟨hc, hs⟩
    rcases hworks with hworks | ⟨number, p, hworks⟩
    · exact .goes x rfl rfl hworks hears
    · refine .goes (x.gather number p) ?_ ?_ hworks hears
      · unfold Exchange.gather
        split <;> rfl
      · unfold Exchange.gather
        split <;> rfl

/-- How a wait for the event loop ends that began at an instant. Unless the journal was as wanted,
the event loop was given what was left of the budget, and nothing waits on the watched channels. -/
def Wakes (I : h.Inboxes) (wanted : Journal Remark → Bool) (budget : Option Nat) (begun : Nat)
    (m m' : Machine σ Remark) : Prop :=
  ∃ between, m.Listens I [] [] between ∧ between.Listens I [] [] m' ∧
    (wanted between.journal = false → ∃ instant,
      m'.journal = .awaited (budget.map (· - (instant - begun))) none :: .clockRead instant ::
        between.journal ∧
      ∀ channel ∈ between.watches, I.waiting channel m'.world = [])

/-- The callback of a channel reads a datagram, unless that fails. -/
private theorem works_fireWatch (I : h.Inboxes) (descriptor : Nat) (m : Machine σ Remark) :
    m.Works I (m.fireWatch h descriptor) (.firing descriptor :: m.stack) ∧
      (m.fireWatch h descriptor).transport = m.transport := by
  have hpushed : m.Listens I [] [] (m.push (.firing descriptor)) := (Listens.refl m []).goesOn _ _
  unfold fireWatch
  split
  · next e m' hr =>
    have hread := talks_receive I m.transport.asyncChannel (congrArg Prod.fst hr)
    rw [hr] at hread
    have hl := hpushed.trans hread.toListens
    exact ⟨.resting (hl.goesOn _ _) rfl hread.stack, hread.transport⟩
  · next packets m' hr =>
    have hread := talks_receive I m.transport.asyncChannel (congrArg Prod.fst hr)
    rw [hr] at hread
    have hl := hpushed.trans hread.toListens
    exact ⟨.dispatching packets (hl.goesOn _ _) rfl (congrArg (List.cons _) hread.stack),
      hread.transport⟩

/-- What is known of a machine that works since another one holds since every earlier one. -/
private theorem Works.trans {under : List (Frame σ Remark)} (hl : m₀.Listens I [] [] m)
    (hw : m.Works I m' under) : m₀.Works I m' under := by
  cases hw with
  | resting hl' hc hs => exact .resting (hl.trans hl') hc hs
  | dispatching rest hl' hc hs => exact .dispatching rest (hl.trans hl') hc hs
  | hearing n number rest hl' hc hs => exact .hearing n number rest (hl.trans hl') hc hs
  | heard number rest hl' hc hs => exact .heard number rest (hl.trans hl') hc hs

/-- A turn of a wait without callbacks that run: client code goes on, or the callback of a channel
begins. -/
private theorem turnVigil_cases (I : h.Inboxes) (v : Vigil σ Remark) (m : Machine σ Remark)
    (hs : m.stack = []) :
    (∃ m' : Machine σ Remark, m.Talks I [] m' ∧ m.turnVigil h v = m'.run (v.next m'.journal) ∧
      (v.wanted m.journal = false → ∃ instant, m'.journal =
        .awaited (v.budget.map (· - (instant - v.begun))) none :: .clockRead instant :: m.journal ∧
          ∀ channel ∈ m.watches, I.waiting channel m'.world = [])) ∨
    ∃ descriptor, m.Works I (m.turnVigil h v)
        [.firing descriptor, .awaiting { v with isDraining := true }] ∧
      (m.turnVigil h v).transport = m.transport := by
  unfold turnVigil
  by_cases hgo : (v.wanted m.journal && !v.isDraining) = true
  · simp only [hgo, if_true]
    refine .inl ⟨m, ⟨.refl m [], rfl, rfl⟩, rfl, fun hw ↦ ?_⟩
    rw [hw] at hgo
    cases hgo
  · simp only [hgo, Bool.false_eq_true, if_false]
    have hclock := talks_readClock I (m := m)
    rcases hn : m.readClock h with ⟨instant, m₁⟩
    rw [hn] at hclock
    have hjournal : m₁.journal = .clockRead instant :: m.journal := by
      obtain ⟨rfl, rfl⟩ := Prod.mk.inj hn
      rfl
    dsimp only at hclock ⊢
    generalize ht : (if v.wanted m.journal = true then some 0
      else v.budget.map (· - (instant - v.begun))) = timeout
    have hsome := I.await_some m₁.watches timeout m₁.world
    have hnone := I.await_none m₁.watches timeout m₁.world
    have hwait (channel : Nat) := I.await channel m₁.watches timeout m₁.world
    rcases ha : h.await m₁.watches timeout m₁.world with ⟨readable, world⟩
    rw [ha] at hsome hnone hwait
    simp only [ha]
    have hawait : m.Talks I [] (m₁.after world (.awaited timeout readable)) :=
      hclock.trans (talks_after I world (.awaited timeout readable) rfl rfl (.of_isPrefix hwait))
    cases readable with
    | none =>
      refine .inl ⟨_, hawait, rfl, fun hw ↦ ⟨instant, ?_, fun channel hc ↦
        hnone rfl channel (hclock.watches ▸ hc)⟩⟩
      rw [hw] at ht
      subst ht
      exact congrArg (List.cons _) hjournal
    | some descriptor =>
      have hfire : (m₁.after world (.awaited timeout (some descriptor))).canFire descriptor =
          .fired := by
        have hmem := hsome descriptor rfl
        have hstack := hawait.stack.trans hs
        simp only [after] at hstack
        simp [canFire, after, hmem, hstack]
      simp only [hfire, if_true]
      obtain ⟨hworks, htransport⟩ := works_fireWatch I descriptor
        ((m₁.after world (.awaited timeout (some descriptor))).push
          (.awaiting { v with isDraining := true }))
      have hpushed : m.Listens I [] [] ((m₁.after world (.awaited timeout (some descriptor))).push
          (.awaiting { v with isDraining := true })) :=
        hawait.goesOn _ _
      have hstack : ((m₁.after world (.awaited timeout (some descriptor))).push
          (.awaiting { v with isDraining := true })).stack =
            [.awaiting { v with isDraining := true }] :=
        congrArg (List.cons _) (hawait.stack.trans hs)
      rw [hstack] at hworks
      exact .inr ⟨descriptor, hworks.trans hpushed, htransport.trans hawait.transport⟩

/-- The frames of a wait, below what is dispatched. -/
def Awaits (v : Vigil σ Remark) (under : List (Frame σ Remark)) : Prop :=
  ∃ isDraining, under = [.awaiting { v with isDraining }] ∨
    ∃ descriptor, under = [.firing descriptor, .awaiting { v with isDraining }]

/-- A step of a wait: it goes on, or client code goes on because the journal was as wanted, or
because time was up. -/
inductive Attends (I : h.Inboxes) (m₀ : Machine σ Remark) (v : Vigil σ Remark) :
    Machine σ Remark → Prop where
  | goes {m' : Machine σ Remark} {under : List (Frame σ Remark)} (hu : Awaits v under)
    (hw : m₀.Works I m' under) (hm : m'.OnlyHears) : Attends I m₀ v m'
  | ends {m' : Machine σ Remark} (hw : m₀.Wakes I v.wanted v.budget v.begun m')
    (hs : m'.stack = []) (hm : m'.OnlyHears) : Attends I m₀ v (m'.run (v.next m'.journal))

theorem attends_step {v : Vigil σ Remark} {under : List (Frame σ Remark)} (hm : m.OnlyHears)
    (hh : m.transport.isHeld = true) (hu : Awaits v under) (hw : m₀.Works I m under) :
    Attends I m₀ v (m.step h) := by
  by_cases hrest : m.control = .resume ∧ m.stack = under
  · obtain ⟨hc, hs⟩ := hrest
    have hready := hw.listens hc hs
    obtain ⟨isDraining, rfl | ⟨descriptor, rfl⟩⟩ := hu
    · have hpopped : m₀.Listens I [] [] { m with stack := [] } := hready.goesOn _ _
      have hstep : m.step h = { m with stack := [] }.turnVigil h { v with isDraining } :=
        step_eq_goOn h hc hs hh
      rw [hstep]
      rcases turnVigil_cases I { v with isDraining } { m with stack := [] } rfl with
        ⟨m', ht, hturn, he⟩ | ⟨descriptor, hworks, ht⟩
      · rw [hturn]
        refine .ends ⟨_, hpopped, ht.toListens, he⟩ ht.stack ?_
        exact hm.congr ht.transport
      · exact .goes ⟨true, .inr ⟨descriptor, rfl⟩⟩ (hworks.trans hpopped) (hm.congr ht)
    · have hstep : m.step h =
          ({ m with stack := [.awaiting { v with isDraining }] } : Machine σ Remark).resume :=
        step_eq_goOn h hc hs hh
      rw [hstep]
      exact .goes ⟨isDraining, .inl rfl⟩ (.resting (hready.goesOn _ _) rfl rfl) (hm.congr rfl)
  · have hfree (number : Nat) : under.any (Frame.notifies number) = false := by
      obtain ⟨isDraining, rfl | ⟨descriptor, rfl⟩⟩ := hu <;> rfl
    have hgather (number : Nat) (p : Packet) : under.map (Frame.gather number p) = under := by
      obtain ⟨isDraining, rfl | ⟨descriptor, rfl⟩⟩ := hu <;> rfl
    obtain ⟨hworks, hears⟩ := hw.step hm hh hfree fun hc hs ↦ hrest ⟨hc, hs⟩
    rcases hworks with hworks | ⟨number, p, hworks⟩
    · exact .goes hu hworks hears
    · exact .goes hu (hgather number p ▸ hworks) hears

/-! ### Rules for calls -/

/-- An exchange between two machines, with its outcome. -/
structure Exchanges (I : h.Inboxes) (request : Packet) (outcome : Except Error (List Packet))
    (m m' : Machine σ Remark) : Prop where
  listens : m.Listens I [] [] m'
  ended : ∃ before, m'.journal = .exchangeEnded request.sequence outcome :: before
  sent : ∀ replies, outcome = .ok replies →
    ∃ channel count, .sent channel request.toBytes count ∈ m'.journal

/-- An attempt to start the transport between two machines, with its outcome. -/
structure Starts (outcome : Except Error Unit) (m m' : Machine σ Remark) : Prop where
  notes : m'.journal.notes = m.journal.notes
  scans : m'.transport.scans = []
  watches : outcome = .ok () →
    ∃ channel, m'.transport.asyncChannel = some channel ∧ m'.watches = [channel]

end Machine

/-- Whether the code of a session, run from a machine, leaves only notes that tell the truth about
the machine that leaves them. What the system does in a call is left open, but the machines in which
calls return are on the way. -/
def Program.Tells (I : h.Inboxes) (isOnWay : Machine σ Remark → Prop)
    (truth : Remark → Machine σ Remark → Prop) : Program σ Remark → Machine σ Remark → Prop
  | .done, _ => True
  | .note remark next, m =>
    truth remark m ∧ next.Tells I isOnWay truth ((m.log (.noted remark)).run next)
  | .newRequest _ next, m =>
    ∀ request m', m.Listens I [] [] m' → (next request).Tells I isOnWay truth m'
  | .collect request next, m =>
    ∀ outcome m', m.Exchanges I request outcome m' → isOnWay m' →
      (next outcome).Tells I isOnWay truth m'
  | .start next, m =>
    m.IsWired ∧ m.transport.isStarted = false ∧ m.transport.scans = [] ∧
      ∀ outcome m', m.Starts outcome m' → (next outcome).Tells I isOnWay truth m'
  | .subscribeScan ifindex react next, m =>
    react = Script.hear ∧ next.Tells I isOnWay truth
      (((m.adjust fun t ↦
        { t with scans := t.scans.insert ifindex ⟨m.nextNumber, react⟩ }).advance).run next)
  | .unsubscribeScan ifindex next, m =>
    next.Tells I isOnWay truth
      ((m.adjust fun t ↦ { t with scans := t.scans.erase ifindex }).run next)
  | .await wanted budget next, m =>
    ∀ begun ready m', m.Listens I [] [] ready → ready.journal = .clockRead begun :: m.journal →
      ready.Wakes I wanted budget begun m' → (next m'.journal).Tells I isOnWay truth m'
  | _, _ => False

/-- Whether an event is no note of a session, or a note that tells the truth about a machine on the
way. What is heard is told by others. -/
def Event.IsTrue (isOnWay : Machine σ Remark → Prop) (truth : Remark → Machine σ Remark → Prop)
    (e : Event Remark) (earlier : Journal Remark) : Prop :=
  ∀ remark, e = .noted remark → (∀ notice, remark ≠ .heard notice) →
    ∃ m, isOnWay m ∧ m.journal = earlier ∧ truth remark m

namespace Machine

variable (I : h.Inboxes) (isOnWay : Machine σ Remark → Prop)
  (truth : Remark → Machine σ Remark → Prop) {m₀ m m' : Machine σ Remark}

/-- Where a session is in its code. -/
inductive Point (m : Machine σ Remark) : Prop where
  /-- A call is about to be made. -/
  | calling (program : Program σ Remark) (hc : m.control = .run program) (hs : m.stack = [])
    (ht : program.Tells I isOnWay truth m) (hj : m.journal.Each (Event.IsTrue isOnWay truth))
  /-- The transport is about to be started, and its family is looked up. -/
  | starting (m₀ : Machine σ Remark) (x : Exchange σ Remark) (name : String)
    (next : Except Error Unit → Program σ Remark) (hw : m₀.Works I m [.collecting x])
    (hx : x.waiter = .discovery name (.start next)) (hwired : m₀.IsWired) (hready : m₀.IsReady)
    (hscans : m₀.transport.scans = [])
    (ht : ∀ outcome m', m₀.Starts outcome m' → (next outcome).Tells I isOnWay truth m')
    (hj : m₀.journal.Each (Event.IsTrue isOnWay truth))
  /-- An exchange goes on. -/
  | exchanging (m₀ : Machine σ Remark) (x : Exchange σ Remark)
    (next : Except Error (List Packet) → Program σ Remark) (hw : m₀.Works I m [.collecting x])
    (hx : x.waiter = .client next)
    (ht : ∀ outcome m', m₀.Listens I [] [] m' →
      (∃ before, m'.journal = .exchangeEnded x.sequence outcome :: before) → isOnWay m' →
        (next outcome).Tells I isOnWay truth m')
    (hj : m₀.journal.Each (Event.IsTrue isOnWay truth))
  /-- The session waits for the event loop. -/
  | awaiting (m₀ : Machine σ Remark) (v : Vigil σ Remark) (under : List (Frame σ Remark))
    (hu : Awaits v under) (hw : m₀.Works I m under)
    (ht : ∀ m', m₀.Wakes I v.wanted v.budget v.begun m' →
      (v.next m'.journal).Tells I isOnWay truth m')
    (hj : m₀.journal.Each (Event.IsTrue isOnWay truth))
  | finished (hc : m.control = .resume) (hs : m.stack = [])
    (hj : m.journal.Each (Event.IsTrue isOnWay truth))

/-- What is kept along a session. -/
structure Abides (m : Machine σ Remark) : Prop where
  hears : m.OnlyHears
  isHeld : m.transport.isHeld = true
  point : m.Point I isOnWay truth

variable {I isOnWay truth}

/-! ### Steps of a session -/

/-- Events that leave no notes but of what is heard leave all notes true. -/
private theorem Listens.each_isTrue {before after : List Packet} (hl : m.Listens I before after m')
    (hj : m.journal.Each (Event.IsTrue isOnWay truth)) :
    m'.journal.Each (Event.IsTrue isOnWay truth) := by
  obtain ⟨new, hnew, hhearing⟩ := hl.journal
  rw [hnew]
  refine hj.append fun e he earlier remark hnote hheard ↦ ?_
  subst hnote
  rcases hhearing.calm _ he with hquiet | ⟨n, hn⟩
  · cases hquiet
  · exact absurd (Event.noted.inj hn) (hheard _)

/-- So does wiring. -/
private theorem Wires.each_isTrue (hw : m.Wires m')
    (hj : m.journal.Each (Event.IsTrue isOnWay truth)) :
    m'.journal.Each (Event.IsTrue isOnWay truth) := by
  obtain ⟨new, hnew, hwiring⟩ := hw.journal
  rw [hnew]
  refine hj.append fun e he earlier remark hnote _ ↦ ?_
  subst hnote
  cases hwiring _ he

/-- All notes are true wherever a session is. -/
theorem Abides.each_isTrue (hm : m.Abides I isOnWay truth) :
    m.journal.Each (Event.IsTrue isOnWay truth) := by
  have hworks {m₀ : Machine σ Remark} {under : List (Frame σ Remark)}
      (hw : m₀.Works I m under) (hj : m₀.journal.Each (Event.IsTrue isOnWay truth)) :
      m.journal.Each (Event.IsTrue isOnWay truth) := by
    cases hw with
    | resting hl => exact hl.each_isTrue hj
    | dispatching rest hl => exact hl.each_isTrue hj
    | hearing n number rest hl => exact (hl.each_isTrue hj).2
    | heard number rest hl => exact hl.each_isTrue hj
  cases hm.point with
  | calling program hc hs ht hj => exact hj
  | starting m₀ x name next hw hx hwired hready hscans ht hj => exact hworks hw hj
  | exchanging m₀ x next hw hx ht hj => exact hworks hw hj
  | awaiting m₀ v under hu hw ht hj => exact hworks hw hj
  | finished hc hs hj => exact hj

section start

variable {next : Except Error Unit → Program σ Remark}
  (ht : ∀ outcome m', m₀.Starts outcome m' → (next outcome).Tells I isOnWay truth m')
include ht

/-- An attempt to start the transport has returned. -/
private theorem Abides.of_returned (hr : m.Returned next) (hm : m.OnlyHears)
    (hh : m.transport.isHeld = true) (hs : m.stack = []) (hscans : m.transport.scans = [])
    (hnotes : m.journal.notes = m₀.journal.notes)
    (hj : m.journal.Each (Event.IsTrue isOnWay truth)) : m.Abides I isOnWay truth := by
  obtain ⟨outcome, hc, -, -, hup⟩ := hr
  refine ⟨hm, hh, .calling (next outcome) hc hs (ht outcome m ⟨hnotes, hscans, fun hok ↦ ?_⟩) hj⟩
  obtain ⟨sync, async, earlier, -, hasync, -, -, hwatches, -⟩ := hup hok
  exact ⟨async, hasync, hwatches⟩

/-- The exchange that looks the family up ends. -/
private theorem Abides.of_started {ready : Machine σ Remark} (hwired : m₀.IsWired)
    (hready : m₀.IsReady) (hscans : m₀.transport.scans = []) (hl : m₀.Listens I [] [] ready)
    (hm : ready.OnlyHears) (hh : ready.transport.isHeld = true) (hs : ready.stack = [])
    (hj : m₀.journal.Each (Event.IsTrue isOnWay truth)) (sequence : UInt32) (name : String)
    (outcome : Except Error (List Packet)) :
    (ready.endExchange h sequence (.discovery name (.start next)) outcome).Abides I isOnWay
      truth := by
  have hcalm := hl.calms hscans
  have hwires := wires_handReplies h (ready.log (.exchangeEnded sequence outcome))
    (.discovery name (.start next)) outcome
  obtain ⟨hscans', hschedules'⟩ := Prod.mk.inj hwires.subscriptions
  refine .of_returned ht (returned_endExchange h (hcalm.isWired hwired) (hcalm.isReady hready)
    sequence name next outcome) ⟨?_, ?_, ?_⟩ (hwires.isHeld.trans hh) (hwires.stack.trans hs) ?_
    ?_ (hwires.each_isTrue ((hl.endExchange sequence outcome).each_isTrue hj))
  · exact hm.pending.congr hwires.pending
  · rw [endExchange, hscans']
    exact hm.scans
  · exact hschedules'.trans hm.schedules
  · exact hscans'.trans ((Prod.mk.inj hcalm.toKeepsWiring.subscriptions).1.trans hscans)
  · exact hwires.notes.trans hcalm.notes

/-- The transport is started. -/
private theorem Abides.of_start (hm : m.OnlyHears) (hh : m.transport.isHeld = true)
    (hs : m.stack = []) (hwired : m.IsWired) (hstarted : m.transport.isStarted = false)
    (hscans : m.transport.scans = []) (hnotes : m.journal.notes = m₀.journal.notes)
    (hj : m.journal.Each (Event.IsTrue isOnWay truth)) :
    (m.start h next).Abides I isOnWay truth := by
  have hwire {m' : Machine σ Remark} (hw : m.Wires m') :
      m'.OnlyHears ∧ m'.transport.isHeld = true ∧ m'.stack = [] ∧ m'.transport.scans = [] ∧
        m'.journal.notes = m₀.journal.notes ∧
        m'.journal.Each (Event.IsTrue isOnWay truth) := by
    obtain ⟨hscans', hschedules'⟩ := Prod.mk.inj hw.subscriptions
    refine ⟨⟨hm.pending.congr hw.pending, ?_, hschedules'.trans hm.schedules⟩,
      hw.isHeld.trans hh, hw.stack.trans hs, hscans'.trans hscans, hw.notes.trans hnotes,
      hw.each_isTrue hj⟩
    rw [hscans']
    exact hm.scans
  rcases start_cases h hwired hh hstarted next with ⟨hw, hr⟩ | ⟨ready, request, name, hw, hwired',
    hready, hbegin⟩
  · obtain ⟨hm', hh', hs', hscans', hnotes', hj'⟩ := hwire hw
    exact .of_returned ht hr hm' hh' hs' hscans' hnotes' hj'
  · obtain ⟨hm', hh', hs', hscans', hnotes', hj'⟩ := hwire hw
    have ht' (outcome : Except Error Unit) (m' : Machine σ Remark)
        (hst : ready.Starts outcome m') : (next outcome).Tells I isOnWay truth m' :=
      ht outcome m' ⟨hst.notes.trans hnotes', hst.scans, hst.watches⟩
    rw [hbegin]
    rcases beginExchange_cases I request (.discovery name (.start next)) ready with
      ⟨e, ready', hr, hend⟩ | ⟨x, -, -, hx, -, hwaits, -⟩
    · rw [hend]
      exact .of_started ht' hwired' hready hscans' hr.listens
        (hm'.keep hr.listens.toKeepsWiring (hr.gathers hm'.pending))
        (hr.listens.isHeld.trans hh') (hr.stack.trans hs') hj' _ name _
    · have hworks := hwaits.works (.refl ready []) hs'
      exact ⟨hm'.keep hwaits.listens.toKeepsWiring (hwaits.gathers hm'.pending),
        hwaits.listens.isHeld.trans hh',
        .starting ready x name next hworks hx hwired' hready hscans' ht' hj'⟩

end start

/-- A call of a session is made. -/
private theorem Abides.of_call {program : Program σ Remark} (hm : m.OnlyHears)
    (hh : m.transport.isHeld = true) (hs : m.stack = [])
    (ht : program.Tells I isOnWay truth m) (hj : m.journal.Each (Event.IsTrue isOnWay truth))
    (hway : isOnWay m) (hway' : isOnWay (m.call h program)) :
    (m.call h program).Abides I isOnWay truth := by
  cases program with
  | done => exact ⟨hm.congr rfl, hh, .finished rfl hs hj⟩
  | note remark next =>
    obtain ⟨htruth, ht⟩ := ht
    refine ⟨hm.congr rfl, hh, .calling next rfl hs ht ⟨?_, hj⟩⟩
    intro remark' hnote _
    cases hnote
    exact ⟨m, hway, rfl, htruth⟩
  | newRequest command next =>
    have hrequest : (m.transport.request command).2.wiring = m.transport.wiring ∧
        (m.transport.request command).2.pending = m.transport.pending ∧
        (m.transport.request command).2.families = m.transport.families := by
      unfold Transport.request
      split <;> exact ⟨rfl, rfl, rfl⟩
    obtain ⟨hwiring, hpending, hfamilies⟩ := hrequest
    have hl : m.Listens I [] [] (m.call h (.newRequest command next)) :=
      ⟨⟨hwiring, rfl⟩, hfamilies, (Listens.refl m []).journal⟩
    exact ⟨hm.keep hl.toKeepsWiring (hm.pending.congr hpending), hl.isHeld.trans hh,
      .calling _ rfl hs (ht _ _ hl) hj⟩
  | collect request next =>
    change isOnWay (m.beginExchange h request (.client next)) at hway'
    change (m.beginExchange h request (.client next)).Abides I isOnWay truth
    rcases beginExchange_cases I request (.client next) m with
      ⟨e, ready, hr, hend⟩ | ⟨x, channel, count, hx, hn, hwaits, hsent⟩
    · rw [hend] at hway' ⊢
      have hl : m.Listens I [] [] (ready.endExchange h request.sequence (.client next)
          (.error e)) := (hr.listens.endExchange request.sequence (.error e)).goesOn _ _
      have hm' := hm.keep hr.listens.toKeepsWiring (hr.gathers hm.pending)
      exact ⟨hm'.congr rfl, hl.isHeld.trans hh,
        .calling _ rfl (hr.stack.trans hs)
          (ht _ _ ⟨hl, ⟨_, rfl⟩, fun _ hok ↦ by contradiction⟩ hway') (hl.each_isTrue hj)⟩
    · generalize m.beginExchange h request (.client next) = m' at *
      have hstack := hwaits.stack
      rw [hs] at hstack
      refine ⟨hm.keep hwaits.listens.toKeepsWiring (hwaits.gathers hm.pending),
        hwaits.listens.isHeld.trans hh, .exchanging m' x next
          (.resting (.refl m' []) hwaits.control hstack) hx ?_ (hwaits.listens.each_isTrue hj)⟩
      intro outcome m'' hl hended hway''
      rw [hn] at hended
      refine ht outcome m'' ⟨hwaits.listens.trans hl, hended, fun _ _ ↦ ⟨channel, count, ?_⟩⟩ hway''
      obtain ⟨new, hnew, -⟩ := hl.journal
      rw [hnew]
      exact List.mem_append_right _ hsent
  | start next =>
    obtain ⟨hwired, hstarted, hscans, ht⟩ := ht
    exact .of_start ht hm hh hs hwired hstarted hscans rfl hj
  | subscribeScan ifindex react next =>
    obtain ⟨rfl, ht⟩ := ht
    refine ⟨⟨hm.pending, fun key s hg ↦ ?_, hm.schedules⟩, hh, .calling next rfl hs ht hj⟩
    have hg : (m.transport.scans.insert ifindex ⟨m.nextNumber, Script.hear⟩).get? key = some s := hg
    rw [Table.get?_insert] at hg
    split at hg
    · rw [← Option.some.inj hg]
    · exact hm.scans key s hg
  | unsubscribeScan ifindex next =>
    refine ⟨⟨hm.pending, fun key s hg ↦ ?_, hm.schedules⟩, hh, .calling next rfl hs ht hj⟩
    have hg : (m.transport.scans.erase ifindex).get? key = some s := hg
    rw [Table.get?_erase] at hg
    split at hg
    · contradiction
    · exact hm.scans key s hg
  | await wanted budget next =>
    have hclock := talks_readClock I (m := m)
    have hl : m.Listens I [] [] (m.call h (.await wanted budget next)) := hclock.goesOn _ _
    let v : Vigil σ Remark := ⟨wanted, budget, (m.readClock h).1, false, next⟩
    have hstack : (m.call h (.await wanted budget next)).stack = [.awaiting v] :=
      congrArg (List.cons _) (hclock.stack.trans hs)
    exact ⟨hm.congr hclock.transport, hl.isHeld.trans hh, .awaiting _ v _ ⟨false, .inl rfl⟩
      (.resting (.refl _ []) rfl hstack) (fun m' hw ↦ ht _ _ m' hl rfl hw) (hl.each_isTrue hj)⟩
  | _ => exact ht.elim

/-- Every step of a session leaves only notes that tell the truth. -/
theorem Abides.step (hm : m.Abides I isOnWay truth) (hway : isOnWay m)
    (hway' : isOnWay (m.step h)) : (m.step h).Abides I isOnWay truth := by
  obtain ⟨hears, hh, hpoint⟩ := hm
  cases hpoint with
  | calling program hc hs ht hj =>
    rw [step_eq_call h hc hh] at hway' ⊢
    exact .of_call hears hh hs ht hj hway hway'
  | starting m₀ x name next hw hx hwired hready hscans ht hj =>
    have hheld := hw.keeps.isHeld.symm.trans hh
    have hsteps := steps_of_collecting hears hh hw
    generalize m.step h = m' at hsteps hway' ⊢
    cases hsteps with
    | goes x' hx' hn hw' hm' =>
      exact ⟨hm', hw'.keeps.isHeld.trans hheld,
        .starting m₀ x' name next hw' (hx'.trans hx) hwired hready hscans ht hj⟩
    | ends outcome hl hs hm' =>
      rw [hx]
      exact .of_started ht hwired hready hscans hl hm' (hl.isHeld.trans hheld) hs hj _ name outcome
  | exchanging m₀ x next hw hx ht hj =>
    have hheld := hw.keeps.isHeld.symm.trans hh
    have hsteps := steps_of_collecting hears hh hw
    generalize m.step h = m' at hsteps hway' ⊢
    cases hsteps with
    | goes x' hx' hn hw' hm' =>
      exact ⟨hm', hw'.keeps.isHeld.trans hheld,
        .exchanging m₀ x' next hw' (hx'.trans hx) (hn ▸ ht) hj⟩
    | @ends ready outcome hl hs hm' =>
      rw [hx] at hway' ⊢
      have hended : m₀.Listens I [] [] (ready.endExchange h x.sequence (.client next) outcome) :=
        (hl.endExchange x.sequence outcome).goesOn _ _
      exact ⟨hm'.congr rfl, hended.isHeld.trans hheld,
        .calling _ rfl hs (ht outcome _ hended ⟨_, rfl⟩ hway') (hended.each_isTrue hj)⟩
  | awaiting m₀ v under hu hw ht hj =>
    have hheld := hw.keeps.isHeld.symm.trans hh
    have hattends := attends_step hears hh hu hw
    generalize m.step h = m' at hattends hway' ⊢
    cases hattends with
    | goes hu' hw' hm' =>
      exact ⟨hm', hw'.keeps.isHeld.trans hheld, .awaiting m₀ v _ hu' hw' ht hj⟩
    | @ends m' hw' hs hm' =>
      obtain ⟨between, hl, hl', hexpired⟩ := hw'
      have hgoes : between.Listens I [] [] (m'.run (v.next m'.journal)) := hl'.goesOn _ _
      have hall := hl.trans hgoes
      exact ⟨hm'.congr rfl, hall.isHeld.trans hheld,
        .calling _ rfl hs (ht _ ⟨between, hl, hgoes, hexpired⟩) (hall.each_isTrue hj)⟩
  | finished hc hs hj =>
    have hab : m.isAbandoned = false := by simp [isAbandoned, hh]
    have hstep : m.step h = m := by
      simp only [Machine.step, hab, hc, hs, Bool.false_eq_true, if_false]
    rw [hstep]
    exact ⟨hears, hh, .finished hc hs hj⟩

/-- Along a run of code that tells the truth all notes are true. -/
theorem Abides.steps {start : Machine σ Remark} (hm : start.Abides I
    (fun m ↦ ∃ count, m = start.steps h count) truth) (count : Nat) :
    (start.steps h count).Abides I (fun m ↦ ∃ count, m = start.steps h count) truth := by
  induction count with
  | zero => exact hm
  | succ count ih =>
    by_cases hi : (start.steps h count).isIdle = true
    · rw [steps_succ, if_pos hi]
      exact ih
    · have hnext := steps_succ h start count
      rw [if_neg hi] at hnext
      rw [hnext]
      exact ih.step ⟨count, rfl⟩ ⟨count + 1, hnext.symm⟩

end Machine

end WifiNetlink
