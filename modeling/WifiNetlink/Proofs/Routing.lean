import Mathlib
import WifiNetlink.Proofs.Boundary

/-!
# Messages without a sequence number

Such a message is for a subscription or for nobody. Which one is told by the history of the calls
that subscribed and unsubscribed handlers, the family that was looked up, and the message: its type,
its command and the interface it names. No request ever waits for the number of these messages.
-/

namespace WifiNetlink

variable {σ ν : Type}

/-! ### Histories of subscriptions -/

/-- A call that puts a subscription into the place of the one before, or takes it out if there is
none to put in. -/
inductive Change (σ ν : Type) where
  | scan (ifindex : UInt32) (subscription : Option (Subscription σ ν ScanNotification))
  | schedule (ifindex : UInt32) (subscription : Option (Subscription σ ν UInt32))

namespace Change

/-- The number of the new subscription. -/
def number? : Change σ ν → Option Nat
  | scan _ subscription => subscription.map (·.number)
  | schedule _ subscription => subscription.map (·.number)

/-- The handler last subscribed to the scans of an interface and not since unsubscribed. The latest
change stands first. -/
def scanHandler? (ifindex : UInt32) :
    List (Change σ ν) → Option (Subscription σ ν ScanNotification)
  | [] => none
  | .scan i subscription :: past => if i = ifindex then subscription else scanHandler? ifindex past
  | .schedule .. :: past => scanHandler? ifindex past

/-- The handler last subscribed to the scheduled scans of an interface and not since
unsubscribed. -/
def scheduleHandler? (ifindex : UInt32) : List (Change σ ν) → Option (Subscription σ ν UInt32)
  | [] => none
  | .scan .. :: past => scheduleHandler? ifindex past
  | .schedule i subscription :: past =>
    if i = ifindex then subscription else scheduleHandler? ifindex past

/-- The numbers of the subscriptions of a history. -/
def numbers (past : List (Change σ ν)) : List Nat := past.filterMap number?

/-- Whether the tables hold what was last subscribed: a change concerns one kind of notification of
one interface and no other. -/
def HeldBy (past : List (Change σ ν)) (t : Transport σ ν) : Prop :=
  ∀ ifindex, t.scans.get? ifindex = scanHandler? ifindex past ∧
    t.schedules.get? ifindex = scheduleHandler? ifindex past

end Change

namespace Machine

/-- The change that the next step makes to the subscriptions. -/
def change? (m : Machine σ ν) : Option (Change σ ν) :=
  if m.transport.isHeld then
    match m.control with
    | .run (.subscribeScan ifindex react _) => some (.scan ifindex (some ⟨m.nextNumber, react⟩))
    | .run (.unsubscribeScan ifindex _) => some (.scan ifindex none)
    | .run (.subscribeSchedule ifindex react _) =>
      some (.schedule ifindex (some ⟨m.nextNumber, react⟩))
    | .run (.unsubscribeSchedule ifindex _) => some (.schedule ifindex none)
    | _ => none
  else none

end Machine

/-- The machines that a transport with these settings can lead to, with all changes that were made
to its subscriptions, the latest first. -/
inductive Recorded (h : Host σ) (config : Config) (port : UInt32) :
    List (Change σ ν) → Machine σ ν → Prop where
  | fresh (world : σ) : Recorded h config port [] (.fresh config port world)
  | step {past : List (Change σ ν)} {m : Machine σ ν} :
    Recorded h config port past m → Recorded h config port (m.change?.toList ++ past) (m.step h)
  | enter {past : List (Change σ ν)} {m : Machine σ ν} (program : Program σ ν) :
    Recorded h config port past m → m.isIdle = true → Recorded h config port past (m.run program)

variable {h : Host σ} {config : Config} {port : UInt32} {m m' : Machine σ ν}
  {past : List (Change σ ν)}

theorem Reachable.recorded (hr : Reachable h config port m) :
    ∃ past, Recorded h config port past m := by
  obtain ⟨world, hrun⟩ := hr
  induction hrun with
  | refl => exact ⟨[], .fresh world⟩
  | step _ _ ih =>
    obtain ⟨past, hpast⟩ := ih
    exact ⟨_, hpast.step⟩
  | enter program _ hi ih =>
    obtain ⟨past, hpast⟩ := ih
    exact ⟨past, hpast.enter program hi⟩

/-! ### The number of multicast traffic -/

namespace Event

theorem opens_of_isPlain {e : Event ν} (he : e.isPlain = true) (sequence : UInt32) :
    e.opens sequence = false := by
  cases e <;> simp_all [opens, isPlain]

theorem opens_of_isCall {e : Event ν} (he : e.isCall = true) (sequence : UInt32) :
    e.opens sequence = false := by
  cases e <;> simp_all [opens, isCall]

end Event

section zero

open Journal

variable {l l' : Ledger σ ν}

/-- No move puts the number of multicast traffic to use. -/
theorem Move.opens_zero {kind : MoveKind} (hm : Move l kind l') :
    l'.journal.opens 0 = l.journal.opens 0 := by
  cases hm with
  | entry e he hk => simp only [Ledger.log, opens_cons, Event.opens_of_isPlain he, Bool.false_or]
  | register sequence react hn hh => simp [Ledger.log, opens_cons, Event.opens, hn]
  | begin sequence waiter begun descriptor count message hn hh hc =>
    simp [opens_cons, Event.opens, hn]
  | refuse sequence e entries hn hh he hs =>
    rcases hs with rfl | ⟨descriptor, message, outcome, rfl⟩
    · simp [opens_cons, Event.opens, hn]
    · simp [opens_cons, Event.opens, hn]
  | _ => rfl

/-- No dispatch puts a number to use. -/
theorem Dispatch.opens {p : Packet} (hd : Dispatch p l l') (sequence : UInt32) :
    l'.journal.opens sequence = l.journal.opens sequence := by
  obtain ⟨new, hj, -, -, hnew⟩ := hd.journal
  rw [hj, opens_append, Bool.or_eq_right_iff_imp]
  intro ho
  obtain ⟨e, he, hopens⟩ := List.any_eq_true.mp ho
  rcases hnew e he with hcall | rfl
  · rw [Event.opens_of_isCall hcall] at hopens
    contradiction
  · contradiction

/-- No request waits for the number of multicast traffic, and no exchange or handler of it goes
on. -/
theorem Reachable.isUntouched_zero (hr : Reachable h config port m) :
    m.ledger.IsUntouched 0 := by
  apply hr.isUntouched
  exact hr.invariant (I := fun l ↦ l.journal.opens 0 = false) (fun _ ↦ rfl)
    (fun _ hm hl ↦ hm.opens_zero.trans hl) fun _ hd hl ↦ (hd.opens 0).trans hl

end zero

/-! ### What leaves subscriptions alone -/

section

variable {kind : MoveKind} {l l' : Ledger σ ν}

/-- Only moves about subscriptions and taking the transport down change the subscriptions. -/
theorem Move.subscriptions_eq (hm : Move l kind l') (hs : kind ≠ .subscription)
    (ht : kind ≠ .teardown) : l'.subscriptions = l.subscriptions := by
  cases hm with
  | subscribe | unsubscribe | takeDown => contradiction
  | _ => rfl

theorem Row.subscriptions_eq (hr : Row kind l l') (hs : kind ≠ .subscription)
    (ht : kind ≠ .teardown) : l'.subscriptions = l.subscriptions := by
  induction hr with
  | refl => rfl
  | tail _ hlast ih => exact (hlast.subscriptions_eq hs ht).trans ih

theorem Dispatch.subscriptions_eq {p : Packet} (hd : Dispatch p l l') :
    l'.subscriptions = l.subscriptions := by
  cases hd <;> rfl

theorem Move.isAlive_of_teardown (hm : Move l .teardown l') : l'.isAlive = false := by
  cases hm with
  | entry e he hk => cases e <;> simp_all [Event.kind]
  | takeDown => rfl

/-- What a step does besides exchanges and dispatching leaves the subscriptions alone, unless it is
a change of them or takes the transport down. -/
theorem Machine.Aside.subscriptions_eq (ha : m.Aside l) (hn : m.change? = none)
    (hl : l.isAlive = true) : l.subscriptions = m.transport.subscriptions := by
  cases ha with
  | routine hr => exact hr.subscriptions_eq (by simp) (by simp)
  | wiring hr => exact hr.subscriptions_eq (by simp) (by simp)
  | request _ hr => exact hr.subscriptions_eq (by simp) (by simp)
  | state hm => exact hm.subscriptions_eq (by simp) (by simp)
  | @subscription program hc hs hh _ =>
    cases program <;> simp_all [change?, Program.subscribes]
  | teardown _ hm =>
    rw [hm.isAlive_of_teardown] at hl
    contradiction

end

/-! ### What becomes of subscriptions -/

/-- A move gives numbers out upwards and brings no transport back. -/
theorem Move.grows {kind : MoveKind} {l l' : Ledger σ ν} (hm : Move l kind l') :
    l.nextNumber ≤ l'.nextNumber ∧ (l'.isAlive = true → l.isAlive = true) := by
  cases hm with
  | subscribe scans schedules => exact ⟨Nat.le_succ _, id⟩
  | begin sequence waiter begun descriptor count message hn hh hc => exact ⟨Nat.le_succ _, id⟩
  | refuse sequence e entries hn hh he hs => exact ⟨Nat.le_succ _, id⟩
  | takeDown hh hk hw => exact ⟨Nat.le_refl _, fun ha ↦ absurd ha Bool.false_ne_true⟩
  | _ => exact ⟨Nat.le_refl _, id⟩

/-- A dispatch gives no number out. -/
theorem Dispatch.grows {p : Packet} {l l' : Ledger σ ν} (hd : Dispatch p l l') :
    l'.nextNumber = l.nextNumber ∧ l'.isAlive = l.isAlive := by
  cases hd <;> exact ⟨rfl, rfl⟩

theorem Machine.grows_step (h : Host σ) (m : Machine σ ν) :
    m.nextNumber ≤ (m.step h).nextNumber ∧
      ((m.step h).transport.isAlive = true → m.transport.isAlive = true) := by
  cases hd : m.due? with
  | none =>
    exact (m.moves_step h hd).preserve
      (I := fun l ↦ m.nextNumber ≤ l.nextNumber ∧ (l.isAlive = true → m.transport.isAlive = true))
      (fun hm hl ↦ ⟨Nat.le_trans hl.1 hm.grows.1, hl.2 ∘ hm.grows.2⟩) ⟨Nat.le_refl _, id⟩
  | some p =>
    obtain ⟨hnumber, halive⟩ := (m.dispatch_step h hd).grows
    exact ⟨Nat.le_of_eq hnumber.symm, fun ha ↦ halive.symm.trans ha⟩

/-- A table after the value of a key is put in, or taken out if there is none. -/
def Table.update {κ α : Type} [DecidableEq κ] (t : Table κ α) (key : κ) :
    Option α → Table κ α
  | some value => t.insert key value
  | none => t.erase key

theorem Table.get?_update {κ α : Type} [DecidableEq κ] (t : Table κ α) (key other : κ)
    (value : Option α) :
    (t.update other value).get? key = if other = key then value else t.get? key := by
  cases value with
  | none => simp only [update, Table.get?_erase, eq_comm]
  | some value => simp only [update, Table.get?_insert, eq_comm]

namespace Change

/-- The tables of subscriptions after a change. -/
def apply (c : Change σ ν)
    (tables : Table UInt32 (Subscription σ ν ScanNotification) ×
      Table UInt32 (Subscription σ ν UInt32)) :
    Table UInt32 (Subscription σ ν ScanNotification) × Table UInt32 (Subscription σ ν UInt32) :=
  match c with
  | scan ifindex subscription => (tables.1.update ifindex subscription, tables.2)
  | schedule ifindex subscription => (tables.1, tables.2.update ifindex subscription)

/-- Tables that hold a history hold the one that goes on with a change after it. -/
theorem HeldBy.cons {t t' : Transport σ ν} (ht : HeldBy past t) (c : Change σ ν)
    (hc : t'.subscriptions = c.apply t.subscriptions) : HeldBy (c :: past) t' := by
  intro ifindex
  obtain ⟨hscan, hschedule⟩ := ht ifindex
  cases c with
  | scan i subscription =>
    obtain ⟨hs, hs'⟩ := Prod.mk.inj hc
    rw [hs, hs', Table.get?_update]
    exact ⟨congrArg (ite _ _) hscan, hschedule⟩
  | schedule i subscription =>
    obtain ⟨hs, hs'⟩ := Prod.mk.inj hc
    rw [hs, hs', Table.get?_update]
    exact ⟨hscan, congrArg (ite _ _) hschedule⟩

end Change

namespace Machine

/-- A change is made by the step, and gives the next number out to a new subscription. -/
theorem step_of_change (h : Host σ) {c : Change σ ν} (hc : m.change? = some c) :
    (m.step h).transport.subscriptions = c.apply m.transport.subscriptions ∧
      ∀ number, c.number? = some number →
        number = m.nextNumber ∧ (m.step h).nextNumber = m.nextNumber + 1 := by
  unfold change? at hc
  split at hc
  · next hh =>
    split at hc
    · next ifindex react next hrun =>
      obtain rfl := Option.some.inj hc
      rw [step_eq_call h hrun hh]
      exact ⟨rfl, fun number hn ↦ ⟨(Option.some.inj hn).symm, rfl⟩⟩
    · next ifindex next hrun =>
      obtain rfl := Option.some.inj hc
      rw [step_eq_call h hrun hh]
      exact ⟨rfl, fun number hn ↦ absurd hn (Option.some_ne_none number).symm⟩
    · next ifindex react next hrun =>
      obtain rfl := Option.some.inj hc
      rw [step_eq_call h hrun hh]
      exact ⟨rfl, fun number hn ↦ ⟨(Option.some.inj hn).symm, rfl⟩⟩
    · next ifindex next hrun =>
      obtain rfl := Option.some.inj hc
      rw [step_eq_call h hrun hh]
      exact ⟨rfl, fun number hn ↦ absurd hn (Option.some_ne_none number).symm⟩
    · contradiction
  · contradiction

variable (h : Host σ)

private theorem subscriptions_endExchange (sequence : UInt32) (waiter : Waiter σ ν)
    (outcome : Except Error (List Packet)) (m : Machine σ ν) :
    (m.endExchange h sequence waiter outcome).transport.subscriptions =
      m.transport.subscriptions :=
  (wires_handReplies h (m.log (.exchangeEnded sequence outcome)) waiter outcome).subscriptions

private theorem subscriptions_beginExchange (request : Packet) (waiter : Waiter σ ν)
    (m : Machine σ ν) : (m.beginExchange h request waiter).transport.subscriptions =
      m.transport.subscriptions := by
  by_cases hn : request.sequence = 0
  · simp only [beginExchange, hn, if_true]
    exact subscriptions_endExchange h 0 waiter _ m
  · have hb := begins_beginExchange h m request waiter hn
    generalize m.beginExchange h request waiter = m' at hb
    cases hb with
    | refused e ready new hl hj hnew hk =>
      exact (subscriptions_endExchange h _ _ _ ready).trans hk.subscriptions
    | sent begun m' new hs hp hj hnew hk hc => exact hk.subscriptions

private theorem subscriptions_turnExchange (x : Exchange σ ν) (m : Machine σ ν) :
    (m.turnExchange h x).transport.subscriptions = m.transport.subscriptions := by
  have ht := turns_turnExchange h m x
  generalize m.turnExchange h x = m' at ht
  cases ht with
  | ends outcome ready hcloses =>
    exact (subscriptions_endExchange h _ _ _ ready).trans hcloses.keeps.subscriptions
  | waits m' read hs htalk ht hw hc => exact congrArg _ ht

/-- A step that makes no change leaves the subscriptions as they are, unless it takes the transport
down. -/
theorem step_of_no_change (hn : m.change? = none)
    (ha : (m.step h).transport.isAlive = true) :
    (m.step h).transport.subscriptions = m.transport.subscriptions := by
  by_cases hasks : m.asks? = none ∨ m.transport.isHeld = false
  · by_cases hturn : ∃ x stack, m.stack = .collecting x :: stack ∧ m.control = .resume
    · obtain ⟨x, stack, hs, hc⟩ := hturn
      rw [step_of_collecting h hc hs]
      exact subscriptions_turnExchange h x _
    · cases hdue : m.due? with
      | none =>
        have haside := m.aside_step h hdue hasks fun x stack hs hc ↦ hturn ⟨x, stack, hs, hc⟩
        exact haside.subscriptions_eq hn ha
      | some p => exact (m.dispatch_step h hdue).subscriptions_eq
  · rw [not_or, Bool.not_eq_false] at hasks
    obtain ⟨⟨sequence, waiter⟩, hask⟩ := Option.ne_none_iff_exists'.mp hasks.1
    rcases step_of_asks h hask hasks.2 with ⟨hw, -⟩ | ⟨ready, request, hw, -, hm⟩
    · exact hw.subscriptions
    · rw [hm]
      exact (subscriptions_beginExchange h request waiter ready).trans hw.subscriptions

end Machine

/-- What a history tells of a machine: as long as the transport is there, its tables hold what was
last subscribed, and no two subscriptions were given one number. -/
structure Machine.Follows (past : List (Change σ ν)) (m : Machine σ ν) : Prop where
  heldBy : m.transport.isAlive = true → Change.HeldBy past m.transport
  lt_nextNumber : ∀ number ∈ Change.numbers past, number < m.nextNumber
  nodup : (Change.numbers past).Nodup

namespace Machine.Follows

/-- A step goes on with the history by the change it makes. -/
theorem step (h : Host σ) (hm : m.Follows past) :
    (m.step h).Follows (m.change?.toList ++ past) := by
  obtain ⟨hnumber, halive⟩ := m.grows_step h
  cases hc : m.change? with
  | none =>
    refine ⟨fun ha ↦ ?_, fun number hn ↦ ?_, hm.nodup⟩
    · have hkept := m.step_of_no_change h hc ha
      intro ifindex
      rw [(Prod.mk.inj hkept).1, (Prod.mk.inj hkept).2]
      exact hm.heldBy (halive ha) ifindex
    · exact Nat.lt_of_lt_of_le (hm.lt_nextNumber number hn) hnumber
  | some c =>
    obtain ⟨hsub, hnew⟩ := m.step_of_change h hc
    have hheld (ha : (m.step h).transport.isAlive = true) :
        Change.HeldBy (c :: past) (m.step h).transport :=
      (hm.heldBy (halive ha)).cons c hsub
    cases hn : c.number? with
    | none =>
      have hnumbers : Change.numbers (c :: past) = Change.numbers past :=
        List.filterMap_cons_none hn
      refine ⟨hheld, fun number hmem ↦ ?_, hnumbers ▸ hm.nodup⟩
      exact Nat.lt_of_lt_of_le (hm.lt_nextNumber number (hnumbers ▸ hmem)) hnumber
    | some number =>
      -- The number of a new subscription is above all that were given out.
      obtain ⟨rfl, hnext⟩ := hnew number hn
      have hnumbers : Change.numbers (c :: past) = m.nextNumber :: Change.numbers past :=
        List.filterMap_cons_some hn
      refine ⟨hheld, fun number hmem ↦ ?_, ?_⟩
      · simp only [Option.toList_some, List.singleton_append, hnumbers, List.mem_cons] at hmem
        rw [hnext]
        rcases hmem with rfl | hmem
        · exact Nat.lt_succ_self _
        · exact Nat.lt_succ_of_lt (hm.lt_nextNumber number hmem)
      · simp only [Option.toList_some, List.singleton_append, hnumbers, List.nodup_cons]
        refine ⟨fun hmem ↦ ?_, hm.nodup⟩
        exact Nat.lt_irrefl _ (hm.lt_nextNumber _ hmem)

end Machine.Follows

/-- Along every run the tables follow the calls that were made. -/
theorem Recorded.follows (hr : Recorded h config port past m) : m.Follows past := by
  induction hr with
  | fresh world => exact ⟨fun _ _ ↦ ⟨rfl, rfl⟩, by simp [Change.numbers], List.nodup_nil⟩
  | step _ ih => exact ih.step h
  | enter program hr hi ih => exact ⟨ih.heldBy, ih.lt_nextNumber, ih.nodup⟩

/-! ### Routing -/

/-- A call of the handler of a subscription with what was announced. -/
inductive Call (σ ν : Type) where
  | scan (subscription : Subscription σ ν ScanNotification) (notification : ScanNotification)
  | schedule (subscription : Subscription σ ν UInt32) (ifindex : UInt32)

namespace Call

/-- The number of the subscription. -/
def number : Call σ ν → Nat
  | scan s _ => s.number
  | schedule s _ => s.number

/-- The call as it is entered in the journal. -/
def event : Call σ ν → Event ν
  | scan s n => .scanEnded s.number n
  | schedule s ifindex => .scheduleFired s.number ifindex

/-- The code of the handler. -/
def program (journal : Journal ν) : Call σ ν → Program σ ν
  | scan s n => s.react journal n
  | schedule s ifindex => s.react journal ifindex

/-- Whether a message of the family about an interface is to be handed to a handler that was last
subscribed: to the one for scans if its command is that of the end of a scan, with the notification
in the message, and to the one for scheduled scans if its command is that of their results. -/
def Answers (past : List (Change σ ν)) (p : Packet) (ifindex : UInt32) : Call σ ν → Prop
  | scan s n =>
    (p.command = Command.newScanResults.number ∨ p.command = Command.scanAborted.number) ∧
      ScanNotification.ofPacket? p = some n ∧ Change.scanHandler? ifindex past = some s
  | schedule s i =>
    p.command = Command.schedScanResults.number ∧ i = ifindex ∧
      Change.scheduleHandler? ifindex past = some s

/-- Whether a call is due when a message is dispatched: the message is of the type of the configured
family as it was looked up, names an interface that the handler was subscribed for, and the handler
is not running. -/
structure IsDue (past : List (Change σ ν)) (m : Machine σ ν) (p : Packet) (c : Call σ ν) :
    Prop where
  family : m.transport.familyId = .ok p.type
  answers : ∃ ifindex, p.value? UInt32 WifiAttribute.ifindex = some ifindex ∧
    c.Answers past p ifindex
  isFree : m.stack.any (Frame.notifies c.number) = false

end Call

namespace Machine

/-- The machine with the message that is due taken from its datagram and entered in the journal. -/
def pass (m : Machine σ ν) : Machine σ ν :=
  match m.stack with
  | .dispatching (p :: rest) :: stack =>
    { m with stack := .dispatching rest :: stack }.log (.dispatched p)
  | _ => m

/-- The machine with a handler of notifications called. -/
def make (c : Call σ ν) (m : Machine σ ν) : Machine σ ν :=
  let m := (m.log c.event).push (.notifying c.number)
  m.run (c.program m.journal)

/-- What the dispatch of a message without a sequence number does: the one call that is due is made,
and nothing else happens. -/
structure Routes (h : Host σ) (past : List (Change σ ν)) (m : Machine σ ν) (p : Packet) :
    Prop where
  transport : (m.step h).transport = m.transport
  unique : ∀ c c' : Call σ ν, c.IsDue past m p → c'.IsDue past m p → c = c'
  called : ∀ c : Call σ ν, c.IsDue past m p → m.step h = m.pass.make c
  passed : (∀ c : Call σ ν, ¬ c.IsDue past m p) → m.step h = m.pass

end Machine

namespace Notice

variable {family : UInt16} {p : Packet}

/-- The messages that announce the end of a scan. -/
theorem ofPacket?_eq_scan_iff {n : ScanNotification} :
    ofPacket? family p = some (.scan n) ↔ p.type = family ∧
      (p.command = Command.newScanResults.number ∨ p.command = Command.scanAborted.number) ∧
      ScanNotification.ofPacket? p = some n := by
  unfold ofPacket?
  split
  · next htype => simp [htype]
  · next htype =>
    split
    · next hcommand => simp [Decidable.not_not.mp htype, hcommand]
    · next hcommand =>
      split <;> simp [hcommand]

/-- The messages that announce results of a scheduled scan. -/
theorem ofPacket?_eq_schedule_iff {ifindex : UInt32} :
    ofPacket? family p = some (.schedule ifindex) ↔ p.type = family ∧
      p.command = Command.schedScanResults.number ∧
      p.value? UInt32 WifiAttribute.ifindex = some ifindex := by
  unfold ofPacket?
  split
  · next htype => simp [htype]
  · next htype =>
    split
    · next hcommand =>
      have hother : p.command ≠ Command.schedScanResults.number := by
        rcases hcommand with h | h
        · rw [h]
          decide
        · rw [h]
          decide
      simp [hother]
    · split
      · next hcommand => simp [Decidable.not_not.mp htype, hcommand]
      · next hcommand => simp [hcommand]

/-- The interface of a notification is the one that its message names. -/
theorem ifindex_of_ofPacket? {n : ScanNotification} (hn : ScanNotification.ofPacket? p = some n) :
    p.value? UInt32 WifiAttribute.ifindex = some n.ifindex := by
  obtain ⟨ifindex, hvalue, rfl⟩ := Option.map_eq_some_iff.mp hn
  exact hvalue

end Notice

namespace Machine

variable {p : Packet}

/-- What a message announces about the configured family. -/
def notice? (m : Machine σ ν) (p : Packet) : Option Notice :=
  m.transport.family?.bind fun family ↦ Notice.ofPacket? family.id p

theorem notice?_eq_some_iff {notice : Notice} :
    m.notice? p = some notice ↔
      ∃ family, m.transport.familyId = .ok family ∧ Notice.ofPacket? family p = some notice := by
  unfold notice? Transport.familyId
  cases m.transport.family? with
  | none => simp
  | some family => simp

/-- The handler of a subscription, unless it is running. -/
def free? {α : Type} (m : Machine σ ν) (subscription : Option (Subscription σ ν α)) :
    Option (Subscription σ ν α) :=
  subscription.filter fun s ↦ !m.stack.any (Frame.notifies s.number)

theorem free?_eq_some_iff {α : Type} {subscription : Option (Subscription σ ν α)}
    {s : Subscription σ ν α} : m.free? subscription = some s ↔
      subscription = some s ∧ m.stack.any (Frame.notifies s.number) = false := by
  rw [free?, Option.filter_eq_some_iff, Bool.not_eq_true']

/-- The call that the dispatch of a message without a sequence number makes. -/
def call? (m : Machine σ ν) (p : Packet) : Option (Call σ ν) :=
  match m.notice? p with
  | none => none
  | some (.scan n) => (m.free? (m.transport.scans.get? n.ifindex)).map (Call.scan · n)
  | some (.schedule ifindex) =>
    (m.free? (m.transport.schedules.get? ifindex)).map (Call.schedule · ifindex)

theorem call?_eq_scan_iff {s : Subscription σ ν ScanNotification} {n : ScanNotification} :
    m.call? p = some (.scan s n) ↔ m.notice? p = some (.scan n) ∧
      m.free? (m.transport.scans.get? n.ifindex) = some s := by
  unfold call?
  split
  · next hnot => simp [hnot]
  · next n' hnot =>
    rw [hnot, Option.map_eq_some_iff]
    constructor
    · rintro ⟨s', hs, hsame⟩
      cases hsame
      exact ⟨rfl, hs⟩
    · rintro ⟨hsame, hs⟩
      cases hsame
      exact ⟨s, hs, rfl⟩
  · next ifindex hnot => simp [hnot]

theorem call?_eq_schedule_iff {s : Subscription σ ν UInt32} {ifindex : UInt32} :
    m.call? p = some (.schedule s ifindex) ↔ m.notice? p = some (.schedule ifindex) ∧
      m.free? (m.transport.schedules.get? ifindex) = some s := by
  unfold call?
  split
  · next hnot => simp [hnot]
  · next n hnot => simp [hnot]
  · next ifindex' hnot =>
    rw [hnot, Option.map_eq_some_iff]
    constructor
    · rintro ⟨s', hs, hsame⟩
      cases hsame
      exact ⟨rfl, hs⟩
    · rintro ⟨hsame, hs⟩
      cases hsame
      exact ⟨s, hs, rfl⟩

/-- The call that is made is the one that is due after what was subscribed before. -/
theorem isDue_iff (hm : Change.HeldBy past m.transport) (c : Call σ ν) :
    c.IsDue past m p ↔ m.call? p = some c := by
  cases c with
  | scan s n =>
    rw [call?_eq_scan_iff, notice?_eq_some_iff, free?_eq_some_iff, (hm n.ifindex).1]
    constructor
    · rintro ⟨hfamily, ⟨ifindex, hvalue, hcommand, hn, hs⟩, hfree⟩
      have hi : n.ifindex = ifindex :=
        Option.some.inj ((Notice.ifindex_of_ofPacket? hn).symm.trans hvalue)
      exact ⟨⟨p.type, hfamily, Notice.ofPacket?_eq_scan_iff.mpr ⟨rfl, hcommand, hn⟩⟩,
        hi ▸ hs, hfree⟩
    · rintro ⟨⟨family, hfamily, hnotice⟩, hs, hfree⟩
      obtain ⟨rfl, hcommand, hn⟩ := Notice.ofPacket?_eq_scan_iff.mp hnotice
      exact ⟨hfamily, ⟨n.ifindex, Notice.ifindex_of_ofPacket? hn, hcommand, hn, hs⟩, hfree⟩
  | schedule s ifindex =>
    rw [call?_eq_schedule_iff, notice?_eq_some_iff, free?_eq_some_iff, (hm ifindex).2]
    constructor
    · rintro ⟨hfamily, ⟨named, hvalue, hcommand, rfl, hs⟩, hfree⟩
      exact ⟨⟨p.type, hfamily, Notice.ofPacket?_eq_schedule_iff.mpr ⟨rfl, hcommand, hvalue⟩⟩,
        hs, hfree⟩
    · rintro ⟨⟨family, hfamily, hnotice⟩, hs, hfree⟩
      obtain ⟨rfl, hcommand, hvalue⟩ := Notice.ofPacket?_eq_schedule_iff.mp hnotice
      exact ⟨hfamily, ⟨ifindex, hvalue, hcommand, rfl, hs⟩, hfree⟩

/-- Notifying a subscription is making a call, unless its handler is running. -/
theorem notify_eq_make {α : Type} {subscription : Option (Subscription σ ν α)} {value : α}
    {event : Nat → Event ν} (call : Subscription σ ν α → Call σ ν)
    (hcall : ∀ s, m.make (call s) =
      ((m.log (event s.number)).push (.notifying s.number)).run
        (s.react (event s.number :: m.journal) value)) :
    m.notify subscription value event =
      ((m.free? subscription).map call).elim m.resume m.make := by
  unfold notify free?
  cases subscription with
  | none => rfl
  | some s =>
    cases hb : m.stack.any (Frame.notifies s.number) with
    | true => simp [hb, Option.filter_some]
    | false =>
      simp only [hb, Bool.false_eq_true, if_false, Option.filter_some, Bool.not_false, if_true,
        Option.map_some, Option.elim_some, hcall]
      rfl

/-- The dispatch of a message without a sequence number makes one call or none. -/
theorem dispatchMulticast_eq :
    m.dispatchMulticast p = (m.call? p).elim m.resume m.make := by
  have hnotice : (m.transport.family?.bind fun family ↦ Notice.ofPacket? family.id p) =
    m.notice? p := rfl
  unfold dispatchMulticast call?
  rw [hnotice]
  cases m.notice? p with
  | none => rfl
  | some notice =>
    cases notice with
    | scan n => exact notify_eq_make (Call.scan · n) fun _ ↦ rfl
    | schedule ifindex => exact notify_eq_make (Call.schedule · ifindex) fun _ ↦ rfl

/-- A machine in which a message without a sequence number is due makes one call or none. -/
theorem step_of_due_multicast (h : Host σ) (hp : m.due? = some p) (hn : p.sequence = 0) :
    m.step h = (m.call? p).elim m.pass m.pass.make ∧ m.pass.transport = m.transport := by
  obtain ⟨rest, stack, hs, hstep⟩ := step_of_due h hp
  have hpass : m.pass = ({ m with stack := .dispatching rest :: stack } : Machine σ ν).log
      (.dispatched p) := by
    simp only [pass, hs]
  have hresume : m.pass.resume = m.pass := by
    have hc : m.control = .resume := by
      unfold due? at hp
      split at hp
      · assumption
      · contradiction
    simp only [hpass, resume, log, hc]
  have hcall : m.pass.call? p = m.call? p := by
    have hfree {α : Type} (subscription : Option (Subscription σ ν α)) :
        m.pass.free? subscription = m.free? subscription := by
      simp only [free?, hpass, hs]
      rfl
    simp only [call?, notice?, hfree]
    rw [hpass]
    rfl
  rw [hstep]
  simp only [dispatch, hn, if_true]
  rw [← hpass, dispatchMulticast_eq, hcall, hresume]
  exact ⟨rfl, by rw [hpass]; rfl⟩

/-- A machine in which a message without a sequence number is due routes it. -/
theorem routes_of_due (h : Host σ) (hm : Change.HeldBy past m.transport)
    (hp : m.due? = some p) (hn : p.sequence = 0) : m.Routes h past p := by
  obtain ⟨hstep, ht⟩ := m.step_of_due_multicast h hp hn
  constructor
  · rw [hstep]
    cases m.call? p <;> exact ht
  · intro c c' hc hc'
    rw [isDue_iff hm] at hc hc'
    exact Option.some.inj (hc.symm.trans hc')
  · intro c hc
    rw [isDue_iff hm] at hc
    rw [hstep, hc]
    rfl
  · intro hnone
    cases hcall : m.call? p with
    | none => rw [hstep, hcall]; rfl
    | some c => exact absurd ((isDue_iff hm c).mpr hcall) (hnone c)

end Machine

/-- No request waits for the number of multicast traffic. Along every run the tables of
subscriptions hold for each interface what was last subscribed and not since unsubscribed, and a
message without a sequence number is handed to the one handler that this makes due, if there is one
and it is not running, and does nothing else. -/
theorem Reachable.routes (hr : Reachable h config port m) :
    m.transport.pending.get? 0 = none ∧
    (∃ past, Recorded h config port past m) ∧
    ∀ past, Recorded h config port past m →
      (Change.numbers past).Nodup ∧
      (m.transport.isAlive = true → Change.HeldBy past m.transport) ∧
      ∀ p, m.due? = some p → p.sequence = 0 → m.Routes h past p := by
  refine ⟨hr.isUntouched_zero.pending, hr.recorded, fun past hpast ↦ ?_⟩
  have hfollows := hpast.follows
  refine ⟨hfollows.nodup, hfollows.heldBy, fun p hp hn ↦ ?_⟩
  apply Machine.routes_of_due h _ hp hn
  apply hfollows.heldBy
  -- Where a message is due, code of the transport is at work.
  obtain ⟨rest, stack, hs, -⟩ := Machine.step_of_due h hp
  exact hr.isSound.isAlive_of_keeps (by simp [Machine.ledger, hs, Frame.keeps])

/-! ### An announcement -/

/-- The family announces the results of a scan of interface 3. -/
def Packet.announcement : Packet := ⟨28, 0, 0, 0, [34, 1, 0, 0] ++ [8, 0, 3, 0, 3, 0, 0, 0]⟩

/-- A handler that notes whether the scan was broken off. -/
def Program.listener (_ : Journal Bool) (n : ScanNotification) : Program ScriptedKernel Bool :=
  .note n.aborted .done

/-- Client code that listens for scans of interface 3, for a while for those of interface 4 as well,
and runs the watch when an announcement has arrived. -/
def Program.listening : Program ScriptedKernel Bool :=
  .start fun _ ↦
    .subscribeScan 3 Program.listener <|
      .subscribeScan 4 (fun _ _ ↦ .done) <|
        .unsubscribeScan 4 <|
          .meanwhile (fun kernel ↦ { kernel with
            inboxes := kernel.inboxes.insert 1001 [.datagram Packet.announcement.toBytes] }) <|
              .fire 1001 fun _ ↦ .done

/-- A machine that is about to dispatch an announcement. -/
def announcedMachine : Machine ScriptedKernel Bool :=
  ((Machine.fresh .standard 0 (describingKernel [])).run .listening).steps ScriptedKernel.host 10

/-- The announcement is handed to the handler that listens. -/
theorem routes_announcedMachine :
    Reachable ScriptedKernel.host .standard 0 announcedMachine ∧
    announcedMachine.transport.pending.get? 0 = none ∧
    announcedMachine.due? = some .announcement ∧ Packet.announcement.sequence = 0 ∧
    ∃ past, Recorded ScriptedKernel.host .standard 0 past announcedMachine ∧
      announcedMachine.Routes ScriptedKernel.host past .announcement ∧
      (Call.scan ⟨1, Program.listener⟩ ⟨3, false, [], []⟩).IsDue past announcedMachine
        .announcement := by
  have hr : Reachable ScriptedKernel.host .standard 0 announcedMachine :=
    (Reachable.start ScriptedKernel.host _ _ _ _).steps 10
  obtain ⟨hzero, ⟨past, hpast⟩, hroutes⟩ := Reachable.routes hr
  obtain ⟨-, hheld, hroutes⟩ := hroutes past hpast
  have hdue : announcedMachine.due? = some .announcement := by cbv
  have hhandler : Change.scanHandler? 3 past = some ⟨1, Program.listener⟩ := by
    rw [← (hheld (by cbv) 3).1]
    cbv
  refine ⟨hr, hzero, hdue, rfl, past, hpast, hroutes _ hdue rfl, ?_⟩
  constructor
  · cbv
  · exact ⟨3, by cbv, .inl rfl, by cbv, hhandler⟩
  · cbv

end WifiNetlink
