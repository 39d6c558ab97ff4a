import WifiNetlink.Proofs.Invariant

/-!
# Messages on their way

Every message of an accepted datagram is either dispatched or waits on the stack, and nothing else
is dispatched. A sequence number that was never put to use has neither a handler nor a frame.
-/

namespace WifiNetlink

variable {σ ν : Type}

namespace Frame

/-- The messages that wait in a frame. -/
def messages : Frame σ ν → List Packet
  | dispatching rest => rest
  | _ => []

/-- Whether a frame belongs to a sequence number: an exchange or a handler that runs. -/
def concerns (sequence : UInt32) : Frame σ ν → Bool
  | collecting x => x.sequence == sequence
  | replying s _ _ => s == sequence
  | _ => false

theorem messages_of_isPlain {frame : Frame σ ν} (h : frame.isPlain = true) :
    frame.messages = [] := by
  cases frame with
  | dispatching rest => cases rest <;> simp_all [isPlain, messages]
  | _ => rfl

theorem messages_of_keeps_eq_false {frame : Frame σ ν} (h : frame.keeps = false) :
    frame.messages = [] := by
  cases frame <;> simp_all [keeps, messages]

@[simp] theorem messages_dispatching (rest : List Packet) :
    (dispatching rest : Frame σ ν).messages = rest := rfl

@[simp] theorem messages_gather (number : Nat) (p : Packet) (frame : Frame σ ν) :
    (frame.gather number p).messages = frame.messages := by
  cases frame <;> rfl

theorem concerns_of_isPlain {sequence : UInt32} {frame : Frame σ ν} (h : frame.isPlain = true) :
    frame.concerns sequence = false := by
  cases frame <;> simp_all [isPlain, concerns]

theorem concerns_of_keeps_eq_false {sequence : UInt32} {frame : Frame σ ν}
    (h : frame.keeps = false) : frame.concerns sequence = false := by
  cases frame <;> simp_all [keeps, concerns]

@[simp] theorem concerns_dispatching (sequence : UInt32) (rest : List Packet) :
    (dispatching rest : Frame σ ν).concerns sequence = false := rfl

@[simp] theorem concerns_gather (sequence : UInt32) (number : Nat) (p : Packet)
    (frame : Frame σ ν) : (frame.gather number p).concerns sequence = frame.concerns sequence := by
  cases frame with
  | collecting x =>
    simp only [gather, concerns, Exchange.gather]
    split <;> rfl
  | _ => rfl

theorem filter_concerns_map_gather (sequence : UInt32) (number : Nat) (p : Packet)
    (stack : List (Frame σ ν)) : (stack.map (gather number p)).filter (concerns sequence) =
      (stack.filter (concerns sequence)).map (gather number p) := by
  rw [List.filter_map]
  congr 2
  ext frame
  simp

end Frame

namespace Event

variable {e : Event ν}

theorem accepted_of_isPlain (h : e.isPlain = true) : e.accepted = [] := by
  cases e with
  | received descriptor outcome => cases outcome <;> simp_all [isPlain, accepted, messagesIn]
  | _ => rfl

theorem dispatches_of_isPlain (h : e.isPlain = true) : e.dispatches = [] := by
  cases e <;> simp_all [isPlain, dispatches]

theorem marks_of_isPlain {sequence : UInt32} (h : e.isPlain = true) : e.marks sequence = false := by
  cases e <;> simp_all [isPlain, marks]

theorem handed_of_isPlain (h : e.isPlain = true) (sequence : UInt32) : e.handed sequence = [] := by
  cases e <;> simp_all [isPlain, handed]

end Event

open Journal in
/-- What a move adds to the journal: no message is dispatched and no handler is called. -/
theorem Move.journal {kind : MoveKind} {l l' : Ledger σ ν} (hm : Move l kind l') :
    ∃ new, l'.journal = new ++ l.journal ∧ Journal.dispatched new = [] ∧
      ∀ sequence, Journal.handed sequence new = [] := by
  cases hm with
  | entry e he hk =>
    exact ⟨[e], rfl, by simp [dispatched_cons, Event.dispatches_of_isPlain he],
      by simp [handed_cons, Event.handed_of_isPlain he]⟩
  | release => exact ⟨[.released], rfl, rfl, fun _ ↦ rfl⟩
  | subscribe scans schedules => exact ⟨[], rfl, rfl, fun _ ↦ rfl⟩
  | count | unsubscribe | renewSync | renewAsync | started => exact ⟨[], rfl, rfl, fun _ ↦ rfl⟩
  | watch descriptor hc =>
    exact ⟨[.watched descriptor true], rfl, rfl, fun _ ↦ rfl⟩
  | unwatch descriptor hw =>
    exact ⟨[.unwatched descriptor], rfl, rfl, fun _ ↦ rfl⟩
  | push frame hk => exact ⟨[], rfl, rfl, fun _ ↦ rfl⟩
  | pop frame stack hf hs => exact ⟨[], rfl, rfl, fun _ ↦ rfl⟩
  | fire descriptor hd => exact ⟨[], rfl, rfl, fun _ ↦ rfl⟩
  | read descriptor outcome hk =>
    exact ⟨[.received descriptor outcome], rfl, rfl, fun _ ↦ rfl⟩
  | settle sequence handler again stack hs => exact ⟨[], rfl, rfl, fun _ ↦ rfl⟩
  | register sequence react hn hh =>
    exact ⟨[.registered sequence], rfl, rfl, fun _ ↦ rfl⟩
  | begin sequence waiter begun descriptor count message hn hh hc =>
    exact ⟨[.clockRead begun, .sent descriptor message (.ok count), .exchangeBegan sequence], rfl,
      rfl, fun _ ↦ rfl⟩
  | refuse sequence e entries hn hh he hs =>
    refine ⟨.exchangeEnded sequence (.error e) :: (entries ++ [.exchangeBegan sequence]),
      by simp, ?_⟩
    rcases hs with rfl | ⟨descriptor, message, outcome, rfl⟩
    · exact ⟨rfl, fun _ ↦ rfl⟩
    · exact ⟨rfl, fun _ ↦ rfl⟩
  | reject e he => exact ⟨[.exchangeEnded 0 (.error e)], rfl, rfl, fun _ ↦ rfl⟩
  | poll x stack now descriptor outcome hs hp hb =>
    exact ⟨[.polled descriptor _ outcome, .clockRead now], rfl,
      rfl, fun _ ↦ rfl⟩
  | timeout x stack now hs hp hb =>
    exact ⟨[.exchangeEnded x.sequence _, .clockRead now], rfl,
      rfl, fun _ ↦ rfl⟩
  | fail x stack e hs he =>
    exact ⟨[.exchangeEnded x.sequence (.error e)], rfl, rfl, fun _ ↦ rfl⟩
  | finish x stack hs hp =>
    exact ⟨[.exchangeEnded x.sequence _], rfl, rfl, fun _ ↦ rfl⟩
  | takeDown hh hk hw => exact ⟨[], rfl, rfl, fun _ ↦ rfl⟩

/-- What a dispatch adds to the journal: its message is dispatched, and handed at most to the
handler of its own number. -/
theorem Dispatch.journal {p : Packet} {l l' : Ledger σ ν} (hd : Dispatch p l l') :
    ∃ new, l'.journal = new ++ l.journal ∧ Journal.dispatched new = [p] ∧
      (∀ sequence, p.sequence ≠ sequence → Journal.handed sequence new = []) ∧
      ∀ e ∈ new, e.isCall = true ∨ e = .dispatched p := by
  cases hd with
  | notify rest stack number e hs hp he =>
    refine ⟨[e, .dispatched p], rfl, ?_⟩
    rcases he with ⟨n, rfl⟩ | ⟨ifindex, rfl⟩
    · exact ⟨rfl, fun _ _ ↦ rfl, by simp [Event.isCall]⟩
    · exact ⟨rfl, fun _ _ ↦ rfl, by simp [Event.isCall]⟩
  | call rest stack react hs hp hg hd =>
    refine ⟨[.replied p.sequence p, .dispatched p], rfl, rfl, fun sequence hne ↦ ?_,
      by simp [Event.isCall]⟩
    simp [Journal.handed_cons, Event.handed, hne]
  | _ => exact ⟨[.dispatched p], rfl, rfl, fun _ _ ↦ rfl, by simp⟩

/-- A step adds to the journal, and dispatches the message that is due and no other. -/
theorem Machine.journal_step (h : Host σ) (m : Machine σ ν) :
    ∃ new, (m.step h).journal = new ++ m.journal ∧ Journal.dispatched new = m.due?.toList := by
  cases hd : m.due? with
  | none =>
    refine (m.moves_step h hd).preserve
      (I := fun l ↦ ∃ new, l.journal = new ++ m.journal ∧ Journal.dispatched new = []) ?_
      ⟨[], rfl, rfl⟩
    rintro _ l l' hm ⟨new, hj, hnew⟩
    obtain ⟨new', hj', hnew', -⟩ := hm.journal
    refine ⟨new' ++ new, by rw [hj', hj, List.append_assoc], ?_⟩
    rw [Journal.dispatched_append, hnew, hnew', List.append_nil]
  | some p =>
    obtain ⟨new, hj, hnew, -⟩ := (m.dispatch_step h hd).journal
    exact ⟨new, hj, hnew⟩

/-- So does a run. -/
theorem Run.journal_isSuffix {h : Host σ} {allowed : Machine σ ν → Prop} {m m' : Machine σ ν}
    (hrun : Run h allowed m m') : m.journal <:+ m'.journal := by
  induction hrun with
  | refl => exact List.suffix_rfl
  | @step m' _ _ ih =>
    obtain ⟨new, hj, -⟩ := Machine.journal_step h m'
    exact ih.trans ⟨new, hj.symm⟩
  | enter program _ _ ih => exact ih

/-- The messages on the stack, those that are dispatched first in front. -/
def Ledger.waiting (l : Ledger σ ν) : List Packet := l.stack.flatMap Frame.messages

/-- The messages that wait to be dispatched. -/
def Machine.waiting (m : Machine σ ν) : List Packet := m.ledger.waiting

/-- Every message that was read was dispatched or waits. -/
def Ledger.Conserves (l : Ledger σ ν) : Prop :=
  (l.journal.dispatched ++ l.waiting).Perm l.journal.accepted

namespace Ledger.Conserves

open Journal

theorem move {kind : MoveKind} {l l' : Ledger σ ν} (hm : Move l kind l') (hl : l.Conserves) :
    l'.Conserves := by
  simp only [Conserves, waiting] at hl ⊢
  cases hm with
  | entry e he hk =>
    simpa [log, dispatched_cons, accepted_cons, Event.dispatches_of_isPlain he,
      Event.accepted_of_isPlain he] using hl
  | release =>
    simpa [log, dispatched_cons, accepted_cons, Event.dispatches, Event.accepted] using hl
  | subscribe scans schedules => exact hl
  | count | unsubscribe | renewSync | renewAsync | started => exact hl
  | watch descriptor hc =>
    simpa [log, dispatched_cons, accepted_cons, Event.dispatches, Event.accepted] using hl
  | unwatch descriptor hw =>
    simpa [log, dispatched_cons, accepted_cons, Event.dispatches, Event.accepted] using hl
  | push frame hk => simpa [withStack, Frame.messages_of_keeps_eq_false hk] using hl
  | pop frame stack hf hs => simpa [withStack, hs, Frame.messages_of_isPlain hf] using hl
  | fire descriptor hd => simpa [withStack, Frame.messages] using hl
  | read descriptor outcome hk =>
    simp only [log, withStack, dispatched_cons, accepted_cons, Event.dispatches, Event.accepted,
      List.append_nil, List.flatMap_cons, Frame.messages]
    -- The new messages are dispatched before those that wait already.
    exact (List.perm_append_comm_assoc ..).trans
      ((hl.append_left _).trans List.perm_append_comm)
  | settle sequence handler again stack hs => simpa [withStack, hs, Frame.messages] using hl
  | register sequence react hn hh =>
    simpa [log, dispatched_cons, accepted_cons, Event.dispatches, Event.accepted] using hl
  | begin sequence waiter begun descriptor count message hn hh hc =>
    simpa [withStack, dispatched_cons, accepted_cons, Event.dispatches, Event.accepted,
      Frame.messages] using hl
  | refuse sequence e entries hn hh he hs =>
    rcases hs with rfl | ⟨descriptor, message, outcome, rfl⟩
    · simpa [dispatched_cons, accepted_cons, Event.dispatches, Event.accepted] using hl
    · simpa [dispatched_cons, accepted_cons, Event.dispatches, Event.accepted] using hl
  | reject e he =>
    simpa [log, dispatched_cons, accepted_cons, Event.dispatches, Event.accepted] using hl
  | poll x stack now descriptor outcome hs hp hb =>
    simpa [log, dispatched_cons, accepted_cons, Event.dispatches, Event.accepted] using hl
  | timeout x stack now hs hp hb =>
    simpa [log, withStack, hs, dispatched_cons, accepted_cons, Event.dispatches, Event.accepted,
      Frame.messages] using hl
  | fail x stack e hs he =>
    simpa [log, withStack, hs, dispatched_cons, accepted_cons, Event.dispatches, Event.accepted,
      Frame.messages] using hl
  | finish x stack hs hp =>
    simpa [log, withStack, hs, dispatched_cons, accepted_cons, Event.dispatches, Event.accepted,
      Frame.messages] using hl
  | takeDown hh hk hw => exact hl

/-- The message that is dispatched no longer waits. -/
private theorem perm_dispatch {p : Packet} {done rest others accepted : List Packet}
    (hl : (done ++ (p :: rest ++ others)).Perm accepted) :
    (done ++ [p] ++ (rest ++ others)).Perm accepted := by
  simpa using hl

theorem dispatch {p : Packet} {l l' : Ledger σ ν} (hd : Dispatch p l l') (hl : l.Conserves) :
    l'.Conserves := by
  simp only [Conserves, waiting] at hl ⊢
  cases hd with
  | pass rest stack hs hp =>
    simp only [hs, List.flatMap_cons, Frame.messages_dispatching] at hl
    simpa [log, withStack, dispatched_cons, accepted_cons, Event.dispatches, Event.accepted,
      Frame.messages] using perm_dispatch hl
  | notify rest stack number e hs hp he =>
    simp only [hs, List.flatMap_cons, Frame.messages_dispatching] at hl
    rcases he with ⟨n, rfl⟩ | ⟨ifindex, rfl⟩
    · simpa [log, withStack, dispatched_cons, accepted_cons, Event.dispatches, Event.accepted,
        Frame.messages] using perm_dispatch hl
    · simpa [log, withStack, dispatched_cons, accepted_cons, Event.dispatches, Event.accepted,
        Frame.messages] using perm_dispatch hl
  | close rest stack handler hs hp hg hd =>
    simp only [hs, List.flatMap_cons, Frame.messages_dispatching] at hl
    simpa [log, withStack, dispatched_cons, accepted_cons, Event.dispatches, Event.accepted,
      Frame.messages] using perm_dispatch hl
  | gather rest stack number hs hp hg hd =>
    simp only [hs, List.flatMap_cons, Frame.messages_dispatching] at hl
    simpa [log, withStack, dispatched_cons, accepted_cons, Event.dispatches, Event.accepted,
      List.flatMap_map] using perm_dispatch hl
  | call rest stack react hs hp hg hd =>
    simp only [hs, List.flatMap_cons, Frame.messages_dispatching] at hl
    simpa [log, withStack, dispatched_cons, accepted_cons, Event.dispatches, Event.accepted,
      Frame.messages] using perm_dispatch hl

end Ledger.Conserves

/-- Every message that was dispatched was read in a datagram that was accepted. -/
theorem Reachable.conserves {h : Host σ} {config : Config} {port : UInt32} {m : Machine σ ν}
    (hr : Reachable h config port m) : m.ledger.Conserves :=
  hr.invariant (fun _ ↦ .refl _) (fun _ hm hl ↦ hl.move hm) fun _ hd hl ↦ hl.dispatch hd

/-- No handler waits for a sequence number, and nothing that belongs to it goes on. -/
structure Ledger.IsUntouched (sequence : UInt32) (l : Ledger σ ν) : Prop where
  pending : l.pending.get? sequence = none
  stack : l.stack.any (Frame.concerns sequence) = false

namespace Ledger.IsUntouched

open Journal

variable {sequence : UInt32} {l l' : Ledger σ ν}

/-- What is below the top of the stack. -/
private theorem stack_tail {frame : Frame σ ν} {stack : List (Frame σ ν)}
    (hs : l.stack = frame :: stack) (hl : l.IsUntouched sequence) :
    stack.any (Frame.concerns sequence) = false := by
  have hstack := hl.stack
  rw [hs, List.any_cons, Bool.or_eq_false_iff] at hstack
  exact hstack.2

/-- A number that has no handler has none if another handler goes. -/
private theorem get?_erase_eq_none {other : UInt32} (hl : l.IsUntouched sequence) :
    (l.pending.erase other).get? sequence = none := by
  simp [Table.get?_erase, hl.pending]

theorem move {kind : MoveKind} (hm : Move l kind l')
    (hl : l.journal.opens sequence = false → l.IsUntouched sequence)
    (ho : l'.journal.opens sequence = false) : l'.IsUntouched sequence := by
  cases hm with
  | entry e he hk =>
    simp only [log, opens_cons, Bool.or_eq_false_iff] at ho
    exact ⟨(hl ho.2).pending, (hl ho.2).stack⟩
  | release => exact ⟨(hl ho).pending, (hl ho).stack⟩
  | subscribe scans schedules => exact ⟨(hl ho).pending, (hl ho).stack⟩
  | count | unsubscribe | renewSync | renewAsync | started => exact ⟨(hl ho).pending, (hl ho).stack⟩
  | watch descriptor hc => exact ⟨(hl ho).pending, (hl ho).stack⟩
  | unwatch descriptor hw => exact ⟨(hl ho).pending, (hl ho).stack⟩
  | push frame hk =>
    refine ⟨(hl ho).pending, ?_⟩
    simpa [withStack, Frame.concerns_of_keeps_eq_false hk] using (hl ho).stack
  | pop frame stack hf hs =>
    refine ⟨(hl ho).pending, ?_⟩
    simpa [withStack, hs, Frame.concerns_of_isPlain hf] using (hl ho).stack
  | fire descriptor hd => exact ⟨(hl ho).pending, (hl ho).stack⟩
  | read descriptor outcome hk => exact ⟨(hl ho).pending, (hl ho).stack⟩
  | settle other handler again stack hs =>
    obtain ⟨hp, hstack⟩ := hl ho
    simp only [hs, List.any_cons, Frame.concerns, Bool.or_eq_false_iff, beq_eq_false_iff_ne]
      at hstack
    refine ⟨?_, hstack.2⟩
    cases again with
    | true => simpa [withStack, Table.get?_insert, Ne.symm hstack.1] using hp
    | false => exact hp
  | register other react hn hh =>
    simp only [log, opens_cons, Event.opens, Bool.or_eq_false_iff, beq_eq_false_iff_ne] at ho
    refine ⟨?_, (hl ho.2).stack⟩
    simpa [log, Table.get?_insert, Ne.symm ho.1] using (hl ho.2).pending
  | begin other waiter begun descriptor count message hn hh hc =>
    simp only [opens_cons, Event.opens, Bool.or_eq_false_iff, beq_eq_false_iff_ne] at ho
    obtain ⟨-, -, hne, ho⟩ := ho
    constructor
    · simpa [Table.get?_insert, Ne.symm hne] using (hl ho).pending
    · simpa [withStack, Frame.concerns, hne] using (hl ho).stack
  | refuse other e entries hn hh he hs =>
    simp only [opens_cons, opens_append, Event.opens, Bool.or_eq_false_iff,
      beq_eq_false_iff_ne] at ho
    obtain ⟨-, -, hne, ho⟩ := ho
    refine ⟨?_, (hl ho).stack⟩
    simpa [Table.get?_erase, Table.get?_insert, Ne.symm hne] using (hl ho).pending
  | reject e he => exact ⟨(hl ho).pending, (hl ho).stack⟩
  | poll x stack now descriptor outcome hs hp hb => exact ⟨(hl ho).pending, (hl ho).stack⟩
  | timeout x stack now hs hp hb => exact ⟨(hl ho).get?_erase_eq_none, (hl ho).stack_tail hs⟩
  | fail x stack e hs he => exact ⟨(hl ho).get?_erase_eq_none, (hl ho).stack_tail hs⟩
  | finish x stack hs hp => exact ⟨(hl ho).pending, (hl ho).stack_tail hs⟩
  | takeDown hh hk hw => exact ⟨rfl, (hl ho).stack⟩

theorem dispatch {p : Packet} (hd : Dispatch p l l')
    (hl : l.journal.opens sequence = false → l.IsUntouched sequence)
    (ho : l'.journal.opens sequence = false) : l'.IsUntouched sequence := by
  cases hd with
  | pass rest stack hs hp =>
    have ho : l.journal.opens sequence = false := ho
    exact ⟨(hl ho).pending, by simpa [withStack] using (hl ho).stack_tail hs⟩
  | notify rest stack number e hs hp he =>
    have ho : l.journal.opens sequence = false := by
      rcases he with ⟨n, rfl⟩ | ⟨ifindex, rfl⟩
      · exact ho
      · exact ho
    exact ⟨(hl ho).pending, by
      simpa [withStack, Frame.concerns] using (hl ho).stack_tail hs⟩
  | close rest stack handler hs hp hg hd =>
    have ho : l.journal.opens sequence = false := ho
    exact ⟨(hl ho).get?_erase_eq_none, by
      simpa [withStack] using (hl ho).stack_tail hs⟩
  | gather rest stack number hs hp hg hd =>
    have ho : l.journal.opens sequence = false := ho
    have hne : sequence ≠ p.sequence := by
      rintro rfl
      simp [(hl ho).pending] at hg
    constructor
    · have he : (l.pending.erase p.sequence).get? sequence = none := (hl ho).get?_erase_eq_none
      dsimp only
      split
      · simpa [Table.get?_insert, hne] using he
      · exact he
    · simpa [withStack, List.any_map] using (hl ho).stack_tail hs
  | call rest stack react hs hp hg hd =>
    have ho : l.journal.opens sequence = false := ho
    have hne : p.sequence ≠ sequence := by
      rintro rfl
      simp [(hl ho).pending] at hg
    exact ⟨(hl ho).get?_erase_eq_none, by
      simpa [withStack, Frame.concerns, hne] using (hl ho).stack_tail hs⟩

end Ledger.IsUntouched

/-- Nothing waits for a sequence number that was never put to use, and nothing of it goes on. -/
theorem Reachable.isUntouched {h : Host σ} {config : Config} {port : UInt32} {m : Machine σ ν}
    {sequence : UInt32} (hr : Reachable h config port m)
    (ho : m.journal.opens sequence = false) : m.ledger.IsUntouched sequence :=
  hr.invariant (I := fun l ↦ l.journal.opens sequence = false → l.IsUntouched sequence)
    (fun _ _ ↦ ⟨rfl, rfl⟩) (fun _ hm hl ho ↦ Ledger.IsUntouched.move hm hl ho)
    (fun _ hd hl ho ↦ Ledger.IsUntouched.dispatch hd hl ho) ho

end WifiNetlink
