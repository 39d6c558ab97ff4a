import WifiNetlink.Proofs.Answer
import WifiNetlink.Proofs.Traffic

/-!
# Exchanges that go on

What is known of a synchronous exchange that goes on: what it has gathered is the answer in the
messages of its number that were dispatched since it began, its handler is in the table unless the
answer is complete, and what was read since then was dispatched or waits above it on the stack. If
no message of the number waited when others of it were read, they are dispatched in the order of
reading.
-/

namespace WifiNetlink

variable {σ ν : Type}

namespace Journal

/-- Whether no message of a sequence number waited when others of it were read: as many were
dispatched by then as were read. -/
def IsPrompt (sequence : UInt32) : Journal ν → Prop :=
  Each fun e earlier ↦ Packet.withSequence sequence e.accepted ≠ [] →
    (Packet.withSequence sequence earlier.accepted).length = (earlier.arrived sequence).length

instance (sequence : UInt32) (journal : Journal ν) : Decidable (journal.IsPrompt sequence) :=
  inferInstanceAs (Decidable (Each _ journal))

/-- Whether events neither bring messages nor dispatch them. -/
def IsStill (journal : Journal ν) : Prop := ∀ e ∈ journal, e.dispatches = [] ∧ e.accepted = []

namespace IsStill

variable {new : Journal ν}

theorem dispatched_eq (h : new.IsStill) : new.dispatched = [] := by
  simp only [dispatched, List.flatMap_eq_nil_iff, List.mem_reverse]
  exact fun e he ↦ (h e he).1

theorem accepted_eq (h : new.IsStill) : new.accepted = [] := by
  simp only [accepted, List.flatMap_eq_nil_iff, List.mem_reverse]
  exact fun e he ↦ (h e he).2

theorem arrived_eq (h : new.IsStill) (sequence : UInt32) : new.arrived sequence = [] := by
  simp [arrived, h.dispatched_eq]

end IsStill

/-- Earlier events that bring nothing do not matter for the order of messages. -/
theorem IsPrompt.append {sequence : UInt32} {later earlier : Journal ν}
    (hl : later.IsPrompt sequence) (he : earlier.IsStill) :
    (later ++ earlier).IsPrompt sequence := by
  induction later with
  | nil =>
    induction earlier with
    | nil => trivial
    | cons e earlier ih =>
      obtain ⟨hfirst, hrest⟩ := List.forall_mem_cons.mp he
      exact ⟨fun hbrings ↦ absurd (by rw [hfirst.2]; rfl) hbrings, ih hrest⟩
  | cons e later ih =>
    have hsame : accepted (later ++ earlier) = accepted later ∧
        arrived sequence (later ++ earlier) = arrived sequence later := by
      rw [accepted_append, arrived_append, he.accepted_eq, he.arrived_eq]
      exact ⟨rfl, rfl⟩
    rw [List.cons_append]
    refine ⟨fun hbrings ↦ ?_, ih hl.2⟩
    rw [hsame.1, hsame.2]
    exact hl.1 hbrings

/-- Whether events neither bring messages nor dispatch them nor mark the use of a number. -/
def IsSilent (sequence : UInt32) (journal : Journal ν) : Prop :=
  ∀ e ∈ journal, e.marks sequence = false ∧ e.dispatches = [] ∧ e.accepted = []

namespace IsSilent

variable {sequence : UInt32} {new : Journal ν}

theorem isStill (h : new.IsSilent sequence) : new.IsStill := fun e he ↦ (h e he).2

theorem dispatched_eq (h : new.IsSilent sequence) : new.dispatched = [] := h.isStill.dispatched_eq

theorem accepted_eq (h : new.IsSilent sequence) : new.accepted = [] := h.isStill.accepted_eq

theorem arrived_eq (h : new.IsSilent sequence) : new.arrived sequence = [] :=
  h.isStill.arrived_eq sequence

theorem nil : IsSilent sequence ([] : Journal ν) := by simp [IsSilent]

theorem cons {e : Event ν} (he : e.marks sequence = false ∧ e.dispatches = [] ∧ e.accepted = [])
    (h : new.IsSilent sequence) : IsSilent sequence (e :: new) := by
  intro other ho
  rcases List.mem_cons.mp ho with rfl | ho
  · exact he
  · exact h other ho

end IsSilent

end Journal

/-- Exchanges have numbers that were given out, and handlers that run are handlers of client
code. -/
structure Ledger.IsNumbered (l : Ledger σ ν) : Prop where
  pending : ∀ sequence number, l.pending.get? sequence = some (.gather number) →
    number < l.nextNumber
  stack : ∀ sequence handler again, .replying sequence handler again ∈ l.stack →
    ∃ react, handler = .client react

namespace Ledger.IsNumbered

variable {l l' : Ledger σ ν}

/-- Taking handlers out keeps the numbers. -/
private theorem erase (hl : l.IsNumbered) (other sequence : UInt32) (number : Nat)
    (h : (l.pending.erase other).get? sequence = some (.gather number)) :
    number < l.nextNumber := by
  rw [Table.get?_erase] at h
  split at h
  · contradiction
  · exact hl.pending sequence number h

/-- What is below the top of the stack. -/
private theorem tail (hl : l.IsNumbered) {frame : Frame σ ν} {stack : List (Frame σ ν)}
    (hs : l.stack = frame :: stack) (sequence : UInt32) (handler : Handler σ ν) (again : Bool)
    (h : .replying sequence handler again ∈ stack) : ∃ react, handler = .client react :=
  hl.stack sequence handler again (hs ▸ List.mem_cons_of_mem _ h)

/-- A frame that runs no handler. -/
private theorem cons (hl : l.IsNumbered) {frame : Frame σ ν} (hf : ∀ sequence handler again,
    frame ≠ .replying sequence handler again) (sequence : UInt32) (handler : Handler σ ν)
    (again : Bool) (h : .replying sequence handler again ∈ frame :: l.stack) :
    ∃ react, handler = .client react := by
  rcases List.mem_cons.mp h with he | h
  · exact absurd he.symm (hf sequence handler again)
  · exact hl.stack sequence handler again h

theorem move {kind : MoveKind} (hm : Move l kind l') (hl : l.IsNumbered) : l'.IsNumbered := by
  cases hm with
  | entry e he hk => exact ⟨hl.pending, hl.stack⟩
  | release => exact ⟨hl.pending, hl.stack⟩
  | subscribe scans schedules => exact ⟨fun s n h ↦ Nat.lt_succ_of_lt (hl.pending s n h), hl.stack⟩
  | count | unsubscribe | renewSync | renewAsync | started => exact ⟨hl.pending, hl.stack⟩
  | watch descriptor hc => exact ⟨hl.pending, hl.stack⟩
  | unwatch descriptor hw => exact ⟨hl.pending, hl.stack⟩
  | push frame hk =>
    exact ⟨hl.pending, hl.cons (by rintro s handler again rfl; simp [Frame.keeps] at hk)⟩
  | pop frame stack hf hs => exact ⟨hl.pending, hl.tail hs⟩
  | fire descriptor hd => exact ⟨hl.pending, hl.cons (by simp)⟩
  | read descriptor outcome hk => exact ⟨hl.pending, hl.cons (by simp)⟩
  | settle other handler again stack hs =>
    refine ⟨fun s n h ↦ ?_, hl.tail hs⟩
    cases again with
    | false => exact hl.pending s n h
    | true =>
      obtain ⟨react, rfl⟩ := hl.stack other handler true (hs ▸ List.mem_cons_self)
      simp only [if_true, Table.get?_insert] at h
      split at h
      · simp at h
      · exact hl.pending s n h
  | register other react hn hh =>
    refine ⟨fun s n h ↦ ?_, hl.stack⟩
    simp only [Table.get?_insert] at h
    split at h
    · simp at h
    · exact hl.pending s n h
  | begin other waiter begun descriptor count message hn hh hc =>
    refine ⟨fun s n h ↦ ?_, hl.cons (by simp)⟩
    simp only [Table.get?_insert] at h
    split at h
    · obtain rfl := Handler.gather.inj (Option.some.inj h)
      exact Nat.lt_succ_self _
    · exact Nat.lt_succ_of_lt (hl.pending s n h)
  | refuse other e entries hn hh he hs =>
    refine ⟨fun s n h ↦ ?_, hl.stack⟩
    simp only [Table.get?_erase, Table.get?_insert] at h
    split at h
    · contradiction
    · exact Nat.lt_succ_of_lt (hl.pending s n h)
  | reject e he => exact ⟨hl.pending, hl.stack⟩
  | poll x stack now descriptor outcome hs hp hb => exact ⟨hl.pending, hl.stack⟩
  | timeout x stack now hs hp hb => exact ⟨hl.erase x.sequence, hl.tail hs⟩
  | fail x stack e hs he => exact ⟨hl.erase x.sequence, hl.tail hs⟩
  | finish x stack hs hp => exact ⟨hl.pending, hl.tail hs⟩
  | takeDown hh hk hw => exact ⟨by simp, hl.stack⟩

/-- Dispatching leaves the frames below it, but for what they gathered. -/
private theorem dispatching (hl : l.IsNumbered) {p : Packet} {rest : List Packet}
    {stack : List (Frame σ ν)} (hs : l.stack = .dispatching (p :: rest) :: stack)
    (sequence : UInt32) (handler : Handler σ ν) (again : Bool)
    (h : .replying sequence handler again ∈ .dispatching rest :: stack) :
    ∃ react, handler = .client react := by
  rcases List.mem_cons.mp h with he | h
  · contradiction
  · exact hl.tail hs sequence handler again h

theorem dispatch {p : Packet} (hd : Dispatch p l l') (hl : l.IsNumbered) : l'.IsNumbered := by
  cases hd with
  | pass rest stack hs hp => exact ⟨hl.pending, hl.dispatching hs⟩
  | notify rest stack number e hs hp he =>
    refine ⟨hl.pending, fun s handler again h ↦ ?_⟩
    rcases List.mem_cons.mp h with he | h
    · contradiction
    · exact hl.dispatching hs s handler again h
  | close rest stack handler hs hp hg hd => exact ⟨hl.erase p.sequence, hl.dispatching hs⟩
  | gather rest stack number hs hp hg hd =>
    refine ⟨fun s n h ↦ ?_, fun s handler again h ↦ ?_⟩
    · dsimp only at h
      split at h
      · rw [Table.get?_insert] at h
        split at h
        · obtain rfl := Handler.gather.inj (Option.some.inj h)
          exact hl.pending p.sequence number hg
        · exact hl.erase p.sequence s n h
      · exact hl.erase p.sequence s n h
    · rcases List.mem_cons.mp h with he | h
      · contradiction
      · obtain ⟨frame, hmem, hframe⟩ := List.mem_map.mp h
        cases frame with
        | replying s' handler' again' =>
          obtain ⟨rfl, rfl, rfl⟩ := Frame.replying.inj hframe
          exact hl.tail hs _ _ _ hmem
        | _ => simp [Frame.gather] at hframe
  | call rest stack react hs hp hg hd =>
    refine ⟨hl.erase p.sequence, fun s handler again h ↦ ?_⟩
    rcases List.mem_cons.mp h with he | h
    · obtain ⟨-, rfl, -⟩ := Frame.replying.inj he
      exact ⟨react, rfl⟩
    · exact hl.dispatching hs s handler again h

end Ledger.IsNumbered

/-- What is known of an exchange that goes on: it has gathered the answer in the messages of its
number that were dispatched since it began, waits for more unless that is complete, and what was
read since then was dispatched or waits above it. -/
structure Ledger.Collects (sequence : UInt32) (l : Ledger σ ν) (since : Journal ν)
    (above : List (Frame σ ν)) (x : Exchange σ ν) (below : List (Frame σ ν)) : Prop where
  stack : l.stack = above ++ .collecting x :: below
  sequence_eq : x.sequence = sequence
  ne_zero : sequence ≠ 0
  foreign : above.any (Frame.concerns sequence) = false
  number : x.number < l.nextNumber
  /-- No other number has messages gathered for the exchange. -/
  keys : ∀ other, l.pending.get? other = some (.gather x.number) → other = sequence
  pending : l.pending.get? sequence =
    if Packet.isAnswered (since.arrived sequence) then none else some (.gather x.number)
  gathered : x.gathered.reverse = Packet.answer (since.arrived sequence)
  conserves : (since.dispatched ++ above.flatMap Frame.messages).Perm since.accepted
  order : since.IsPrompt sequence → Packet.withSequence sequence since.accepted =
    since.arrived sequence ++ Packet.withSequence sequence (above.flatMap Frame.messages)

namespace Ledger.Collects

variable {sequence : UInt32} {l l' : Ledger σ ν} {since : Journal ν}
  {above above' : List (Frame σ ν)} {x : Exchange σ ν} {below : List (Frame σ ν)}

/-- What is known of an exchange stays known while nothing is read or dispatched and its handler
stays as it is. -/
theorem congr {new : Journal ν} (hc : l.Collects sequence since above x below)
    (hs : l'.stack = above' ++ .collecting x :: below)
    (ha : above'.any (Frame.concerns sequence) = false)
    (hm : above'.flatMap Frame.messages = above.flatMap Frame.messages)
    (hn : l.nextNumber ≤ l'.nextNumber)
    (hp : l'.pending.get? sequence = l.pending.get? sequence)
    (hk : ∀ other, l'.pending.get? other = some (.gather x.number) → other ≠ sequence →
      l.pending.get? other = some (.gather x.number))
    (hnew : new.IsSilent sequence) : l'.Collects sequence (new ++ since) above' x below where
  stack := hs
  sequence_eq := hc.sequence_eq
  ne_zero := hc.ne_zero
  foreign := ha
  number := Nat.lt_of_lt_of_le hc.number hn
  keys other h := by
    by_cases he : other = sequence
    · exact he
    · exact hc.keys other (hk other h he)
  pending := by
    rw [hp, hc.pending, Journal.arrived_append, hnew.arrived_eq, List.append_nil]
  gathered := by rw [hc.gathered, Journal.arrived_append, hnew.arrived_eq, List.append_nil]
  conserves := by
    rw [Journal.dispatched_append, Journal.accepted_append, hnew.dispatched_eq, hnew.accepted_eq,
      List.append_nil, List.append_nil, hm]
    exact hc.conserves
  order hprompt := by
    rw [Journal.accepted_append, Journal.arrived_append, hnew.accepted_eq, hnew.arrived_eq,
      List.append_nil, List.append_nil, hm]
    exact hc.order hprompt.tail

/-- A handler in the table is the one that gathers for the exchange. -/
theorem of_get?_eq_some (hc : l.Collects sequence since above x below) {handler : Handler σ ν}
    (hg : l.pending.get? sequence = some handler) :
    Packet.isAnswered (since.arrived sequence) = false ∧ handler = .gather x.number := by
  rw [hc.pending] at hg
  split at hg
  · contradiction
  · next ha => exact ⟨by simpa using ha, (Option.some.inj hg).symm⟩

/-- What is known of an exchange after a message above it is dispatched. -/
theorem dispatched {new : Journal ν} {p : Packet} {x' : Exchange σ ν} {below' : List (Frame σ ν)}
    (hc : l.Collects sequence since above x below)
    (hs : l'.stack = above' ++ .collecting x' :: below')
    (hx : x'.number = x.number ∧ x'.sequence = x.sequence)
    (ha : above'.any (Frame.concerns sequence) = false)
    (hm : above.flatMap Frame.messages = p :: above'.flatMap Frame.messages)
    (hn : l'.nextNumber = l.nextNumber)
    (hk : ∀ other, l'.pending.get? other = some (.gather x.number) →
      l.pending.get? other = some (.gather x.number))
    (hd : new.dispatched = [p]) (hr : new.accepted = [])
    (hp : l'.pending.get? sequence =
      if Packet.isAnswered (since.arrived sequence ++ Packet.withSequence sequence [p])
      then none else some (.gather x.number))
    (hg : x'.gathered.reverse =
      Packet.answer (since.arrived sequence ++ Packet.withSequence sequence [p])) :
    l'.Collects sequence (new ++ since) above' x' below' := by
  have harrived : Journal.arrived sequence (new ++ since) =
      since.arrived sequence ++ Packet.withSequence sequence [p] := by
    rw [Journal.arrived_append]
    simp [Journal.arrived, hd]
  exact {
    stack := hs
    sequence_eq := hx.2.trans hc.sequence_eq
    ne_zero := hc.ne_zero
    foreign := ha
    number := by rw [hx.1, hn]; exact hc.number
    keys := fun other h ↦ hc.keys other (hk other (hx.1 ▸ h))
    pending := by rw [harrived, hx.1, hp]
    gathered := by rw [harrived, hg]
    conserves := by
      rw [Journal.dispatched_append, Journal.accepted_append, hd, hr]
      simpa [hm] using hc.conserves
    order := fun hprompt ↦ by
      rw [Journal.accepted_append, hr, List.append_nil, hc.order hprompt.tail, harrived, hm,
        List.append_assoc, ← Packet.withSequence_append, List.singleton_append] }

/-- The top of the stack is above the exchange, or the exchange itself. -/
theorem top (hc : l.Collects sequence since above x below) {frame : Frame σ ν}
    {stack : List (Frame σ ν)} (hs : l.stack = frame :: stack) :
    (above = [] ∧ frame = .collecting x ∧ stack = below) ∨
      ∃ rest, above = frame :: rest ∧ stack = rest ++ .collecting x :: below := by
  have hstack := hs.symm.trans hc.stack
  cases above with
  | nil =>
    obtain ⟨hframe, hrest⟩ := List.cons.inj hstack
    exact .inl ⟨rfl, hframe, hrest⟩
  | cons first rest =>
    obtain ⟨rfl, hrest⟩ := List.cons.inj hstack
    exact .inr ⟨rest, rfl, hrest⟩

/-- A frame that does not belong to the number is above the exchange. -/
theorem top_of_not_concerns (hc : l.Collects sequence since above x below) {frame : Frame σ ν}
    {stack : List (Frame σ ν)} (hs : l.stack = frame :: stack)
    (hf : frame.concerns sequence = false) :
    ∃ rest, above = frame :: rest ∧ stack = rest ++ .collecting x :: below := by
  rcases hc.top hs with ⟨-, rfl, -⟩ | h
  · simp [Frame.concerns, hc.sequence_eq] at hf
  · exact h

end Ledger.Collects

end WifiNetlink
