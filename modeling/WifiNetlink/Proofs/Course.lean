import WifiNetlink.Proofs.Answer
import WifiNetlink.Proofs.Boundary

/-!
# The course of an exchange

While an exchange goes on, its place on the stack is the one where it began, its number has no
handler of client code, and every handler that was in the table when it began is there, or runs
above the exchange and goes back, as long as no terminator of its number is dispatched. Handlers
that run meanwhile may begin exchanges of other numbers.
-/

namespace WifiNetlink

variable {σ ν : Type}

/-- Where a handler is that waits for more messages: in the table, or at work in one of the frames
that will put it back. -/
inductive Awaits (other : UInt32) (handler : Handler σ ν) (above : List (Frame σ ν))
    (pending : Table UInt32 (Handler σ ν)) : Prop where
  | waiting (hp : pending.get? other = some handler)
    (hf : above.filter (Frame.concerns other) = [])
  | running (hp : pending.get? other = none)
    (hf : above.filter (Frame.concerns other) = [.replying other handler true])

namespace Awaits

variable {other : UInt32} {handler : Handler σ ν} {above above' : List (Frame σ ν)}
  {pending pending' : Table UInt32 (Handler σ ν)}

/-- Where a handler is depends on the entry and the frames of its number only. -/
theorem congr (ha : Awaits other handler above pending)
    (hp : pending'.get? other = pending.get? other)
    (hf : above'.filter (Frame.concerns other) = above.filter (Frame.concerns other)) :
    Awaits other handler above' pending' := by
  cases ha with
  | waiting hp' hf' => exact .waiting (hp.trans hp') (hf.trans hf')
  | running hp' hf' => exact .running (hp.trans hp') (hf.trans hf')

/-- Gathering a message for an exchange changes no frame of a handler. -/
theorem congr_gather (ha : Awaits other handler above pending) (number : Nat) (p : Packet)
    (hp : pending'.get? other = pending.get? other) :
    Awaits other handler (above.map (Frame.gather number p)) pending' := by
  apply ha.congr hp
  rw [Frame.filter_concerns_map_gather]
  cases ha with
  | waiting _ hf => simp [hf]
  | running _ hf => simp [hf, Frame.gather]

/-- No exchange of the number goes on above. -/
theorem ne_of_collecting {x : Exchange σ ν}
    (ha : Awaits other handler (.collecting x :: above) pending) : other ≠ x.sequence := by
  rintro rfl
  cases ha with
  | waiting _ hf => simp [Frame.concerns] at hf
  | running _ hf => simp [Frame.concerns] at hf

/-- The handler of the number that is done goes back into the table. -/
theorem settle {handler' : Handler σ ν} {again : Bool}
    (ha : Awaits other handler (.replying other handler' again :: above) pending) :
    Awaits other handler above (if again then pending.insert other handler' else pending) := by
  cases ha with
  | waiting _ hf => simp [Frame.concerns] at hf
  | running hp hf =>
    rw [List.filter_cons_of_pos (by simp [Frame.concerns])] at hf
    obtain ⟨hframe, hrest⟩ := List.cons.inj hf
    obtain ⟨-, rfl, rfl⟩ := Frame.replying.inj hframe
    exact .waiting (by simp [Table.get?_insert]) hrest

/-- A handler in the table is the one that waits. -/
theorem of_get?_eq_some {handler' : Handler σ ν} (ha : Awaits other handler above pending)
    (hg : pending.get? other = some handler') :
    handler' = handler ∧ above.filter (Frame.concerns other) = [] := by
  cases ha with
  | waiting hp hf => exact ⟨Option.some.inj (hg.symm.trans hp), hf⟩
  | running hp hf =>
    rw [hp] at hg
    contradiction

/-- Below all frames of exchanges and handlers, a handler that waits is in the table. -/
theorem get?_eq (ha : Awaits other handler [] pending) : pending.get? other = some handler := by
  cases ha with
  | waiting hp _ => exact hp
  | running _ hf => simp at hf

end Awaits

/-- What is known of an exchange that goes on, with the length of the stack, who waits for it and
the handlers of other numbers at its beginning. -/
structure Ledger.Hosts (sequence : UInt32) (depth : Nat) (waiter : Waiter σ ν)
    (handlers : Table UInt32 (Handler σ ν)) (since : Journal ν) (l : Ledger σ ν)
    (above : List (Frame σ ν)) (x : Exchange σ ν) (below : List (Frame σ ν)) : Prop where
  stack : l.stack = above ++ .collecting x :: below
  sequence_eq : x.sequence = sequence
  waiter_eq : x.waiter = waiter
  depth_eq : below.length = depth
  foreign : above.any (Frame.concerns sequence) = false
  /-- Its own replies are gathered. -/
  own : ∀ react, l.pending.get? sequence ≠ some (.client react)
  awaits : ∀ other handler, other ≠ sequence → handlers.get? other = some handler →
    since.opens other = false → Packet.isAnswered (since.arrived other) = false →
    Awaits other handler above l.pending

/-- An exchange goes on. -/
def Ledger.IsHost (sequence : UInt32) (depth : Nat) (waiter : Waiter σ ν)
    (handlers : Table UInt32 (Handler σ ν)) (since : Journal ν) (l : Ledger σ ν) : Prop :=
  ∃ above x below, l.Hosts sequence depth waiter handlers since above x below

namespace Ledger.Hosts

variable {sequence : UInt32} {depth : Nat} {waiter : Waiter σ ν}
  {handlers : Table UInt32 (Handler σ ν)} {since new : Journal ν} {l l' : Ledger σ ν}
  {above above' : List (Frame σ ν)} {x x' : Exchange σ ν} {below below' : List (Frame σ ν)}

/-- The same exchange later, where each handler that waits for more messages does so still. -/
theorem advance (hc : l.Hosts sequence depth waiter handlers since above x below)
    (hs : l'.stack = above' ++ .collecting x' :: below')
    (hx : x'.sequence = x.sequence ∧ x'.waiter = x.waiter) (hb : below'.length = below.length)
    (hf : above'.any (Frame.concerns sequence) = false)
    (ho : ∀ react, l'.pending.get? sequence ≠ some (.client react))
    (ha : ∀ other handler, other ≠ sequence → Journal.opens other new = false →
      Packet.isAnswered (Journal.arrived other new) = false →
      Awaits other handler above l.pending → Awaits other handler above' l'.pending) :
    l'.Hosts sequence depth waiter handlers (new ++ since) above' x' below' where
  stack := hs
  sequence_eq := hx.1.trans hc.sequence_eq
  waiter_eq := hx.2.trans hc.waiter_eq
  depth_eq := hb.trans hc.depth_eq
  foreign := hf
  own := ho
  awaits other handler hne hg hopens hanswered := by
    rw [Journal.opens_append, Bool.or_eq_false_iff] at hopens
    rw [Journal.arrived_append, Packet.isAnswered_append, Bool.or_eq_false_iff] at hanswered
    apply ha other handler hne hopens.1 hanswered.2
    exact hc.awaits other handler hne hg hopens.2 hanswered.1

/-- A frame that does not belong to the number is above the exchange. -/
theorem top (hc : l.Hosts sequence depth waiter handlers since above x below) {frame : Frame σ ν}
    {stack : List (Frame σ ν)} (hs : l.stack = frame :: stack)
    (hf : frame.concerns sequence = false) :
    ∃ rest, above = frame :: rest ∧ stack = rest ++ .collecting x :: below ∧
      rest.any (Frame.concerns sequence) = false := by
  have hstack := hs.symm.trans hc.stack
  have hforeign := hc.foreign
  cases above with
  | nil =>
    obtain ⟨rfl, -⟩ := List.cons.inj hstack
    simp [Frame.concerns, hc.sequence_eq] at hf
  | cons first rest =>
    obtain ⟨rfl, hrest⟩ := List.cons.inj hstack
    rw [List.any_cons, Bool.or_eq_false_iff] at hforeign
    exact ⟨rest, rfl, hrest, hforeign.2⟩

/-- A frame of the number on top of the stack is the exchange. -/
theorem top_of_concerns (hc : l.Hosts sequence depth waiter handlers since above x below)
    {frame : Frame σ ν} {stack : List (Frame σ ν)} (hs : l.stack = frame :: stack)
    (hf : frame.concerns sequence = true) : above = [] ∧ frame = .collecting x ∧ stack = below := by
  have hstack := hs.symm.trans hc.stack
  have hforeign := hc.foreign
  cases above with
  | nil =>
    obtain ⟨hframe, hrest⟩ := List.cons.inj hstack
    exact ⟨rfl, hframe, hrest⟩
  | cons first rest =>
    obtain ⟨rfl, -⟩ := List.cons.inj hstack
    simp [hf] at hforeign

variable (hc : l.Hosts sequence depth waiter handlers since above x below)
include hc

/-- Nothing happens to the stack or the table. -/
private theorem same (hs : l'.stack = l.stack) (hp : l'.pending = l.pending) :
    l'.IsHost sequence depth waiter handlers (new ++ since) := by
  refine ⟨above, x, below, hc.advance (hs.trans hc.stack) ⟨rfl, rfl⟩ rfl hc.foreign
    (hp ▸ hc.own) ?_⟩
  intro other handler _ _ _ ha
  rw [hp]
  exact ha

/-- A frame of no number is put on the stack. -/
private theorem push {frame : Frame σ ν} (hf : ∀ other, frame.concerns other = false)
    (hs : l'.stack = frame :: l.stack) (hp : l'.pending = l.pending) :
    l'.IsHost sequence depth waiter handlers (new ++ since) := by
  refine ⟨frame :: above, x, below, hc.advance (by rw [hs, hc.stack, List.cons_append])
    ⟨rfl, rfl⟩ rfl (by simp [hf, hc.foreign]) (hp ▸ hc.own) ?_⟩
  intro other handler _ _ _ ha
  exact ha.congr (by rw [hp]) (by simp [hf])

/-- A frame of no number is taken from the stack. -/
private theorem pop {frame : Frame σ ν} {stack : List (Frame σ ν)}
    (hf : ∀ other, frame.concerns other = false) (hs : l.stack = frame :: stack)
    (hs' : l'.stack = stack) (hp : l'.pending = l.pending) :
    l'.IsHost sequence depth waiter handlers (new ++ since) := by
  obtain ⟨rest, rfl, hrest, hforeign⟩ := hc.top hs (hf sequence)
  refine ⟨rest, x, below, hc.advance (hs'.trans hrest) ⟨rfl, rfl⟩ rfl hforeign (hp ▸ hc.own) ?_⟩
  intro other handler _ _ _ ha
  exact ha.congr (by rw [hp]) (by simp [hf])

/-- The table changes for a number that is put to use. -/
private theorem put (key : UInt32) (tops : List (Frame σ ν)) (hne : key ≠ sequence)
    (hk : Journal.opens key new = true) (hs : l'.stack = tops ++ l.stack)
    (ht : ∀ other, other ≠ key → tops.any (Frame.concerns other) = false)
    (hp : ∀ other, other ≠ key → l'.pending.get? other = l.pending.get? other) :
    l'.IsHost sequence depth waiter handlers (new ++ since) := by
  refine ⟨tops ++ above, x, below, hc.advance (by rw [hs, hc.stack, List.append_assoc])
    ⟨rfl, rfl⟩ rfl ?_ ?_ ?_⟩
  · rw [List.any_append, ht sequence (Ne.symm hne), hc.foreign]
    rfl
  · rw [hp sequence (Ne.symm hne)]
    exact hc.own
  · intro other handler _ hopens _ ha
    have hother : other ≠ key := by
      rintro rfl
      rw [hk] at hopens
      contradiction
    have htops : tops.filter (Frame.concerns other) = [] := by
      rw [List.filter_eq_nil_iff]
      exact List.any_eq_false.mp (ht other hother)
    exact ha.congr (hp other hother) (by rw [List.filter_append, htops, List.nil_append])

/-- Another exchange above this one ends. -/
private theorem leave {y : Exchange σ ν} {stack : List (Frame σ ν)}
    (hs : l.stack = .collecting y :: stack) (hne : y.sequence ≠ sequence)
    (hs' : l'.stack = stack)
    (hp : l'.pending = l.pending ∨ l'.pending = l.pending.erase y.sequence) :
    l'.IsHost sequence depth waiter handlers (new ++ since) := by
  have hother (other : UInt32) (ho : other ≠ y.sequence) :
      l'.pending.get? other = l.pending.get? other := by
    rcases hp with hp | hp
    · rw [hp]
    · rw [hp, Table.get?_erase, if_neg ho]
  obtain ⟨rest, rfl, hrest, hforeign⟩ := hc.top hs (by simp [Frame.concerns, hne])
  refine ⟨rest, x, below, hc.advance (hs'.trans hrest) ⟨rfl, rfl⟩ rfl hforeign ?_ ?_⟩
  · rw [hother sequence (Ne.symm hne)]
    exact hc.own
  · intro other handler _ _ _ ha
    have ho := ha.ne_of_collecting
    exact ha.congr (hother other ho) (by simp [Frame.concerns, Ne.symm ho])

/-- A handler above the exchange is done. -/
private theorem settle {key : UInt32} {handler' : Handler σ ν} {again : Bool}
    {stack : List (Frame σ ν)} (hs : l.stack = .replying key handler' again :: stack)
    (hs' : l'.stack = stack)
    (hp : l'.pending = if again then l.pending.insert key handler' else l.pending) :
    l'.IsHost sequence depth waiter handlers (new ++ since) := by
  have hne : key ≠ sequence := by
    rintro rfl
    obtain ⟨-, hframe, -⟩ := hc.top_of_concerns hs (by simp [Frame.concerns])
    contradiction
  have hother (other : UInt32) (ho : other ≠ key) :
      l'.pending.get? other = l.pending.get? other := by
    rw [hp]
    split
    · rw [Table.get?_insert, if_neg ho]
    · rfl
  obtain ⟨rest, rfl, hrest, hforeign⟩ := hc.top hs (by simp [Frame.concerns, hne])
  refine ⟨rest, x, below, hc.advance (hs'.trans hrest) ⟨rfl, rfl⟩ rfl hforeign ?_ ?_⟩
  · rw [hother sequence (Ne.symm hne)]
    exact hc.own
  · intro other handler _ _ _ ha
    by_cases ho : other = key
    · subst ho
      rw [hp]
      exact ha.settle
    · exact ha.congr (hother other ho) (by simp [Frame.concerns, Ne.symm ho])

/-- A message above the exchange is dispatched and not gathered. -/
private theorem dispatch_plain {p : Packet} {rest : List Packet} {stack : List (Frame σ ν)}
    (tops : List (Frame σ ν)) (hs : l.stack = .dispatching (p :: rest) :: stack)
    (hs' : l'.stack = tops ++ .dispatching rest :: stack)
    (ht : ∀ other, other ≠ p.sequence → tops.any (Frame.concerns other) = false)
    (hf : tops.any (Frame.concerns sequence) = false)
    (hp : ∀ other, other ≠ p.sequence → l'.pending.get? other = l.pending.get? other)
    (ho : ∀ react, l'.pending.get? sequence ≠ some (.client react))
    (hown : ∀ handler rest', p.sequence ≠ sequence → p.isTerminator = false →
      Awaits p.sequence handler (.dispatching (p :: rest) :: rest') l.pending →
      Awaits p.sequence handler (tops ++ .dispatching rest :: rest') l'.pending)
    (hj : Journal.arrived p.sequence new = [p]) :
    l'.IsHost sequence depth waiter handlers (new ++ since) := by
  obtain ⟨others, rfl, rfl, hforeign⟩ := hc.top hs rfl
  refine ⟨tops ++ .dispatching rest :: others, x, below, hc.advance (by simp [hs']) ⟨rfl, rfl⟩ rfl
    (by simp [hf, hforeign]) ho ?_⟩
  intro other handler hne _ hanswered ha
  by_cases hother : other = p.sequence
  · subst hother
    rw [hj, Packet.isAnswered_singleton] at hanswered
    exact hown handler others hne hanswered ha
  · have htops : tops.filter (Frame.concerns other) = [] := by
      rw [List.filter_eq_nil_iff]
      exact List.any_eq_false.mp (ht other hother)
    exact ha.congr (hp other hother) (by simp [List.filter_append, htops])

/-- A message above the exchange is dispatched and gathered. -/
private theorem dispatch_gather {p : Packet} {rest : List Packet} {stack : List (Frame σ ν)}
    {number : Nat} (hs : l.stack = .dispatching (p :: rest) :: stack)
    (hs' : l'.stack = .dispatching rest :: stack.map (Frame.gather number p))
    (hg : l.pending.get? p.sequence = some (.gather number))
    (hp : ∀ other, l'.pending.get? other =
      if other = p.sequence then if p.isTerminator then none else some (.gather number)
      else l.pending.get? other)
    (hj : Journal.arrived p.sequence new = [p]) :
    l'.IsHost sequence depth waiter handlers (new ++ since) := by
  obtain ⟨others, rfl, rfl, hforeign⟩ := hc.top hs rfl
  refine ⟨.dispatching rest :: others.map (Frame.gather number p), x.gather number p,
    below.map (Frame.gather number p),
    hc.advance (by simp [hs', Frame.gather]) ?_ (by simp) ?_ ?_ ?_⟩
  · unfold Exchange.gather
    split <;> exact ⟨rfl, rfl⟩
  · simpa [List.any_map] using hforeign
  · intro react
    rw [hp]
    split
    · split <;> simp
    · exact hc.own react
  · intro other handler _ _ hanswered ha
    have hrest : Awaits other handler others l.pending := ha.congr rfl (by simp)
    have hgather : Awaits other handler (others.map (Frame.gather number p)) l'.pending := by
      apply hrest.congr_gather number p
      rw [hp]
      split
      · next hother =>
        subst hother
        rw [hj, Packet.isAnswered_singleton] at hanswered
        rw [hanswered, hg]
        rfl
      · rfl
    exact hgather.congr rfl (by simp)

end Ledger.Hosts

/-- An exchange has gone on since it began, unless its number was put to use again or it is over. -/
def Ledger.Continues (sequence : UInt32) (depth : Nat) (waiter : Waiter σ ν)
    (handlers : Table UInt32 (Handler σ ν)) (start : Journal ν) (l : Ledger σ ν) : Prop :=
  ∃ since, l.journal = since ++ start ∧ (since.any (Event.marks sequence) = false →
    l.IsHost sequence depth waiter handlers since)

namespace Ledger.Continues

variable {sequence : UInt32} {depth : Nat} {waiter : Waiter σ ν}
  {handlers : Table UInt32 (Handler σ ν)} {start : Journal ν} {l l' : Ledger σ ν}

/-- What is known of an exchange stays known if a change of the ledger keeps it. -/
private theorem extend (hl : l.Continues sequence depth waiter handlers start) (new : Journal ν)
    (hj : l'.journal = new ++ l.journal)
    (hnew : new.any (Event.marks sequence) = false → ∀ since above x below,
      l.Hosts sequence depth waiter handlers since above x below →
      l'.IsHost sequence depth waiter handlers (new ++ since)) :
    l'.Continues sequence depth waiter handlers start := by
  obtain ⟨since, hsince, hhosts⟩ := hl
  refine ⟨new ++ since, by rw [hj, hsince, List.append_assoc], ?_⟩
  intro hmarks
  rw [List.any_append, Bool.or_eq_false_iff] at hmarks
  obtain ⟨above, x, below, hc⟩ := hhosts hmarks.2
  exact hnew hmarks.1 since above x below hc

/-- A change that leaves the stack and the table alone. -/
private theorem same (hl : l.Continues sequence depth waiter handlers start) (new : Journal ν)
    (hj : l'.journal = new ++ l.journal) (hs : l'.stack = l.stack) (hp : l'.pending = l.pending) :
    l'.Continues sequence depth waiter handlers start :=
  hl.extend new hj fun _ _ _ _ _ hc ↦ hc.same hs hp

/-- The end of an exchange on top of the stack. -/
private theorem leave (hl : l.Continues sequence depth waiter handlers start) (new : Journal ν)
    {y : Exchange σ ν} {stack : List (Frame σ ν)} {outcome : Except Error (List Packet)}
    (hs : l.stack = .collecting y :: stack)
    (hj : l'.journal = .exchangeEnded y.sequence outcome :: (new ++ l.journal))
    (hs' : l'.stack = stack)
    (hp : l'.pending = l.pending ∨ l'.pending = l.pending.erase y.sequence) :
    l'.Continues sequence depth waiter handlers start := by
  apply hl.extend (.exchangeEnded y.sequence outcome :: new) hj
  intro hmarks since above x below hc
  rw [List.any_cons, Bool.or_eq_false_iff] at hmarks
  have hne : y.sequence ≠ sequence := by simpa [Event.marks] using hmarks.1
  exact hc.leave hs hne hs' hp

theorem move {kind : MoveKind} (hm : Move l kind l')
    (hl : l.Continues sequence depth waiter handlers start) :
    l'.Continues sequence depth waiter handlers start := by
  cases hm with
  | entry e he hk => exact hl.same [e] rfl rfl rfl
  | release => exact hl.same [.released] rfl rfl rfl
  | subscribe scans schedules => exact hl.same [] rfl rfl rfl
  | count | unsubscribe | renewSync | renewAsync | started => exact hl.same [] rfl rfl rfl
  | watch descriptor hw => exact hl.same [.watched descriptor true] rfl rfl rfl
  | unwatch descriptor hw => exact hl.same [.unwatched descriptor] rfl rfl rfl
  | push frame hk =>
    exact hl.extend [] rfl fun _ _ _ _ _ hc ↦
      hc.push (fun _ ↦ Frame.concerns_of_keeps_eq_false hk) rfl rfl
  | pop frame stack hf hs =>
    exact hl.extend [] rfl fun _ _ _ _ _ hc ↦
      hc.pop (fun _ ↦ Frame.concerns_of_isPlain hf) hs rfl rfl
  | fire descriptor hd => exact hl.extend [] rfl fun _ _ _ _ _ hc ↦ hc.push (fun _ ↦ rfl) rfl rfl
  | read descriptor outcome hk =>
    exact hl.extend [.received descriptor outcome] rfl fun _ _ _ _ _ hc ↦
      hc.push (fun _ ↦ rfl) rfl rfl
  | settle key handler again stack hs =>
    exact hl.extend [] rfl fun _ _ _ _ _ hc ↦ hc.settle hs rfl rfl
  | register key react hn hh =>
    apply hl.extend [.registered key] rfl
    intro hmarks since above x below hc
    refine hc.put key [] ?_ ?_ rfl (fun _ _ ↦ rfl) ?_
    · simpa [Event.marks] using hmarks
    · simp [Journal.opens, Event.opens]
    · intro other ho
      simp [Table.get?_insert, ho]
  | begin key waiter' begun descriptor count message hn hh hc =>
    apply hl.extend
      [.clockRead begun, .sent descriptor message (.ok count), .exchangeBegan key] rfl
    intro hmarks since above x below hc
    refine hc.put key [.collecting ⟨l.nextNumber, key, begun, [], waiter'⟩] ?_ ?_
      rfl ?_ ?_
    · simpa [Event.marks] using hmarks
    · simp [Journal.opens, Event.opens]
    · intro other ho
      simp [Frame.concerns, Ne.symm ho]
    · intro other ho
      simp [Table.get?_insert, ho]
  | refuse key e entries hn hh he hs =>
    apply hl.extend (.exchangeEnded key (.error e) :: (entries ++ [.exchangeBegan key])) (by simp)
    intro hmarks since above x below hc
    rw [List.any_cons, Bool.or_eq_false_iff] at hmarks
    refine hc.put key [] ?_ ?_ rfl (fun _ _ ↦ rfl) ?_
    · simpa [Event.marks] using hmarks.1
    · simp [Journal.opens, Event.opens]
    · intro other ho
      simp [Table.get?_erase, Table.get?_insert, ho]
  | reject e he => exact hl.same [.exchangeEnded 0 (.error e)] rfl rfl rfl
  | poll y stack now descriptor outcome hs hp hb =>
    exact hl.same [.polled descriptor _ outcome, .clockRead now] rfl rfl rfl
  | timeout y stack now hs hp hb => exact hl.leave [.clockRead now] hs rfl rfl (.inr rfl)
  | fail y stack e hs he => exact hl.leave [] hs rfl rfl (.inr rfl)
  | finish y stack hs hp => exact hl.leave [] hs rfl rfl (.inl rfl)
  | takeDown hh hk hw =>
    refine hl.extend [] rfl ?_
    intro _ since above x below hc
    have hx : Frame.collecting x ∈ l.stack := by
      rw [hc.stack]
      exact List.mem_append_right _ List.mem_cons_self
    exact absurd rfl (List.any_eq_false.mp hk _ hx)

/-- Taking the handler of a message out leaves all others. -/
private theorem get?_erase_of_ne {pending : Table UInt32 (Handler σ ν)} {key other : UInt32}
    (ho : other ≠ key) : (pending.erase key).get? other = pending.get? other := by
  rw [Table.get?_erase, if_neg ho]

theorem dispatch {p : Packet} (hd : Dispatch p l l')
    (hl : l.Continues sequence depth waiter handlers start) :
    l'.Continues sequence depth waiter handlers start := by
  cases hd with
  | pass rest stack hs hp =>
    apply hl.extend [.dispatched p] rfl
    intro _ since above x below hc
    refine hc.dispatch_plain (p := p) [] hs rfl (fun _ _ ↦ rfl) rfl (fun _ _ ↦ rfl) hc.own
      ?_ ?_
    · intro handler rest' _ _ ha
      exact ha.congr rfl (by simp)
    · simp [Journal.arrived_cons, Event.dispatches, Packet.withSequence_singleton]
  | notify rest stack number e hs hp he =>
    apply hl.extend [e, .dispatched p] rfl
    intro _ since above x below hc
    refine hc.dispatch_plain (p := p) [.notifying number] hs rfl (fun _ _ ↦ rfl) rfl
      (fun _ _ ↦ rfl) hc.own ?_ ?_
    · intro handler rest' _ _ ha
      exact ha.congr rfl (by simp [Frame.concerns])
    · rcases he with ⟨n, rfl⟩ | ⟨ifindex, rfl⟩
      · simp [Journal.arrived_cons, Event.dispatches, Packet.withSequence_singleton]
      · simp [Journal.arrived_cons, Event.dispatches, Packet.withSequence_singleton]
  | close rest stack handler hs hp hg hd =>
    have hterm : p.isTerminator = true :=
      Packet.isTerminator_of_isSilent ((Packet.delivery_eq_finish_iff p).mp hd)
    apply hl.extend [.dispatched p] rfl
    intro _ since above x below hc
    refine hc.dispatch_plain (p := p) [] hs rfl (fun _ _ ↦ rfl) rfl
      (fun _ ↦ get?_erase_of_ne) ?_ ?_ ?_
    · intro react
      dsimp only
      rw [Table.get?_erase]
      split
      · simp
      · exact hc.own react
    · intro handler rest' _ hmore
      rw [hterm] at hmore
      contradiction
    · simp [Journal.arrived_cons, Event.dispatches, Packet.withSequence_singleton]
  | gather rest stack number hs hp hg hd =>
    apply hl.extend [.dispatched p] rfl
    intro _ since above x below hc
    refine hc.dispatch_gather (p := p) hs rfl hg ?_ ?_
    · intro other
      dsimp only
      by_cases hmore : p.delivery = .handOn
      · simp only [hmore, if_true, Table.get?_insert, Table.get?_erase,
          (Packet.delivery_eq_handOn_iff p).mp hmore, Bool.false_eq_true, if_false]
        split <;> rfl
      · have hterm : p.isTerminator = true := by
          simpa using mt (Packet.delivery_eq_handOn_iff p).mpr hmore
        simp only [hmore, if_false, Table.get?_erase, hterm, if_true]
    · simp [Journal.arrived_cons, Event.dispatches, Packet.withSequence_singleton]
  | call rest stack react hs hp hg hd =>
    apply hl.extend [.replied p.sequence p, .dispatched p] rfl
    intro _ since above x below hc
    have hne : p.sequence ≠ sequence := by
      rintro rfl
      exact hc.own react hg
    refine hc.dispatch_plain (p := p)
      [.replying p.sequence (.client react) (p.delivery = .handOn)] hs rfl ?_ ?_
      (fun _ ↦ get?_erase_of_ne) ?_ ?_ ?_
    · intro other ho
      simp [Frame.concerns, Ne.symm ho]
    · simp [Frame.concerns, hne]
    · intro react'
      dsimp only
      rw [get?_erase_of_ne (Ne.symm hne)]
      exact hc.own react'
    · intro handler rest' _ hmore ha
      obtain ⟨rfl, hf⟩ := ha.of_get?_eq_some hg
      refine .running (by simp [Table.get?_erase]) ?_
      simpa [Frame.concerns, (Packet.delivery_eq_handOn_iff p).mpr hmore] using hf
    · simp [Journal.arrived_cons, Event.dispatches, Packet.withSequence_singleton]

end Ledger.Continues

end WifiNetlink
