import WifiNetlink.Proofs.Collecting

/-!
# Gathering replies

What is known of an exchange stays known in every move and every dispatch, from the event that
begins it to the one that ends it: other exchanges and handlers leave it and the messages above it
alone, and each message of its number that is dispatched brings it one further.
-/

namespace WifiNetlink

variable {σ ν : Type}

/-- Whether the exchanges of a number stay where they are on the stack, with the same messages above
them. -/
def Frame.LeaveBelow (sequence : UInt32) (stack stack' : List (Frame σ ν)) : Prop :=
  ∀ above x below, stack = above ++ .collecting x :: below → x.sequence = sequence →
    above.any (Frame.concerns sequence) = false →
    ∃ above', stack' = above' ++ .collecting x :: below ∧
      above'.any (Frame.concerns sequence) = false ∧
      above'.flatMap Frame.messages = above.flatMap Frame.messages

namespace Frame.LeaveBelow

variable {sequence : UInt32} {frame : Frame σ ν} {stack : List (Frame σ ν)}

theorem refl : LeaveBelow sequence stack stack :=
  fun above _ _ hs _ ha ↦ ⟨above, hs, ha, rfl⟩

theorem push (hf : frame.concerns sequence = false) (hm : frame.messages = []) :
    LeaveBelow sequence stack (frame :: stack) := by
  intro above x below hs _ ha
  exact ⟨frame :: above, by rw [hs, List.cons_append], by simp [hf, ha], by simp [hm]⟩

theorem pop (hf : frame.concerns sequence = false) (hm : frame.messages = []) :
    LeaveBelow sequence (frame :: stack) stack := by
  intro above x below hs hx ha
  cases above with
  | nil =>
    obtain ⟨rfl, -⟩ := List.cons.inj hs
    simp [concerns, hx] at hf
  | cons first rest =>
    obtain ⟨rfl, hrest⟩ := List.cons.inj hs
    rw [List.any_cons, Bool.or_eq_false_iff] at ha
    exact ⟨rest, hrest, ha.2, by simp [hm]⟩

end Frame.LeaveBelow

/-- An exchange goes on from the event that began it to the one that ends it. -/
def Ledger.Gathers (sequence : UInt32) (l : Ledger σ ν) : Prop :=
  l.journal.lastMark? sequence = some (.exchangeBegan sequence) →
    ∃ above x below, l.Collects sequence (l.journal.since sequence) above x below

namespace Ledger.Gathers

open Journal

variable {sequence : UInt32} {l l' : Ledger σ ν}

/-- What is known of the exchanges stays known while nothing is read or dispatched and their
handlers stay as they are. -/
private theorem congr (hl : l.Gathers sequence) (new : Journal ν)
    (hj : l'.journal = new ++ l.journal) (hnew : new.IsSilent sequence)
    (hn : l.nextNumber ≤ l'.nextNumber)
    (hp : l'.pending.get? sequence = l.pending.get? sequence)
    (hk : ∀ number other, l'.pending.get? other = some (.gather number) → other ≠ sequence →
      number < l.nextNumber → l.pending.get? other = some (.gather number))
    (hs : Frame.LeaveBelow sequence l.stack l'.stack) : l'.Gathers sequence := by
  intro hmark
  obtain ⟨hlast, hsince⟩ := @lastMark?_append _ l.journal sequence new fun e he ↦ (hnew e he).1
  rw [hj, hlast] at hmark
  obtain ⟨above, x, below, hc⟩ := hl hmark
  obtain ⟨above', hs', ha, hm⟩ := hs above x below hc.stack hc.sequence_eq hc.foreign
  refine ⟨above', x, below, ?_⟩
  rw [hj, hsince]
  exact hc.congr hs' ha hm hn hp (fun other h hne ↦ hk _ other h hne hc.number) hnew

/-- The same with the table as it is. -/
private theorem congr_pending (hl : l.Gathers sequence) (new : Journal ν)
    (hj : l'.journal = new ++ l.journal) (hnew : new.IsSilent sequence)
    (hn : l.nextNumber ≤ l'.nextNumber) (hp : l'.pending = l.pending)
    (hs : Frame.LeaveBelow sequence l.stack l'.stack) : l'.Gathers sequence :=
  hl.congr new hj hnew hn (by rw [hp]) (fun _ _ h _ _ ↦ hp ▸ h) hs

/-- The same with a handler of another number taken out. -/
private theorem congr_erase {other : UInt32} (hl : l.Gathers sequence) (new : Journal ν)
    (hj : l'.journal = new ++ l.journal) (hnew : new.IsSilent sequence)
    (hn : l.nextNumber ≤ l'.nextNumber) (hne : other ≠ sequence)
    (hp : l'.pending = l.pending.erase other)
    (hs : Frame.LeaveBelow sequence l.stack l'.stack) : l'.Gathers sequence := by
  refine hl.congr new hj hnew hn ?_ (fun number key h _ _ ↦ ?_) hs
  · rw [hp, Table.get?_erase, if_neg (Ne.symm hne)]
  · rw [hp, Table.get?_erase] at h
    split at h
    · contradiction
    · exact h

/-- The same with a new handler of another number that gathers for none of the exchanges. -/
private theorem congr_insert {other : UInt32} {handler : Handler σ ν}
    (hl : l.Gathers sequence) (new : Journal ν) (hj : l'.journal = new ++ l.journal)
    (hnew : new.IsSilent sequence) (hn : l.nextNumber ≤ l'.nextNumber) (hne : other ≠ sequence)
    (hh : ∀ number, handler = .gather number → l.nextNumber ≤ number)
    (hp : l'.pending = l.pending.insert other handler)
    (hs : Frame.LeaveBelow sequence l.stack l'.stack) : l'.Gathers sequence := by
  refine hl.congr new hj hnew hn ?_ (fun number key h _ hlt ↦ ?_) hs
  · rw [hp, Table.get?_insert, if_neg (Ne.symm hne)]
  · rw [hp, Table.get?_insert] at h
    split at h
    · exact absurd hlt (Nat.not_lt.mpr (hh number (Option.some.inj h)))
    · exact h

/-- A number whose last mark is no beginning has no exchange that goes on. -/
private theorem of_lastMark? {e : Event ν} (hlast : l.journal.lastMark? sequence = some e)
    (he : e ≠ .exchangeBegan sequence) : l.Gathers sequence :=
  fun h ↦ absurd (Option.some.inj (hlast.symm.trans h)) he

/-- The end of an exchange. -/
private theorem finish {x : Exchange σ ν} {stack : List (Frame σ ν)} {outcome}
    (hl : l.Gathers sequence) (new : Journal ν) (hs : l.stack = .collecting x :: stack)
    (hj : l'.journal = .exchangeEnded x.sequence outcome :: (new ++ l.journal))
    (hnew : new.IsSilent sequence) (hn : l.nextNumber ≤ l'.nextNumber)
    (hp : l'.pending = l.pending ∨ l'.pending = l.pending.erase x.sequence)
    (hs' : l'.stack = stack) : l'.Gathers sequence := by
  by_cases hne : x.sequence = sequence
  · refine of_lastMark? (e := .exchangeEnded x.sequence outcome) ?_ (by simp)
    rw [hj, lastMark?_cons]
    simp [Event.marks, hne]
  · have hj' : l'.journal = (.exchangeEnded x.sequence outcome :: new) ++ l.journal := hj
    have hnew' : IsSilent sequence (.exchangeEnded x.sequence outcome :: new) :=
      hnew.cons ⟨by simp [Event.marks, hne], rfl, rfl⟩
    have hpop : Frame.LeaveBelow sequence l.stack l'.stack := by
      rw [hs, hs']
      exact .pop (by simp [Frame.concerns, hne]) rfl
    rcases hp with hp | hp
    · exact hl.congr_pending _ hj' hnew' hn hp hpop
    · exact hl.congr_erase _ hj' hnew' hn hne hp hpop

/-- An exchange that has just begun. -/
private theorem begin (hi : l.IsNumbered) (waiter : Waiter σ ν) (begun descriptor count : Nat)
    (message : Bytes) (hn : sequence ≠ 0)
    (hj : l'.journal = .clockRead begun :: .sent descriptor message (.ok count) ::
      .exchangeBegan sequence :: l.journal)
    (hs : l'.stack = .collecting ⟨l.nextNumber, sequence, begun, [], waiter⟩ :: l.stack)
    (hp : l'.pending = l.pending.insert sequence (.gather l.nextNumber))
    (hnext : l'.nextNumber = l.nextNumber + 1) : l'.Gathers sequence := by
  intro _
  have hsince : l'.journal.since sequence =
      [.clockRead begun, .sent descriptor message (.ok count)] := by
    simp [hj, since_cons, Event.marks]
  refine ⟨[], ⟨l.nextNumber, sequence, begun, [], waiter⟩, l.stack, ?_⟩
  rw [hsince]
  refine ⟨hs, rfl, hn, rfl, ?_, fun other h ↦ ?_, ?_, rfl, .refl _, fun _ ↦ rfl⟩
  · simp [hnext]
  · rw [hp, Table.get?_insert] at h
    split at h
    · assumption
    · exact absurd (hi.pending other _ h) (Nat.lt_irrefl _)
  · rw [hp, Table.get?_insert, if_pos rfl]
    rfl

/-- The messages of a datagram wait on top of the stack. -/
private theorem read (hl : l.Gathers sequence) (descriptor : Nat)
    (outcome : Except SystemFault Reception)
    (hj : l'.journal = .received descriptor outcome :: l.journal)
    (hs : l'.stack = .dispatching (Event.messagesIn outcome) :: l.stack)
    (hp : l'.pending = l.pending) (hnext : l'.nextNumber = l.nextNumber) :
    l'.Gathers sequence := by
  intro hmark
  rw [hj, lastMark?_cons] at hmark
  obtain ⟨above, x, below, hc⟩ := hl hmark
  have hsince : l'.journal.since sequence =
      .received descriptor outcome :: l.journal.since sequence := by
    rw [hj, since_cons]
    rfl
  have harrived : arrived sequence (.received descriptor outcome :: l.journal.since sequence) =
      (l.journal.since sequence).arrived sequence := by
    simp [arrived_cons, Event.dispatches]
  refine ⟨.dispatching (Event.messagesIn outcome) :: above, x, below, ?_⟩
  rw [hsince]
  exact {
    stack := by rw [hs, hc.stack, List.cons_append]
    sequence_eq := hc.sequence_eq
    ne_zero := hc.ne_zero
    foreign := by simp [hc.foreign]
    number := hnext ▸ hc.number
    keys := hp ▸ hc.keys
    pending := by rw [hp, harrived, hc.pending]
    gathered := by rw [harrived, hc.gathered]
    conserves := by
      simp only [dispatched_cons, accepted_cons, Event.dispatches, Event.accepted, List.append_nil,
        List.flatMap_cons, Frame.messages_dispatching]
      exact (List.perm_append_comm_assoc ..).trans
        ((hc.conserves.append_left _).trans List.perm_append_comm)
    order := by
      rintro ⟨hprompt, hbefore⟩
      have horder := hc.order hbefore
      rw [harrived, accepted_cons, List.flatMap_cons, Frame.messages_dispatching]
      simp only [Packet.withSequence_append]
      by_cases hnew : Packet.withSequence sequence (Event.messagesIn outcome) = []
      · simp [Event.accepted, hnew, horder]
      · -- Nothing of the number waits, so the new messages are next.
        have hlength := hprompt hnew
        rw [horder, List.length_append, Nat.add_eq_left, List.length_eq_zero_iff] at hlength
        simp [Event.accepted, horder, hlength] }

/-- No handler of the number runs above an exchange that goes on. -/
private theorem settle {handler : Handler σ ν} {again : Bool} {stack : List (Frame σ ν)}
    (hl : l.Gathers sequence) (hs : l.stack = .replying sequence handler again :: stack)
    (hj : l'.journal = l.journal) : l'.Gathers sequence := by
  intro hmark
  rw [hj] at hmark
  obtain ⟨above, x, below, hc⟩ := hl hmark
  rcases hc.top hs with ⟨-, hframe, -⟩ | ⟨rest, rfl, -⟩
  · contradiction
  · have := hc.foreign
    simp [Frame.concerns] at this

theorem move {kind : MoveKind} (hm : Move l kind l') (hi : l.IsNumbered) (hl : l.Gathers sequence) :
    l'.Gathers sequence := by
  cases hm with
  | entry e he hk =>
    exact hl.congr_pending [e] rfl (.cons ⟨Event.marks_of_isPlain he,
      Event.dispatches_of_isPlain he, Event.accepted_of_isPlain he⟩ .nil) (Nat.le_refl _) rfl .refl
  | release =>
    exact hl.congr_pending [.released] rfl (.cons ⟨rfl, rfl, rfl⟩ .nil) (Nat.le_refl _) rfl .refl
  | subscribe scans schedules => exact hl.congr_pending [] rfl .nil (Nat.le_succ _) rfl .refl
  | count | unsubscribe | renewSync | renewAsync | started =>
    exact hl.congr_pending [] rfl .nil (Nat.le_refl _) rfl .refl
  | watch descriptor hc =>
    exact hl.congr_pending [.watched descriptor true] rfl (.cons ⟨rfl, rfl, rfl⟩ .nil)
      (Nat.le_refl _) rfl .refl
  | unwatch descriptor hw =>
    exact hl.congr_pending [.unwatched descriptor] rfl (.cons ⟨rfl, rfl, rfl⟩ .nil)
      (Nat.le_refl _) rfl .refl
  | push frame hk =>
    exact hl.congr_pending [] rfl .nil (Nat.le_refl _) rfl
      (.push (Frame.concerns_of_keeps_eq_false hk) (Frame.messages_of_keeps_eq_false hk))
  | pop frame stack hf hs =>
    exact hl.congr_pending [] rfl .nil (Nat.le_refl _) rfl
      (hs ▸ .pop (Frame.concerns_of_isPlain hf) (Frame.messages_of_isPlain hf))
  | fire descriptor hd =>
    exact hl.congr_pending [] rfl .nil (Nat.le_refl _) rfl (.push rfl rfl)
  | read descriptor outcome hk => exact hl.read descriptor outcome rfl rfl rfl rfl
  | settle other handler again stack hs =>
    by_cases hne : other = sequence
    · subst hne
      exact hl.settle hs rfl
    · have hpop : Frame.LeaveBelow sequence l.stack stack :=
        hs ▸ .pop (by simp [Frame.concerns, hne]) rfl
      cases again with
      | false => exact hl.congr_pending [] rfl .nil (Nat.le_refl _) rfl hpop
      | true =>
        obtain ⟨react, rfl⟩ := hi.stack other handler true (hs ▸ List.mem_cons_self)
        exact hl.congr_insert [] rfl .nil (Nat.le_refl _) hne (by simp) rfl hpop
  | register other react hn hh =>
    by_cases hne : other = sequence
    · exact of_lastMark? (e := .registered other) (by simp [log, lastMark?_cons, Event.marks, hne])
        (by simp)
    · exact hl.congr_insert [.registered other] rfl
        (.cons ⟨by simp [Event.marks, hne], rfl, rfl⟩ .nil) (Nat.le_refl _) hne (by simp) rfl .refl
  | begin other waiter begun descriptor count message hn hh hc =>
    by_cases hne : other = sequence
    · subst hne
      exact begin hi waiter begun descriptor count message hn rfl rfl rfl rfl
    · exact hl.congr_insert
        [.clockRead begun, .sent descriptor message (.ok count), .exchangeBegan other] rfl
        (.cons ⟨rfl, rfl, rfl⟩ (.cons ⟨rfl, rfl, rfl⟩
          (.cons ⟨by simp [Event.marks, hne], rfl, rfl⟩ .nil)))
        (Nat.le_succ _) hne (fun number h ↦ Nat.le_of_eq (Handler.gather.inj h)) rfl
        (.push (by simp [Frame.concerns, hne]) rfl)
  | refuse other e entries hn hh he hs =>
    by_cases hne : other = sequence
    · exact of_lastMark? (e := .exchangeEnded other (.error e))
        (by simp [lastMark?_cons, Event.marks, hne]) (by simp)
    · have hbegan : (Event.exchangeBegan other : Event ν).marks sequence = false := by
        simp [Event.marks, hne]
      have hended : (Event.exchangeEnded other (.error e) : Event ν).marks sequence = false := by
        simp [Event.marks, hne]
      refine hl.congr (.exchangeEnded other (.error e) :: (entries ++ [.exchangeBegan other]))
        (by simp) (.cons ⟨hended, rfl, rfl⟩ ?_) (Nat.le_succ _) ?_ (fun number key h _ _ ↦ ?_) .refl
      · rcases hs with rfl | ⟨descriptor, message, outcome, rfl⟩
        · exact .cons ⟨hbegan, rfl, rfl⟩ .nil
        · exact .cons ⟨rfl, rfl, rfl⟩ (.cons ⟨hbegan, rfl, rfl⟩ .nil)
      · simp [Table.get?_erase, Table.get?_insert, Ne.symm hne]
      · simp only [Table.get?_erase, Table.get?_insert] at h
        split at h
        · contradiction
        · exact h
  | reject e he =>
    by_cases hne : 0 = sequence
    · exact of_lastMark? (e := .exchangeEnded 0 (.error e))
        (by simp [log, lastMark?_cons, Event.marks, hne]) (by simp)
    · exact hl.congr_pending [.exchangeEnded 0 (.error e)] rfl
        (.cons ⟨by simp [Event.marks, hne], rfl, rfl⟩ .nil) (Nat.le_refl _) rfl .refl
  | poll x stack now descriptor outcome hs hp hb =>
    exact hl.congr_pending [.polled descriptor _ outcome, .clockRead now] rfl
      (.cons ⟨rfl, rfl, rfl⟩ (.cons ⟨rfl, rfl, rfl⟩ .nil)) (Nat.le_refl _) rfl .refl
  | timeout x stack now hs hp hb =>
    exact hl.finish [.clockRead now] hs rfl (.cons ⟨rfl, rfl, rfl⟩ .nil) (Nat.le_refl _)
      (.inr rfl) rfl
  | fail x stack e hs he => exact hl.finish [] hs rfl .nil (Nat.le_refl _) (.inr rfl) rfl
  | finish x stack hs hp => exact hl.finish [] hs rfl .nil (Nat.le_refl _) (.inl rfl) rfl
  | takeDown hh hk hw =>
    intro hmark
    obtain ⟨above, x, below, hc⟩ := hl hmark
    have hx : Frame.collecting x ∈ l.stack := by simp [hc.stack]
    exact absurd rfl (List.any_eq_false.mp hk _ hx)

/-- The frames above an exchange after a message on top of them is dispatched. -/
private theorem top_dispatching {since : Journal ν} {above below : List (Frame σ ν)}
    {x : Exchange σ ν} {p : Packet} {rest : List Packet} {stack : List (Frame σ ν)}
    (hc : l.Collects sequence since above x below)
    (hs : l.stack = .dispatching (p :: rest) :: stack) :
    ∃ others, above = .dispatching (p :: rest) :: others ∧
      stack = others ++ .collecting x :: below ∧
      others.any (Frame.concerns sequence) = false := by
  obtain ⟨others, rfl, hstack⟩ := hc.top_of_not_concerns hs rfl
  have hforeign := hc.foreign
  rw [List.any_cons, Bool.or_eq_false_iff] at hforeign
  exact ⟨others, rfl, hstack, hforeign.2⟩

/-- What is in a table after an entry is taken out was in it before. -/
private theorem get?_of_get?_erase {t : Table UInt32 (Handler σ ν)} {key : UInt32}
    (other : UInt32) (number : Nat) (h : (t.erase key).get? other = some (.gather number)) :
    t.get? other = some (.gather number) := by
  rw [Table.get?_erase] at h
  split at h
  · contradiction
  · exact h

/-- A message that is not gathered changes nothing for an exchange of another number; one of its own
number comes after its end, or is its end. -/
private theorem dispatch_plain {p : Packet} {rest : List Packet} {stack : List (Frame σ ν)}
    (hl : l.Gathers sequence) (new : Journal ν) (tops : List (Frame σ ν))
    (hj : l'.journal = new ++ l.journal) (hmarks : ∀ e ∈ new, e.marks sequence = false)
    (hd : new.dispatched = [p]) (hr : new.accepted = []) (hn : l'.nextNumber = l.nextNumber)
    (hs : l.stack = .dispatching (p :: rest) :: stack)
    (hs' : l'.stack = tops ++ .dispatching rest :: stack)
    (ht : tops.any (Frame.concerns sequence) = false) (htm : tops.flatMap Frame.messages = [])
    (hk : ∀ other number, l'.pending.get? other = some (.gather number) →
      l.pending.get? other = some (.gather number))
    (hother : p.sequence ≠ sequence → l'.pending.get? sequence = l.pending.get? sequence)
    (hown : p.sequence = sequence → sequence ≠ 0 → l'.pending.get? sequence = none ∧
      ∀ number, l.pending.get? sequence = some (.gather number) → p.delivery = .finish) :
    l'.Gathers sequence := by
  intro hmark
  obtain ⟨hlast, hsince⟩ := @lastMark?_append _ l.journal sequence new hmarks
  rw [hj, hlast] at hmark
  obtain ⟨above, x, below, hc⟩ := hl hmark
  obtain ⟨others, rfl, rfl, hforeign⟩ := top_dispatching hc hs
  refine ⟨tops ++ .dispatching rest :: others, x, below, ?_⟩
  rw [hj, hsince]
  refine hc.dispatched (by simp [hs']) ⟨rfl, rfl⟩ (by simp [ht, hforeign]) (by simp [htm]) hn
    (fun other ↦ hk other x.number) hd hr ?_ ?_
  all_goals rw [Packet.withSequence_singleton]
  · by_cases hp : p.sequence = sequence
    · obtain ⟨hnone, hfinish⟩ := hown hp hc.ne_zero
      rw [if_pos hp, hnone, Packet.isAnswered_append, Packet.isAnswered_singleton]
      by_cases ha : Packet.isAnswered (arrived sequence (l.journal.since sequence)) = true
      · simp [ha]
      · have hfin := hfinish x.number (by rw [hc.pending, if_neg ha])
        have hterm := Packet.isTerminator_of_isSilent ((Packet.delivery_eq_finish_iff p).mp hfin)
        simp [hterm]
    · rw [if_neg hp, List.append_nil, hother hp, hc.pending]
  · by_cases hp : p.sequence = sequence
    · obtain ⟨-, hfinish⟩ := hown hp hc.ne_zero
      rw [if_pos hp, hc.gathered]
      by_cases ha : Packet.isAnswered (arrived sequence (l.journal.since sequence)) = true
      · rw [Packet.answer_append_of_isAnswered _ ha]
      · have hfin := hfinish x.number (by rw [hc.pending, if_neg ha])
        rw [Packet.answer_append_singleton p (by simpa using ha), if_pos hfin, List.append_nil]
    · rw [if_neg hp, List.append_nil, hc.gathered]

/-- A message that is gathered is one of its exchange, and what it adds to the answer. -/
private theorem dispatch_gather {p : Packet} {rest : List Packet} {stack : List (Frame σ ν)}
    {number : Nat} (hl : l.Gathers sequence) (hj : l'.journal = .dispatched p :: l.journal)
    (hn : l'.nextNumber = l.nextNumber) (hs : l.stack = .dispatching (p :: rest) :: stack)
    (hs' : l'.stack = .dispatching rest :: stack.map (Frame.gather number p))
    (hg : l.pending.get? p.sequence = some (.gather number)) (hd : p.delivery ≠ .finish)
    (hp : l'.pending = if p.delivery = .handOn
      then (l.pending.erase p.sequence).insert p.sequence (.gather number)
      else l.pending.erase p.sequence) : l'.Gathers sequence := by
  have hget (other : UInt32) : l'.pending.get? other =
      if other = p.sequence then if p.delivery = .handOn then some (.gather number) else none
      else l.pending.get? other := by
    rw [hp]
    by_cases hmore : p.delivery = .handOn
    · simp only [hmore, if_true, Table.get?_insert, Table.get?_erase]
      split <;> rfl
    · simp only [hmore, if_false, Table.get?_erase]
  intro hmark
  rw [hj, lastMark?_cons] at hmark
  obtain ⟨above, x, below, hc⟩ := hl hmark
  obtain ⟨others, rfl, rfl, hforeign⟩ := top_dispatching hc hs
  refine ⟨.dispatching rest :: others.map (Frame.gather number p), x.gather number p,
    below.map (Frame.gather number p), ?_⟩
  have hsince : l'.journal.since sequence = [.dispatched p] ++ l.journal.since sequence := by
    rw [hj, since_cons]
    rfl
  rw [hsince]
  refine hc.dispatched (by simp [hs', Frame.gather]) ?_ (by simpa [List.any_map] using hforeign)
    (by simp [List.flatMap_map]) hn ?_ rfl rfl ?_ ?_
  · unfold Exchange.gather
    split <;> exact ⟨rfl, rfl⟩
  · intro other h
    rw [hget] at h
    split at h
    · next he =>
      split at h
      · rw [he, hg, ← h]
      · contradiction
    · exact h
  all_goals rw [Packet.withSequence_singleton]
  · by_cases hown : p.sequence = sequence
    · obtain ⟨hopen, hhandler⟩ := hc.of_get?_eq_some (hown ▸ hg)
      obtain rfl := Handler.gather.inj hhandler
      rw [if_pos hown, hget, if_pos hown.symm, Packet.isAnswered_append, hopen, Bool.false_or,
        Packet.isAnswered_singleton]
      by_cases hmore : p.delivery = .handOn
      · simp [hmore, (Packet.delivery_eq_handOn_iff p).mp hmore]
      · have hterm := mt (Packet.delivery_eq_handOn_iff p).mpr hmore
        simp [hmore, hterm]
    · rw [if_neg hown, List.append_nil, hget, if_neg (Ne.symm hown), hc.pending]
  · by_cases hown : p.sequence = sequence
    · obtain ⟨hopen, hhandler⟩ := hc.of_get?_eq_some (hown ▸ hg)
      obtain rfl := Handler.gather.inj hhandler
      rw [if_pos hown, Packet.answer_append_singleton p hopen, if_neg hd, ← hc.gathered]
      simp [Exchange.gather]
    · have hne : x.number ≠ number := by
        rintro rfl
        exact hown (hc.keys _ hg)
      rw [if_neg hown, List.append_nil, ← hc.gathered, Exchange.gather, if_neg hne]

theorem dispatch {p : Packet} (hd : Dispatch p l l') (hl : l.Gathers sequence) :
    l'.Gathers sequence := by
  cases hd with
  | pass rest stack hs hp =>
    refine hl.dispatch_plain [.dispatched p] [] rfl (by simp [Event.marks]) rfl rfl rfl hs rfl rfl
      rfl (fun _ _ h ↦ h) (fun _ ↦ rfl) fun hown hn ↦ ?_
    have hnone : l.pending.get? sequence = none := hown ▸ hp.resolve_left (hown ▸ hn)
    exact ⟨hnone, fun number h ↦ by simp [hnone] at h⟩
  | notify rest stack number e hs hp he =>
    have hnew : e.marks sequence = false ∧ Journal.dispatched [e, .dispatched p] = [p] ∧
        Journal.accepted [e, .dispatched p] = [] := by
      rcases he with ⟨n, rfl⟩ | ⟨ifindex, rfl⟩
      · exact ⟨rfl, rfl, rfl⟩
      · exact ⟨rfl, rfl, rfl⟩
    exact hl.dispatch_plain [e, .dispatched p] [.notifying number] rfl
      (List.forall_mem_cons.mpr ⟨hnew.1, by simp [Event.marks]⟩) hnew.2.1 hnew.2.2 rfl hs rfl rfl
      rfl (fun _ _ h ↦ h) (fun _ ↦ rfl) fun hown hn ↦ absurd (hown ▸ hp) hn
  | close rest stack handler hs hp hg hd =>
    refine hl.dispatch_plain [.dispatched p] [] rfl (by simp [Event.marks]) rfl rfl rfl hs rfl rfl
      rfl get?_of_get?_erase (fun hne ↦ ?_) fun hown _ ↦ ⟨?_, fun _ _ ↦ hd⟩
    · simp [Table.get?_erase, Ne.symm hne]
    · simp [Table.get?_erase, hown]
  | gather rest stack number hs hp hg hd => exact hl.dispatch_gather rfl rfl hs rfl hg hd rfl
  | call rest stack react hs hp hg hd =>
    by_cases hne : p.sequence = sequence
    · intro hmark
      simp only [log, withStack, lastMark?_cons, Event.marks, Bool.false_eq_true, if_false] at hmark
      obtain ⟨above, x, below, hc⟩ := hl hmark
      obtain ⟨-, hhandler⟩ := hc.of_get?_eq_some (hne ▸ hg)
      contradiction
    · refine hl.dispatch_plain [.replied p.sequence p, .dispatched p]
        [.replying p.sequence (.client react) (p.delivery = .handOn)] rfl (by simp [Event.marks])
        rfl rfl rfl hs rfl (by simp [Frame.concerns, hne]) rfl get?_of_get?_erase (fun _ ↦ ?_)
        fun hown _ ↦ absurd hown hne
      simp [Table.get?_erase, Ne.symm hne]

end Ledger.Gathers

end WifiNetlink
