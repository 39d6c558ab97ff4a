import Mathlib
import WifiNetlink.Proofs.Course
import WifiNetlink.Proofs.Gathering
import WifiNetlink.Proofs.Returning

/-!
# What synchronous exchanges give

When the call for an exchange returns, whoever made it goes on with the answer in the messages of
its number that were dispatched since its request was sent, if that is complete, and with a failure
if it is not. If no message of the number waited when others of it were read, the messages are those
of the datagrams in the order of reading, so the answer does not depend on how they were packed or
what came between them.
-/

namespace WifiNetlink

variable {σ ν : Type}

namespace Machine

/-- Whether the call for an exchange has returned with an outcome, and how that depends on what
happened since its request was sent: it is the answer in the messages of its number that were
dispatched, if that is complete, and a failure if it is not. Each message that was read was
dispatched, and in the order of reading unless others of the number waited when it was read. -/
structure IsCollected (sequence : UInt32) (waiter : Waiter σ ν) (since : Journal ν)
    (outcome : Except Error (List Packet)) (m : Machine σ ν) : Prop where
  goesOn : waiter.GoesOn outcome m.control
  eq_ok_iff : ∀ replies, outcome = .ok replies ↔
    Packet.isAnswered (since.arrived sequence) = true ∧
      replies = Packet.answer (since.arrived sequence)
  perm : (since.arrived sequence).Perm (Packet.withSequence sequence since.accepted)
  order : since.IsPrompt sequence →
    since.arrived sequence = Packet.withSequence sequence since.accepted

/-- Whether a number has no handler, and the handlers of other numbers are in their places, unless
their numbers were put to use again or were sent a terminator. -/
structure IsTidy (sequence : UInt32) (handlers : Table UInt32 (Handler σ ν)) (since : Journal ν)
    (m : Machine σ ν) : Prop where
  own : m.transport.pending.get? sequence = none
  others : ∀ other handler, handlers.get? other = some handler → other ≠ sequence →
    since.opens other = false → Packet.isAnswered (since.arrived other) = false →
    m.transport.pending.get? other = some handler

end Machine

namespace Reachable

variable {h : Host σ} {config : Config} {port : UInt32} {m₀ m : Machine σ ν} {sequence : UInt32}
  {waiter : Waiter σ ν}

/-- Every run keeps what is known of the exchanges that go on. -/
theorem gathers (hr : Reachable h config port m) (sequence : UInt32) :
    m.ledger.IsNumbered ∧ m.ledger.Gathers sequence := by
  apply hr.invariant (I := fun l ↦ l.IsNumbered ∧ l.Gathers sequence)
  · intro world
    exact ⟨⟨by simp [Machine.fresh, Machine.ledger, Transport.fresh],
      by simp [Machine.fresh, Machine.ledger]⟩, fun hmark ↦ by contradiction⟩
  · exact fun _ hm hl ↦ ⟨hl.1.move hm, hl.2.move hm hl.1⟩
  · exact fun _ hd hl ↦ ⟨hl.1.dispatch hd, hl.2.dispatch hd⟩

/-! ### Until the call returns -/

/-- While the call for an exchange has not returned the exchange goes on, and its number is not
marked again unless it is put to use again. -/
private theorem hosts_of_run (hr : Reachable h config port m₀)
    (hsent : Machine.HasSent sequence waiter m₀ (m₀.step h))
    (hrun : Run h (fun m ↦ m₀.stack.length < m.stack.length) (m₀.step h) m)
    (hhigh : m₀.stack.length < m.stack.length) :
    ∃ since, m.journal = since ++ (m₀.step h).journal ∧ (since.opens sequence = false →
      since.any (Event.marks sequence) = false ∧
        m.ledger.IsHost sequence m₀.stack.length waiter m₀.transport.pending since) := by
  have hhost : (m₀.step h).ledger.IsHost sequence m₀.stack.length waiter
      m₀.transport.pending [] := by
    obtain ⟨x, hs, hx, hw⟩ := hsent.stack
    obtain ⟨number, hp⟩ := hsent.pending
    refine ⟨[], x, m₀.stack, hs, hx, hw, rfl, rfl, ?_, ?_⟩
    · intro react
      simp [Machine.ledger, hp, Table.get?_insert]
    · intro other handler hne hg _ _
      exact .waiting (by simp [Machine.ledger, hp, Table.get?_insert, hne, hg]) rfl
  have hcontinues {m : Machine σ ν}
      (hrun : Run h (fun m ↦ m₀.stack.length < m.stack.length) (m₀.step h) m) :
      m.ledger.Continues sequence m₀.stack.length waiter m₀.transport.pending
        (m₀.step h).journal :=
    (hrun.preserve hr.step.isSound ⟨[], rfl, fun _ ↦ hhost⟩ (fun _ hm hl ↦ hl.move hm)
      fun _ _ _ hd hl ↦ hl.dispatch hd).2
  induction hrun with
  | refl => exact ⟨[], rfl, fun _ ↦ ⟨rfl, hhost⟩⟩
  | @step m hrun hallowed ih =>
    obtain ⟨since, hj, hsince⟩ := ih hallowed
    obtain ⟨new, hnew, -⟩ := Machine.journal_step h m
    have hj' : (m.step h).journal = (new ++ since) ++ (m₀.step h).journal := by
      rw [hnew, hj, List.append_assoc]
    refine ⟨new ++ since, hj', fun ho ↦ ?_⟩
    rw [Journal.opens_append, Bool.or_eq_false_iff] at ho
    obtain ⟨hmarks, above, x, below, hc⟩ := hsince ho.2
    rcases Machine.step_ends h hsent.ne_zero hnew ho.1 with hlasts | ⟨y, stack, hy, hs, hstack⟩
    · have hmarks' : (new ++ since).any (Event.marks sequence) = false := by
        rw [List.any_append, hlasts.marks hnew ho.1, hmarks]
        rfl
      obtain ⟨since', hsame, hhosts⟩ := hcontinues (hrun.step hallowed)
      obtain rfl := List.append_cancel_right (hj'.symm.trans hsame)
      exact ⟨hmarks', hhosts hmarks'⟩
    · -- The end of the exchange would return the call.
      obtain ⟨-, -, rfl⟩ := hc.top_of_concerns hs (by simp [Frame.concerns, hy])
      rw [hstack, hc.depth_eq] at hhigh
      exact absurd hhigh (Nat.lt_irrefl _)
  | @enter m program _ hidle ih =>
    have hbusy : m.isIdle = false :=
      Machine.isIdle_eq_false_of_stack (List.ne_nil_of_length_pos (Nat.zero_lt_of_lt hhigh))
    rw [hbusy] at hidle
    contradiction

/-- What is known of an exchange at the check of it on top of the stack. -/
private theorem collects_of_hasSent (hr : Reachable h config port m)
    (hsent : Machine.HasSent sequence waiter m₀ (m₀.step h)) {since : Journal ν}
    (hj : m.journal = since ++ (m₀.step h).journal)
    (hmarks : since.any (Event.marks sequence) = false) {x : Exchange σ ν}
    {stack : List (Frame σ ν)} (hs : m.stack = .collecting x :: stack)
    (hx : x.sequence = sequence) :
    ∃ plain : Journal ν, plain.IsStill ∧
      m.ledger.Collects sequence (since ++ plain) [] x stack := by
  obtain ⟨plain, earlier, hplain, hattempts⟩ := hsent.journal
  have hsilent : Journal.IsSilent sequence plain :=
    fun e he ↦ Event.silent_of_isAttempt (hattempts e he) sequence
  have hquiet : (since ++ plain).any (Event.marks sequence) = false := by
    rw [List.any_append, hmarks, Bool.false_or, List.any_eq_false]
    exact fun e he ↦ by simp [(hsilent e he).1]
  obtain ⟨hlast, hsince⟩ := Journal.lastMark?_append_cons (.exchangeBegan sequence) earlier hquiet
    (by simp [Event.marks])
  rw [List.append_assoc, ← hplain, ← hj] at hlast hsince
  obtain ⟨above, y, below, hc⟩ := (hr.gathers sequence).2 hlast
  rw [show m.ledger.journal = m.journal from rfl, hsince] at hc
  refine ⟨plain, hsilent.isStill, ?_⟩
  rcases hc.top hs with ⟨rfl, hframe, rfl⟩ | ⟨rest, rfl, -⟩
  · obtain rfl := Frame.collecting.inj hframe
    exact hc
  · have hforeign := hc.foreign
    simp [Frame.concerns, hx] at hforeign

/-- The end of an exchange brings no messages. -/
private theorem isStill_endExchange (sequence : UInt32) (waiter : Waiter σ ν) {x : Exchange σ ν}
    {outcome : Except Error (List Packet)} {ready : Machine σ ν}
    (hcloses : Machine.Closes h x outcome m ready) :
    ∃ new : Journal ν, new.IsStill ∧
      (ready.endExchange h sequence waiter outcome).journal = new ++ m.journal := by
  obtain ⟨attempts, hattempts, hall⟩ := hcloses.attempts
  obtain ⟨wiring, hwiring, hwires⟩ := (Machine.wires_handReplies h
    (ready.log (.exchangeEnded sequence outcome)) waiter outcome).journal
  refine ⟨wiring ++ .exchangeEnded sequence outcome :: attempts, fun e he ↦ ?_, ?_⟩
  · rcases List.mem_append.mp he with he | he
    · have hw := hwires e he
      cases e <;> simp_all [Event.isWiring, Event.dispatches, Event.accepted]
    · rcases List.mem_cons.mp he with rfl | he
      · exact ⟨rfl, rfl⟩
      · exact (Event.silent_of_isAttempt (hall e he) sequence).2
  · rw [Machine.endExchange, hwiring, Machine.log, hattempts, List.append_assoc, List.cons_append]

/-- What is collected at the last check of an exchange. -/
private theorem isCollected_endExchange {since plain new : Journal ν} {x : Exchange σ ν}
    {stack : List (Frame σ ν)} {outcome : Except Error (List Packet)} {m' ready : Machine σ ν}
    (hc : m.ledger.Collects sequence (since ++ plain) [] x stack) (hplain : plain.IsStill)
    (hnew : new.IsStill) (hgoes : waiter.GoesOn outcome m'.control)
    (hx : x.sequence = sequence) (hcloses : Machine.Closes h x outcome { m with stack } ready) :
    m'.IsCollected sequence waiter (new ++ since) outcome := by
  have harrived : Journal.arrived sequence (since ++ plain) =
      Journal.arrived sequence (new ++ since) := by
    rw [Journal.arrived_append, Journal.arrived_append, hplain.arrived_eq, hnew.arrived_eq,
      List.nil_append, List.append_nil]
  have haccepted : Journal.accepted (since ++ plain) = Journal.accepted (new ++ since) := by
    rw [Journal.accepted_append, Journal.accepted_append, hplain.accepted_eq, hnew.accepted_eq,
      List.nil_append, List.append_nil]
  have hconserves := hc.conserves
  have horder := hc.order
  rw [List.flatMap_nil, List.append_nil, haccepted] at hconserves
  rw [haccepted, harrived, List.flatMap_nil, Packet.withSequence_nil, List.append_nil] at horder
  refine ⟨hgoes, fun replies ↦ ?_, ?_, fun hprompt ↦ ?_⟩
  · have hpending := hc.pending
    rw [hcloses.eq_ok_iff, hc.gathered, harrived, hx]
    rw [harrived] at hpending
    refine and_congr_left fun _ ↦ ?_
    rw [show ({ m with stack } : Machine σ ν).transport.pending = m.ledger.pending from rfl,
      hpending]
    split <;> simp_all
  · rw [← harrived]
    exact hconserves.filter _
  · exact (horder (Journal.IsPrompt.append (Journal.Each.tail hprompt) hplain)).symm

/-- What the last check of an exchange leaves of the handlers. -/
private theorem isTidy_endExchange {since new : Journal ν} {x : Exchange σ ν} {depth : Nat}
    {handlers : Table UInt32 (Handler σ ν)} {stack : List (Frame σ ν)}
    {outcome : Except Error (List Packet)} {ready : Machine σ ν}
    (hhost : m.ledger.IsHost sequence depth waiter handlers since)
    (hcheck : m.Checks sequence depth waiter x stack)
    (hcloses : Machine.Closes h x outcome { m with stack } ready) :
    (ready.endExchange h sequence waiter outcome).IsTidy sequence handlers (new ++ since) := by
  obtain ⟨above, y, below, hc⟩ := hhost
  have hx := hcheck.sequence_eq
  obtain ⟨rfl, -, -⟩ := hc.top_of_concerns hcheck.stack_eq (by simp [Frame.concerns, hx])
  have hend := hcloses.leaves.endExchange h sequence waiter outcome
  rw [hx] at hend
  refine ⟨by rw [hend.pending_eq, if_pos rfl], fun other handler hg hne hopens hanswered ↦ ?_⟩
  rw [Journal.opens_append, Bool.or_eq_false_iff] at hopens
  rw [Journal.arrived_append, Packet.isAnswered_append, Bool.or_eq_false_iff] at hanswered
  rw [hend.pending_eq, if_neg hne]
  exact (hc.awaits other handler hne hg hopens.2 hanswered.1).get?_eq

/-! ### The return of the call -/

/-- When the call for an exchange has returned, whoever waits for it goes on with what was
collected, and the handlers are in their places if its number had none. -/
theorem isBack (hr : Reachable h config port m₀) (ha : m₀.asks? = some (sequence, waiter))
    (hh : m₀.transport.isHeld = true) (hret : m₀.Returns h m) :
    ∃ since outcome, m.journal = since ++ (m₀.step h).journal ∧ (since.opens sequence = false →
      m.IsCollected sequence waiter since outcome ∧
      (m₀.transport.pending.get? sequence = none →
        m.IsTidy sequence m₀.transport.pending since)) := by
  obtain ⟨outcome, hwith⟩ := hret.exists_returnsWith ha hh
  have hgoes := hwith.goesOn
  cases hwith with
  | unsent e ht hg hs hp =>
    refine ⟨[], .error e, rfl, fun _ ↦
      ⟨⟨hgoes, by simp, .refl _, fun _ ↦ rfl⟩, fun hnone ↦ ⟨?_, ?_⟩⟩⟩
    · rw [hp hnone, hnone]
    · intro other handler hother _ _ _
      rw [hp hnone, hother]
  | checked m ready x stack hsent hrun hcheck hcloses hend =>
    have hhigh : m₀.stack.length < m.stack.length := by
      rw [hcheck.stack_eq, List.length_cons, hcheck.depth_eq]
      exact Nat.lt_succ_self _
    obtain ⟨since, hj, hsince⟩ := hosts_of_run hr hsent hrun hhigh
    obtain ⟨new, hstill, hnew⟩ := isStill_endExchange sequence waiter hcloses
    rw [← hend] at hnew
    refine ⟨new ++ since, outcome, by rw [hnew, List.append_assoc, ← hj], fun ho ↦ ?_⟩
    rw [Journal.opens_append, Bool.or_eq_false_iff] at ho
    obtain ⟨hmarks, hhost⟩ := hsince ho.2
    obtain ⟨plain, hplain, hx⟩ := (hr.step.run hrun).collects_of_hasSent hsent hj hmarks
      hcheck.stack_eq hcheck.sequence_eq
    refine ⟨?_, fun _ ↦ ?_⟩
    · rw [hend]
      exact isCollected_endExchange hx hplain hstill (hend ▸ hgoes) hcheck.sequence_eq hcloses
    · rw [hend]
      exact isTidy_endExchange hhost hcheck hcloses

/-- The call for an exchange returns the messages of its number among those that were read since its
request was sent, in the order in which they were dispatched and up to the first terminator, if
there was one; and a failure if there was none. Unless messages of the number were read while others
waited, this is the order in which they were read. So the replies do not depend on how the messages
were packed or what came between them: two such calls that succeed return the same replies if what
they read of the number is the beginning of one stream. -/
theorem collected_eq_answer (h : Host σ) (config : Config) (port sequence : UInt32) :
    (∀ (m₀ m : Machine σ ν) waiter, Reachable h config port m₀ → m₀.transport.isHeld = true →
      m₀.asks? = some (sequence, waiter) → m₀.Returns h m →
      ∃ since outcome, m.journal = since ++ (m₀.step h).journal ∧ (since.opens sequence = false →
        m.IsCollected sequence waiter since outcome ∧
        (since.IsPrompt sequence → ∀ replies, outcome = .ok replies ↔
          Packet.isAnswered (Packet.withSequence sequence since.accepted) = true ∧
            replies = Packet.answer (Packet.withSequence sequence since.accepted)))) ∧
    ∀ {σ' ν' : Type} (m : Machine σ ν) (m' : Machine σ' ν') waiter waiter' since since' replies
      replies', m.IsCollected sequence waiter since (.ok replies) →
      m'.IsCollected sequence waiter' since' (.ok replies') →
      since.IsPrompt sequence → since'.IsPrompt sequence → ∀ stream,
      Packet.withSequence sequence since.accepted <+: stream →
      Packet.withSequence sequence since'.accepted <+: stream → replies = replies' := by
  constructor
  · intro m₀ m waiter hr hh ha hret
    obtain ⟨since, outcome, hj, hsince⟩ := hr.isBack ha hh hret
    refine ⟨since, outcome, hj, fun ho ↦ ⟨(hsince ho).1, fun hprompt replies ↦ ?_⟩⟩
    rw [← (hsince ho).1.order hprompt]
    exact (hsince ho).1.eq_ok_iff replies
  · intro σ' ν' m m' waiter waiter' since since' replies replies' hc hc' hprompt hprompt' stream
      hs hs'
    obtain ⟨ha, hreplies⟩ := (hc.eq_ok_iff replies).mp rfl
    obtain ⟨ha', hreplies'⟩ := (hc'.eq_ok_iff replies').mp rfl
    rw [← hc.order hprompt] at hs
    rw [← hc'.order hprompt'] at hs'
    rw [hreplies, hreplies', ← Packet.answer_of_isPrefix hs ha, Packet.answer_of_isPrefix hs' ha']

end Reachable

/-! ### Packing and overtaking -/

/-- Client code that notes the replies of an exchange. -/
def Program.noteReplies {σ : Type} (outcome : Except Error (List Packet)) :
    Program σ (List Packet) :=
  .note (outcome.toOption.getD []) .done

/-- A machine that is about to begin an exchange whose replies arrive in some packing. -/
def callingMachine (arrivals : List Arrival) : Machine ScriptedKernel (List Packet) :=
  ((Machine.fresh .standard 0 (answeringKernel [⟨.ok none, arrivals, []⟩])).run (.start fun _ ↦
    .collect (.request 28 5 8 0) .noteReplies)).step ScriptedKernel.host

/-- The machine so many steps after its exchange began. -/
def calledMachine (m : Machine ScriptedKernel (List Packet)) (count : Nat) :
    Machine ScriptedKernel (List Packet) :=
  (Machine.step ScriptedKernel.host)^[count] (m.step ScriptedKernel.host)

/-- What happened in so many steps after its exchange began. -/
def sinceCall (m : Machine ScriptedKernel (List Packet)) (count : Nat) :
    Journal (List Packet) :=
  (calledMachine m count).journal.take
    ((calledMachine m count).journal.length - (m.step ScriptedKernel.host).journal.length)

/-- All messages in one datagram, with one of another number. -/
def packed : List Arrival :=
  [.datagram ((Packet.part 8).toBytes ++ (Packet.ending 7).toBytes ++ (Packet.ending 8).toBytes)]

/-- A datagram for each message, after a malformed one. -/
def scattered : List Arrival :=
  [.datagram [0], .datagram (Packet.part 8).toBytes, .datagram (Packet.ending 8).toBytes]

/-- A call returns the same replies in both packings. -/
theorem collected_packed_eq_scattered :
    ∃ replies replies',
      (calledMachine (callingMachine packed) 6).IsCollected 8 (.client .noteReplies)
        (sinceCall (callingMachine packed) 6) (.ok replies) ∧
      (calledMachine (callingMachine scattered) 9).IsCollected 8 (.client .noteReplies)
        (sinceCall (callingMachine scattered) 9) (.ok replies') ∧
      replies = Packet.answer [.part 8, .ending 8] ∧ replies = replies' ∧
      (calledMachine (callingMachine packed) 6).control = .run (.noteReplies (.ok replies)) := by
  obtain ⟨hcall, hsame⟩ := Reachable.collected_eq_answer (ν := List Packet) ScriptedKernel.host
    .standard 0 8
  have hreturns : (callingMachine packed).Returns ScriptedKernel.host
      (calledMachine (callingMachine packed) 6) :=
    Machine.returns_iterate 6 (of_decide_eq_true (by cbv)) (by cbv)
  have hreturns' : (callingMachine scattered).Returns ScriptedKernel.host
      (calledMachine (callingMachine scattered) 9) :=
    Machine.returns_iterate 9 (of_decide_eq_true (by cbv)) (by cbv)
  obtain ⟨since, outcome, hj, hsince⟩ := hcall _ _ (.client .noteReplies)
    (Reachable.start ScriptedKernel.host _ _ _ _).step (by cbv) (by cbv) hreturns
  obtain ⟨since', outcome', hj', hsince'⟩ := hcall _ _ (.client .noteReplies)
    (Reachable.start ScriptedKernel.host _ _ _ _).step (by cbv) (by cbv) hreturns'
  obtain rfl := Journal.eq_take hj
  obtain rfl := Journal.eq_take hj'
  have hread : Packet.withSequence 8 (sinceCall (callingMachine packed) 6).accepted =
      [.part 8, .ending 8] := by cbv
  have hread' : Packet.withSequence 8 (sinceCall (callingMachine scattered) 9).accepted =
      [.part 8, .ending 8] := by cbv
  have hprompt : (sinceCall (callingMachine packed) 6).IsPrompt 8 := of_decide_eq_true (by cbv)
  have hprompt' : (sinceCall (callingMachine scattered) 9).IsPrompt 8 :=
    of_decide_eq_true (by cbv)
  obtain ⟨hc, hanswer⟩ := hsince (by cbv)
  obtain ⟨hc', hanswer'⟩ := hsince' (by cbv)
  have hout := (hanswer hprompt [.part 8]).mpr ⟨hread ▸ by decide, hread ▸ by decide⟩
  have hout' := (hanswer' hprompt' [.part 8]).mpr ⟨hread' ▸ by decide, hread' ▸ by decide⟩
  subst hout hout'
  refine ⟨_, _, hc, hc', by decide, ?_, hc.goesOn⟩
  exact hsame _ _ _ _ _ _ _ _ hc hc' hprompt hprompt' _ (List.prefix_refl _)
    (hread.trans hread'.symm ▸ List.prefix_refl _)

/-- A machine that is about to begin an exchange during which a handler begins another one, which
reads the end of the first before the rest of its own datagram is dispatched. -/
def overtakingMachine : Machine ScriptedKernel (List Packet) :=
  let arrivals := [.datagram ((Packet.part 7).toBytes ++ (Packet.part 8).toBytes),
    .datagram ((Packet.ending 8).toBytes ++ (Packet.ending 9).toBytes)]
  (((Machine.fresh .standard 0 (answeringKernel [⟨.ok none, [], []⟩,
    ⟨.ok none, arrivals, []⟩])).run (.start fun _ ↦
    .register (.request 28 5 7 0) (fun _ _ ↦ .collect (.request 28 5 9 0) fun _ ↦ .done) fun _ ↦
      .collect (.request 28 5 8 0) .noteReplies)).step ScriptedKernel.host).step ScriptedKernel.host

/-- A message that waits while a handler reads the end of its exchange is not returned. -/
theorem collected_ne_answer_of_overtaking :
    Reachable ScriptedKernel.host .standard 0 overtakingMachine ∧
      overtakingMachine.asks? = some (8, .client .noteReplies) ∧
      overtakingMachine.transport.pending.get? 8 = none ∧
      overtakingMachine.Returns ScriptedKernel.host (calledMachine overtakingMachine 13) ∧
      (sinceCall overtakingMachine 13).opens 8 = false ∧
      ¬ ∀ replies,
        (calledMachine overtakingMachine 13).control = .run (.noteReplies (.ok replies)) →
        replies =
          Packet.answer (Packet.withSequence 8 (sinceCall overtakingMachine 13).accepted) := by
  refine ⟨(Reachable.start ScriptedKernel.host _ _ _ _).step.step, by cbv, by cbv,
    Machine.returns_iterate 13 (of_decide_eq_true (by cbv)) (by cbv), by cbv, fun hclaim ↦ ?_⟩
  have hcontrol : (calledMachine overtakingMachine 13).control = .run (.noteReplies (.ok [])) := by
    cbv
  have hread : Packet.answer
      (Packet.withSequence 8 (sinceCall overtakingMachine 13).accepted) = [.part 8] := by cbv
  rw [← hclaim [] hcontrol] at hread
  contradiction

end WifiNetlink
