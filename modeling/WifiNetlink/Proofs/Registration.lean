import Mathlib
import WifiNetlink.Proofs.Answer
import WifiNetlink.Proofs.Traffic

/-!
# Registered handlers

A handler that is registered for a sequence number is called with the messages of that number, from
its registration to the first terminator, and with nothing else. What the table and the stack hold
for the number depends on the messages that arrived. Main statement: this holds along every run in
which the number is not put to use again and no message of it is dispatched while its own handler
runs.
-/

namespace WifiNetlink

variable {σ ν : Type}

/-- Whether the handler of a sequence number runs in the frame. -/
def Frame.isReplying (sequence : UInt32) : Frame σ ν → Bool
  | replying s _ _ => s == sequence
  | _ => false

namespace Machine

/-- Whether the handler of a sequence number runs. -/
def isReplying (sequence : UInt32) (m : Machine σ ν) : Bool :=
  m.stack.any (Frame.isReplying sequence)

/-- No message of a sequence number is dispatched while its own handler runs. -/
def IsCalm (sequence : UInt32) (m : Machine σ ν) : Prop :=
  ∀ p, m.due? = some p → p.sequence = sequence → m.isReplying sequence = false

end Machine

/-- Where the handler of a sequence number is after a row of messages. -/
inductive Standing (sequence : UInt32) (react : Journal ν → Packet → Program σ ν)
    (l : Ledger σ ν) (arrived : List Packet) : Prop where
  | waiting (hp : l.pending.get? sequence = some (.client react))
    (hf : l.stack.filter (Frame.concerns sequence) = [])
    (ha : Packet.isAnswered arrived = false)
  | running (again : Bool) (hp : l.pending.get? sequence = none)
    (hf : l.stack.filter (Frame.concerns sequence) = [.replying sequence (.client react) again])
    (ha : Packet.isAnswered arrived = !again)
  | ended (hp : l.pending.get? sequence = none)
    (hf : l.stack.filter (Frame.concerns sequence) = [])
    (ha : Packet.isAnswered arrived = true)
  /-- The transport was taken down. -/
  | gone (hp : l.pending.get? sequence = none)
    (hf : l.stack.filter (Frame.concerns sequence) = []) (ha : l.isAlive = false)

namespace Standing

variable {sequence : UInt32} {react : Journal ν → Packet → Program σ ν} {l l' : Ledger σ ν}
  {arrived : List Packet}

/-- A standing depends on the entry and the frames of its number only. -/
theorem congr (hst : Standing sequence react l arrived)
    (hp : l'.pending.get? sequence = l.pending.get? sequence)
    (hf : l'.stack.filter (Frame.concerns sequence) = l.stack.filter (Frame.concerns sequence))
    (ha : l'.isAlive = l.isAlive) : Standing sequence react l' arrived := by
  cases hst with
  | waiting hp' hf' ha' => exact .waiting (hp.trans hp') (hf.trans hf') ha'
  | running again hp' hf' ha' => exact .running again (hp.trans hp') (hf.trans hf') ha'
  | ended hp' hf' ha' => exact .ended (hp.trans hp') (hf.trans hf') ha'
  | gone hp' hf' ha' => exact .gone (hp.trans hp') (hf.trans hf') (ha.trans ha')

/-- Gathering a message for an exchange changes no frame of a handler. -/
theorem congr_gather (hst : Standing sequence react l arrived) (number : Nat) (p : Packet)
    (hp : l'.pending.get? sequence = l.pending.get? sequence)
    (hf : l'.stack.filter (Frame.concerns sequence) =
      (l.stack.filter (Frame.concerns sequence)).map (Frame.gather number p))
    (ha : l'.isAlive = l.isAlive) : Standing sequence react l' arrived := by
  refine hst.congr hp ?_ ha
  cases hst with
  | waiting _ hf' _ => simp [hf, hf']
  | running again _ hf' _ => simp [hf, hf', Frame.gather]
  | ended _ hf' _ => simp [hf, hf']
  | gone _ hf' _ => simp [hf, hf']

/-- No exchange of the number goes on. -/
theorem ne_of_collecting (hst : Standing sequence react l arrived) {x : Exchange σ ν}
    {stack : List (Frame σ ν)} (hs : l.stack = .collecting x :: stack) :
    sequence ≠ x.sequence := by
  rintro rfl
  cases hst <;> simp_all [Frame.concerns]

/-- The end of another exchange changes nothing. -/
theorem pop_collecting (hst : Standing sequence react l arrived) {x : Exchange σ ν}
    {stack : List (Frame σ ν)} (hs : l.stack = .collecting x :: stack) :
    (l.pending.erase x.sequence).get? sequence = l.pending.get? sequence ∧
      stack.filter (Frame.concerns sequence) = l.stack.filter (Frame.concerns sequence) := by
  have hne := hst.ne_of_collecting hs
  exact ⟨by simp [Table.get?_erase, hne], by simp [hs, Frame.concerns, Ne.symm hne]⟩

/-- The handler that is done is the one of the number, and goes where its messages say. -/
theorem settle {handler : Handler σ ν} {again : Bool} {stack : List (Frame σ ν)}
    (hst : Standing sequence react l arrived)
    (hs : l.stack = .replying sequence handler again :: stack) :
    Standing sequence react { l.withStack stack with
      pending := if again then l.pending.insert sequence handler else l.pending } arrived := by
  have hfirst : l.stack.filter (Frame.concerns sequence) =
      .replying sequence handler again :: stack.filter (Frame.concerns sequence) := by
    simp [hs, Frame.concerns]
  cases hst with
  | waiting hp hf ha => simp [hfirst] at hf
  | ended hp hf ha => simp [hfirst] at hf
  | gone hp hf ha => simp [hfirst] at hf
  | running before hp hf ha =>
    rw [hfirst] at hf
    obtain ⟨hframe, hrest⟩ := List.cons.inj hf
    obtain ⟨-, rfl, rfl⟩ := Frame.replying.inj hframe
    cases again with
    | true => exact .waiting (by simp [Table.get?_insert]) hrest (by simpa using ha)
    | false => exact .ended hp hrest (by simpa using ha)

/-- A transport that is taken down has no handler at work. -/
private theorem takeDown (hk : l.stack.any Frame.keeps = false) :
    Standing sequence react { l with
      asyncChannel := none, syncChannel := none, pending := [], scans := [], schedules := []
      isAlive := false } arrived := by
  have hf : l.stack.filter (Frame.concerns sequence) = [] := by
    rw [List.filter_eq_nil_iff]
    intro frame hmem
    have hplain : frame.keeps = false := by simpa using List.any_eq_false.mp hk frame hmem
    simp [Frame.concerns_of_keeps_eq_false hplain]
  exact .gone rfl hf rfl

/-- A move that does not put the number to use keeps the standing of its handler. -/
theorem move {kind : MoveKind} (hst : Standing sequence react l arrived) (hm : Move l kind l')
    (ho : ∀ new, l'.journal = new ++ l.journal → Journal.opens sequence new = false) :
    Standing sequence react l' arrived := by
  cases hm with
  | entry e he hk => exact hst.congr rfl rfl rfl
  | release => exact hst.congr rfl rfl rfl
  | subscribe scans schedules => exact hst.congr rfl rfl rfl
  | count | unsubscribe | renewSync | renewAsync | started => exact hst.congr rfl rfl rfl
  | watch descriptor hc => exact hst.congr rfl rfl rfl
  | unwatch descriptor hw => exact hst.congr rfl rfl rfl
  | push frame hk =>
    refine hst.congr rfl ?_ rfl
    simp [Ledger.withStack, Frame.concerns_of_keeps_eq_false hk]
  | pop frame stack hf hs =>
    refine hst.congr rfl ?_ rfl
    simp [Ledger.withStack, hs, Frame.concerns_of_isPlain hf]
  | fire descriptor hd => exact hst.congr rfl rfl rfl
  | read descriptor outcome hk => exact hst.congr rfl rfl rfl
  | settle other handler again stack hs =>
    by_cases hne : other = sequence
    · subst hne
      exact hst.settle hs
    · refine hst.congr ?_ ?_ rfl
      · dsimp only
        split
        · simp [Table.get?_insert, Ne.symm hne]
        · rfl
      · simp [Ledger.withStack, hs, Frame.concerns, hne]
  | register other react' hn hh =>
    have hne := ho [.registered other] rfl
    simp only [Journal.opens_cons, Event.opens, Bool.or_eq_false_iff, beq_eq_false_iff_ne] at hne
    exact hst.congr (by simp [Table.get?_insert, Ne.symm hne.1]) rfl rfl
  | begin other waiter begun descriptor count message hn hh hc =>
    have hne :=
      ho [.clockRead begun, .sent descriptor message (.ok count), .exchangeBegan other] rfl
    simp only [Journal.opens_cons, Event.opens, Bool.or_eq_false_iff, beq_eq_false_iff_ne] at hne
    refine hst.congr ?_ ?_ rfl
    · simp [Table.get?_insert, Ne.symm hne.2.2.1]
    · simp [Ledger.withStack, Frame.concerns, hne.2.2.1]
  | refuse other e entries hn hh he hs =>
    have hne :=
      ho (.exchangeEnded other (.error e) :: (entries ++ [.exchangeBegan other])) (by simp)
    simp only [Journal.opens_cons, Journal.opens_append, Event.opens, Bool.or_eq_false_iff,
      beq_eq_false_iff_ne] at hne
    exact hst.congr (by simp [Table.get?_erase, Table.get?_insert, Ne.symm hne.2.2.1]) rfl rfl
  | reject e he => exact hst.congr rfl rfl rfl
  | poll x stack now descriptor outcome hs hp hb => exact hst.congr rfl rfl rfl
  | timeout x stack now hs hp hb =>
    have hpop := hst.pop_collecting hs
    exact hst.congr hpop.1 hpop.2 rfl
  | fail x stack e hs he =>
    have hpop := hst.pop_collecting hs
    exact hst.congr hpop.1 hpop.2 rfl
  | finish x stack hs hp => exact hst.congr rfl (hst.pop_collecting hs).2 rfl
  | takeDown hh hk hw => exact takeDown hk

/-- A message of another number changes nothing. -/
theorem dispatch_other {p : Packet} (hst : Standing sequence react l arrived)
    (hd : Dispatch p l l') (hne : p.sequence ≠ sequence) : Standing sequence react l' arrived := by
  have herase : (l.pending.erase p.sequence).get? sequence = l.pending.get? sequence := by
    simp [Table.get?_erase, Ne.symm hne]
  cases hd with
  | pass rest stack hs hp => exact hst.congr rfl (by simp [Ledger.withStack, hs]) rfl
  | notify rest stack number e hs hp he =>
    exact hst.congr rfl (by simp [Ledger.withStack, hs, Frame.concerns]) rfl
  | close rest stack handler hs hp hg hd =>
    exact hst.congr herase (by simp [Ledger.withStack, hs]) rfl
  | gather rest stack number hs hp hg hd =>
    refine hst.congr_gather number p ?_ ?_ rfl
    · dsimp only
      split
      · simp [Table.get?_insert, Table.get?_erase, Ne.symm hne]
      · exact herase
    · simp [Ledger.withStack, hs, Frame.filter_concerns_map_gather]
  | call rest stack react' hs hp hg hd =>
    exact hst.congr herase (by simp [Ledger.withStack, hs, Frame.concerns, hne]) rfl

/-- A handler that is in the table waits for more messages. -/
theorem of_get?_eq_some {handler : Handler σ ν} (hst : Standing sequence react l arrived)
    (hg : l.pending.get? sequence = some handler) :
    handler = .client react ∧ l.stack.filter (Frame.concerns sequence) = [] ∧
      Packet.isAnswered arrived = false := by
  cases hst with
  | waiting hp hf ha => exact ⟨Option.some.inj (hg.symm.trans hp), hf, ha⟩
  | running again hp hf ha => simp [hp] at hg
  | ended hp hf ha => simp [hp] at hg
  | gone hp hf ha => simp [hp] at hg

/-- Without a handler in the table, and none running, the exchange is over. -/
theorem of_get?_eq_none (hst : Standing sequence react l arrived)
    (hg : l.pending.get? sequence = none) (ha : l.isAlive = true)
    (hcalm : l.stack.any (Frame.isReplying sequence) = false) :
    l.stack.filter (Frame.concerns sequence) = [] ∧ Packet.isAnswered arrived = true := by
  cases hst with
  | waiting hp hf _ => simp [hp] at hg
  | running again hp hf _ =>
    have hmem : Frame.replying sequence (.client react) again ∈ l.stack :=
      (List.mem_filter.mp (hf ▸ List.mem_singleton_self _)).1
    have := List.any_eq_false.mp hcalm _ hmem
    simp [Frame.isReplying] at this
  | ended hp hf hdone => exact ⟨hf, hdone⟩
  | gone hp hf hdead => simp [ha] at hdead

/-- A message of the number is handed to the handler and moves it on, unless the exchange is over
already. -/
theorem dispatch_own {p : Packet} (hst : Standing p.sequence react l arrived)
    (hd : Dispatch p l l') (hs : l.IsSound) (hn : p.sequence ≠ 0)
    (hcalm : l.stack.any (Frame.isReplying p.sequence) = false) :
    Standing p.sequence react l' (arrived ++ [p]) ∧ ∃ new, l'.journal = new ++ l.journal ∧
      Journal.opens p.sequence new = false ∧ Journal.arrived p.sequence new = [p] ∧
      Packet.answer (arrived ++ [p]) = Packet.answer arrived ++ Journal.handed p.sequence new := by
  cases hd with
  | pass rest stack hst' hp =>
    have hg : l.pending.get? p.sequence = none := hp.resolve_left hn
    have ha := hs.isAlive_of_keeps (by simp [hst', Frame.keeps])
    obtain ⟨hf, hdone⟩ := hst.of_get?_eq_none hg ha hcalm
    refine ⟨.ended hg ?_ ?_, [.dispatched p], rfl, rfl, ?_, ?_⟩
    · simpa [Ledger.withStack, hst'] using hf
    · simp [Packet.isAnswered_append, hdone]
    · simp [Journal.arrived_cons, Event.dispatches, Packet.withSequence_singleton]
    · simp [Packet.answer_append_of_isAnswered _ hdone, Journal.handed_cons, Event.handed]
  | notify rest stack number e hst' hp he => exact absurd hp hn
  | close rest stack handler hst' hp hg hdel =>
    obtain ⟨-, hf, hopen⟩ := hst.of_get?_eq_some hg
    have hsilent := (Packet.delivery_eq_finish_iff p).mp hdel
    refine ⟨.ended ?_ ?_ ?_, [.dispatched p], rfl, rfl, ?_, ?_⟩
    · simp [Table.get?_erase]
    · simpa [Ledger.withStack, hst'] using hf
    · simp [Packet.isAnswered_append, Packet.isTerminator_of_isSilent hsilent]
    · simp [Journal.arrived_cons, Event.dispatches, Packet.withSequence_singleton]
    · rw [Packet.answer_append_singleton p hopen]
      simp [hdel, Journal.handed_cons, Event.handed]
  | gather rest stack number hst' hp hg hdel =>
    obtain ⟨hclient, -, -⟩ := hst.of_get?_eq_some hg
    contradiction
  | call rest stack react' hst' hp hg hdel =>
    obtain ⟨hclient, hf, hopen⟩ := hst.of_get?_eq_some hg
    obtain rfl := Handler.client.inj hclient
    refine ⟨.running (p.delivery = .handOn) ?_ ?_ ?_,
      [.replied p.sequence p, .dispatched p], rfl, rfl, ?_, ?_⟩
    · simp [Table.get?_erase]
    · simp only [hst', List.filter_cons, Frame.concerns_dispatching, Bool.false_eq_true,
        if_false] at hf
      simp [Ledger.withStack, Frame.concerns, hf]
    · rw [Packet.isAnswered_append, hopen, Bool.false_or, Packet.isAnswered_singleton]
      by_cases hmore : p.delivery = .handOn
      · simp [hmore, (Packet.delivery_eq_handOn_iff p).mp hmore]
      · simpa [hmore] using mt (Packet.delivery_eq_handOn_iff p).mpr hmore
    · simp [Journal.arrived_cons, Event.dispatches, Packet.withSequence_singleton]
    · rw [Packet.answer_append_singleton p hopen]
      simp [hdel, Journal.handed_cons, Event.handed]

/-- Every dispatch keeps to the answer: what is handed to the handler is what the message adds to
the answer. -/
theorem dispatch {p : Packet} (hst : Standing sequence react l arrived) (hd : Dispatch p l l')
    (hs : l.IsSound) (hn : sequence ≠ 0)
    (hcalm : p.sequence = sequence → l.stack.any (Frame.isReplying sequence) = false) :
    ∃ new, l'.journal = new ++ l.journal ∧
      Standing sequence react l' (arrived ++ Journal.arrived sequence new) ∧
      Packet.answer (arrived ++ Journal.arrived sequence new) =
        Packet.answer arrived ++ Journal.handed sequence new := by
  by_cases hp : p.sequence = sequence
  · subst hp
    obtain ⟨hown, new, hj, -, ha, hw⟩ := hst.dispatch_own hd hs hn (hcalm rfl)
    exact ⟨new, hj, ha ▸ hown, ha ▸ hw⟩
  · obtain ⟨new, hj, hdisp, hhanded, -⟩ := hd.journal
    have ha : Journal.arrived sequence new = [] := by
      simp [Journal.arrived, hdisp, Packet.withSequence_singleton, hp]
    refine ⟨new, hj, ?_, ?_⟩
    · simpa [ha] using hst.dispatch_other hd hp
    · simp [ha, hhanded sequence hp]

end Standing

/-- Since its registration, a handler was called with the answer in the messages of its number, and
stands where they say. -/
def Ledger.Serves (sequence : UInt32) (react : Journal ν → Packet → Program σ ν)
    (start : Journal ν) (l : Ledger σ ν) : Prop :=
  ∃ since, l.journal = since ++ start ∧ (since.opens sequence = false →
    since.handed sequence = Packet.answer (since.arrived sequence) ∧
      Standing sequence react l (since.arrived sequence))

namespace Ledger.Serves

variable {sequence : UInt32} {react : Journal ν → Packet → Program σ ν} {start : Journal ν}
  {l l' : Ledger σ ν}

theorem move {kind : MoveKind} (hm : Move l kind l') (hl : l.Serves sequence react start) :
    l'.Serves sequence react start := by
  obtain ⟨since, hj, hserves⟩ := hl
  obtain ⟨new, hnew, hdisp, hhanded⟩ := hm.journal
  refine ⟨new ++ since, by rw [hnew, hj, List.append_assoc], fun ho ↦ ?_⟩
  rw [Journal.opens_append, Bool.or_eq_false_iff] at ho
  obtain ⟨ha, hst⟩ := hserves ho.2
  have harrived : Journal.arrived sequence (new ++ since) = since.arrived sequence := by
    rw [Journal.arrived_append]
    simp [Journal.arrived, hdisp]
  rw [harrived, Journal.handed_append, hhanded, List.append_nil]
  refine ⟨ha, hst.move hm fun other hother ↦ ?_⟩
  rw [List.append_cancel_right (hother.symm.trans hnew)]
  exact ho.1

theorem dispatch {p : Packet} (hd : Dispatch p l l') (hs : l.IsSound) (hn : sequence ≠ 0)
    (hcalm : p.sequence = sequence → l.stack.any (Frame.isReplying sequence) = false)
    (hl : l.Serves sequence react start) : l'.Serves sequence react start := by
  obtain ⟨since, hj, hserves⟩ := hl
  by_cases ho : since.opens sequence = false
  · obtain ⟨ha, hst⟩ := hserves ho
    obtain ⟨new, hnew, hst', ha'⟩ := hst.dispatch hd hs hn hcalm
    refine ⟨new ++ since, by rw [hnew, hj, List.append_assoc], fun _ ↦ ?_⟩
    rw [Journal.arrived_append, Journal.handed_append, ha, ha']
    exact ⟨rfl, hst'⟩
  · obtain ⟨new, hnew, -⟩ := hd.journal
    refine ⟨new ++ since, by rw [hnew, hj, List.append_assoc], fun ho' ↦ ?_⟩
    rw [Journal.opens_append, Bool.or_eq_false_iff] at ho'
    exact absurd ho'.2 ho

end Ledger.Serves

/-- A dispatch hands nothing to the handler of a number, or its message to the handler that waits
for it. -/
private theorem Dispatch.handed {p : Packet} {l l' : Ledger σ ν} (hd : Dispatch p l l')
    (sequence : UInt32) :
    l'.journal.handed sequence = l.journal.handed sequence ∨
      ∃ react, p.sequence = sequence ∧ p.sequence ≠ 0 ∧
        l.pending.get? p.sequence = some (.client react) ∧ p.delivery ≠ .finish ∧
        l'.journal.handed sequence = l.journal.handed sequence ++ [p] := by
  by_cases hp : p.sequence = sequence
  · cases hd with
    | call rest stack react hs hn hg hdel =>
      refine .inr ⟨react, hp, hn, hg, hdel, ?_⟩
      simp [Ledger.log, Ledger.withStack, Journal.handed_cons, Event.handed, hp]
    | notify rest stack number e hs hn he =>
      left
      rcases he with ⟨n, rfl⟩ | ⟨ifindex, rfl⟩
      · simp [Ledger.log, Ledger.withStack, Journal.handed_cons, Event.handed]
      · simp [Ledger.log, Ledger.withStack, Journal.handed_cons, Event.handed]
    | _ =>
      left
      simp [Ledger.log, Ledger.withStack, Journal.handed_cons, Event.handed]
  · left
    obtain ⟨new, hj, -, hother, -⟩ := hd.journal
    rw [hj, Journal.handed_append, hother sequence hp, List.append_nil]

namespace Machine

variable {h : Host σ} {m : Machine σ ν} {request : Packet}
  {react : Journal ν → Packet → Program σ ν} {next : Except Error Unit → Program σ ν}

/-- What a successful registration leaves behind. -/
private theorem register_eq_ok (hok : (m.register h request react).1 = .ok ()) :
    request.sequence ≠ 0 ∧ (m.register h request react).2.ledger.pending =
        m.transport.pending.insert request.sequence (.client react) ∧
      (m.register h request react).2.stack = m.stack := by
  unfold register at hok ⊢
  split at hok
  · contradiction
  · split at hok
    · contradiction
    · next hdump hn =>
      simp only [hdump, hn, if_false, Bool.false_eq_true]
      cases hc : m.transport.asyncChannel with
      | none => simp [send, hc] at hok
      | some descriptor =>
        simp only [send, hc] at hok ⊢
        split at hok
        · contradiction
        · next m' he =>
          obtain ⟨-, rfl⟩ := Prod.mk.inj he
          exact ⟨hn, rfl, rfl⟩

/-- The handler of a number that is registered for the first time waits for its messages. -/
private theorem standing_register (hc : m.control = .run (.register request react next))
    (hh : m.transport.isHeld = true) (hok : (m.register h request react).1 = .ok ())
    (hfresh : m.ledger.IsUntouched request.sequence) :
    request.sequence ≠ 0 ∧ Standing request.sequence react (m.step h).ledger [] := by
  obtain ⟨hn, hpending, hstack⟩ := register_eq_ok hok
  have hab : m.isAbandoned = false := by simp [isAbandoned, hh]
  have hstep : m.step h = (m.register h request react).2.run (next (.ok ())) := by
    simp only [step, hab, hc, hh, Bool.not_true, Bool.and_false, Bool.false_eq_true, if_false, call]
    rw [← hok]
  refine ⟨hn, .waiting ?_ ?_ rfl⟩
  · rw [hstep]
    exact hpending ▸ by simp [Table.get?_insert]
  · rw [hstep]
    have hs : (m.register h request react).2.stack.any (Frame.concerns request.sequence) = false :=
      hstack ▸ hfresh.stack
    rw [List.filter_eq_nil_iff]
    exact List.any_eq_false.mp hs

/-- A message that the table has a handler for is handed to that handler. -/
private theorem control_step_of_call {p : Packet} (hd : m.due? = some p) (hn : p.sequence ≠ 0)
    (hg : m.transport.pending.get? p.sequence = some (.client react))
    (hdel : p.delivery ≠ .finish) :
    (m.step h).control = .run (react (m.step h).journal p) := by
  obtain ⟨rest, stack, -, hstep⟩ := step_of_due h hd
  rw [hstep]
  unfold dispatch
  simp only [hn, if_false]
  unfold dispatchReply
  simp only [log, hg]
  cases hk : p.delivery with
  | finish => exact absurd hk hdel
  | handOn => rfl
  | handLast => rfl

/-- A step hands nothing to the handler of a number, or the message that is due to the handler that
waits for it. -/
private theorem handed_step (sequence : UInt32) :
    (m.step h).journal.handed sequence = m.journal.handed sequence ∨
      ∃ p react, m.due? = some p ∧ p.sequence = sequence ∧
        m.transport.pending.get? sequence = some (.client react) ∧
        (m.step h).journal.handed sequence = m.journal.handed sequence ++ [p] ∧
        (m.step h).control = .run (react (m.step h).journal p) := by
  cases hd : m.due? with
  | none =>
    left
    refine (m.moves_step h hd).preserve
      (I := fun l ↦ l.journal.handed sequence = m.journal.handed sequence) ?_ rfl
    intro _ l l' hm hl
    obtain ⟨new, hj, -, hhanded⟩ := hm.journal
    rw [hj, Journal.handed_append, hhanded, List.append_nil, hl]
  | some p =>
    rcases (m.dispatch_step h hd).handed sequence with hsame | ⟨react, hp, hn, hg, hdel, hmore⟩
    · exact .inl hsame
    · exact .inr ⟨p, react, rfl, hp, hp ▸ hg, hmore, control_step_of_call hd hn hg hdel⟩

end Machine

namespace Standing

variable {sequence : UInt32} {react : Journal ν → Packet → Program σ ν} {m : Machine σ ν}
  {arrived : List Packet}

/-- A number has its handler in the table exactly if the transport is there, its messages have no
terminator yet, and the handler is not running. -/
theorem pending_eq (hst : Standing sequence react m.ledger arrived) (hs : m.ledger.IsSound) :
    m.transport.pending.get? sequence =
      if m.transport.isAlive && !Packet.isAnswered arrived && !m.isReplying sequence
      then some (.client react) else none := by
  change m.ledger.pending.get? sequence = _
  have hcalm (hf : m.stack.filter (Frame.concerns sequence) = []) :
      m.isReplying sequence = false := by
    apply List.any_eq_false.mpr
    intro frame hmem hreplying
    have hc := List.filter_eq_nil_iff.mp hf frame hmem
    cases frame <;> simp_all [Frame.isReplying, Frame.concerns]
  cases hst with
  | waiting hp hf ha =>
    have halive : m.transport.isAlive = true := by
      cases hdead : m.transport.isAlive with
      | true => rfl
      | false =>
        rw [hs.pending_of_not_isAlive hdead] at hp
        contradiction
    simpa [halive, ha, hcalm hf] using hp
  | running again hp hf ha =>
    have hmem : Frame.replying sequence (.client react) again ∈ m.stack :=
      (List.mem_filter.mp (hf ▸ List.mem_singleton_self _)).1
    have hreplying : m.isReplying sequence = true :=
      List.any_eq_true.mpr ⟨_, hmem, by simp [Frame.isReplying]⟩
    simpa [hreplying] using hp
  | ended hp hf ha => simpa [ha] using hp
  | gone hp hf ha =>
    have hdead : m.transport.isAlive = false := ha
    simpa [hdead] using hp

end Standing

/-- A handler that is registered for a number that was not in use is called with the messages of the
number that are dispatched from then on, up to the first terminator, and with nothing else. It waits
in the table until then, but for the time it runs. -/
theorem Reachable.handed_eq_answer {h : Host σ} {config : Config} {port : UInt32}
    {m₀ m : Machine σ ν} {request : Packet} {react : Journal ν → Packet → Program σ ν}
    {next : Except Error Unit → Program σ ν} (hr : Reachable h config port m₀)
    (hc : m₀.control = .run (.register request react next)) (hh : m₀.transport.isHeld = true)
    (hok : (m₀.register h request react).1 = .ok ())
    (hfresh : m₀.journal.opens request.sequence = false)
    (hrun : Run h (Machine.IsCalm request.sequence) (m₀.step h) m) :
    (m.journal.dispatched ++ m.waiting).Perm m.journal.accepted ∧
    ∃ since, m.journal = since ++ (m₀.step h).journal ∧ (since.opens request.sequence = false →
      since.handed request.sequence = Packet.answer (since.arrived request.sequence) ∧
      m.transport.pending.get? request.sequence =
        (if m.transport.isAlive && !Packet.isAnswered (since.arrived request.sequence) &&
          !m.isReplying request.sequence then some (.client react) else none) ∧
      ((m.step h).journal.handed request.sequence = m.journal.handed request.sequence ∨
        ∃ p, m.due? = some p ∧ p.sequence = request.sequence ∧
          (m.step h).journal.handed request.sequence =
            m.journal.handed request.sequence ++ [p] ∧
          (m.step h).control = .run (react (m.step h).journal p))) := by
  obtain ⟨hn, hstart⟩ := Machine.standing_register hc hh hok (hr.isUntouched hfresh)
  obtain ⟨hs, since, hj, hserves⟩ := hrun.preserve
    (I := Ledger.Serves request.sequence react (m₀.step h).journal) hr.step.isSound
    ⟨[], rfl, fun _ ↦ ⟨rfl, hstart⟩⟩ (fun _ hm hl ↦ hl.move hm)
    fun hs hcalm hdue hd hl ↦ hl.dispatch hd hs hn (hcalm _ hdue)
  refine ⟨(hr.step.run hrun).conserves, since, hj, fun ho ↦ ?_⟩
  obtain ⟨ha, hst⟩ := hserves ho
  refine ⟨ha, hst.pending_eq hs, ?_⟩
  rcases Machine.handed_step (h := h) request.sequence with
    hsame | ⟨p, react', hd, hp, hg, hh', hc'⟩
  · exact .inl hsame
  · obtain ⟨hclient, -, -⟩ := hst.of_get?_eq_some hg
    obtain rfl := Handler.client.inj hclient
    exact .inr ⟨p, hd, hp, hh', hc'⟩

/-! ### A handler that is called during an exchange -/

/-- A kernel that answers the second request with parts of two answers. -/
def sharingKernel : ScriptedKernel :=
  answeringKernel [⟨.ok none, [], []⟩,
    ⟨.ok none, [.datagram ((Packet.part 7).toBytes ++ (Packet.ending 8).toBytes)], []⟩]

/-- Client code that is about to register a handler, and to begin an exchange after that. -/
def sharingMachine : Machine ScriptedKernel Unit :=
  ((Machine.fresh .standard 0 sharingKernel).run (.start fun _ ↦
    .register (.request 28 5 7 0) (fun _ _ ↦ .done) fun _ ↦
      .collect (.request 28 5 8 0) fun _ ↦ .done)).step ScriptedKernel.host

/-- The exchange has begun, and its datagram has a message for the handler. -/
def sharedMachine : Machine ScriptedKernel Unit :=
  (((sharingMachine.step ScriptedKernel.host).step ScriptedKernel.host).step
    ScriptedKernel.host).step ScriptedKernel.host

/-- A handler is called with its message while an exchange goes on. -/
theorem handed_sharedMachine :
    sharedMachine.journal.handed 7 = [.part 7] ∧
      (sharedMachine.journal.dispatched ++ sharedMachine.waiting).Perm
        sharedMachine.journal.accepted ∧
      ∃ since, sharedMachine.journal =
          since ++ (sharingMachine.step ScriptedKernel.host).journal ∧
        (since.opens 7 = false → since.handed 7 = Packet.answer (since.arrived 7)) := by
  refine ⟨by cbv, ?_⟩
  obtain ⟨hperm, since, hj, hsince⟩ := @Reachable.handed_eq_answer _ _ ScriptedKernel.host
    .standard 0 sharingMachine sharedMachine (.request 28 5 7 0) (fun _ _ ↦ .done)
    (fun _ ↦ .collect (.request 28 5 8 0) fun _ ↦ .done)
    ⟨sharingKernel, .step (.enter _ .refl rfl) trivial⟩ (by cbv) (by cbv) (by cbv) (by cbv)
    (((Run.refl.step fun _ _ _ ↦ by cbv).step fun _ _ _ ↦ by cbv).step fun _ _ _ ↦ by cbv)
  exact ⟨hperm, since, hj, fun ho ↦ (hsince ho).1⟩

end WifiNetlink
