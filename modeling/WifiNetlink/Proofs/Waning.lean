import WifiNetlink.Proofs.Answer
import WifiNetlink.Proofs.Traffic

/-!
# Steps after the last handle is dropped

A transport owes a handler a call if one of the messages that wait on the stack reaches it, which
can be told from the tables and the stack. After the last handle is dropped a step is of one of a
few kinds; none brings a handle back or begins an exchange, and until a datagram is read no handler
is called that is not owed a call.
-/

namespace WifiNetlink

variable {σ ν : Type}

namespace Event

/-- Whether an attempt to receive was made. -/
def isReading : Event ν → Bool
  | received .. => true
  | _ => false

end Event

namespace Transport

/-- Whether a subscription has a handler that does not run in any of the frames. -/
def isFree {α : Type} (stack : List (Frame σ ν)) : Option (Subscription σ ν α) → Bool
  | none => false
  | some s => !stack.any (Frame.notifies s.number)

/-- Whether a handler is called with a message that is dispatched above the frames. -/
def hears (t : Transport σ ν) (stack : List (Frame σ ν)) (p : Packet) : Bool :=
  if p.sequence = 0 then
    match t.family?.bind fun family ↦ Notice.ofPacket? family.id p with
    | none => false
    | some (.scan n) => isFree stack (t.scans.get? n.ifindex)
    | some (.schedule ifindex) => isFree stack (t.schedules.get? ifindex)
  else
    match t.pending.get? p.sequence with
    | some (.client _) => p.delivery != .finish
    | _ => false

/-- The transport after a message that no handler is called with. -/
def after (t : Transport σ ν) (p : Packet) : Transport σ ν :=
  if p.sequence = 0 then t
  else
    match t.pending.get? p.sequence with
    | none => t
    | some handler =>
      if p.delivery = .handOn then (t.forget p.sequence).expect p.sequence handler
      else t.forget p.sequence

@[simp] theorem isHeld_after (t : Transport σ ν) (p : Packet) :
    (t.after p).isHeld = t.isHeld := by
  unfold after
  split
  · rfl
  · split
    · rfl
    · split <;> rfl

/-- Whether a handler is called with one of the messages of a row. -/
def reaches (stack : List (Frame σ ν)) : Transport σ ν → List Packet → Bool
  | _, [] => false
  | t, p :: rest => t.hears stack p || (t.after p).reaches stack rest

/-- Whether a handler is called with one of the messages that wait in the frames. -/
def owes : Transport σ ν → List (Frame σ ν) → Bool
  | _, [] => false
  | t, .dispatching rest :: stack =>
    t.reaches stack rest || (rest.foldl after t).owes stack
  | t, .replying sequence handler again :: stack =>
    (if again then t.expect sequence handler else t).owes stack
  | t, _ :: stack => t.owes stack

/-- Where no code of a transport is at work, no messages wait. -/
theorem owes_of_not_keeps (t : Transport σ ν) {stack : List (Frame σ ν)}
    (hk : stack.any Frame.keeps = false) : t.owes stack = false := by
  induction stack with
  | nil => rfl
  | cons frame stack ih =>
    rw [List.any_cons, Bool.or_eq_false_iff] at hk
    cases frame <;> simp_all [Frame.keeps, owes]

/-- A frame without messages that runs no handler of a request. -/
theorem owes_cons_of_isPlain (t : Transport σ ν) {frame : Frame σ ν} (stack : List (Frame σ ν))
    (hf : frame.isPlain = true) : t.owes (frame :: stack) = t.owes stack := by
  cases frame with
  | dispatching rest => cases rest <;> simp_all [Frame.isPlain, owes, reaches]
  | _ => simp_all [Frame.isPlain, owes]

end Transport

/-- Whether an exchange waits in the frame. -/
def Frame.isCollecting : Frame σ ν → Bool
  | collecting _ => true
  | _ => false

/-- Without exchanges nothing is gathered. -/
theorem Frame.map_gather_of_not_isCollecting {stack : List (Frame σ ν)}
    (hs : stack.any Frame.isCollecting = false) (number : Nat) (p : Packet) :
    stack.map (Frame.gather number p) = stack := by
  induction stack with
  | nil => rfl
  | cons frame stack ih =>
    rw [List.any_cons, Bool.or_eq_false_iff] at hs
    rw [List.map_cons, ih hs.2]
    cases frame <;> simp_all [isCollecting, gather]

namespace Machine

/-- Whether a handler is called with one of the messages that wait. -/
def owes (m : Machine σ ν) : Bool := m.transport.owes m.stack

/-- What is known after the last handle is dropped. An exchange borrows the handle that it was begun
with, so none goes on. -/
structure IsReleased (m : Machine σ ν) : Prop where
  isHeld : m.transport.isHeld = false
  stack : m.stack.any Frame.isCollecting = false

/-- Whether nothing was read and no handler was called in between. -/
def QuietUntil : Machine σ ν → Machine σ ν → Prop :=
  Adds fun e ↦ e.isCall = false ∧ e.isReading = false

/-- What a step of a machine does whose last handle was dropped. -/
inductive Wanes (m m' : Machine σ ν) : Prop where
  /-- Client code goes on. -/
  | client (ht : m'.transport = m.transport) (hw : m'.watches = m.watches)
    (hs : m'.stack = m.stack) (hj : m.QuietUntil m') (hc : m.control = .resume → m.stack = [])
  /-- Client code waits. -/
  | await (v : Vigil σ ν) (ht : m'.transport = m.transport) (hw : m'.watches = m.watches)
    (hs : m'.stack = .awaiting v :: m.stack) (hj : m.QuietUntil m') (hc : m.control ≠ .resume)
  | pop (frame : Frame σ ν) (hf : frame.isPlain = true) (ht : m'.transport = m.transport)
    (hw : m'.watches = m.watches) (hs : m.stack = frame :: m'.stack) (hj : m.QuietUntil m')
  /-- A handler is done. -/
  | settle (sequence : UInt32) (handler : Handler σ ν) (again : Bool)
    (ht : m'.transport = if again then m.transport.expect sequence handler else m.transport)
    (hw : m'.watches = m.watches) (hs : m.stack = .replying sequence handler again :: m'.stack)
    (hj : m.QuietUntil m')
  /-- A message is dispatched that no handler is called with. -/
  | pass (p : Packet) (rest : List Packet) (stack : List (Frame σ ν))
    (hs : m.stack = .dispatching (p :: rest) :: stack) (hp : m.transport.hears stack p = false)
    (ht : m'.transport = m.transport.after p) (hw : m'.watches = m.watches)
    (hs' : m'.stack = .dispatching rest :: stack) (hj : m.QuietUntil m')
  /-- A handler is called. -/
  | call (p : Packet) (rest : List Packet) (stack : List (Frame σ ν)) (frame : Frame σ ν)
    (hs : m.stack = .dispatching (p :: rest) :: stack) (hp : m.transport.hears stack p = true)
    (hf : frame.isCollecting = false) (hm : frame.messages = [])
    (hh : m'.transport.isHeld = m.transport.isHeld) (hw : m'.watches = m.watches)
    (hs' : m'.stack = frame :: .dispatching rest :: stack)
    (hj : ∃ e, e.isCall = true ∧ m'.journal = e :: .dispatched p :: m.journal)
  /-- The callback of a watch begins. -/
  | fire (descriptor : Nat) (ha : m.isAbandoned = false) (hd : descriptor ∈ m.watches)
    (hf : m.stack.any (Frame.fires descriptor) = false)
    (hh : m'.transport.isHeld = m.transport.isHeld)
    (hs : m'.stack.any Frame.isCollecting = m.stack.any Frame.isCollecting)
    (hj : ∃ new, m'.journal = new ++ m.journal ∧ new.any Event.isReading = true)
  /-- The transport is taken down. -/
  | tearDown (hk : m.stack.any Frame.keeps = false)
    (hh : m'.transport.isHeld = m.transport.isHeld) (hw : m'.watches = [])
    (hs : m'.stack = m.stack) (hj : m.QuietUntil m')

variable (h : Host σ) {m m' : Machine σ ν}

/-- A callback that can begin begins with an attempt to receive. -/
private theorem fireWatch_eq (descriptor : Nat) {channel : Nat}
    (hc : m.transport.asyncChannel = some channel) :
    ∃ outcome, (m.fireWatch h descriptor).journal = .received channel outcome :: m.journal ∧
      (m.fireWatch h descriptor).transport = m.transport ∧
      (m.fireWatch h descriptor).stack.any Frame.isCollecting =
        m.stack.any Frame.isCollecting := by
  unfold fireWatch
  rcases hr : h.receive channel m.transport.config.receiveBufferSize m.world with ⟨outcome, world⟩
  simp only [receive, push, hc, hr, after]
  refine ⟨outcome, ?_⟩
  cases messagesOf outcome with
  | error e => exact ⟨rfl, rfl, rfl⟩
  | ok packets => exact ⟨rfl, rfl, rfl⟩

/-- Client code that needs no handle. -/
private theorem wanes_call {program : Program σ ν} (hs : m.ledger.IsSound)
    (hab : m.isAbandoned = false) (hc : m.control = .run program)
    (hn : program.needsHandle = false) : m.Wanes (m.call h program) := by
  have hrun : m.control = .resume → m.stack = [] := by
    intro hr
    rw [hc] at hr
    contradiction
  cases program with
  | done => exact .client rfl rfl rfl (Adds.refl rfl) hrun
  | note note next => exact .client rfl rfl rfl (Adds.single rfl ⟨rfl, rfl⟩) hrun
  | meanwhile change next => exact .client rfl rfl rfl (Adds.refl rfl) hrun
  | isHeld next => exact .client rfl rfl rfl (Adds.refl rfl) hrun
  | fire descriptor next =>
    simp only [call]
    split
    · next hf =>
      obtain ⟨hd, hb⟩ := of_canFire hf
      have hwatched := hs.asyncChannel_of_watched descriptor (hs.watched_of_mem descriptor hd)
      obtain ⟨outcome, hj, ht, hst⟩ :=
        fireWatch_eq h (m := m.push (.returning (next .fired))) descriptor hwatched
      exact .fire descriptor hab hd hb (congrArg Transport.isHeld ht)
        (hst.trans (by simp [push, Frame.isCollecting])) ⟨[_], hj, rfl⟩
    · exact .client rfl rfl rfl (Adds.refl rfl) hrun
  | await wanted budget next =>
    refine .await _ rfl rfl rfl (Adds.single rfl ⟨rfl, rfl⟩) ?_
    rw [hc]
    simp
  | _ => simp [Program.needsHandle] at hn

/-- Client code that waits for the event loop. -/
private theorem wanes_turnVigil {v : Vigil σ ν} {m₀ : Machine σ ν}
    (hs : m.ledger.IsSound) (hab : m₀.isAbandoned = false)
    (hm : m₀ = { m with stack := .awaiting v :: m.stack }) :
    m₀.Wanes (m.turnVigil h v) := by
  subst hm
  unfold turnVigil
  by_cases hg : (v.wanted m.journal && !v.isDraining) = true
  · simp only [hg, if_true]
    exact .pop (.awaiting v) rfl rfl rfl rfl (Adds.refl rfl)
  · rcases hn : h.now m.world with ⟨instant, world⟩
    simp only [hg, Bool.false_eq_true, if_false, readClock, hn]
    generalize (if v.wanted m.journal = true then some 0
      else v.budget.map (· - (instant - v.begun))) = timeout
    rcases ha : h.await m.watches timeout world with ⟨readable, world'⟩
    simp only [after, ha]
    have hquiet : ∀ e ∈ [Event.awaited timeout readable, .clockRead instant],
        e.isCall = false ∧ (e : Event ν).isReading = false := by
      simp [Event.isCall, Event.isReading]
    split
    · exact .pop (.awaiting v) rfl rfl rfl rfl ⟨_, rfl, hquiet⟩
    · next descriptor =>
      split
      · next hf =>
        obtain ⟨hd, hb⟩ := of_canFire hf
        have hd : descriptor ∈ m.watches := hd
        have hwatched := hs.asyncChannel_of_watched descriptor (hs.watched_of_mem descriptor hd)
        let waiting : Machine σ ν := ((m.after world (.clockRead instant)).after world'
          (.awaited timeout (some descriptor))).push (.awaiting { v with isDraining := true })
        obtain ⟨outcome, hj, ht, hst⟩ := fireWatch_eq h (m := waiting) descriptor hwatched
        exact .fire descriptor hab hd (by simpa [Frame.fires] using hb)
          (congrArg Transport.isHeld ht)
          (hst.trans (by simp [waiting, after, push, Frame.isCollecting])) ⟨[_, _, _], hj, rfl⟩
      · exact .pop (.awaiting v) rfl rfl rfl rfl ⟨_, rfl, hquiet⟩

private theorem watches_closeChannel (channel : Option Nat) (m : Machine σ ν) :
    (m.closeChannel h channel).watches = m.watches := by
  cases channel <;> rfl

private theorem quiet_closeChannel (channel : Option Nat) (m : Machine σ ν) :
    m.QuietUntil (m.closeChannel h channel) := by
  cases channel with
  | none => exact Adds.refl rfl
  | some descriptor => exact Adds.single rfl ⟨rfl, rfl⟩

/-- Nothing else is watched. -/
private theorem watches_stopWatching (hs : m.ledger.IsSound) : (m.stopWatching h).watches = [] := by
  have hmem := hs.watched_of_mem
  unfold stopWatching
  split
  · next hw =>
    apply List.eq_nil_iff_forall_not_mem.mpr
    intro descriptor hd
    have := hw.symm.trans (hmem descriptor hd)
    contradiction
  · next descriptor hw =>
    apply List.filter_eq_nil_iff.mpr
    intro other ho
    have := Option.some.inj (hw.symm.trans (hmem other ho))
    simp [this]

private theorem quiet_stopWatching : m.QuietUntil (m.stopWatching h) := by
  unfold stopWatching
  split
  · exact Adds.refl rfl
  · exact Adds.single rfl ⟨rfl, rfl⟩

/-- The end of a transport. -/
private theorem wanes_tearDown (hs : m.ledger.IsSound) (ha : m.isAbandoned = true) :
    m.Wanes (m.tearDown h) := by
  simp only [isAbandoned, Bool.and_eq_true, Bool.not_eq_true'] at ha
  have hquiet := Adds.trans (quiet_stopWatching h)
    (quiet_closeChannel h m.transport.asyncChannel (m.stopWatching h))
  refine .tearDown ha.2 ?_ ?_ ?_ (Adds.trans hquiet
    (quiet_closeChannel h m.transport.syncChannel
      ((m.stopWatching h).closeChannel h m.transport.asyncChannel)))
  · simp only [tearDown, adjust, transport_closeChannel, transport_stopWatching]
  · simp only [tearDown, adjust, watches_closeChannel, watches_stopWatching h hs]
  · simp only [tearDown, adjust, stack_closeChannel, stack_stopWatching]

/-- A subscription's handler is called if it is not running. -/
private theorem notify_eq {α : Type} {p : Packet} {rest : List Packet} {stack : List (Frame σ ν)}
    (hst : m.stack = .dispatching (p :: rest) :: stack)
    (subscription : Option (Subscription σ ν α)) (value : α) (event : Nat → Event ν)
    (he : ∀ number, (event number).isCall = true)
    (hp : m.transport.hears stack p = Transport.isFree stack subscription)
    (ha : m.transport.after p = m.transport) :
    m.Wanes ((({ m with stack := .dispatching rest :: stack } : Machine σ ν).log
      (.dispatched p)).notify subscription value event) := by
  unfold notify
  split
  · exact .pass p rest stack hst (hp.trans rfl) ha.symm rfl rfl (Adds.single rfl ⟨rfl, rfl⟩)
  · next s =>
    split
    · next hb =>
      refine .pass p rest stack hst (hp.trans ?_) ha.symm rfl rfl (Adds.single rfl ⟨rfl, rfl⟩)
      simpa [Transport.isFree, log, Frame.notifies] using hb
    · next hb =>
      refine .call p rest stack (.notifying s.number) hst (hp.trans ?_) rfl rfl rfl rfl rfl
        ⟨event s.number, he s.number, rfl⟩
      simpa [Transport.isFree, log, Frame.notifies] using hb

/-- A message that is dispatched after the last handle was dropped. -/
private theorem wanes_dispatch {p : Packet} {rest : List Packet} {stack : List (Frame σ ν)}
    (hst : m.stack = .dispatching (p :: rest) :: stack)
    (hcol : stack.any Frame.isCollecting = false) :
    m.Wanes (({ m with stack := .dispatching rest :: stack } : Machine σ ν).dispatch p) := by
  unfold dispatch
  by_cases hp : p.sequence = 0
  · have ha : m.transport.after p = m.transport := by simp [Transport.after, hp]
    simp only [hp, if_true]
    unfold dispatchMulticast
    split
    · next hn =>
      refine .pass p rest stack hst ?_ ha.symm rfl rfl (Adds.single rfl ⟨rfl, rfl⟩)
      have hn : (m.transport.family?.bind fun family ↦ Notice.ofPacket? family.id p) = none := hn
      simp [Transport.hears, hp, hn]
    · next n hn =>
      have hn : (m.transport.family?.bind fun family ↦ Notice.ofPacket? family.id p) =
        some (.scan n) := hn
      refine notify_eq hst _ n _ (fun _ ↦ rfl) ?_ ha
      simp only [Transport.hears, hp, hn, if_true]
      rfl
    · next ifindex hn =>
      have hn : (m.transport.family?.bind fun family ↦ Notice.ofPacket? family.id p) =
        some (.schedule ifindex) := hn
      refine notify_eq hst _ ifindex _ (fun _ ↦ rfl) ?_ ha
      simp only [Transport.hears, hp, hn, if_true]
      rfl
  · simp only [hp, if_false]
    unfold dispatchReply
    split
    · next hg =>
      have hg : m.transport.pending.get? p.sequence = none := hg
      have ha : m.transport.after p = m.transport := by simp [Transport.after, hg]
      exact .pass p rest stack hst (by simp [Transport.hears, hp, hg]) ha.symm rfl rfl
        (Adds.single rfl ⟨rfl, rfl⟩)
    · next handler hg =>
      have hg : m.transport.pending.get? p.sequence = some handler := hg
      cases handler with
      | gather number =>
        have hears : m.transport.hears stack p = false := by simp [Transport.hears, hp, hg]
        have hmap := Frame.map_gather_of_not_isCollecting hcol number p
        cases hdel : p.delivery with
        | finish =>
          exact .pass p rest stack hst hears (by simp [Transport.after, hp, hg, hdel]; rfl) rfl rfl
            (Adds.single rfl ⟨rfl, rfl⟩)
        | handOn =>
          exact .pass p rest stack hst hears (by simp [Transport.after, hp, hg, hdel]; rfl) rfl
            (by simp [reply, adjust, log, Frame.gather, hmap]; rfl) (Adds.single rfl ⟨rfl, rfl⟩)
        | handLast =>
          exact .pass p rest stack hst hears (by simp [Transport.after, hp, hg, hdel]; rfl) rfl
            (by simp [reply, adjust, log, Frame.gather, hmap]; rfl) (Adds.single rfl ⟨rfl, rfl⟩)
      | client react =>
        cases hdel : p.delivery with
        | finish =>
          exact .pass p rest stack hst (by simp [Transport.hears, hp, hg, hdel])
            (by simp [Transport.after, hp, hg, hdel]; rfl) rfl rfl (Adds.single rfl ⟨rfl, rfl⟩)
        | handOn =>
          exact .call p rest stack (.replying p.sequence (.client react) true) hst
            (by simp [Transport.hears, hp, hg, hdel]) rfl rfl rfl rfl rfl ⟨_, rfl, rfl⟩
        | handLast =>
          exact .call p rest stack (.replying p.sequence (.client react) false) hst
            (by simp [Transport.hears, hp, hg, hdel]) rfl rfl rfl rfl rfl ⟨_, rfl, rfl⟩

/-- What every step does after the last handle was dropped. -/
theorem step_wanes (hs : m.ledger.IsSound) (hr : m.IsReleased) : m.Wanes (m.step h) := by
  obtain ⟨hheld, hcol⟩ := hr
  unfold step
  by_cases hab : m.isAbandoned = true
  · simp only [hab, if_true]
    exact wanes_tearDown h hs hab
  · simp only [hab, Bool.false_eq_true, if_false]
    cases hc : m.control with
    | run program =>
      simp only [hheld, Bool.not_false, Bool.and_true]
      split
      · exact .client rfl rfl rfl (Adds.refl rfl) (by simp [hc])
      · next hn => exact wanes_call h hs (by simpa using hab) hc (by simpa using hn)
    | resume =>
      simp only
      cases hst : m.stack with
      | nil => exact .client rfl rfl rfl (Adds.refl rfl) fun _ ↦ hst
      | cons frame stack =>
        have hpop (hf : frame.isPlain = true) (control : Control σ ν) :
            m.Wanes { m with stack, control } := .pop frame hf rfl rfl hst (Adds.refl rfl)
        cases frame with
        | collecting x => simp [hst, Frame.isCollecting] at hcol
        | dispatching rest =>
          cases rest with
          | nil => exact hpop rfl _
          | cons p rest =>
            have hcol' : stack.any Frame.isCollecting = false := by
              simpa [hst, Frame.isCollecting] using hcol
            exact wanes_dispatch hst hcol'
        | replying sequence handler again =>
          cases again with
          | true => exact .settle sequence handler true rfl rfl hst (Adds.refl rfl)
          | false => exact .settle sequence handler false rfl rfl hst (Adds.refl rfl)
        | notifying subscription => exact hpop rfl _
        | firing descriptor => exact hpop rfl _
        | returning program => exact hpop rfl _
        | awaiting v =>
          have hs' := hs.move (.pop m.ledger (.awaiting v) stack rfl hst)
          exact wanes_turnVigil h hs' (by simpa using hab) (by rw [← hst, ← hc])

/-- No handle comes back, and no exchange begins. -/
theorem IsReleased.step (hr : m.IsReleased) (hs : m.ledger.IsSound) : (m.step h).IsReleased := by
  obtain ⟨hheld, hcol⟩ := hr
  cases step_wanes h hs ⟨hheld, hcol⟩ with
  | client ht hw hst hj hc => exact ⟨by rw [ht, hheld], by rw [hst, hcol]⟩
  | await v ht hw hst hj hc =>
    exact ⟨by rw [ht, hheld], by simpa [hst, Frame.isCollecting] using hcol⟩
  | pop frame hf ht hw hst hj =>
    rw [hst, List.any_cons, Bool.or_eq_false_iff] at hcol
    exact ⟨by rw [ht, hheld], hcol.2⟩
  | settle sequence handler again ht hw hst hj =>
    rw [hst, List.any_cons, Bool.or_eq_false_iff] at hcol
    refine ⟨?_, hcol.2⟩
    rw [ht]
    split <;> exact hheld
  | pass p rest stack hst hp ht hw hst' hj =>
    rw [hst, List.any_cons, Bool.or_eq_false_iff] at hcol
    refine ⟨?_, by simpa [hst', Frame.isCollecting] using hcol.2⟩
    rw [ht, Transport.isHeld_after, hheld]
  | call p rest stack frame hst hp hf hm hh hw hst' hj =>
    rw [hst, List.any_cons, Bool.or_eq_false_iff] at hcol
    refine ⟨hh.trans hheld, ?_⟩
    rw [hst', List.any_cons, List.any_cons, hf, hcol.2]
    rfl
  | fire descriptor hab hd hf hh hst hj => exact ⟨hh.trans hheld, hst.trans hcol⟩
  | tearDown hk hh hw hst hj => exact ⟨hh.trans hheld, by rw [hst, hcol]⟩

/-- Until a datagram is read or a handler is called, what is owed stays the same; a handler is
called only if that is owed. -/
theorem owes_step (hr : m.IsReleased) (hs : m.ledger.IsSound) :
    (m.QuietUntil (m.step h) ∧ (m.step h).owes = m.owes) ∨
      (∃ new, (m.step h).journal = new ++ m.journal ∧ new.any Event.isCall = true ∧
        m.owes = true) ∨
      ∃ new, (m.step h).journal = new ++ m.journal ∧ new.any Event.isReading = true := by
  have howes {m m' : Machine σ ν} {frame : Frame σ ν} (hf : frame.isPlain = true)
      (ht : m'.transport = m.transport) (hst : m.stack = frame :: m'.stack) : m'.owes = m.owes := by
    rw [owes, owes, hst, ht, Transport.owes_cons_of_isPlain _ _ hf]
  cases step_wanes h hs hr with
  | client ht hw hst hj hc => exact .inl ⟨hj, by rw [owes, owes, ht, hst]⟩
  | await v ht hw hst hj hc =>
    have hsame : m.owes = (m.step h).owes := howes rfl ht.symm hst
    exact .inl ⟨hj, hsame.symm⟩
  | pop frame hf ht hw hst hj => exact .inl ⟨hj, howes hf ht hst⟩
  | settle sequence handler again ht hw hst hj =>
    exact .inl ⟨hj, by rw [owes, owes, ht, hst, Transport.owes]⟩
  | pass p rest stack hst hp ht hw hst' hj =>
    refine .inl ⟨hj, ?_⟩
    simp only [owes, ht, hst, hst', Transport.owes, Transport.reaches, hp, Bool.false_or,
      List.foldl_cons]
  | call p rest stack frame hst hp hf hm hh hw hst' hj =>
    obtain ⟨e, he, hj⟩ := hj
    refine .inr (.inl ⟨[e, .dispatched p], hj, by simp [he], ?_⟩)
    simp [owes, hst, Transport.owes, Transport.reaches, hp]
  | fire descriptor hab hd hf hh hst hj => exact .inr (.inr hj)
  | tearDown hk hh hw hst hj =>
    refine .inl ⟨hj, ?_⟩
    rw [owes, owes, Transport.owes_of_not_keeps _ hk,
      Transport.owes_of_not_keeps _ (hst ▸ hk)]

end Machine

end WifiNetlink
