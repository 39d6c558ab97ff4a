import Mathlib
import WifiNetlink.Proofs.Waning

/-!
# After the last handle is dropped

A handler may drop the last handle of its transport while messages of its datagram wait. They are
still dispatched, and the transport is taken down after them. Main statement: a handler is called
after the drop exactly if one of the messages that wait reaches one.
-/

namespace WifiNetlink

variable {σ ν : Type}

namespace Machine

variable (h : Host σ) {m m' : Machine σ ν}

/-- Whether no callback can begin while code of the transport is at work: the callback of each watch
runs, and everything at work runs inside it. -/
def IsDeaf (m : Machine σ ν) : Prop :=
  m.stack.any Frame.keeps = false ∨ ∀ descriptor ∈ m.watches, ∃ above below,
    m.stack = above ++ .firing descriptor :: below ∧ below.any Frame.keeps = false

namespace IsDeaf

/-- No callback begins in a deaf machine. -/
theorem not_fire (hd : m.IsDeaf) (hs : m.ledger.IsSound) (hr : m.IsReleased)
    (hab : m.isAbandoned = false) {descriptor : Nat} (hw : descriptor ∈ m.watches) :
    m.stack.any (Frame.fires descriptor) = true := by
  rcases hd with hk | hall
  · -- Nothing is at work and the transport is not to be taken down, so it was taken down.
    have hdead : m.transport.isAlive = false := by
      simpa [isAbandoned, hr.isHeld, hk] using hab
    have := (hs.watched_of_mem descriptor hw).symm.trans (hs.watched_of_not_isAlive hdead)
    contradiction
  · obtain ⟨above, below, hstack, -⟩ := hall descriptor hw
    simp [hstack, Frame.fires]

/-- The callback of a watch is below the top of the stack, unless it is the top. -/
private theorem tail {frame : Frame σ ν} {stack above below : List (Frame σ ν)} {descriptor : Nat}
    (hst : frame :: stack = above ++ .firing descriptor :: below) :
    (frame = .firing descriptor ∧ stack = below) ∨
      ∃ rest, stack = rest ++ .firing descriptor :: below := by
  cases above with
  | nil => exact .inl (List.cons.inj hst)
  | cons first rest => exact .inr ⟨rest, (List.cons.inj hst).2⟩

/-- A deaf machine stays deaf. -/
theorem step (hd : m.IsDeaf) (hs : m.ledger.IsSound) (hr : m.IsReleased) : (m.step h).IsDeaf := by
  by_cases hk' : (m.step h).stack.any Frame.keeps = false
  · exact .inl hk'
  have hpop {frame : Frame σ ν} (hw : (m.step h).watches = m.watches)
      (hst : m.stack = frame :: (m.step h).stack) : (m.step h).IsDeaf := by
    rcases hd with hk | hall
    · rw [hst, List.any_cons, Bool.or_eq_false_iff] at hk
      exact absurd hk.2 hk'
    · apply Or.inr
      intro descriptor hd
      obtain ⟨above, below, hst', hb⟩ := hall descriptor (hw ▸ hd)
      rcases tail (hst ▸ hst') with ⟨-, he⟩ | ⟨rest, hrest⟩
      · exact absurd (he ▸ hb) hk'
      · exact ⟨rest, below, hrest, hb⟩
  have hdispatching {p : Packet} {rest : List Packet} {stack tops : List (Frame σ ν)}
      (hw : (m.step h).watches = m.watches) (hst : m.stack = .dispatching (p :: rest) :: stack)
      (hst' : (m.step h).stack = tops ++ .dispatching rest :: stack) : (m.step h).IsDeaf := by
    rcases hd with hk | hall
    · simp [hst, Frame.keeps] at hk
    · apply Or.inr
      intro descriptor hd
      obtain ⟨above, below, hst₀, hb⟩ := hall descriptor (hw ▸ hd)
      rcases tail (hst ▸ hst₀) with ⟨he, -⟩ | ⟨others, hothers⟩
      · contradiction
      · exact ⟨tops ++ .dispatching rest :: others, below, by simp [hst', hothers], hb⟩
  cases step_wanes h hs hr with
  | client ht hw hst hj hc =>
    rcases hd with hk | hall
    · exact .inl (hst ▸ hk)
    · exact .inr (by rw [hw, hst]; exact hall)
  | await v ht hw hst hj hc =>
    rcases hd with hk | hall
    · exact .inl (by simpa [hst, Frame.keeps] using hk)
    · apply Or.inr
      intro descriptor hd
      obtain ⟨above, below, hst', hb⟩ := hall descriptor (hw ▸ hd)
      exact ⟨.awaiting v :: above, below, by rw [hst, hst', List.cons_append], hb⟩
  | pop frame hf ht hw hst hj => exact hpop hw hst
  | settle sequence handler again ht hw hst hj => exact hpop hw hst
  | pass p rest stack hst hp ht hw hst' hj =>
    exact hdispatching hw hst (by rw [hst', List.nil_append])
  | call p rest stack frame hst hp hf hm hh hw hst' hj =>
    exact hdispatching hw hst (by rw [hst', List.singleton_append])
  | fire descriptor hab hw hf hh hst hj =>
    have := hd.not_fire hs hr hab hw
    simp [hf] at this
  | tearDown hk hh hw hst hj => exact .inr (by simp [hw])

/-- Nothing is read in a step of a deaf machine. -/
theorem not_reading (hd : m.IsDeaf) (hs : m.ledger.IsSound) (hr : m.IsReleased) :
    ∃ new, (m.step h).journal = new ++ m.journal ∧ new.any Event.isReading = false := by
  have hquiet (hj : m.QuietUntil (m.step h)) :
      ∃ new, (m.step h).journal = new ++ m.journal ∧ new.any Event.isReading = false := by
    obtain ⟨new, hj, hnew⟩ := hj
    exact ⟨new, hj, List.any_eq_false.mpr fun e he ↦ by simp [(hnew e he).2]⟩
  cases step_wanes h hs hr with
  | client ht hw hst hj hc => exact hquiet hj
  | await v ht hw hst hj hc => exact hquiet hj
  | pop frame hf ht hw hst hj => exact hquiet hj
  | settle sequence handler again ht hw hst hj => exact hquiet hj
  | pass p rest stack hst hp ht hw hst' hj => exact hquiet hj
  | call p rest stack frame hst hp hf hm hh hw hst' hj =>
    obtain ⟨e, he, hj⟩ := hj
    refine ⟨[e, .dispatched p], hj, ?_⟩
    cases e <;> simp_all [Event.isCall, Event.isReading]
  | fire descriptor hab hw hf hh hst hj =>
    have := hd.not_fire hs hr hab hw
    simp [hf] at this
  | tearDown hk hh hw hst hj => exact hquiet hj

end IsDeaf

/-! ### Everything at work comes to an end -/

/-- What is known of a machine whose last handle was dropped and which no callback disturbs. -/
structure Winds (m : Machine σ ν) : Prop where
  isSound : m.ledger.IsSound
  isReleased : m.IsReleased
  isDeaf : m.IsDeaf

theorem Winds.step (hm : m.Winds) : (m.step h).Winds :=
  ⟨hm.isSound.step, hm.isReleased.step h hm.isSound, hm.isDeaf.step h hm.isSound hm.isReleased⟩

/-- What a run of such a machine comes to: nothing of the transport is at work, or the client code
on top is done. -/
def Settles (h : Host σ) (m : Machine σ ν) (stack : List (Frame σ ν)) : Prop :=
  ∃ m', Run h (fun _ ↦ True) m m' ∧ m'.Winds ∧
    (m'.stack.any Frame.keeps = false ∨ m'.control = .resume ∧ m'.stack = stack)

private theorem Settles.step {stack : List (Frame σ ν)} (hs : (m.step h).Settles h stack) :
    m.Settles h stack := by
  obtain ⟨m', hrun, hm'⟩ := hs
  exact ⟨m', (Run.refl.step trivial).trans hrun, hm'⟩

/-- No callback begins by itself. -/
private theorem Winds.canFire_ne (hm : m.Winds) (hab : m.isAbandoned = false) (descriptor : Nat)
    {m' : Machine σ ν} (hw : m'.watches = m.watches)
    (hst : ∀ d, m.stack.any (Frame.fires d) = m'.stack.any (Frame.fires d)) :
    m'.canFire descriptor ≠ .fired := by
  intro hf
  obtain ⟨hd, hb⟩ := of_canFire hf
  have := hm.isDeaf.not_fire hm.isSound hm.isReleased hab (hw ▸ hd)
  rw [hst, hb] at this
  contradiction

/-- Client code that waits goes on, since no callback begins. -/
private theorem Winds.control_step_of_awaiting (hm : m.Winds) (hab : m.isAbandoned = false)
    (hc : m.control = .resume) {v : Vigil σ ν} {stack : List (Frame σ ν)}
    (hst : m.stack = .awaiting v :: stack) :
    ∃ journal, (m.step h).control = .run (v.next journal) ∧ (m.step h).stack = stack := by
  simp only [Machine.step, hab, hc, hst, Bool.false_eq_true, if_false, goOn]
  unfold turnVigil
  by_cases hg : (v.wanted m.journal && !v.isDraining) = true
  · simp only [hg, if_true]
    exact ⟨_, rfl, rfl⟩
  · rcases hn : h.now m.world with ⟨instant, world⟩
    simp only [hg, Bool.false_eq_true, if_false, readClock, hn]
    generalize (if v.wanted m.journal = true then some 0
      else v.budget.map (· - (instant - v.begun))) = timeout
    rcases ha : h.await m.watches timeout world with ⟨readable, world'⟩
    simp only [after, ha]
    split
    · exact ⟨_, rfl, rfl⟩
    · next descriptor =>
      split
      · next hf =>
        refine absurd hf (hm.canFire_ne hab descriptor ?_ fun d ↦ ?_)
        · rfl
        · simp [hst, Frame.fires]
      · exact ⟨_, rfl, rfl⟩

/-- Client code that is not at its end makes its next call if that needs no handle. -/
private theorem step_of_run {program : Program σ ν} (hm : m.Winds) (hab : m.isAbandoned = false)
    (hc : m.control = .run program) :
    m.step h = if program.needsHandle then m.resume else m.call h program := by
  simp only [Machine.step, hab, hc, hm.isReleased.isHeld, Bool.false_eq_true, if_false,
    Bool.not_false, Bool.and_true]

/-- Nothing is left to do if nothing of the transport is at work. -/
private theorem Winds.settles (hm : m.Winds)
    (hstep : m.isAbandoned = false → (m.step h).Settles h m.stack) : m.Settles h m.stack := by
  by_cases hk : m.stack.any Frame.keeps = false
  · exact ⟨m, .refl, hm, .inl hk⟩
  · exact (hstep (by simp [isAbandoned, hk])).step

/-- A call that gives up control. -/
private theorem Winds.settles_of_resume (hm : m.Winds)
    (hstep : (m.step h).control = .resume ∧ (m.step h).stack = m.stack) :
    (m.step h).Settles h m.stack :=
  ⟨m.step h, .refl, hm.step h, .inr hstep⟩

/-- Client code comes to an end. -/
private theorem Winds.settles_of_run (program : Program σ ν) {m : Machine σ ν} (hm : m.Winds)
    (hc : m.control = .run program) : m.Settles h m.stack := by
  apply hm.settles h
  intro hab
  induction program generalizing m with
  | done =>
    apply hm.settles_of_resume h
    rw [step_of_run h hm hab hc]
    exact ⟨rfl, rfl⟩
  | note note next ih =>
    have hnext : (m.step h).control = .run next ∧ (m.step h).stack = m.stack := by
      rw [step_of_run h hm hab hc]
      exact ⟨rfl, rfl⟩
    rw [← hnext.2]
    exact (hm.step h).settles h (ih (hm.step h) hnext.1)
  | meanwhile change next ih =>
    have hnext : (m.step h).control = .run next ∧ (m.step h).stack = m.stack := by
      rw [step_of_run h hm hab hc]
      exact ⟨rfl, rfl⟩
    rw [← hnext.2]
    exact (hm.step h).settles h (ih (hm.step h) hnext.1)
  | isHeld next ih =>
    have hnext : (m.step h).control = .run (next m.transport.isHeld) ∧
        (m.step h).stack = m.stack := by
      rw [step_of_run h hm hab hc]
      exact ⟨rfl, rfl⟩
    rw [← hnext.2]
    exact (hm.step h).settles h (ih _ (hm.step h) hnext.1)
  | fire descriptor next ih =>
    have hnext : (m.step h).control = .run (next (m.canFire descriptor)) ∧
        (m.step h).stack = m.stack := by
      have hf : m.canFire descriptor ≠ .fired := hm.canFire_ne hab descriptor rfl fun _ ↦ rfl
      rw [step_of_run h hm hab hc]
      simp only [Program.needsHandle, Bool.false_eq_true, if_false, call]
      exact ⟨rfl, rfl⟩
    rw [← hnext.2]
    exact (hm.step h).settles h (ih _ (hm.step h) hnext.1)
  | await wanted budget next ih =>
    -- The frame that waits is pushed and taken off again.
    have hpush : ∃ v, v.next = next ∧ (m.step h).control = .resume ∧
        (m.step h).stack = .awaiting v :: m.stack ∧
        (m.step h).isAbandoned = m.isAbandoned := by
      rw [step_of_run h hm hab hc]
      exact ⟨_, rfl, rfl, rfl, rfl⟩
    obtain ⟨v, rfl, hresume, hst, hab'⟩ := hpush
    rw [hab] at hab'
    obtain ⟨journal, hrun, hst'⟩ := (hm.step h).control_step_of_awaiting h hab' hresume hst
    rw [← hst']
    exact (((hm.step h).step h).settles h (ih journal ((hm.step h).step h) hrun)).step
  | _ =>
    apply hm.settles_of_resume h
    rw [step_of_run h hm hab hc]
    exact ⟨rfl, rfl⟩

/-- How much is left to do on a stack. -/
def weight : List (Frame σ ν) → Nat
  | [] => 0
  | frame :: stack => 2 * frame.messages.length + 1 + weight stack

/-- With the top of the stack in control, each step leaves less to do. -/
private theorem Winds.weight_step_lt (hm : m.Winds) (hc : m.control = .resume)
    (hk : m.stack.any Frame.keeps = true) : weight (m.step h).stack < weight m.stack := by
  cases step_wanes h hm.isSound hm.isReleased with
  | client ht hw hst hj hc' => simp [hc' hc] at hk
  | await v ht hw hst hj hc' => exact absurd hc hc'
  | pop frame hf ht hw hst hj =>
    rw [hst, weight]
    omega
  | settle sequence handler again ht hw hst hj =>
    rw [hst, weight]
    omega
  | pass p rest stack hst hp ht hw hst' hj =>
    simp only [hst, hst', weight, Frame.messages_dispatching, List.length_cons]
    omega
  | call p rest stack frame hst hp hf hmes hh hw hst' hj =>
    simp only [hst, hst', weight, hmes, Frame.messages_dispatching, List.length_cons,
      List.length_nil]
    omega
  | fire descriptor hab hw hf hh hst hj =>
    have := hm.isDeaf.not_fire hm.isSound hm.isReleased hab hw
    simp [hf] at this
  | tearDown hk' hh hw hst hj => simp [hk'] at hk

/-- Everything at work comes to an end. -/
private theorem Winds.exists_not_keeps (n : Nat) {m : Machine σ ν} (hm : m.Winds)
    (hn : weight m.stack ≤ n) :
    ∃ m', Run h (fun _ ↦ True) m m' ∧ m'.stack.any Frame.keeps = false := by
  induction n generalizing m with
  | zero =>
    refine ⟨m, .refl, ?_⟩
    cases hst : m.stack with
    | nil => rfl
    | cons frame stack =>
      rw [hst, weight] at hn
      omega
  | succ n ih =>
    -- Client code on top comes to its end first.
    obtain ⟨m₁, hrun₁, hm₁, hk₁ | ⟨hc₁, hst₁⟩⟩ : m.Settles h m.stack := by
      cases hc : m.control with
      | run program => exact hm.settles_of_run h program hc
      | resume => exact ⟨m, .refl, hm, .inr ⟨hc, rfl⟩⟩
    · exact ⟨m₁, hrun₁, hk₁⟩
    · cases hk : m₁.stack.any Frame.keeps with
      | false => exact ⟨m₁, hrun₁, hk⟩
      | true =>
        have hlt := hm₁.weight_step_lt h hc₁ hk
        obtain ⟨m₂, hrun₂, hk₂⟩ := ih (hm₁.step h) (by rw [hst₁] at hlt; omega)
        exact ⟨m₂, (hrun₁.step trivial).trans hrun₂, hk₂⟩

end Machine

namespace Run

variable {h : Host σ} {allowed : Machine σ ν → Prop} {m₁ m : Machine σ ν}

/-- After the last handle was dropped and until a datagram is read, a handler is called only if that
is owed, and what is owed stays the same until one is called. -/
theorem owes (hrun : Run h allowed m₁ m) (hs : m₁.ledger.IsSound) (hr : m₁.IsReleased) :
    m.ledger.IsSound ∧ m.IsReleased ∧ ∃ since, m.journal = since ++ m₁.journal ∧
      (since.any Event.isReading = false →
        (since.any Event.isCall = false ∧ m.owes = m₁.owes) ∨
          (since.any Event.isCall = true ∧ m₁.owes = true)) := by
  induction hrun with
  | refl => exact ⟨hs, hr, [], rfl, fun _ ↦ .inl ⟨rfl, rfl⟩⟩
  | enter program _ _ ih => exact ⟨ih.1, ⟨ih.2.1.isHeld, ih.2.1.stack⟩, ih.2.2⟩
  | @step m _ _ ih =>
    obtain ⟨hs, hr, since, hj, hsince⟩ := ih
    refine ⟨hs.step, hr.step h hs, ?_⟩
    rcases m.owes_step h hr hs with ⟨⟨new, hj', hnew⟩, howes⟩ | ⟨new, hj', hcall, howes⟩ |
      ⟨new, hj', hread⟩
    · refine ⟨new ++ since, by rw [hj', hj, List.append_assoc], fun hread ↦ ?_⟩
      have hquiet : new.any Event.isCall = false :=
        List.any_eq_false.mpr fun e he ↦ by simp [(hnew e he).1]
      rw [List.any_append, Bool.or_eq_false_iff] at hread
      rw [List.any_append, hquiet, Bool.false_or, howes]
      exact hsince hread.2
    · refine ⟨new ++ since, by rw [hj', hj, List.append_assoc], fun hread ↦ .inr ?_⟩
      rw [List.any_append, Bool.or_eq_false_iff] at hread
      rw [List.any_append, hcall, Bool.true_or]
      rcases hsince hread.2 with ⟨-, hsame⟩ | ⟨-, hbefore⟩
      · exact ⟨rfl, hsame ▸ howes⟩
      · exact ⟨rfl, hbefore⟩
    · refine ⟨new ++ since, by rw [hj', hj, List.append_assoc], fun hquiet ↦ ?_⟩
      rw [List.any_append, hread, Bool.true_or] at hquiet
      contradiction

/-- Nothing is read in a run of a deaf machine. -/
theorem not_reading (hrun : Run h allowed m₁ m) (hm : m₁.Winds) :
    m.Winds ∧ ∃ since, m.journal = since ++ m₁.journal ∧
      since.any Event.isReading = false := by
  induction hrun with
  | refl => exact ⟨hm, [], rfl, rfl⟩
  | enter program _ _ ih =>
    exact ⟨⟨ih.1.isSound, ⟨ih.1.isReleased.isHeld, ih.1.isReleased.stack⟩, ih.1.isDeaf⟩, ih.2⟩
  | step _ _ ih =>
    obtain ⟨hm, since, hj, hsince⟩ := ih
    obtain ⟨new, hj', hnew⟩ := hm.isDeaf.not_reading h hm.isSound hm.isReleased
    refine ⟨hm.step h, new ++ since, by rw [hj', hj, List.append_assoc], ?_⟩
    rw [List.any_append, hnew, hsince, Bool.or_false]

end Run

/-- After the last handle was dropped, a handler is called exactly if one of the messages that wait
reaches one: no other is called before another datagram is read, and none is read if the callback of
each watch is running. If the handle was dropped outside all callbacks, no handler is called. -/
theorem Reachable.called_after_release_iff {h : Host σ} {config : Config} {port : UInt32}
    {m₁ : Machine σ ν} (hr : Reachable h config port m₁) (hrel : m₁.IsReleased) :
    (∀ m since, Run h (fun _ ↦ True) m₁ m → m.journal = since ++ m₁.journal →
      since.any Event.isReading = false → since.any Event.isCall = true → m₁.owes = true) ∧
    (m₁.IsDeaf → ((∃ m since, Run h (fun _ ↦ True) m₁ m ∧ m.journal = since ++ m₁.journal ∧
      since.any Event.isCall = true) ↔ m₁.owes = true)) ∧
    (m₁.stack.any Frame.keeps = false → ∀ m since, Run h (fun _ ↦ True) m₁ m →
      m.journal = since ++ m₁.journal → since.any Event.isCall = false) := by
  have hs := hr.isSound
  have honly : ∀ m since, Run h (fun _ ↦ True) m₁ m → m.journal = since ++ m₁.journal →
      since.any Event.isReading = false → since.any Event.isCall = true → m₁.owes = true := by
    intro m since hrun hj hread hcall
    obtain ⟨-, -, since', hj', howes⟩ := hrun.owes hs hrel
    obtain rfl := List.append_cancel_right (hj.symm.trans hj')
    rcases howes hread with ⟨hnone, -⟩ | ⟨-, h⟩
    · rw [hcall] at hnone
      contradiction
    · exact h
  have hdeaf (hd : m₁.IsDeaf) : ∀ m since, Run h (fun _ ↦ True) m₁ m →
      m.journal = since ++ m₁.journal → since.any Event.isReading = false := by
    intro m since hrun hj
    obtain ⟨-, since', hj', hread⟩ := hrun.not_reading ⟨hs, hrel, hd⟩
    obtain rfl := List.append_cancel_right (hj.symm.trans hj')
    exact hread
  refine ⟨honly, fun hd ↦ ⟨?_, fun howes ↦ ?_⟩, fun hk m since hrun hj ↦ ?_⟩
  · rintro ⟨m, since, hrun, hj, hcall⟩
    exact honly m since hrun hj (hdeaf hd m since hrun hj) hcall
  · -- When nothing is at work any more nothing is owed, so a handler was called by then.
    obtain ⟨m, hrun, hk⟩ := Machine.Winds.exists_not_keeps h _ ⟨hs, hrel, hd⟩ (Nat.le_refl _)
    obtain ⟨-, -, since, hj, hsince⟩ := hrun.owes hs hrel
    rcases hsince (hdeaf hd m since hrun hj) with ⟨-, hsame⟩ | ⟨hcall, -⟩
    · rw [howes, Machine.owes, Transport.owes_of_not_keeps _ hk] at hsame
      contradiction
    · exact ⟨m, since, hrun, hj, hcall⟩
  · cases hcall : since.any Event.isCall with
    | false => rfl
    | true =>
      have howes := honly m since hrun hj (hdeaf (.inl hk) m since hrun hj) hcall
      rw [Machine.owes, Transport.owes_of_not_keeps _ hk] at howes
      contradiction

/-! ### A handle that is dropped in a handler -/

/-- A kernel that describes the family and answers two registrations in one datagram. -/
def droppingKernel : ScriptedKernel :=
  let family : Packet := ⟨Family.controlId, 0, 1, 0, [1, 2, 0, 0] ++ [6, 0, 1, 0, 28, 0, 0, 0] ++
    [12, 0, 2, 0, 110, 108, 56, 48, 50, 49, 49, 0]⟩
  { ScriptedKernel.standard with
    reactions := [⟨.ok none, [.datagram family.toBytes], []⟩, ⟨.ok none, [], []⟩,
      ⟨.ok none, [.datagram ((Packet.part 7).toBytes ++ (Packet.part 9).toBytes)], []⟩] }

/-- A machine whose last handle was dropped by the handler of the first message of a datagram. -/
def droppedMachine : Machine ScriptedKernel Unit :=
  ((Machine.fresh .standard 0 droppingKernel).run (.start fun _ ↦
    .register (.request 28 5 7 0) (fun _ _ ↦ .release .done) fun _ ↦
      .register (.request 28 5 9 0) (fun _ _ ↦ .done) fun _ ↦
        .fire 1001 fun _ ↦ .done)).steps ScriptedKernel.host 10

private theorem isReleased_droppedMachine : droppedMachine.IsReleased :=
  ⟨by cbv, by cbv⟩

private theorem isDeaf_droppedMachine : droppedMachine.IsDeaf := by
  have hwatches : droppedMachine.watches = [1001] := by cbv
  have hstack : droppedMachine.stack =
    droppedMachine.stack.take 2 ++ .firing 1001 :: droppedMachine.stack.drop 3 := by cbv
  refine .inr fun descriptor hd ↦
    ⟨droppedMachine.stack.take 2, droppedMachine.stack.drop 3, ?_, by cbv⟩
  rw [hwatches, List.mem_singleton] at hd
  exact hd ▸ hstack

/-- The second message of the datagram reaches its handler after the drop. -/
theorem called_droppedMachine :
    droppedMachine.IsReleased ∧ ∃ m since,
      Run ScriptedKernel.host (fun _ ↦ True) droppedMachine m ∧
      m.journal = since ++ droppedMachine.journal ∧ since.any Event.isCall = true := by
  have hr := (Reachable.start ScriptedKernel.host .standard 0 droppingKernel (ν := Unit)
    (.start fun _ ↦
    .register (.request 28 5 7 0) (fun _ _ ↦ .release .done) fun _ ↦
      .register (.request 28 5 9 0) (fun _ _ ↦ .done) fun _ ↦ .fire 1001 fun _ ↦ .done)).steps 10
  have hiff := (Reachable.called_after_release_iff hr isReleased_droppedMachine).2.1
  exact ⟨isReleased_droppedMachine, (hiff isDeaf_droppedMachine).mpr (by cbv)⟩

/-- Handlers are called after the last handle was dropped. -/
theorem called_after_release :
    Reachable ScriptedKernel.host .standard 0 droppedMachine ∧
      droppedMachine.transport.isHeld = false ∧
      ¬ ∀ m since, Run ScriptedKernel.host (fun _ ↦ True) droppedMachine m →
        m.journal = since ++ droppedMachine.journal → since.any Event.isCall = false := by
  refine ⟨(Reachable.start ScriptedKernel.host _ _ _ _).steps 10, by cbv, fun hclaim ↦ ?_⟩
  have hj : (droppedMachine.steps ScriptedKernel.host 3).journal =
      [.replied 9 (.part 9), .dispatched (.part 9)] ++ droppedMachine.journal := by cbv
  have hnone := hclaim _ _ (Run.steps _ _ 3) hj
  contradiction

end WifiNetlink
