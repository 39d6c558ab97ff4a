import Mathlib.Logic.Function.Iterate
import WifiNetlink.Proofs.Boundary

/-!
# Calls that return

A call has returned when the stack is as low as it was. Main statement: the call for an exchange
returns because the exchange could not be begun, which is no matter of time, or at the last check of
the exchange; and whoever made the call goes on with what came of it.
-/

namespace WifiNetlink

variable {σ ν : Type}

/-- The later part of a journal, from its length and that of the earlier part. -/
theorem Journal.eq_take {later earlier journal : Journal ν} (hj : journal = later ++ earlier) :
    later = journal.take (journal.length - earlier.length) := by
  rw [hj, List.length_append, Nat.add_sub_cancel, List.take_left]

/-! ### The place of an exchange -/

/-- Whether an exchange goes on that someone waits for and that has a number of frames below it. -/
def Bears (sequence : UInt32) (depth : Nat) (waiter : Waiter σ ν) (stack : List (Frame σ ν)) :
    Prop :=
  ∃ x below, (.collecting x :: below) <:+ stack ∧ x.sequence = sequence ∧ x.waiter = waiter ∧
    below.length = depth

section

variable {sequence : UInt32} {depth : Nat} {waiter : Waiter σ ν} {l l' : Ledger σ ν}
  {stack : List (Frame σ ν)} {frame : Frame σ ν}

namespace Bears

theorem length_lt (hb : Bears sequence depth waiter stack) : depth < stack.length := by
  obtain ⟨x, below, hsuffix, -, -, rfl⟩ := hb
  exact hsuffix.length_le

theorem append (hb : Bears sequence depth waiter stack) (tops : List (Frame σ ν)) :
    Bears sequence depth waiter (tops ++ stack) := by
  obtain ⟨x, below, hsuffix, hx⟩ := hb
  exact ⟨x, below, hsuffix.trans (List.suffix_append tops stack), hx⟩

theorem push (hb : Bears sequence depth waiter stack) (frame : Frame σ ν) :
    Bears sequence depth waiter (frame :: stack) :=
  hb.append [frame]

/-- Unless it is on top of the stack itself, an exchange goes on without the frame that is. -/
theorem pop (hb : Bears sequence depth waiter (frame :: stack))
    (hf : ∀ x, frame = .collecting x → x.sequence = sequence → x.waiter = waiter →
      stack.length ≠ depth) : Bears sequence depth waiter stack := by
  obtain ⟨x, below, hsuffix, hs, hw, hd⟩ := hb
  rcases List.suffix_cons_iff.mp hsuffix with heq | hsuffix
  · obtain ⟨hframe, rfl⟩ := List.cons.inj heq
    exact absurd hd (hf x hframe.symm hs hw)
  · exact ⟨x, below, hsuffix, hs, hw, hd⟩

theorem gather (hb : Bears sequence depth waiter stack) (number : Nat) (p : Packet) :
    Bears sequence depth waiter (stack.map (Frame.gather number p)) := by
  obtain ⟨x, below, hsuffix, hs, hw, hd⟩ := hb
  have hx : (x.gather number p).sequence = x.sequence ∧
      (x.gather number p).waiter = x.waiter := by
    unfold Exchange.gather
    split <;> exact ⟨rfl, rfl⟩
  refine ⟨x.gather number p, below.map (Frame.gather number p), ?_, hx.1.trans hs, hx.2.trans hw,
    by rw [List.length_map, hd]⟩
  simpa [Frame.gather] using hsuffix.map (Frame.gather number p)

end Bears

private theorem Move.bears {kind : MoveKind} (hm : Move l kind l') (he : kind ≠ .ending)
    (hb : Bears sequence depth waiter l.stack) : Bears sequence depth waiter l'.stack := by
  cases hm with
  | push | fire | read | begin => exact hb.push _
  | pop frame stack hf hs =>
    rw [hs] at hb
    exact hb.pop fun x hx ↦ by rw [hx] at hf; contradiction
  | settle key handler again stack hs =>
    rw [hs] at hb
    exact hb.pop fun x hx ↦ by contradiction
  | refuse | reject | timeout | fail | finish => contradiction
  | _ => exact hb

private theorem Row.bears {kind : MoveKind} (hr : Row kind l l') (he : kind ≠ .ending)
    (hb : Bears sequence depth waiter l.stack) : Bears sequence depth waiter l'.stack := by
  induction hr with
  | refl => exact hb
  | tail _ hlast ih => exact hlast.bears he ih

private theorem Dispatch.bears {p : Packet} (hd : Dispatch p l l')
    (hb : Bears sequence depth waiter l.stack) : Bears sequence depth waiter l'.stack := by
  have hbelow {rest : List Packet} {stack : List (Frame σ ν)}
      (hs : l.stack = .dispatching (p :: rest) :: stack) : Bears sequence depth waiter stack := by
    rw [hs] at hb
    exact hb.pop fun x hx ↦ by contradiction
  cases hd with
  | pass rest stack hs | close rest stack _ hs => exact (hbelow hs).push _
  | notify rest stack _ _ hs | call rest stack _ hs => exact ((hbelow hs).push _).push _
  | gather rest stack number hs => exact ((hbelow hs).gather number p).push _

private theorem Machine.Aside.bears {m : Machine σ ν} (ha : m.Aside l)
    (hb : Bears sequence depth waiter m.stack) : Bears sequence depth waiter l.stack := by
  cases ha with
  | routine hr => exact Row.bears hr (by simp) hb
  | wiring hr => exact Row.bears hr (by simp) hb
  | request _ hr => exact Row.bears hr (by simp) hb
  | state hm => exact hm.bears (by simp) hb
  | subscription _ _ _ hm => exact hm.bears (by simp) hb
  | teardown hr hm => exact hm.bears (by simp) (Row.bears hr (by simp) hb)

end

namespace Machine

/-- Whether the next step is a check of an exchange that someone waits for and that has a number of
frames below it. -/
structure Checks (sequence : UInt32) (depth : Nat) (waiter : Waiter σ ν) (x : Exchange σ ν)
    (stack : List (Frame σ ν)) (m : Machine σ ν) : Prop where
  control_eq : m.control = .resume
  stack_eq : m.stack = .collecting x :: stack
  sequence_eq : x.sequence = sequence
  waiter_eq : x.waiter = waiter
  depth_eq : stack.length = depth

variable {h : Host σ} {m₀ m : Machine σ ν} {sequence : UInt32} {depth : Nat} {waiter : Waiter σ ν}

/-- Where the attempt to begin an exchange leads, the ones below it go on. -/
private theorem Begins.bears {other : UInt32} {waiter' : Waiter σ ν} {m' : Machine σ ν}
    (hbegins : Begins h other waiter' m m') (hb : Bears sequence depth waiter m.stack) :
    Bears sequence depth waiter m'.stack := by
  cases hbegins with
  | refused e ready new hl =>
    rw [(hl.endExchange h other waiter' (.error e)).stack_eq]
    exact hb
  | sent begun m' new hs =>
    rw [hs]
    exact hb.push _

/-- An exchange lasts, unless the step is a check of it. -/
private theorem bears_step (hb : Bears sequence depth waiter m.stack)
    (hn : ∀ x stack, ¬ m.Checks sequence depth waiter x stack) :
    Bears sequence depth waiter (m.step h).stack := by
  cases hdue : m.due? with
  | some p => exact (m.dispatch_step h hdue).bears hb
  | none =>
    by_cases hturn : ∃ x stack, m.stack = .collecting x :: stack ∧ m.control = .resume
    · obtain ⟨x, stack, hs, hc⟩ := hturn
      rw [hs] at hb
      have ht := turns_turnExchange h { m with stack } x
      rw [← step_of_collecting h hc hs] at ht
      generalize m.step h = m' at ht ⊢
      cases ht with
      | ends outcome ready hcloses =>
        rw [(hcloses.leaves.endExchange h x.sequence x.waiter outcome).stack_eq]
        apply hb.pop
        rintro y hy hsequence hwaiter hdepth
        obtain rfl := Frame.collecting.inj hy
        exact hn x stack ⟨hc, hs, hsequence, hwaiter, hdepth⟩
      | waits m' read hread =>
        rw [hread]
        exact hb.append _
    · by_cases hasks : m.asks? = none ∨ m.transport.isHeld = false
      · exact (m.aside_step h hdue hasks fun x stack hs hc ↦ hturn ⟨x, stack, hs, hc⟩).bears hb
      · rw [not_or, Bool.not_eq_false] at hasks
        obtain ⟨⟨other, waiter'⟩, hother⟩ := Option.ne_none_iff_exists'.mp hasks.1
        rcases step_of_asks h hother hasks.2 with ⟨hw, -⟩ | ⟨ready, request, hw, -, hstep⟩
        · rw [hw.stack]
          exact hb
        · rw [hstep]
          rw [← hw.stack] at hb
          by_cases hzero : request.sequence = 0
          · simp only [beginExchange, hzero, if_true]
            rw [endExchange, (wires_handReplies h _ waiter' _).stack]
            exact hb
          · exact (begins_beginExchange h ready request waiter' hzero).bears hb

/-! ### Returning -/

/-- Whether the call that a machine is about to make has just returned in another one: since then
the stack was higher than at the call, and now it is not. -/
def Returns (h : Host σ) (m₀ m : Machine σ ν) : Prop :=
  Run h (fun m ↦ m₀.stack.length < m.stack.length) (m₀.step h) m ∧
    m.stack.length ≤ m₀.stack.length

/-- A call has returned after a number of steps if the stack was higher before each of them. -/
theorem returns_iterate {h : Host σ} {m₀ : Machine σ ν} (count : Nat)
    (hhigh : ∀ i < count, m₀.stack.length < ((step h)^[i] (m₀.step h)).stack.length)
    (hlow : ((step h)^[count] (m₀.step h)).stack.length ≤ m₀.stack.length) :
    m₀.Returns h ((step h)^[count] (m₀.step h)) := by
  refine ⟨?_, hlow⟩
  clear hlow
  induction count with
  | zero => exact .refl
  | succ count ih =>
    rw [Function.iterate_succ_apply']
    have hrun := ih fun i hi ↦ hhigh i (Nat.lt_succ_of_lt hi)
    exact hrun.step (hhigh count (Nat.lt_succ_self count))

/-- What is known of a machine whose exchange was just begun by a call: its request is sent, and it
waits on top of the stack for its replies. -/
structure HasSent (sequence : UInt32) (waiter : Waiter σ ν) (m₀ m : Machine σ ν) : Prop where
  ne_zero : sequence ≠ 0
  stack : ∃ x, m.stack = .collecting x :: m₀.stack ∧ x.sequence = sequence ∧ x.waiter = waiter
  pending : ∃ number, m.transport.pending = m₀.transport.pending.insert sequence (.gather number)
  journal : ∃ new earlier, m.journal = new ++ .exchangeBegan sequence :: earlier ∧
    ∀ e ∈ new, e.isAttempt = true

/-- How the call for an exchange has returned with an outcome. -/
inductive ReturnsWith (h : Host σ) (sequence : UInt32) (waiter : Waiter σ ν) (m₀ : Machine σ ν) :
    Except Error (List Packet) → Machine σ ν → Prop where
  /-- There is nothing to wait for: the exchange failed before its request was sent. -/
  | unsent (e : Error) (ht : ∀ budget, e ≠ .timeout budget)
    (hg : waiter.GoesOn (.error e) (m₀.step h).control) (hs : (m₀.step h).stack = m₀.stack)
    (hp : m₀.transport.pending.get? sequence = none → ∀ key,
      (m₀.step h).transport.pending.get? key = m₀.transport.pending.get? key) :
    ReturnsWith h sequence waiter m₀ (.error e) (m₀.step h)
  /-- A check of the exchange was the last one. -/
  | checked {outcome : Except Error (List Packet)} (m ready : Machine σ ν) (x : Exchange σ ν)
    (stack : List (Frame σ ν)) (hsent : HasSent sequence waiter m₀ (m₀.step h))
    (hrun : Run h (fun m ↦ m₀.stack.length < m.stack.length) (m₀.step h) m)
    (hcheck : m.Checks sequence m₀.stack.length waiter x stack)
    (hcloses : Closes h x outcome { m with stack } ready)
    (hend : m.step h = ready.endExchange h sequence waiter outcome) :
    ReturnsWith h sequence waiter m₀ outcome (m.step h)

namespace ReturnsWith

variable {outcome : Except Error (List Packet)}

/-- Whoever waits for the exchange goes on with the outcome. -/
theorem goesOn (hr : m₀.ReturnsWith h sequence waiter outcome m) :
    waiter.GoesOn outcome m.control := by
  cases hr with
  | unsent e ht hg => exact hg
  | checked m ready x stack hsent hrun hcheck hcloses hend =>
    rw [hend]
    exact goesOn_handReplies h _ waiter outcome

theorem length_stack (hr : m₀.ReturnsWith h sequence waiter outcome m) :
    m.stack.length = m₀.stack.length := by
  cases hr with
  | unsent e ht hg hs => rw [hs]
  | checked m ready x stack hsent hrun hcheck hcloses hend =>
    rw [hend, (hcloses.leaves.endExchange h sequence waiter outcome).stack_eq]
    exact hcheck.depth_eq

end ReturnsWith

/-- A call for an exchange returns at once, or its request is sent. -/
theorem returnsWith_or_hasSent (ha : m₀.asks? = some (sequence, waiter))
    (hh : m₀.transport.isHeld = true) :
    (∃ outcome, m₀.ReturnsWith h sequence waiter outcome (m₀.step h)) ∨
      HasSent sequence waiter m₀ (m₀.step h) := by
  rcases step_of_asks h ha hh with ⟨hw, e, ht, hg⟩ | ⟨ready, request, hw, rfl, hstep⟩
  · exact .inl ⟨_, .unsent e ht hg hw.stack fun _ key ↦ by rw [hw.pending]⟩
  · by_cases hzero : request.sequence = 0
    · rw [beginExchange, if_pos hzero, endExchange] at hstep
      have hhanded := wires_handReplies h (ready.log (.exchangeEnded 0
        (.error (.invalidMessage .reservedSequence)))) waiter
        (.error (.invalidMessage .reservedSequence))
      refine .inl ⟨_, .unsent (.invalidMessage .reservedSequence) (by simp) ?_ ?_ ?_⟩
      · rw [hstep]
        exact goesOn_handReplies h _ waiter _
      · rw [hstep, hhanded.stack]
        exact hw.stack
      · intro _ key
        rw [hstep, hhanded.pending]
        exact congrArg (·.get? key) hw.pending
    · have hb := begins_beginExchange h ready request waiter hzero
      rw [← hstep] at hb
      generalize hm : m₀.step h = m at hb
      cases hb with
      | refused e ready' new hl hj hnew hk he ht =>
        have hend := hl.endExchange h request.sequence waiter (.error e)
        rw [← hm] at hend ⊢
        refine .inl ⟨_, .unsent e ht ?_ ?_ ?_⟩
        · rw [hm]
          exact goesOn_handReplies h _ waiter _
        · exact hend.stack_eq.trans hw.stack
        · intro hp key
          rw [hend.pending_eq, hw.pending]
          split
          · next hkey => rw [hkey, hp]
          · rfl
      | sent begun _ new hs hp hj hnew =>
        right
        exact {
          ne_zero := hzero
          stack := ⟨_, hw.stack ▸ hs, rfl, rfl⟩
          pending := ⟨_, hw.pending ▸ hp⟩
          journal := ⟨new, _, hj, hnew⟩ }

/-- The last check of an exchange returns its call. -/
private theorem returnsWith_of_checks {x : Exchange σ ν} {stack : List (Frame σ ν)}
    (hsent : HasSent sequence waiter m₀ (m₀.step h))
    (hrun : Run h (fun m ↦ m₀.stack.length < m.stack.length) (m₀.step h) m)
    (hcheck : m.Checks sequence m₀.stack.length waiter x stack) :
    Bears sequence m₀.stack.length waiter (m.step h).stack ∨
      ∃ outcome, m₀.ReturnsWith h sequence waiter outcome (m.step h) := by
  obtain ⟨hc, hs, rfl, rfl, hdepth⟩ := hcheck
  have ht := turns_turnExchange h { m with stack } x
  rw [← step_of_collecting h hc hs] at ht
  generalize hm : m.step h = m' at ht ⊢
  cases ht with
  | ends outcome ready hcloses =>
    rw [← hm]
    exact .inr ⟨outcome, .checked m ready x stack hsent hrun ⟨hc, hs, rfl, rfl, hdepth⟩ hcloses hm⟩
  | waits m' read hread =>
    left
    rw [hread]
    exact .append ⟨x, stack, List.suffix_rfl, rfl, rfl, hdepth⟩ _

/-- When the call for an exchange returns, either there was nothing to wait for or the exchange had
its last check. -/
theorem Returns.exists_returnsWith (ha : m₀.asks? = some (sequence, waiter))
    (hh : m₀.transport.isHeld = true) (hret : m₀.Returns h m) :
    ∃ outcome, m₀.ReturnsWith h sequence waiter outcome m := by
  have hgoes : (HasSent sequence waiter m₀ (m₀.step h) ∧
      Bears sequence m₀.stack.length waiter m.stack) ∨
      ∃ outcome, m₀.ReturnsWith h sequence waiter outcome m := by
    refine hret.1.lasts_or_ends (fun m ↦ HasSent sequence waiter m₀ (m₀.step h) ∧
      Bears sequence m₀.stack.length waiter m.stack)
      (fun m ↦ ∃ outcome, m₀.ReturnsWith h sequence waiter outcome m) ?_ ?_ ?_ ?_
    · rcases returnsWith_or_hasSent (h := h) ha hh with hends | hsent
      · exact .inr hends
      · obtain ⟨x, hs, hx⟩ := hsent.stack
        exact .inl ⟨hsent, x, m₀.stack, hs ▸ List.suffix_rfl, hx.1, hx.2, rfl⟩
    · rintro m hrun - ⟨hsent, hb⟩
      by_cases hcheck : ∃ x stack, m.Checks sequence m₀.stack.length waiter x stack
      · obtain ⟨x, stack, hcheck⟩ := hcheck
        exact (returnsWith_of_checks hsent hrun hcheck).imp_left (⟨hsent, ·⟩)
      · exact .inl ⟨hsent, bears_step hb fun x stack hx ↦ hcheck ⟨x, stack, hx⟩⟩
    · rintro m ⟨outcome, hends⟩
      rw [hends.length_stack]
      exact Nat.lt_irrefl _
    · rintro m (⟨-, hb⟩ | ⟨outcome, hends⟩)
      · exact isIdle_eq_false_of_stack (List.ne_nil_of_length_pos (Nat.zero_lt_of_lt hb.length_lt))
      · obtain ⟨program, hc⟩ := hends.goesOn.exists_run
        exact isIdle_eq_false_of_run hc
  rcases hgoes with ⟨-, hb⟩ | hends
  · exact absurd hb.length_lt (Nat.not_lt.mpr hret.2)
  · exact hends

end Machine

end WifiNetlink
