import Mathlib.Logic.Function.Iterate
import WifiNetlink.Proofs.Boundary

/-!
# What a machine sends

The messages that are sent in a run are read off its journal. An exchange sends its request as it
begins; whatever goes on after that, a turn of an exchange, the dispatch of a message or the wait
for the event loop, sends nothing. Main statement: as long as no client code is in control nothing
is sent.
-/

namespace WifiNetlink

variable {ν : Type}

/-- The channel that a message is sent on in an event, and the message. -/
def Event.message? : Event ν → Option (Nat × Bytes)
  | .sent descriptor message _ => some (descriptor, message)
  | _ => none

namespace Event

theorem message?_of_isWiring {e : Event ν} (he : e.isWiring = true) : e.message? = none := by
  cases e <;> simp_all [isWiring, message?]

theorem message?_of_kind {e : Event ν} (he : e.kind ≠ .request) : e.message? = none := by
  cases e <;> simp_all [kind, message?]

theorem message?_of_isCall {e : Event ν} (he : e.isCall = true) : e.message? = none := by
  cases e <;> simp_all [isCall, message?]

end Event

/-- The messages that are sent in a run and the channels they are sent on, the latest first. -/
def Journal.sends (journal : Journal ν) : List (Nat × Bytes) := journal.filterMap Event.message?

namespace Machine

variable {σ : Type} (h : Host σ) {m m' : Machine σ ν}

theorem Adds.sends_eq (hm : m.Adds (fun e ↦ e.message? = none) m') :
    m'.journal.sends = m.journal.sends := by
  obtain ⟨new, hj, hnew⟩ := hm
  have hnone : Journal.sends new = [] := List.filterMap_eq_nil_iff.mpr hnew
  rw [hj, Journal.sends, List.filterMap_append]
  exact congrArg (· ++ _) hnone

theorem Wires.sends_eq (hw : m.Wires m') : m'.journal.sends = m.journal.sends :=
  (hw.journal.mono fun _ he ↦ Event.message?_of_isWiring he).sends_eq

/-- An exchange sends its request once when it begins, if there is a channel. -/
theorem sends_beginExchange {request : Packet} (hn : request.sequence ≠ 0) {channel : Nat}
    (hc : m.transport.syncChannel = some channel)
    (react : Except Error (List Packet) → Program σ ν) :
    (m.beginExchange h request (.client react)).journal.sends =
      (channel, request.toBytes) :: m.journal.sends := by
  simp only [beginExchange, hn, if_false, hc, send]
  split
  · next e m' he =>
    obtain ⟨-, rfl⟩ := Prod.mk.inj he
    rfl
  · next m' he =>
    obtain ⟨-, rfl⟩ := Prod.mk.inj he
    rfl

/-- Nothing is sent while a channel is waited for. -/
private theorem sends_of_poll {channel : Option Nat} {timeout : Nat}
    {outcome : Except Error Bool} (he : m.poll h channel timeout = (outcome, m')) :
    m'.journal.sends = m.journal.sends := by
  cases channel with
  | none => rw [← (Prod.mk.inj he).2]
  | some descriptor =>
    rw [← (Prod.mk.inj he).2]
    rfl

/-- Nothing is sent when a datagram is taken. -/
private theorem sends_of_receive {channel : Option Nat} {outcome : Except Error (List Packet)}
    (he : m.receive h channel = (outcome, m')) : m'.journal.sends = m.journal.sends := by
  cases channel with
  | none => rw [← (Prod.mk.inj he).2]
  | some descriptor =>
    rw [← (Prod.mk.inj he).2]
    rfl

/-- Nothing is sent when an exchange ends. -/
private theorem sends_endExchange (sequence : UInt32) (waiter : Waiter σ ν)
    (outcome : Except Error (List Packet)) :
    (m.endExchange h sequence waiter outcome).journal.sends = m.journal.sends :=
  (wires_handReplies h (m.log (.exchangeEnded sequence outcome)) waiter outcome).sends_eq

/-- A turn of an exchange sends nothing. -/
private theorem sends_turnExchange (x : Exchange σ ν) :
    (m.turnExchange h x).journal.sends = m.journal.sends := by
  unfold turnExchange
  split
  · simp only
    split
    · exact sends_endExchange h x.sequence x.waiter _
    · split
      · next e m' he =>
        have hpolled := sends_of_poll h he
        exact (sends_endExchange h x.sequence x.waiter _).trans hpolled
      · next m' he =>
        have hpolled := sends_of_poll h he
        exact hpolled
      · next m' he =>
        have hpolled := sends_of_poll h he
        split
        · next e m'' he' =>
          have hreceived := (sends_of_receive h he').trans hpolled
          exact (sends_endExchange h x.sequence x.waiter _).trans hreceived
        · next packets m'' he' => exact (sends_of_receive h he').trans hpolled
  · exact sends_endExchange h x.sequence x.waiter _

/-- A step in which no client code is in control sends nothing. -/
theorem sends_step_of_resume (hc : m.control = .resume) :
    (m.step h).journal.sends = m.journal.sends := by
  by_cases hturn : ∃ x stack, m.stack = .collecting x :: stack
  · obtain ⟨x, stack, hs⟩ := hturn
    rw [step_of_collecting h hc hs]
    exact sends_turnExchange h x
  · cases hdue : m.due? with
    | some p =>
      obtain ⟨new, hj, -, -, hnew⟩ := (m.dispatch_step h hdue).journal
      refine Adds.sends_eq ⟨new, hj, fun e he ↦ ?_⟩
      rcases hnew e he with hcall | rfl
      · exact Event.message?_of_isCall hcall
      · rfl
    | none =>
      have haside := m.aside_step h hdue (.inl (by simp [asks?, hc]))
        fun x stack hs ↦ absurd ⟨x, stack, hs⟩ hturn
      obtain ⟨new, hj, hnew⟩ := haside.journal
      refine Adds.sends_eq ⟨new, hj, fun e he ↦ Event.message?_of_kind fun hk ↦ ?_⟩
      exact (hnew e he).2.2 hk hc

/-- As long as no client code is in control nothing is sent. -/
theorem sends_iterate (count : Nat)
    (hquiet : ∀ i < count, ((step h)^[i] m).control = .resume) :
    ((step h)^[count] m).journal.sends = m.journal.sends := by
  induction count with
  | zero => rfl
  | succ count ih =>
    rw [Function.iterate_succ_apply',
      sends_step_of_resume h (hquiet count (Nat.lt_succ_self count))]
    exact ih fun i hi ↦ hquiet i (Nat.lt_succ_of_lt hi)

end Machine

end WifiNetlink
