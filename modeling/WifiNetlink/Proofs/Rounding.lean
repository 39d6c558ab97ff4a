import Mathlib.Algebra.Order.Floor.Div
import WifiNetlink.Kernel.Control
import WifiNetlink.Proofs.Budget

/-!
# Rounding waits

The system is asked to wait for whole milliseconds, and a negative number of them would be a wait
without end. Main statement: every duration becomes the least number of milliseconds that is not
shorter, or the greatest number that can be asked for, and none becomes zero but zero. An exchange
only waits for what is left of its budget, so it neither spins nor waits for ever: on no step of any
run does it matter how the system takes a wait of zero or less.
-/

namespace WifiNetlink

/-! ### Milliseconds -/

/-- The milliseconds of a duration, a part of one counted as a whole one, in arithmetic that wraps
at 128 bits. The seconds fill 64 bits at most. -/
def Duration.wideMillis (seconds : UInt64) (nanos : Fin 1000000000) : BitVec 128 :=
  let whole := BitVec.ofNat 128 seconds.toNat * 1000#128 + BitVec.ofNat 128 (nanos.val / 1000000)
  if nanos.val % 1000000 = 0 then whole else whole + 1#128

/-- The arithmetic does not wrap. -/
theorem Duration.toNat_wideMillis (seconds : UInt64) (nanos : Fin 1000000000) :
    (wideMillis seconds nanos).toNat = (ofParts seconds.toNat nanos.val).millisCeil := by
  have hseconds := seconds.toNat_lt
  have hnanos := nanos.isLt
  have hwhole : (BitVec.ofNat 128 seconds.toNat * 1000#128 +
      BitVec.ofNat 128 (nanos.val / 1000000)).toNat =
        seconds.toNat * 1000 + nanos.val / 1000000 := by
    simp only [BitVec.toNat_add, BitVec.toNat_mul, BitVec.toNat_ofNat]
    omega
  simp only [wideMillis, millisCeil, ofParts]
  split
  · rw [hwhole]
    omega
  · rw [BitVec.toNat_add, hwhole, BitVec.toNat_ofNat]
    omega

namespace Poll

/-- Whether a number of milliseconds is a wait for a duration. -/
structure IsWaitFor (t : Duration) (millis : Int) : Prop where
  eq : millis = min ((t.nanos ⌈/⌉ 1000000 : Nat) : Int) (2 ^ 31 - 1)
  nonneg : 0 ≤ millis
  /-- It is shorter only if it is cut to the longest wait. -/
  le : t.nanos ≤ millis * 1000000 ∨ millis = 2 ^ 31 - 1 ∧ (2 ^ 31 - 1) * 1000000 < t.nanos
  lt : millis * 1000000 < t.nanos + 1000000
  eq_zero_iff : millis = 0 ↔ t.nanos = 0

theorem isWaitFor_timeoutMillis (t : Duration) : IsWaitFor t (timeoutMillis t).toInt := by
  have hlongest : longestMillis = 2147483647 := by decide
  have hceil : t.nanos ⌈/⌉ 1000000 = (t.nanos + 999999) / 1000000 := by
    rw [Nat.ceilDiv_eq_add_pred_div, Nat.add_sub_assoc (by decide)]
  have hmillis : (timeoutMillis t).toInt =
      min (((t.nanos + 999999) / 1000000 : Nat) : Int) 2147483647 := by
    have hlt : min t.millisCeil longestMillis < 2 ^ 31 := by omega
    rw [timeoutMillis, Int32.toInt_ofNat_of_lt hlt, hlongest, Duration.millisCeil]
    omega
  rw [hmillis]
  constructor
  · rw [hceil]
    omega
  all_goals omega

/-- A wait for some time is not turned into none. -/
theorem timeoutMillis_pos {timeout : Nat} (h : 0 < timeout) :
    0 < (timeoutMillis ⟨timeout⟩).toInt := by
  have hwait := isWaitFor_timeoutMillis ⟨timeout⟩
  have hne : (timeoutMillis ⟨timeout⟩).toInt ≠ 0 := fun hzero ↦
    Nat.ne_of_gt h (hwait.eq_zero_iff.mp hzero)
  exact lt_of_le_of_ne hwait.nonneg hne.symm

end Poll

/-! ### Waits of a run -/

variable {σ ν : Type}

/-- The system with another way to wait on a descriptor, which is asked for milliseconds. -/
def Host.waitingBy (h : Host σ) (wait : (descriptor : Nat) → Int32 → σ → Poll.Answer × σ) :
    Host σ :=
  { h with
    poll := fun descriptor timeout world ↦
      match wait descriptor (Poll.timeoutMillis ⟨timeout⟩) world with
      | (answer, world) => (answer.isReadable, world) }

/-- Whether two ways to wait differ at most in how they take zero milliseconds or less. -/
def Poll.AgreeAbove (wait wait' : (descriptor : Nat) → Int32 → σ → Answer × σ) : Prop :=
  ∀ descriptor millis world, 0 < millis.toInt →
    wait descriptor millis world = wait' descriptor millis world

/-- The sockets of the control kernel wait so. -/
theorem ControlKernel.host_eq_waitingBy :
    host = host.waitingBy fun descriptor millis k ↦ k.poll descriptor millis false := rfl

/-- Every wait in a run has some time left. -/
theorem Reachable.timeout_pos {h : Host σ} {config : Config} {port : UInt32} {m : Machine σ ν}
    (hr : Reachable h config port m) {descriptor timeout : Nat}
    {outcome : Except SystemFault Bool} (hm : .polled descriptor timeout outcome ∈ m.journal) :
    0 < timeout := by
  obtain ⟨later, earlier, hj⟩ := List.append_of_mem hm
  have hgranted := (hr.keepsTime fun _ ↦ 0).isGranted
  have hjournal : m.ledger.journal = later ++ .polled descriptor timeout outcome :: earlier := hj
  rw [hjournal] at hgranted
  obtain ⟨now, before, w, ws, begun, -, -, -, hleft, rfl⟩ := hgranted.of_append _ _ _ rfl
  exact Nat.sub_pos_of_lt hleft

namespace Machine

variable (h : Host σ) (wait wait' : Nat → Int32 → σ → Poll.Answer × σ) (m : Machine σ ν)

private theorem joinGroups_congr (groups : List String) :
    m.joinGroups (h.waitingBy wait) groups = m.joinGroups (h.waitingBy wait') groups := by
  induction groups generalizing m with
  | nil => rfl
  | cons group groups ih =>
    have hgroup :
        m.joinGroup (h.waitingBy wait) group = m.joinGroup (h.waitingBy wait') group := rfl
    simp only [joinGroups, hgroup, ih]

private theorem finishStart_congr (next : Except Error Unit → Program σ ν) :
    m.finishStart (h.waitingBy wait) next = m.finishStart (h.waitingBy wait') next := by
  have hwatch : m.startWatching (h.waitingBy wait) = m.startWatching (h.waitingBy wait') := rfl
  simp only [finishStart, hwatch, joinGroups_congr h wait wait']

private theorem endExchange_congr (sequence : UInt32) (waiter : Waiter σ ν)
    (outcome : Except Error (List Packet)) :
    m.endExchange (h.waitingBy wait) sequence waiter outcome =
      m.endExchange (h.waitingBy wait') sequence waiter outcome := by
  have hhand (m : Machine σ ν) (discoverer : Discoverer σ ν) (outcome : Except Error Family) :
      m.handFamily (h.waitingBy wait) discoverer outcome =
        m.handFamily (h.waitingBy wait') discoverer outcome := by
    unfold handFamily
    split
    · rfl
    · rfl
    · exact finishStart_congr h wait wait' m _
  cases waiter with
  | client next => rfl
  | discovery name discoverer => simp only [endExchange, handReplies, hhand]

/-- A wait with some time left is asked for more than zero milliseconds. -/
private theorem poll_congr (hw : Poll.AgreeAbove wait wait') (channel : Option Nat)
    {timeout : Nat} (ht : 0 < timeout) :
    m.poll (h.waitingBy wait) channel timeout = m.poll (h.waitingBy wait') channel timeout := by
  cases channel with
  | none => rfl
  | some descriptor =>
    simp only [poll, Host.waitingBy, hw descriptor _ m.world (Poll.timeoutMillis_pos ht)]

/-- A turn of an exchange waits only if some time is left. -/
private theorem turnExchange_congr (hw : Poll.AgreeAbove wait wait')
    (x : Exchange σ ν) :
    m.turnExchange (h.waitingBy wait) x = m.turnExchange (h.waitingBy wait') x := by
  unfold turnExchange
  by_cases hp : m.transport.pending.contains x.sequence = true
  · have hread : m.readClock (h.waitingBy wait') = m.readClock (h.waitingBy wait) := rfl
    simp only [hp, if_true, hread]
    generalize m.readClock (h.waitingBy wait) = reading
    obtain ⟨instant, m⟩ := reading
    by_cases hspent : m.transport.config.syncTimeout.nanos ≤ instant - x.begun
    · simp only [hspent, if_true]
      exact endExchange_congr h wait wait' _ _ _ _
    · have hleft : 0 < m.transport.config.syncTimeout.nanos - (instant - x.begun) := by omega
      have hreceive (m : Machine σ ν) (channel : Option Nat) :
          m.receive (h.waitingBy wait) channel = m.receive (h.waitingBy wait') channel := rfl
      simp only [hspent, if_false, poll_congr h wait wait' m hw _ hleft, failExchange, hreceive,
        endExchange_congr h wait wait']
  · simp only [hp, Bool.false_eq_true, if_false]
    exact endExchange_congr h wait wait' _ _ _ _

private theorem step_congr (hw : Poll.AgreeAbove wait wait') :
    m.step (h.waitingBy wait) = m.step (h.waitingBy wait') := by
  -- The calls of client code do not wait on a descriptor, so they are the same by definition.
  have hcall (program : Program σ ν) :
      m.call (h.waitingBy wait) program = m.call (h.waitingBy wait') program := by
    cases program <;> rfl
  have hgoOn (frame : Frame σ ν) (m : Machine σ ν) :
      m.goOn (h.waitingBy wait) frame = m.goOn (h.waitingBy wait') frame := by
    cases frame with
    | collecting x => exact turnExchange_congr h wait wait' m hw x
    | dispatching rest => cases rest <;> rfl
    | _ => rfl
  simp only [step, hcall, hgoOn]
  rfl

/-- How the system takes a wait of zero or less makes no difference to a run. -/
theorem steps_congr (hw : Poll.AgreeAbove wait wait') (count : Nat) :
    m.steps (h.waitingBy wait) count = m.steps (h.waitingBy wait') count := by
  induction count generalizing m with
  | zero => rfl
  | succ count ih => simp only [steps, step_congr h wait wait' m hw, ih]

end Machine

/-- Every duration is waited for in whole milliseconds, rounded up and cut to the longest wait, and
the arithmetic does not wrap for durations of 64-bit seconds. Whatever the budget and however the
clock goes, every wait of an exchange is asked for more than zero milliseconds: it is by its entry
in the journal, and the run is the same with every other way to take a wait of zero or less. -/
theorem waits_round_up (h : Host σ) (config : Config) (port : UInt32) :
    (∀ t : Duration, Poll.IsWaitFor t (Poll.timeoutMillis t).toInt) ∧
    (∀ (seconds : UInt64) (nanos : Fin 1000000000), (Duration.wideMillis seconds nanos).toNat =
      (Duration.ofParts seconds.toNat nanos.val).millisCeil) ∧
    (∀ m : Machine σ ν, Reachable h config port m → ∀ descriptor timeout outcome,
      .polled descriptor timeout outcome ∈ m.journal →
      0 < (Poll.timeoutMillis ⟨timeout⟩).toInt) ∧
    ∀ wait wait', Poll.AgreeAbove wait wait' → ∀ (m : Machine σ ν) (count : Nat),
      m.steps (h.waitingBy wait) count = m.steps (h.waitingBy wait') count := by
  refine ⟨Poll.isWaitFor_timeoutMillis, Duration.toNat_wideMillis, ?_, ?_⟩
  · intro m hr descriptor timeout outcome hm
    exact Poll.timeoutMillis_pos (hr.timeout_pos hm)
  · intro wait wait' hw m count
    exact Machine.steps_congr h wait wait' m hw count

/-- The settings with a budget for one look at the clock and half of another one. -/
def briefConfig : Config := { Config.standard with syncTimeout := ⟨150⟩ }

/-- A machine that has waited for the description of its family. -/
def briefMachine : Machine ControlKernel Unit :=
  ((Machine.fresh briefConfig 0 .standard).run (.start fun _ ↦ .done)).steps ControlKernel.host 2

/-- What is left of the budget is waited for, and for a whole millisecond. A system that refuses to
wait for less gives the same run. -/
theorem waits_round_up_brief :
    .polled 3 50 (.ok true) ∈ briefMachine.journal ∧
    Poll.IsWaitFor ⟨50⟩ 1 ∧ 0 < (Poll.timeoutMillis ⟨50⟩).toInt ∧
    ((Machine.fresh briefConfig 0 .standard).run (.start fun _ ↦ .done)).steps
      (ControlKernel.host.waitingBy fun descriptor millis k ↦
        if 0 < millis.toInt then k.poll descriptor millis false else (.failed Errno.inval, k)) 2 =
      briefMachine := by
  have hpolled : .polled 3 50 (.ok true) ∈ briefMachine.journal := by
    have hj : briefMachine.journal[1]? = some (.polled 3 50 (.ok true)) := by cbv
    exact List.mem_of_getElem? hj
  obtain ⟨hwait, -, hpositive, hsame⟩ :=
    waits_round_up (ν := Unit) ControlKernel.host briefConfig 0
  refine ⟨hpolled, hwait ⟨50⟩, ?_, ?_⟩
  · exact hpositive _ ((Reachable.start ..).steps 2) _ _ _ hpolled
  · rw [briefMachine, ControlKernel.host_eq_waitingBy]
    refine hsame _ _ ?_ _ 2
    intro descriptor millis world hmillis
    simp only [hmillis, if_true]

end WifiNetlink
