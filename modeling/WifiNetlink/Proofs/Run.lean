import WifiNetlink.Kernel.Scripted
import WifiNetlink.Transport.Step

/-!
# Runs

A run of a machine is a row of its steps; when nothing is left to do, client code may be entered
again from outside, as an event loop or a main program does. A run can be confined to machines that
satisfy a condition before each step. The reachable machines are those that runs of a transport that
is not started lead to.
-/

namespace WifiNetlink

variable {σ ν : Type}

/-- The machines that a run from `start` can lead to, if `allowed` holds before each step. -/
inductive Run (h : Host σ) (allowed : Machine σ ν → Prop) (start : Machine σ ν) :
    Machine σ ν → Prop where
  | refl : Run h allowed start start
  | step {m : Machine σ ν} : Run h allowed start m → allowed m → Run h allowed start (m.step h)
  | enter {m : Machine σ ν} (program : Program σ ν) :
    Run h allowed start m → m.isIdle = true → Run h allowed start (m.run program)

/-- The machines that a transport with these settings can lead to. -/
def Reachable (h : Host σ) (config : Config) (port : UInt32) (m : Machine σ ν) : Prop :=
  ∃ world, Run h (fun _ ↦ True) (.fresh config port world) m

namespace Run

variable {h : Host σ} {allowed : Machine σ ν → Prop} {start m m' : Machine σ ν}

/-- A run goes on where another one ends. -/
theorem trans (hrun : Run h allowed start m) (hrest : Run h allowed m m') :
    Run h allowed start m' := by
  induction hrest with
  | refl => exact hrun
  | step _ ha ih => exact ih.step ha
  | enter program _ hi ih => exact ih.enter program hi

/-- Any number of steps is a run. -/
theorem steps (h : Host σ) (start : Machine σ ν) (count : Nat) :
    Run h (fun _ ↦ True) start (start.steps h count) := by
  induction count generalizing start with
  | zero => exact .refl
  | succ count ih =>
    unfold Machine.steps
    split
    · exact .refl
    · exact (Run.refl.step trivial).trans (ih (start.step h))

/-- A run that satisfies a condition satisfies every weaker one. -/
theorem mono {weaker : Machine σ ν → Prop} (hw : ∀ m, allowed m → weaker m)
    (hrun : Run h allowed start m) : Run h weaker start m := by
  induction hrun with
  | refl => exact .refl
  | step _ ha ih => exact ih.step (hw _ ha)
  | enter program _ hi ih => exact ih.enter program hi

/-- What goes on at the start of a run and lasts at each step until it is over, in a run that is
confined to machines in which it is not over, lasts to the end of the run or is over there. -/
theorem lasts_or_ends (hrun : Run h allowed start m) (lasts ends : Machine σ ν → Prop)
    (hstart : lasts start ∨ ends start)
    (hstep : ∀ m, Run h allowed start m → allowed m → lasts m → lasts (m.step h) ∨ ends (m.step h))
    (hover : ∀ m, ends m → ¬ allowed m) (hbusy : ∀ m, lasts m ∨ ends m → m.isIdle = false) :
    lasts m ∨ ends m := by
  induction hrun with
  | refl => exact hstart
  | @step m hrun hallowed ih =>
    rcases ih with hlasts | hends
    · exact hstep m hrun hallowed hlasts
    · exact absurd hallowed (hover m hends)
  | @enter m program _ hidle ih =>
    rw [hbusy m ih] at hidle
    contradiction

end Run

namespace Reachable

variable {h : Host σ} {config : Config} {port : UInt32} {m m' : Machine σ ν}

theorem step (hr : Reachable h config port m) : Reachable h config port (m.step h) := by
  obtain ⟨world, hrun⟩ := hr
  exact ⟨world, hrun.step trivial⟩

/-- Client code can be entered at the start. -/
theorem start (h : Host σ) (config : Config) (port : UInt32) (world : σ) (program : Program σ ν) :
    Reachable h config port ((Machine.fresh config port world).run program) :=
  ⟨world, .enter program .refl rfl⟩

/-- A run from a reachable machine leads to reachable machines. -/
theorem run {allowed : Machine σ ν → Prop} (hr : Reachable h config port m)
    (hrun : Run h allowed m m') : Reachable h config port m' := by
  obtain ⟨world, hstart⟩ := hr
  exact ⟨world, hstart.trans (hrun.mono fun _ _ ↦ trivial)⟩

/-- Any number of steps leads from a reachable machine to one. -/
theorem steps (hr : Reachable h config port m) (count : Nat) :
    Reachable h config port (m.steps h count) :=
  hr.run (Run.steps h m count)

end Reachable

namespace Machine

/-- One more step, unless nothing is left to do. -/
theorem steps_succ (h : Host σ) (m : Machine σ ν) (count : Nat) : m.steps h (count + 1) =
    if (m.steps h count).isIdle then m.steps h count else (m.steps h count).step h := by
  induction count generalizing m with
  | zero => rfl
  | succ count ih =>
    by_cases hi : m.isIdle = true
    · simp [steps, hi]
    · have hsteps (n : Nat) : m.steps h (n + 1) = (m.step h).steps h n := by
        simp [steps, hi]
      rw [hsteps (count + 1), hsteps count]
      exact ih (m.step h)

/-- Where nothing is left to do, more steps do nothing. -/
theorem steps_of_isIdle {h : Host σ} {m : Machine σ ν} {count more : Nat}
    (hi : (m.steps h count).isIdle = true) (hle : count ≤ more) :
    m.steps h more = m.steps h count := by
  induction hle with
  | refl => rfl
  | step _ ih => rw [steps_succ, ih, if_pos hi]

/-- The message that the next step dispatches. -/
def due? (m : Machine σ ν) : Option Packet :=
  match m.control, m.stack with
  | .resume, .dispatching (p :: _) :: _ => some p
  | _, _ => none

/-- The machine with a message of its datagram dispatched: the step of a machine with a message that
is due. -/
theorem step_of_due {m : Machine σ ν} {p : Packet} (h : Host σ) (hp : m.due? = some p) :
    ∃ rest stack, m.stack = .dispatching (p :: rest) :: stack ∧
      m.step h = { m with stack := .dispatching rest :: stack }.dispatch p := by
  unfold due? at hp
  split at hp
  · next q rest stack hc hs =>
    obtain rfl : q = p := Option.some.inj hp
    refine ⟨rest, stack, hs, ?_⟩
    have ha : m.isAbandoned = false := by simp [isAbandoned, hs, Frame.keeps]
    simp only [step, ha, hc, hs]
    rfl
  · contradiction

/-- A step of client code that holds the transport is its next call. -/
theorem step_eq_call {m : Machine σ ν} (h : Host σ) {program : Program σ ν}
    (hc : m.control = .run program) (hh : m.transport.isHeld = true) :
    m.step h = m.call h program := by
  have hab : m.isAbandoned = false := by simp [isAbandoned, hh]
  simp only [step, hab, hc, hh, Bool.not_true, Bool.and_false, Bool.false_eq_true, if_false]

/-- The step of a machine with an exchange on top of its stack is a turn of the exchange. -/
theorem step_of_collecting {m : Machine σ ν} (h : Host σ) {x : Exchange σ ν}
    {stack : List (Frame σ ν)} (hc : m.control = .resume) (hs : m.stack = .collecting x :: stack) :
    m.step h = { m with stack }.turnExchange h x := by
  have ha : m.isAbandoned = false := by simp [isAbandoned, hs, Frame.keeps]
  simp only [step, ha, hc, hs]
  rfl

/-- A machine with frames on its stack has something to do. -/
theorem isIdle_eq_false_of_stack {m : Machine σ ν} (hs : m.stack ≠ []) : m.isIdle = false := by
  unfold isIdle
  split
  · contradiction
  · rfl

theorem isIdle_eq_false_of_run {m : Machine σ ν} {program : Program σ ν}
    (hc : m.control = .run program) : m.isIdle = false := by
  unfold isIdle
  rw [hc]

/-- The exchange that client code asks for: its number and who waits for it. Looking a family up is
an exchange, and the transport's start looks its family up. -/
def asks? (m : Machine σ ν) : Option (UInt32 × Waiter σ ν) :=
  match m.control with
  | .run (.collect request next) => some (request.sequence, .client next)
  | .run (.discover name next) =>
    some (m.transport.counter.next, .discovery name (.client next))
  | .run (.start next) =>
    if m.transport.isStarted then none
    else some (m.transport.counter.next, .discovery m.transport.config.familyName (.start next))
  | _ => none

variable {C : Event ν → Prop} {m m' m'' : Machine σ ν}

/-- Whether the journal of a machine goes on with events that satisfy a condition. -/
def Adds (C : Event ν → Prop) (m m' : Machine σ ν) : Prop :=
  ∃ new : Journal ν, m'.journal = new ++ m.journal ∧ ∀ e ∈ new, C e

namespace Adds

theorem refl (hj : m'.journal = m.journal) : Adds C m m' := ⟨[], hj, by simp⟩

theorem mono {D : Event ν → Prop} (hm : Adds C m m') (hd : ∀ e, C e → D e) : Adds D m m' := by
  obtain ⟨new, hj, hnew⟩ := hm
  exact ⟨new, hj, fun e he ↦ hd e (hnew e he)⟩

theorem single {e : Event ν} (hj : m'.journal = e :: m.journal) (he : C e) : Adds C m m' :=
  ⟨[e], hj, by simpa using he⟩

theorem trans (hm : Adds C m m') (hm' : Adds C m' m'') : Adds C m m'' := by
  obtain ⟨new, hj, hnew⟩ := hm
  obtain ⟨new', hj', hnew'⟩ := hm'
  refine ⟨new' ++ new, by rw [hj', hj, List.append_assoc], ?_⟩
  intro e he
  rcases List.mem_append.mp he with he | he
  · exact hnew' e he
  · exact hnew e he

end Adds

end Machine

/-- A kernel that refuses the first request, so that a transport cannot be started but has its
channels, and reacts to others in order. -/
def answeringKernel (reactions : List Reaction) : ScriptedKernel :=
  { ScriptedKernel.standard with
    reactions := ⟨.error (.errno Errno.again), [], []⟩ :: reactions }

/-- The reply to a request for the family: it has number 28, and the group "scan" number 5. -/
def Packet.description (sequence : UInt32) : Packet :=
  ⟨Family.controlId, 0, sequence, 0, [1, 2, 0, 0] ++ [6, 0, 1, 0, 28, 0, 0, 0] ++
    [12, 0, 2, 0, 110, 108, 56, 48, 50, 49, 49, 0] ++
    [28, 0, 7, 0, 24, 0, 1, 0, 8, 0, 2, 0, 5, 0, 0, 0, 9, 0, 1, 0, 115, 99, 97, 110, 0, 0, 0, 0]⟩

/-- A kernel that describes the family to the first request, so that a transport starts, and reacts
to others in order. -/
def describingKernel (reactions : List Reaction) : ScriptedKernel :=
  { ScriptedKernel.standard with
    reactions := ⟨.ok none, [.datagram (Packet.description 1).toBytes], []⟩ :: reactions }

end WifiNetlink
