import WifiNetlink.Loop.Job
import WifiNetlink.Loop.Reactor

/-!
# An event loop

Tasks run one at a time, in the order in which they were posted or woken. A watch is a registration
with the reactor and a task that waits for it and calls back while there is input; the table of
watches holds the only registration, so ending a watch ends its callbacks at once, even if its own
callback ends it. Signals of the reactor and timers are looked at when no task is left to run. Time
goes on only as it is told.
-/

namespace WifiNetlink

/-- The task of a watch. -/
structure WatchTask (α ν : Type) where
  number : Nat
  descriptor : Int
  registration : Nat
  callback : List ν → Int → Job α ν

/-- A task. -/
inductive LoopTask (α ν : Type) where
  | once (job : Job α ν)
  /-- The delay counts from when the task is first looked at. -/
  | delayed (millis : Nat) (job : Job α ν)
  | asleep (job : Job α ν)
  | watching (task : WatchTask α ν)

/-- An entry of the table of watches. -/
structure Watch where
  registration : Nat
  task : Nat
deriving Repr, DecidableEq

/-- What happens on an event loop. -/
inductive LoopEvent (ν : Type) where
  /-- A task watches a descriptor from now on. -/
  | watched (descriptor : Int) (task : Nat)
  /-- A descriptor is watched no more. -/
  | unwatched (descriptor : Int)
  /-- A watch called back. -/
  | called (descriptor : Int) (task : Nat)
  | released
  | noted (note : ν)

/-- An event loop. -/
structure EventLoop (α ν : Type) where
  reactor : Reactor α
  watches : Table Int Watch
  tasks : Table Nat (LoopTask α ν)
  /-- The tasks to run, the next first. -/
  queue : List Nat
  /-- The sleeping tasks, each with the instant at which it is due. -/
  timers : List (Nat × Nat)
  /-- The time in milliseconds. -/
  clock : Nat
  isHeld : Bool
  nextTask : Nat
  /-- The events, the latest first. -/
  journal : List (LoopEvent ν)
  /-- What runs, and the watch that goes on after it. -/
  running : Option (Job α ν × Option (WatchTask α ν))

namespace EventLoop

variable {α ν : Type}

/-- A loop that has nothing to do. -/
def fresh (reactor : Reactor α) : EventLoop α ν where
  reactor
  watches := []
  tasks := []
  queue := []
  timers := []
  clock := 0
  isHeld := true
  nextTask := 0
  journal := []
  running := none

/-- The loop with one more event in its journal. -/
def log (l : EventLoop α ν) (e : LoopEvent ν) : EventLoop α ν :=
  { l with journal := e :: l.journal }

/-- The notes left so far, the latest first. -/
def notes (l : EventLoop α ν) : List ν :=
  l.journal.filterMap fun
    | .noted note => some note
    | _ => none

/-- The loop with one more task, which is to run. -/
def spawn (l : EventLoop α ν) (task : Nat → LoopTask α ν) : EventLoop α ν :=
  { l with
    tasks := l.tasks.insert l.nextTask (task l.nextTask)
    queue := l.queue ++ [l.nextTask]
    nextTask := l.nextTask + 1 }

/-- The loop after tasks are woken. Those that are to run already are not woken twice. -/
def wake (l : EventLoop α ν) (tasks : List Nat) : EventLoop α ν :=
  { l with queue := l.queue ++ tasks.filter (!l.queue.contains ·) }

/-- The loop without the watch of a descriptor. -/
def cancel (l : EventLoop α ν) (descriptor : Int) : EventLoop α ν :=
  match l.watches.get? descriptor with
  | none => l
  | some w =>
    { l with
      watches := l.watches.erase descriptor
      tasks := l.tasks.erase w.task
      reactor := l.reactor.deregister w.registration }

/-- End the watch of a descriptor. -/
def unwatch (l : EventLoop α ν) (descriptor : Int) : EventLoop α ν :=
  (l.cancel descriptor).log (.unwatched descriptor)

/-- Watch a descriptor, in place of the watch it had. -/
def watch (l : EventLoop α ν) (descriptor : Int) (callback : List ν → Int → Job α ν) :
    Bool × EventLoop α ν :=
  let l := l.unwatch descriptor
  match l.reactor.register descriptor with
  | (none, _) => (false, l)
  | (some registration, reactor) =>
    (true, (({ l with
      reactor
      watches := l.watches.insert descriptor ⟨registration, l.nextTask⟩ }).spawn fun number ↦
        .watching ⟨number, descriptor, registration, callback⟩).log
          (.watched descriptor l.nextTask))

/-- Drop the loop: all watches end, and tasks stay. -/
def release (l : EventLoop α ν) : EventLoop α ν :=
  ((l.watches.keys.foldl cancel { l with isHeld := false }).log .released)

/-- Run a job next. -/
def run (l : EventLoop α ν) (job : Job α ν) (owner : Option (WatchTask α ν)) : EventLoop α ν :=
  { l with running := some (job, owner) }

/-- Let the task of a watch wait for input, and call back if there is some. -/
def pollWatch (l : EventLoop α ν) (task : WatchTask α ν) : EventLoop α ν :=
  match l.reactor.pollReadable task.registration with
  | (.gone, reactor) =>
    { l with reactor, tasks := l.tasks.erase task.number, running := none }
  | (.waiting, reactor) => { l with reactor, running := none }
  | (.readable, reactor) =>
    ({ l with reactor }.log (.called task.descriptor task.number)).run
      (task.callback l.notes task.descriptor) (some task)

/-- Make a call of the job that runs for `owner`. -/
def call (l : EventLoop α ν) (owner : Option (WatchTask α ν)) : Job α ν → EventLoop α ν
  | .done =>
    match owner with
    | none => { l with running := none }
    | some task => l.pollWatch task
  | .note note next => (l.log (.noted note)).run next owner
  | .isHeld next => l.run (next l.isHeld) owner
  | .release next => l.release.run next owner
  | .post task next => (l.spawn fun _ ↦ .once task).run next owner
  | .postDelayed millis task next => (l.spawn fun _ ↦ .delayed millis task).run next owner
  | .watch descriptor isInside callback next =>
    if isInside then
      match l.watch descriptor callback with
      | (accepted, l) => l.run (next accepted) owner
    else l.run (next false) owner
  | .unwatch descriptor next => (l.unwatch descriptor).run next owner
  | .read descriptor limit next =>
    match l.reactor.take descriptor limit with
    | (units, reactor) => { l with reactor }.run (next units) owner
  | .write descriptor units next =>
    { l with reactor := l.reactor.arrive descriptor units }.run next owner
  | .hangUp descriptor next =>
    { l with reactor := l.reactor.hangUp descriptor }.run next owner
  | .replaceReactor next =>
    let sleeping := l.timers.map Prod.snd
    let watching := l.tasks.keys.filter fun number ↦
      match l.tasks.get? number with
      | some (.watching _) => true
      | _ => false
    ({ l with
      reactor := l.reactor.replace
      tasks := l.tasks.filter fun entry ↦ !sleeping.contains entry.1
      timers := [] }.wake watching.reverse).run next owner

/-- Look at a task. One that was given up is not run. -/
def poll (l : EventLoop α ν) (number : Nat) : EventLoop α ν :=
  match l.tasks.get? number with
  | none => l
  | some (.once job) | some (.asleep job) =>
    { l with tasks := l.tasks.erase number }.run job none
  | some (.delayed millis job) =>
    if millis = 0 then { l with tasks := l.tasks.erase number }.run job none
    else
      { l with
        tasks := l.tasks.insert number (.asleep job)
        timers := l.timers ++ [(l.clock + millis, number)] }
  | some (.watching task) => l.pollWatch task

/-- The tasks of watches with one of the registrations. -/
def waiters (l : EventLoop α ν) (registrations : List Nat) : List Nat :=
  registrations.filterMap fun registration ↦
    (l.watches.find? fun entry ↦ entry.2.registration == registration).map fun entry ↦
      entry.2.task

/-- Look at the reactor's signals, then at the timers that are due. -/
def turn (l : EventLoop α ν) : EventLoop α ν :=
  match l.reactor.harvest with
  | (registrations, reactor) =>
    let due := l.timers.filter fun timer ↦ timer.1 ≤ l.clock
    ({ l with reactor, timers := l.timers.filter fun timer ↦ l.clock < timer.1 }.wake
      (l.waiters registrations)).wake (due.map Prod.snd)

/-- Whether there is nothing to do until time goes on. -/
def isIdle (l : EventLoop α ν) : Bool :=
  l.running.isNone && l.queue.isEmpty && l.reactor.signals.isEmpty &&
    l.timers.all fun timer ↦ l.clock < timer.1

/-- One step: a call of the job that runs, the next task, or a look at signals and timers. -/
def step (l : EventLoop α ν) : EventLoop α ν :=
  match l.running, l.queue with
  | some (job, owner), _ => l.call owner job
  | none, number :: queue => { l with queue }.poll number
  | none, [] => l.turn

/-- The loop after a number of steps, or fewer if it has nothing to do. -/
def steps : (count : Nat) → EventLoop α ν → EventLoop α ν
  | 0, l => l
  | count + 1, l => if l.isIdle then l else steps count l.step

/-- The loop after what runs is done; no other task is looked at. -/
def finish : (count : Nat) → EventLoop α ν → EventLoop α ν
  | 0, l => l
  | count + 1, l => if l.running.isNone then l else finish count l.step

/-- The loop after so many milliseconds, with each looked at by itself. -/
def advance (count : Nat) : (millis : Nat) → EventLoop α ν → EventLoop α ν
  | 0, l => l.steps count
  | millis + 1, l =>
    let l := advance count millis l
    { l with clock := l.clock + 1 }.steps count

end EventLoop

end WifiNetlink
