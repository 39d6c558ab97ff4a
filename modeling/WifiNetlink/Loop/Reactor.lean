import WifiNetlink.Loop.Poll
import WifiNetlink.Table

/-!
# Readiness of descriptors

A reactor keeps, for each registered descriptor, whether it was signalled since its readiness was
cleared. The system signals changes only, so readiness that is cleared too early is not told again.
Whoever waits for a registration asks whether it is ready and then whether there is input; where
there is none, its readiness is cleared.
-/

namespace WifiNetlink

/-- An open file, holding units of input of type `α`: bytes of a pipe, datagrams of a socket. -/
structure File (α : Type) where
  queue : List α
  /-- Whether there is an error that was not read yet. -/
  hasFault : Bool
  /-- Whether the other end is closed. -/
  isHungUp : Bool
deriving Repr, DecidableEq

namespace File

variable {α : Type}

/-- A file without input. -/
def empty : File α := ⟨[], false, false⟩

/-- The events that waiting on the file reports. -/
def events (f : File α) : Nat :=
  (if f.queue.isEmpty then 0 else Poll.inputEvent) |||
    (if f.hasFault then Poll.errorEvent else 0) |||
    (if f.isHungUp then Poll.hangUpEvent else 0)

end File

/-- A descriptor that the reactor looks after. -/
structure Registration where
  descriptor : Int
  /-- Which of the files that the descriptor stood for in turn. -/
  file : Nat
  /-- Whether it was signalled since its readiness was cleared. -/
  isReady : Bool
  /-- Whether its reactor is gone. -/
  isLost : Bool
deriving Repr, DecidableEq

/-- What waiting for a registration gives at once. -/
inductive Readiness where
  | readable
  | waiting
  /-- The registration or its reactor is gone. -/
  | gone
deriving Repr, DecidableEq

/-- Files, and the registrations of their descriptors. -/
structure Reactor (α : Type) where
  /-- The open files by descriptor, each with its number. -/
  files : Table Int (Nat × File α)
  registrations : Table Nat Registration
  /-- The registrations that were signalled and not looked at, the first signalled first. -/
  signals : List Nat
  /-- The number of the next file or registration. -/
  nextNumber : Nat

namespace Reactor

variable {α : Type}

/-- Nothing is open. -/
def empty : Reactor α := ⟨[], [], [], 0⟩

/-- The events that waiting on a descriptor reports. -/
def events (r : Reactor α) (descriptor : Int) : Nat :=
  match r.files.get? descriptor with
  | some (_, f) => f.events
  | none => if descriptor < 0 then 0 else Poll.invalidEvent

/-- Open a file under a descriptor, in place of the one it had. -/
def openFile (r : Reactor α) (descriptor : Int) (f : File α) : Reactor α :=
  { r with
    files := r.files.insert descriptor (r.nextNumber, f)
    nextNumber := r.nextNumber + 1 }

/-- Whether a registration is told about a file. -/
def listens (file : Nat) (registration : Registration) : Bool :=
  registration.file == file && !registration.isLost

/-- The registrations that are told about a file, the earliest first. -/
def listeners (r : Reactor α) (file : Nat) : List Nat :=
  ((r.registrations.filter fun entry ↦ listens file entry.2).map Prod.fst).reverse

/-- A file changes so that there may be events, which is signalled. -/
def excite (r : Reactor α) (descriptor : Int) (change : File α → File α) : Reactor α :=
  match r.files.get? descriptor with
  | none => r
  | some (file, f) =>
    { r with
      files := r.files.insert descriptor (file, change f)
      signals := r.signals ++ (r.listeners file).filter (!r.signals.contains ·) }

/-- Input arrives. -/
def arrive (r : Reactor α) (descriptor : Int) (units : List α) : Reactor α :=
  if units.isEmpty then r
  else r.excite descriptor fun f ↦ { f with queue := f.queue ++ units }

/-- An error arises. -/
def breakDown (r : Reactor α) (descriptor : Int) : Reactor α :=
  r.excite descriptor fun f ↦ { f with hasFault := true }

/-- The other end is closed. -/
def hangUp (r : Reactor α) (descriptor : Int) : Reactor α :=
  r.excite descriptor fun f ↦ { f with isHungUp := true }

/-- Take at most so many units of input. An error that was not read yet is read instead. -/
def take (r : Reactor α) (descriptor : Int) (limit : Nat) : List α × Reactor α :=
  match r.files.get? descriptor with
  | none => ([], r)
  | some (file, f) =>
    if f.hasFault then
      ([], { r with files := r.files.insert descriptor (file, { f with hasFault := false }) })
    else
      (f.queue.take limit,
        { r with
          files := r.files.insert descriptor (file, { f with queue := f.queue.drop limit }) })

/-- Register a descriptor. What waits on its file already is signalled. A descriptor that is not
open, or is registered, is refused. -/
def register (r : Reactor α) (descriptor : Int) : Option Nat × Reactor α :=
  match r.files.get? descriptor with
  | none => (none, r)
  | some (file, f) =>
    if (r.listeners file).isEmpty then
      (some r.nextNumber,
        { r with
          registrations := r.registrations.insert r.nextNumber ⟨descriptor, file, false, false⟩
          signals := if f.events = 0 then r.signals else r.signals ++ [r.nextNumber]
          nextNumber := r.nextNumber + 1 })
    else (none, r)

/-- Give a registration up. -/
def deregister (r : Reactor α) (number : Nat) : Reactor α :=
  { r with
    registrations := r.registrations.erase number
    signals := r.signals.filter (· != number) }

/-- The reactor's registration after its readiness is set. -/
def setReady (r : Reactor α) (number : Nat) (isReady : Bool) : Reactor α :=
  match r.registrations.get? number with
  | none => r
  | some registration =>
    { r with registrations := r.registrations.insert number { registration with isReady } }

/-- Whether the file of a registration still has events. -/
def isEventful (r : Reactor α) (number : Nat) : Bool :=
  match r.registrations.get? number with
  | none => false
  | some registration =>
    match r.files.get? registration.descriptor with
    | none => false
    | some (file, f) => file == registration.file && f.events != 0

/-- Look at all signals: the registrations whose files still have events are ready, and are told. -/
def harvest (r : Reactor α) : List Nat × Reactor α :=
  let eventful := r.signals.filter r.isEventful
  (eventful, eventful.foldl (·.setReady · true) { r with signals := [] })

/-- Wait for a registration. Readiness is cleared where there seems to be no input. -/
def pollReadable (r : Reactor α) (number : Nat) : Readiness × Reactor α :=
  match r.registrations.get? number with
  | none => (.gone, r)
  | some registration =>
    if registration.isLost then (.gone, r)
    else if registration.isReady then
      match (Poll.Answer.reported (r.events registration.descriptor)).isReadable with
      | .ok true => (.readable, r)
      | _ => (.waiting, r.setReady number false)
    else (.waiting, r)

/-- The reactor goes, and another takes its place. -/
def replace (r : Reactor α) : Reactor α :=
  { r with
    registrations := r.registrations.map fun (number, registration) ↦
      (number, { registration with isLost := true })
    signals := [] }

end Reactor

end WifiNetlink
