/-!
# Jobs of an event loop

What runs on an event loop is data: one call, and what to do with its answer. Tasks and the
callbacks of watches are jobs, and may post tasks and change watches while they run.
-/

namespace WifiNetlink

/-- Code that runs on an event loop, over files with units `α` and with notes of type `ν`. -/
inductive Job (α ν : Type) : Type where
  | done
  /-- Leave a note in the journal. -/
  | note (note : ν) (next : Job α ν)
  /-- Whether the event loop is still held. -/
  | isHeld (next : Bool → Job α ν)
  /-- Drop the event loop. -/
  | release (next : Job α ν)
  /-- Have a task run soon. -/
  | post (task : Job α ν) (next : Job α ν)
  /-- Have a task run after so many milliseconds. -/
  | postDelayed (millis : Nat) (task : Job α ν) (next : Job α ν)
  /-- Have a callback called whenever a descriptor has input. It is a function of the notes left
  before. Outside of a running loop nothing can be watched. -/
  | watch (descriptor : Int) (isInside : Bool) (callback : List ν → Int → Job α ν)
      (next : Bool → Job α ν)
  | unwatch (descriptor : Int) (next : Job α ν)
  /-- Take at most so many units of input. -/
  | read (descriptor : Int) (limit : Nat) (next : List α → Job α ν)
  /-- Input arrives. -/
  | write (descriptor : Int) (units : List α) (next : Job α ν)
  /-- The other end is closed. -/
  | hangUp (descriptor : Int) (next : Job α ν)
  /-- The reactor goes, and another takes its place. -/
  | replaceReactor (next : Job α ν)

end WifiNetlink
