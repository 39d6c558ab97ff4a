import WifiNetlink.Error

/-!
# Waiting for input

Waiting on a descriptor asks the system for so many milliseconds and gets a set of events. A part of
a millisecond is waited for as a whole one, so a wait that has time left never turns into none;
spans that are too long are cut to the longest one that can be asked for. An error event makes the
wait fail even if there is input.
-/

namespace WifiNetlink.Poll

/-- There is input. -/
def inputEvent : Nat := 0x1

/-- There is an error that was not read yet. -/
def errorEvent : Nat := 0x8

/-- The other end is closed. -/
def hangUpEvent : Nat := 0x10

/-- The descriptor is not open. -/
def invalidEvent : Nat := 0x20

/-- The longest wait in milliseconds. -/
def longestMillis : Nat := (1 <<< 31) - 1

/-- The milliseconds to ask for. -/
def timeoutMillis (timeout : Duration) : Int32 :=
  Int32.ofNat (min timeout.millisCeil longestMillis)

/-- What waiting gives. -/
inductive Answer where
  | failed (errno : Int32)
  /-- The events that ended the wait, none if time is over. -/
  | reported (events : Nat)
deriving Repr, DecidableEq

/-- Whether there is input. An interruption is like the end of the time. -/
def Answer.isReadable : Answer → Except SystemFault Bool
  | failed errno => if errno = Errno.intr then .ok false else .error (.errno errno)
  | reported events =>
    if events &&& (errorEvent ||| invalidEvent) ≠ 0 then .error (.pollReported events)
    else .ok (events &&& inputEvent != 0)

end WifiNetlink.Poll
