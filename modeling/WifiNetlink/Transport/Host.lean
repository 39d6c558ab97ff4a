import WifiNetlink.Bytes
import WifiNetlink.Error

/-!
# The system around a transport

A transport reads a clock, opens channels to the kernel, and has the event loop call it when a
channel becomes readable. All of this is given as functions on a state of the system, so the same
transport runs on a real system, on a prepared one, and on any that a statement speaks of. Channels
are known by their descriptors, instants and spans of time are counted in nanoseconds.
-/

namespace WifiNetlink

/-- What a channel hands over: the length it reports and the bytes it stored. -/
structure Reception where
  reported : Nat
  stored : Bytes
deriving Repr, DecidableEq

namespace Reception

/-- A datagram that is handed over whole. -/
def whole (datagram : Bytes) : Reception := ⟨datagram.length, datagram⟩

/-- The bytes that count as received: no more than are stored. -/
def datagram (r : Reception) : Bytes := r.stored.take r.reported

@[simp] theorem datagram_whole (bytes : Bytes) : (whole bytes).datagram = bytes := by
  simp [datagram, whole]

end Reception

/-- A system with states `σ`. -/
structure Host (σ : Type) where
  /-- The time now. -/
  now : σ → Nat × σ
  /-- Open a channel with receive buffers of a size. -/
  openChannel : (size : Nat) → σ → Except SystemFault Nat × σ
  closeChannel : (descriptor : Nat) → σ → σ
  /-- Hand a message to the kernel; tells how many bytes it took. -/
  send : (descriptor : Nat) → (message : Bytes) → σ → Except SystemFault Nat × σ
  /-- Take the next datagram without waiting. -/
  receive : (descriptor capacity : Nat) → σ → Except SystemFault Reception × σ
  /-- Wait until a channel is readable, at most so long; tells whether it is. -/
  poll : (descriptor timeout : Nat) → σ → Except SystemFault Bool × σ
  joinGroup : (descriptor : Nat) → (group : UInt32) → σ → Except SystemFault Unit × σ
  leaveGroup : (descriptor : Nat) → (group : UInt32) → σ → Except SystemFault Unit × σ
  /-- Ask the event loop to watch a channel; tells whether it accepts. -/
  watch : (descriptor : Nat) → σ → Bool × σ
  unwatch : (descriptor : Nat) → σ → σ
  /-- Let the event loop wait for one of the watched channels to become readable, at most so long or
  until the program is interrupted; tells which one did. -/
  await : (watched : List Nat) → (timeout : Option Nat) → σ → Option Nat × σ

end WifiNetlink
