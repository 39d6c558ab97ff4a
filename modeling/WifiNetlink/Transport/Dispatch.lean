import WifiNetlink.Transport.Machine

/-!
# Dispatching messages

A message with a sequence number goes to the handler that waits for that number, which is called
again with the next one only if the message is a part of many and no end of the exchange. A message
without one is multicast traffic and can only be a notice for a subscription.
-/

namespace WifiNetlink

/-- What a message means for the handler of its sequence number. -/
inductive Delivery where
  /-- The exchange is over, and the message itself says nothing else. -/
  | finish
  /-- The handler is called, and waits for more. -/
  | handOn
  /-- The handler is called for the last time. -/
  | handLast
deriving Repr, DecidableEq

/-- What a message means for the handler of its sequence number. -/
def Packet.delivery (p : Packet) : Delivery :=
  match p.kind with
  | .done | .noop | .overrun => .finish
  | .ack | .error _ => .handLast
  | _ => if p.isMultipart then .handOn else .handLast

namespace Exchange

/-- The exchange with one more reply, if it is the one of that number. -/
def gather {σ ν : Type} (number : Nat) (p : Packet) (x : Exchange σ ν) : Exchange σ ν :=
  if x.number = number then { x with gathered := p :: x.gathered } else x

end Exchange

namespace Frame

variable {σ ν : Type}

/-- The frame after a reply is gathered. -/
def gather (number : Nat) (p : Packet) : Frame σ ν → Frame σ ν
  | collecting x => collecting (x.gather number p)
  | frame => frame

/-- Whether the handler of a subscription runs in the frame. -/
def notifies (subscription : Nat) : Frame σ ν → Bool
  | notifying number => number == subscription
  | _ => false

/-- Whether the callback of a descriptor's watch runs in the frame. -/
def fires (descriptor : Nat) : Frame σ ν → Bool
  | firing number => number == descriptor
  | _ => false

end Frame

namespace Machine

variable {σ ν : Type}

/-- Run the handler of a subscription, unless it is running. -/
def notify {α : Type} (subscription : Option (Subscription σ ν α)) (value : α)
    (event : Nat → Event ν) (m : Machine σ ν) : Machine σ ν :=
  match subscription with
  | none => m.resume
  | some s =>
    if m.stack.any (Frame.notifies s.number) then m.resume
    else
      let m := (m.log (event s.number)).push (.notifying s.number)
      m.run (s.react m.journal value)

/-- Dispatch a message without a sequence number. -/
def dispatchMulticast (p : Packet) (m : Machine σ ν) : Machine σ ν :=
  match m.transport.family?.bind fun family ↦ Notice.ofPacket? family.id p with
  | none => m.resume
  | some (.scan n) =>
    m.notify (m.transport.scans.get? n.ifindex) n fun number ↦ .scanEnded number n
  | some (.schedule ifindex) =>
    m.notify (m.transport.schedules.get? ifindex) ifindex fun number ↦
      .scheduleFired number ifindex

/-- Call a handler with a message. -/
def reply (handler : Handler σ ν) (p : Packet) (again : Bool) (m : Machine σ ν) : Machine σ ν :=
  match handler with
  | .gather number =>
    let m := { m with stack := m.stack.map (Frame.gather number p) }
    (if again then m.adjust (·.expect p.sequence handler) else m).resume
  | .client react =>
    let m := (m.log (.replied p.sequence p)).push (.replying p.sequence handler again)
    m.run (react m.journal p)

/-- Dispatch a message with a sequence number. Its handler is out of the table while it runs. -/
def dispatchReply (p : Packet) (m : Machine σ ν) : Machine σ ν :=
  match m.transport.pending.get? p.sequence with
  | none => m.resume
  | some handler =>
    let m := m.adjust (·.forget p.sequence)
    match p.delivery with
    | .finish => m.resume
    | .handOn => m.reply handler p true
    | .handLast => m.reply handler p false

/-- Dispatch a message. -/
def dispatch (p : Packet) (m : Machine σ ν) : Machine σ ν :=
  let m := m.log (.dispatched p)
  if p.sequence = 0 then m.dispatchMulticast p else m.dispatchReply p

end Machine

end WifiNetlink
