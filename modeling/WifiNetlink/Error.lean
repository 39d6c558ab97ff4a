import WifiNetlink.Duration
import WifiNetlink.Errno
import WifiNetlink.Text.Utf8

/-!
# Errors

The causes for which an operation fails, and the wording of each. A cause that carries free text
(`stated`) comes from outside this library. A kernel error remembers the error number with its
sign turned positive; turning a sign wraps at the least 32-bit number, which has no opposite.
-/

namespace WifiNetlink

/-- A failed system call. -/
inductive SystemFault where
  /-- The system gave this error number. -/
  | errno (number : Int32)
  /-- A receive buffer of that size cannot be asked for. -/
  | receiveBufferTooLarge
  /-- Only a part of a message was taken. -/
  | shortSend (sent length : Nat)
  /-- There is no channel to wait on. -/
  | notConnected
  /-- Waiting reported an error condition, given as a bit set. -/
  | pollReported (events : Nat)
deriving Repr, DecidableEq

/-- The digits of a number in base sixteen. -/
private def hexDigits (n : Nat) : String := String.ofList (Nat.toDigits 16 n)

/-- The wording of a failed system call. -/
def SystemFault.message : SystemFault → String
  | errno number => Errno.text number.toInt
  | receiveBufferTooLarge => "receive buffer too large"
  | shortSend sent length =>
    "short send: " ++ toString sent ++ " of " ++ toString length ++ " bytes"
  | notConnected => "not connected"
  | pollReported events => "poll reported revents 0x" ++ hexDigits events

/-- What is wrong with a message. -/
inductive MessageFault where
  /-- Its declared length does not cover its header. -/
  | lengthBelowHeader (declared : Nat)
  /-- Its declared length does not fit the rest of the datagram. -/
  | lengthOutside (declared remaining : Nat)
  /-- A request carries the sequence number of multicast traffic. -/
  | reservedSequence
  /-- A family query has more than one answer. -/
  | familyReplies (count : Nat)
  /-- Something else, in words. -/
  | stated (text : String)
deriving Repr, DecidableEq

/-- The wording of a message fault. -/
def MessageFault.message : MessageFault → String
  | lengthBelowHeader declared =>
    "declared length " ++ toString declared ++ " shorter than header"
  | lengthOutside declared remaining =>
    "declared message length " ++ toString declared ++ " with " ++ toString remaining ++
      " bytes remaining"
  | reservedSequence => "sequence 0 is reserved for multicast"
  | familyReplies count => "expected one reply to get family, got " ++ toString count
  | stated text => text

/-- What is wrong with an attribute or a value it carries. -/
inductive AttributeFault where
  /-- The payload does not fit an attribute of that type. -/
  | payloadTooLarge (size : Nat) (type : UInt16)
  /-- The declared length does not cover the header. -/
  | lengthBelowHeader (declared : Nat)
  /-- A container of that kind has no room for the child. -/
  | containerFull (kind : UInt16)
  /-- A number of `width` bytes was expected. -/
  | wrongWidth (width : Nat) (type : String) (size : Nat)
  /-- A text is no UTF-8. -/
  | notUtf8 (fault : Utf8.Fault)
  /-- A byte string of another length was expected. -/
  | arraySize (expected size : Nat)
  /-- A hardware address has another length. -/
  | addressSize (size : Nat)
  /-- A hardware address in text ends early. -/
  | addressShort (text : String)
  /-- A part of a hardware address in text is no byte. -/
  | addressOctet (part : String)
  /-- A hardware address in text goes on. -/
  | addressLong (text : String)
  /-- An information element runs past the end. -/
  | elementOverrun (remaining : Nat)
  /-- A wiphy property has a payload of the wrong size. -/
  | propertySize (property : String) (size : Nat)
  /-- A scheduled scan interval has too many milliseconds. -/
  | intervalTooLong (interval : Duration)
  /-- Something else, in words. -/
  | stated (text : String)
deriving Repr, DecidableEq

/-- The wording of an attribute fault. -/
def AttributeFault.message : AttributeFault → String
  | payloadTooLarge size type =>
    "payload of " ++ toString size ++ " bytes does not fit attribute " ++ toString type
  | lengthBelowHeader declared =>
    "declared length " ++ toString declared ++ " shorter than header"
  | containerFull kind => "container " ++ toString kind ++ " would exceed 65535 bytes"
  | wrongWidth width type size =>
    "expected " ++ toString width ++ " byte " ++ type ++ " payload, got " ++ toString size ++
      " bytes"
  | notUtf8 fault => "invalid UTF-8: " ++ fault.message
  | arraySize expected size =>
    "expected " ++ toString expected ++ " bytes, got " ++ toString size
  | addressSize size => "MAC address must be 6 bytes, got " ++ toString size
  | addressShort text => "short MAC address: " ++ text
  | addressOctet part => "bad MAC octet: " ++ part
  | addressLong text => "long MAC address: " ++ text
  | elementOverrun remaining =>
    "information element overruns buffer (" ++ toString remaining ++ " bytes left)"
  | propertySize property size =>
    property ++ ": unexpected payload of " ++ toString size ++ " bytes"
  | intervalTooLong interval => "scheduled scan interval " ++ interval.text ++ " too long"
  | stated text => text

/-- Why the event loop refused. -/
inductive LoopFault where
  /-- The descriptor cannot be watched. -/
  | watchRefused (descriptor : Nat)
  /-- Something else, in words. -/
  | stated (text : String)
deriving Repr, DecidableEq

/-- The wording of a refusal of the event loop. -/
def LoopFault.message : LoopFault → String
  | watchRefused descriptor => "failed to watch fd " ++ toString descriptor
  | stated text => text

/-- Why an operation failed. -/
inductive Error where
  /-- A system call failed. -/
  | io (fault : SystemFault)
  /-- The kernel refused the request with a positive error number. -/
  | kernel (errno : Int32)
  /-- The kernel refused the request of a named operation. -/
  | kernelDuring (operation : String) (errno : Int32)
  /-- Bytes end before a header or a declared length does. -/
  | truncated (expected actual : Nat)
  | invalidMessage (fault : MessageFault)
  | invalidAttribute (fault : AttributeFault)
  /-- A reply lacks an attribute that the operation needs. -/
  | missingAttribute (which : String)
  /-- A reply has another message type. -/
  | unexpectedType (expected actual : UInt16)
  /-- A reply has another command. -/
  | unexpectedCommand (expected actual : UInt8)
  /-- There is no reply. -/
  | emptyResponse
  /-- The kernel has no family of that name. -/
  | familyNotFound (name : String)
  /-- The family has no multicast group of that name. -/
  | groupNotFound (family group : String)
  /-- A wiphy has no network interface that can be used. -/
  | noUsableInterface (wiphy : UInt32)
  /-- The budget of an exchange is spent. -/
  | timeout (budget : Duration)
  /-- The transport is not started. -/
  | notStarted
  /-- A dump was asked for on the asynchronous channel. -/
  | dumpNotAllowed
  | eventLoop (fault : LoopFault)
deriving Repr, DecidableEq

namespace Error

/-- The kernel error for the negative error number of a reply. -/
def ofErrno (errno : Int32) : Error := kernel (-errno)

/-- The kernel error for the negative error number of a reply to a named operation. -/
def ofErrnoDuring (operation : String) (errno : Int32) : Error := kernelDuring operation (-errno)

/-- Name the operation of a kernel error that names none. -/
def during (operation : String) : Error → Error
  | kernel errno => kernelDuring operation errno
  | other => other

/-- The error number of a kernel error. -/
def errno? : Error → Option Int32
  | kernel errno | kernelDuring _ errno => some errno
  | _ => none

/-- What was named does not exist. -/
def isNotFound : Error → Bool
  | kernel errno | kernelDuring _ errno => errno == Errno.noent || errno == Errno.nodev
  | familyNotFound _ | groupNotFound _ _ => true
  | _ => false

/-- The caller lacks a permission. -/
def isPermissionDenied : Error → Bool
  | kernel errno | kernelDuring _ errno | io (.errno errno) =>
    errno == Errno.perm || errno == Errno.acces
  | _ => false

/-- The device is in use. -/
def isBusy (e : Error) : Bool := e.errno? == some Errno.busy

/-- The budget of an exchange is spent. -/
def isTimeout : Error → Bool
  | timeout _ => true
  | _ => false

/-- The wording of an error. -/
def message : Error → String
  | io fault => "I/O error: " ++ fault.message
  | kernel errno =>
    "kernel error: " ++ Errno.text errno.toInt ++ " (errno " ++ toString errno ++ ")"
  | kernelDuring operation errno =>
    operation ++ ": " ++ Errno.text errno.toInt ++ " (errno " ++ toString errno ++ ")"
  | truncated expected actual =>
    "message truncated: expected " ++ toString expected ++ " bytes, got " ++ toString actual
  | invalidMessage fault => "invalid message: " ++ fault.message
  | invalidAttribute fault => "invalid attribute: " ++ fault.message
  | missingAttribute which => "missing attribute: " ++ which
  | unexpectedType expected actual =>
    "unexpected message type: expected " ++ toString expected ++ ", got " ++ toString actual
  | unexpectedCommand expected actual =>
    "unexpected command: expected " ++ toString expected ++ ", got " ++ toString actual
  | emptyResponse => "empty response from kernel"
  | familyNotFound name => "generic netlink family not found: " ++ name
  | groupNotFound family group => "multicast group " ++ group ++ " not found in family " ++ family
  | noUsableInterface wiphy => "no usable interface on wiphy " ++ toString wiphy
  | timeout budget => "timed out waiting for netlink reply after " ++ budget.text
  | notStarted => "netlink transport not started"
  | dumpNotAllowed => "dump requests are not allowed on the asynchronous socket"
  | eventLoop fault => "event loop error: " ++ fault.message

/-- The wording of an error followed by the wording of what caused it. A system call that failed is
its own cause, so it is named twice. -/
def chainMessage : Error → String
  | io fault => message (io fault) ++ ": " ++ fault.message
  | other => other.message

@[simp] theorem errno?_during (operation : String) (e : Error) :
    (e.during operation).errno? = e.errno? := by
  cases e <;> rfl

end Error

end WifiNetlink
