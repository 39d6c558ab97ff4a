import WifiNetlink.Wire.Attribute

/-!
# Messages and datagrams

A message starts with a sixteen-byte header, whose first number is the length of the message. A
datagram packs messages one after the other, each on a four-byte boundary; the padding of the last
one may be missing.
-/

namespace WifiNetlink

/-- A message to be ignored. -/
def noopType : UInt16 := 1

/-- An error or an acknowledgement. -/
def errorType : UInt16 := 2

/-- The end of a reply in many parts. -/
def doneType : UInt16 := 3

/-- Replies were lost. -/
def overrunType : UInt16 := 4

/-- The least message type that names a family; lower ones are control messages. -/
def leastFamilyType : UInt16 := 0x10

/-- The message asks for something. -/
def requestFlag : UInt16 := 0x1

/-- The message is a part of many. -/
def multiFlag : UInt16 := 0x2

/-- The message asks for an acknowledgement. -/
def ackFlag : UInt16 := 0x4

/-- The message asks for all entries of a table. -/
def dumpFlags : UInt16 := 0x300

/-- The message names its request by the header alone. -/
def cappedFlag : UInt16 := 0x100

/-- The numbers before the body of a message. -/
structure MessageHeader where
  /-- Bytes of header and body. -/
  length : UInt32
  /-- A family, or the type of a control message. -/
  type : UInt16
  flags : UInt16
  /-- The number that a reply shares with its request; zero for multicast traffic. -/
  sequence : UInt32
  /-- The port of the sender. -/
  port : UInt32
deriving Repr, DecidableEq

namespace MessageHeader

/-- The header of a message without body. -/
def ofType (type flags : UInt16) : MessageHeader := ⟨16, type, flags, 0, 0⟩

/-- Whether the message is an error or an acknowledgement. -/
def isError (h : MessageHeader) : Bool := h.type == errorType

/-- Whether the message ends a reply in many parts. -/
def isDone (h : MessageHeader) : Bool := h.type == doneType

/-- Whether the message is a part of many. -/
def isMulti (h : MessageHeader) : Bool := h.flags &&& multiFlag != 0

/-- The header as bytes. -/
def toBytes (h : MessageHeader) : Bytes :=
  Bytes.ofNat 4 h.length.toNat ++ Bytes.ofNat 2 h.type.toNat ++ Bytes.ofNat 2 h.flags.toNat ++
    Bytes.ofNat 4 h.sequence.toNat ++ Bytes.ofNat 4 h.port.toNat

@[simp] theorem length_toBytes (h : MessageHeader) : h.toBytes.length = 16 := by
  simp [toBytes]

/-- The header at the start of `bytes`. -/
def read (bytes : Bytes) : Except Error MessageHeader :=
  if bytes.length < 16 then .error (.truncated 16 bytes.length)
  else
    .ok ⟨UInt32.ofNat (bytes.natAt 0 4), UInt16.ofNat (bytes.natAt 4 2),
      UInt16.ofNat (bytes.natAt 6 2), UInt32.ofNat (bytes.natAt 8 4),
      UInt32.ofNat (bytes.natAt 12 4)⟩

/-- A header reads back, whatever follows it. -/
theorem read_toBytes_append (h : MessageHeader) (rest : Bytes) :
    read (h.toBytes ++ rest) = .ok h := by
  have h16 : Nat.pow 256 2 = 2 ^ 16 := by decide
  have h32 : Nat.pow 256 4 = 2 ^ 32 := by decide
  have hlen : ¬ (h.toBytes ++ rest).length < 16 := by
    rw [List.length_append, length_toBytes]
    omega
  rw [read, if_neg hlen, toBytes]
  simp only [List.append_assoc, Bytes.natAt_append_of_le, Bytes.length_ofNat, Nat.le_refl,
    Bytes.natAt_ofNat_append, Nat.reduceLeDiff, Nat.reduceSub, h16, h32,
    Nat.mod_eq_of_lt h.length.toNat_lt, Nat.mod_eq_of_lt h.type.toNat_lt,
    Nat.mod_eq_of_lt h.flags.toNat_lt, Nat.mod_eq_of_lt h.sequence.toNat_lt,
    Nat.mod_eq_of_lt h.port.toNat_lt, UInt32.ofNat_toNat, UInt16.ofNat_toNat]

/-- The header that is read is the one that is written there. -/
theorem toBytes_of_read {bytes : Bytes} {h : MessageHeader} (hr : read bytes = .ok h) :
    16 ≤ bytes.length ∧ h.toBytes = bytes.take 16 ∧ h.length.toNat = bytes.natAt 0 4 := by
  have h16 : Nat.pow 256 2 = 2 ^ 16 := by decide
  have h32 : Nat.pow 256 4 = 2 ^ 32 := by decide
  unfold read at hr
  split at hr
  · contradiction
  · next hlen =>
    rw [← Except.ok.inj hr]
    have hword (start : Nat) : bytes.natAt start 4 % 2 ^ 32 = bytes.natAt start 4 :=
      Nat.mod_eq_of_lt (Bytes.natAt_lt bytes start 4)
    have hhalf (start : Nat) : bytes.natAt start 2 % 2 ^ 16 = bytes.natAt start 2 :=
      Nat.mod_eq_of_lt (Bytes.natAt_lt bytes start 2)
    refine ⟨by omega, ?_, ?_⟩
    · have hcut : bytes.take 16 = bytes.take 4 ++ (bytes.drop 4).take 2 ++ (bytes.drop 6).take 2 ++
          (bytes.drop 8).take 4 ++ (bytes.drop 12).take 4 := by
        rw [← List.take_add, ← List.take_add, ← List.take_add, ← List.take_add]
      simp only [toBytes, UInt32.toNat_ofNat', UInt16.toNat_ofNat', hword, hhalf]
      rw [hcut, Bytes.ofNat_natAt (by omega), Bytes.ofNat_natAt (by omega),
        Bytes.ofNat_natAt (by omega), Bytes.ofNat_natAt (by omega), Bytes.ofNat_natAt (by omega),
        List.drop_zero]
    · rw [UInt32.toNat_ofNat']
      exact hword 0

end MessageHeader

namespace Datagram

/-- The messages of a datagram, header included, up to and with the first fault. -/
def messages (data : Bytes) : List (Except Error Bytes) :=
  if data.isEmpty then []
  else
    match MessageHeader.read data with
    | .error e => [.error e]
    | .ok header =>
      if _h : header.length.toNat < 16 ∨ data.length < header.length.toNat then
        [.error (.invalidMessage (.lengthOutside header.length.toNat data.length))]
      else
        .ok (data.take header.length.toNat) :: messages (data.drop (align4 header.length.toNat))
termination_by data.length
decreasing_by
  have := le_align4 header.length.toNat
  simp only [List.length_drop]
  omega

end Datagram

end WifiNetlink
