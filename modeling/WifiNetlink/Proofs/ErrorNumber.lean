import WifiNetlink.Proofs.Reply
import WifiNetlink.Wifi.ScanRequest
import WifiNetlink.Wire.Family

/-!
# Error numbers

The kernel writes the code of a refusal as a negative number, and a reader of the reply turns its
sign: once to classify the message, and twice more on the way to an error. The least 32-bit number
has no opposite, so only the first turn, which saturates, may meet it. Main statement: whatever
bytes a message is read from, the error number of a refusal is the saturated opposite of the signed
number at the place of the code, no later turn of its sign overflows, and every error that is made
of it tells that number.
-/

namespace WifiNetlink

/-! ### What stands in the bytes -/

namespace Bytes

/-- The signed number that the four bytes from `start` on write, least significant first. -/
def signedAt (bytes : Bytes) (start : Nat) : Int := Int.bmod (bytes.natAt start 4) (2 ^ 32)

/-- The error number with which the message at the start of some bytes refuses, read by offset: the
length is declared at zero, the type stands at four and the code behind the header of sixteen. -/
inductive Refuses (data : Bytes) : Int32 → Prop where
  /-- There is a code, and it is not that of an acknowledgement. -/
  | code {e : Int32} (type_eq : data.natAt 4 2 = 2) (hasCode : 20 ≤ data.natAt 0 4)
    (ne_zero : data.signedAt 16 ≠ 0) (eq : e.toInt = min (-data.signedAt 16) (2 ^ 31 - 1)) :
    Refuses data e
  /-- The declared length cuts the code. -/
  | short (type_eq : data.natAt 4 2 = 2) (isShort : data.natAt 0 4 < 20) :
    Refuses data Errno.badmsg

/-- The signed number is that of the 32 bits. -/
theorem signedAt_eq (bytes : Bytes) (start : Nat) :
    bytes.signedAt start = (UInt32.ofNat (bytes.natAt start 4)).toInt32.toInt := by
  have hword : bytes.natAt start 4 % 2 ^ 32 = bytes.natAt start 4 :=
    Nat.mod_eq_of_lt (natAt_lt bytes start 4)
  have hsigned : (UInt32.ofNat (bytes.natAt start 4)).toInt32.toInt =
      Int.bmod (UInt32.ofNat (bytes.natAt start 4)).toNat (2 ^ 32) :=
    BitVec.toInt_eq_toNat_bmod (UInt32.ofNat (bytes.natAt start 4)).toBitVec
  rw [hsigned, UInt32.toNat_ofNat', hword]
  rfl

end Bytes

/-! ### Turning the sign -/

theorem toInt_neg_of_ne_minValue {n : Int32} (h : n ≠ Int32.minValue) : (-n).toInt = -n.toInt := by
  have hmin : n.toInt ≠ -2 ^ 31 := by
    intro hn
    exact h (Int32.toInt_inj.mp (hn.trans Int32.toInt_minValue.symm))
  have hle := n.le_toInt
  have hlt := n.toInt_lt
  rw [Int32.toInt_neg]
  exact Int.bmod_eq_of_le (by omega) (by omega)

/-- The opposite of a number, cut off at the greatest number. -/
theorem toInt_saturatingNeg (n : Int32) :
    (saturatingNeg n).toInt = min (-n.toInt) (2 ^ 31 - 1) := by
  unfold saturatingNeg
  split
  · next h =>
    rw [h]
    rfl
  · next h =>
    -- What has an opposite has one below the cut.
    have hle := (-n).toInt_lt
    rw [toInt_neg_of_ne_minValue h] at hle ⊢
    omega

theorem saturatingNeg_ne_minValue (n : Int32) : saturatingNeg n ≠ Int32.minValue := by
  intro h
  have hn := toInt_saturatingNeg n
  have hlt := n.toInt_lt
  rw [h, Int32.toInt_minValue] at hn
  omega

/-- Whether a number can stand for an error: its sign can be turned, and turned back, without
overflow. -/
structure IsErrorNumber (e : Int32) : Prop where
  ne_zero : e ≠ 0
  ne_minValue : e ≠ Int32.minValue
  toInt_neg : (-e).toInt = -e.toInt
  toInt_neg_neg : (-(-e)).toInt = -(-e).toInt

theorem IsErrorNumber.of_ne {e : Int32} (hzero : e ≠ 0) (hmin : e ≠ Int32.minValue) :
    IsErrorNumber e where
  ne_zero := hzero
  ne_minValue := hmin
  toInt_neg := toInt_neg_of_ne_minValue hmin
  toInt_neg_neg := by rw [Int32.neg_neg, toInt_neg_of_ne_minValue hmin, Int.neg_neg]

/-! ### What errors tell -/

/-- Whether an error tells an error number, also if an operation is named to it. -/
structure Error.Tells (err : Error) (e : Int32) : Prop where
  errno_eq : err.errno? = some e
  during_eq (operation : String) : (err.during operation).errno? = some e

namespace Error

variable {err : Error} {e : Int32}

theorem Tells.of_errno (h : err.errno? = some e) : err.Tells e :=
  ⟨h, fun operation ↦ (errno?_during operation err).trans h⟩

theorem Tells.during (h : err.Tells e) (operation : String) : (err.during operation).Tells e :=
  .of_errno (h.during_eq operation)

/-- The sign that is turned for an error is turned back in it. -/
theorem tells_ofErrno (e : Int32) : (ofErrno (-e)).Tells e :=
  .of_errno (congrArg some Int32.neg_neg)

theorem tells_ofErrnoDuring (operation : String) (e : Int32) :
    (ofErrnoDuring operation (-e)).Tells e :=
  .of_errno (congrArg some Int32.neg_neg)

/-- Whether an outcome is a failure with this error, and the error tells an error number. -/
structure IsReported {α : Type} (outcome : Except Error α) (err : Error) (e : Int32) : Prop where
  eq : outcome = .error err
  tells : err.Tells e

end Error

namespace Packet

/-- What the readers of replies make of a refusal with an error number. The results of a scan pass
over it; the others fail with an error for the opposite number. -/
structure Reports (p : Packet) (e : Int32) : Prop where
  checkError : Error.IsReported p.checkError (.ofErrno (-e)) e
  ofPacket : Error.IsReported (Family.ofPacket p) ((Error.ofErrno (-e)).during "get family") e
  expectAck (operation : String) (rest : List Packet) :
    Error.IsReported (Operation.expectAck operation (p :: rest)) (.ofErrnoDuring operation (-e)) e
  checkReply (family : UInt16) (expected : Command) (operation : String) :
    Error.IsReported (Operation.checkReply family expected operation p)
      (.ofErrnoDuring operation (-e)) e
  resultOf?_eq (family : UInt16) (ifindex : UInt32) : ScanRequest.resultOf? family ifindex p = none

variable {data : Bytes} {p : Packet} {e : Int32}

theorem reports_of_kind (hk : p.kind = .error e) : p.Reports e where
  checkError := ⟨by rw [Packet.checkError, hk], Error.tells_ofErrno e⟩
  ofPacket := by
    refine ⟨?_, (Error.tells_ofErrno e).during "get family"⟩
    simp only [Family.ofPacket, hk]
    rfl
  expectAck operation rest :=
    ⟨by rw [Operation.expectAck, hk], Error.tells_ofErrnoDuring operation e⟩
  checkReply family expected operation :=
    ⟨by rw [Operation.checkReply, hk], Error.tells_ofErrnoDuring operation e⟩
  resultOf?_eq family ifindex := by rw [ScanRequest.resultOf?, hk]

theorem checkError_eq_error_iff {err : Error} :
    p.checkError = .error err ↔ ∃ e, p.kind = .error e ∧ err = .ofErrno (-e) := by
  constructor
  · intro h
    unfold checkError at h
    split at h
    · next e hk => exact ⟨e, hk, (Except.error.inj h).symm⟩
    · contradiction
  · rintro ⟨e, hk, rfl⟩
    exact (reports_of_kind hk).checkError.eq

/-- The error number of a refusal can be turned. -/
theorem isErrorNumber_of_kind (hk : p.kind = .error e) : IsErrorNumber e := by
  obtain ⟨-, ⟨-, rfl⟩ | ⟨hcode, hzero⟩⟩ := kind_eq_error_iff.mp hk
  · exact .of_ne (by decide) (by decide)
  · rw [errorCode?_eq, Option.map_eq_some_iff] at hcode
    obtain ⟨code, -, rfl⟩ := hcode
    exact .of_ne hzero (saturatingNeg_ne_minValue code)

/-! ### From the bytes to the error number -/

/-- Where the length, the type and the code of a message stand. -/
private theorem fields_of_parse (hp : parse data = .ok p) :
    data.natAt 0 4 = p.length ∧ data.natAt 4 2 = p.type.toNat ∧
      (20 ≤ p.length → data.natAt 16 4 = p.body.natAt 0 4) := by
  obtain ⟨hsize, rest, rfl⟩ := parse_eq_ok_iff.mp hp
  have hbytes : p.toBytes ++ rest = p.header.toBytes ++ (p.body ++ rest) := by
    rw [toBytes, List.append_assoc]
  have hread : MessageHeader.read (p.toBytes ++ rest) = .ok p.header := by
    rw [hbytes]
    exact MessageHeader.read_toBytes_append p.header (p.body ++ rest)
  refine ⟨?_, ?_, ?_⟩
  · rw [← (MessageHeader.toBytes_of_read hread).2.2, header]
    exact (UInt32.toNat_ofNat' ..).trans (Nat.mod_eq_of_lt hsize)
  · unfold MessageHeader.read at hread
    split at hread
    · contradiction
    · have htype : UInt16.ofNat ((p.toBytes ++ rest).natAt 4 2) = p.type :=
        congrArg MessageHeader.type (Except.ok.inj hread)
      rw [← htype]
      exact ((UInt16.toNat_ofNat' ..).trans (Nat.mod_eq_of_lt (Bytes.natAt_lt _ 4 2))).symm
  · intro hlong
    have hfour : 0 + 4 ≤ p.body.length := by
      rw [length] at hlong
      omega
    have hheader : p.header.toBytes.length = 16 := MessageHeader.length_toBytes p.header
    rw [hbytes, Bytes.natAt_append_of_le _ _ (Nat.le_of_eq hheader), hheader,
      Bytes.natAt_append_of_add_le _ hfour]

/-- A message that is long enough has the code that its bytes have there. -/
private theorem exists_code_of_parse (hp : parse data = .ok p) (htype : data.natAt 4 2 = 2)
    (hlong : 20 ≤ data.natAt 0 4) : ∃ c, p.code? = some c ∧ c.toInt = data.signedAt 16 := by
  obtain ⟨hlength, htypes, hcode⟩ := fields_of_parse hp
  rw [hlength] at hlong
  have ht : p.type = errorType := UInt16.toNat_inj.mp (htypes.symm.trans htype)
  have hbody : ¬ (p.type ≠ errorType ∨ p.body.length < 4) := by
    rw [length] at hlong
    rintro (hne | hlt)
    · exact hne ht
    · omega
  refine ⟨_, if_neg hbody, ?_⟩
  rw [Bytes.signedAt_eq, hcode hlong]

/-- What the bytes refuse with is read from them. -/
private theorem kind_of_refuses (hp : parse data = .ok p) (hr : data.Refuses e) :
    p.kind = .error e := by
  cases hr with
  | code htype hlong hne he =>
    obtain ⟨c, hc, hword⟩ := exists_code_of_parse hp htype hlong
    have hzero : c ≠ 0 := by
      rintro rfl
      exact hne hword.symm
    have heq : saturatingNeg c = e := by
      apply Int32.toInt_inj.mp
      rw [toInt_saturatingNeg, hword, he]
    rw [← heq]
    exact kind_of_code? hc hzero
  | short htype hshort =>
    obtain ⟨hlength, htypes, -⟩ := fields_of_parse hp
    exact kind_of_length_lt (UInt16.toNat_inj.mp (htypes.symm.trans htype)) (hlength ▸ hshort)

/-- What is read as a refusal is one by its bytes. -/
private theorem refuses_of_kind (hp : parse data = .ok p) (hk : p.kind = .error e) :
    data.Refuses e := by
  obtain ⟨hlength, htypes, -⟩ := fields_of_parse hp
  have ht : p.type = errorType := (kind_eq_error_iff.mp hk).1
  have htype : data.natAt 4 2 = 2 := htypes.trans (congrArg UInt16.toNat ht)
  by_cases hlong : 20 ≤ data.natAt 0 4
  · obtain ⟨c, hc, hword⟩ := exists_code_of_parse hp htype hlong
    have hzero : c ≠ 0 := by
      rintro rfl
      rw [kind_eq_ack_iff.mpr (code?_eq_some_iff.mp hc)] at hk
      contradiction
    have he : saturatingNeg c = e := PacketKind.error.inj ((kind_of_code? hc hzero).symm.trans hk)
    refine .code htype hlong ?_ ?_
    · rw [← hword]
      exact fun h ↦ hzero (Int32.toInt_inj.mp h)
    · rw [← he, toInt_saturatingNeg, hword]
  · have hshort : data.natAt 0 4 < 20 := Nat.lt_of_not_le hlong
    have hbadmsg := kind_of_length_lt ht (hlength ▸ hshort)
    obtain rfl : Errno.badmsg = e := PacketKind.error.inj (hbadmsg.symm.trans hk)
    exact .short htype hshort

/-- Whatever bytes a message is read from: it is a refusal exactly if they refuse, with their error
number, and exactly then its check fails. Turning the sign of that number does not overflow, not
even twice, and what is made of it by every reader of replies tells that number. -/
theorem refusal_of_parse (hp : parse data = .ok p) :
    (∀ e, p.kind = .error e ↔ data.Refuses e) ∧
    (∀ err, p.checkError = .error err ↔ ∃ e, p.kind = .error e ∧ err = .ofErrno (-e)) ∧
    ∀ e, p.kind = .error e → IsErrorNumber e ∧ p.Reports e := by
  refine ⟨?_, ?_, ?_⟩
  · intro e
    exact ⟨refuses_of_kind hp, kind_of_refuses hp⟩
  · intro err
    exact checkError_eq_error_iff
  · intro e hk
    exact ⟨isErrorNumber_of_kind hk, reports_of_kind hk⟩

/-- A refusal with the least code, which has no opposite. -/
def leastRefusal : Packet := ⟨errorType, 0, 1, 0, [0, 0, 0, 128]⟩

/-- A message of error type that declares two bytes of its code only. -/
def cutRefusal : Packet := ⟨errorType, 0, 1, 0, [255, 255]⟩

/-- The least code gives the greatest error number, and a code that the declared length cuts is
none, even if its other bytes follow. -/
theorem refusal_of_parse_least :
    (parse leastRefusal.toBytes = .ok leastRefusal ∧
      leastRefusal.toBytes.Refuses Int32.maxValue ∧ IsErrorNumber Int32.maxValue ∧
      leastRefusal.Reports Int32.maxValue) ∧
    parse (cutRefusal.toBytes ++ [255, 255]) = .ok cutRefusal ∧
      (cutRefusal.toBytes ++ [255, 255]).Refuses Errno.badmsg ∧ IsErrorNumber Errno.badmsg ∧
      cutRefusal.Reports Errno.badmsg := by
  have hleast : parse leastRefusal.toBytes = .ok leastRefusal := by cbv
  have hcut : parse (cutRefusal.toBytes ++ [255, 255]) = .ok cutRefusal := by cbv
  have hleastKind : leastRefusal.kind = .error Int32.maxValue := by decide
  have hcutKind : cutRefusal.kind = .error Errno.badmsg := by decide
  obtain ⟨hrefuses, -, hreports⟩ := refusal_of_parse hleast
  obtain ⟨hrefusesCut, -, hreportsCut⟩ := refusal_of_parse hcut
  exact ⟨⟨hleast, (hrefuses _).mp hleastKind, hreports _ hleastKind⟩,
    hcut, (hrefusesCut _).mp hcutKind, hreportsCut _ hcutKind⟩

end Packet

end WifiNetlink
