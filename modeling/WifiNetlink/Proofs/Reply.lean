import WifiNetlink.Proofs.Decoding
import WifiNetlink.Wifi.Operation

/-!
# Replies

What is read of one reply: the first attribute of a kind, the code of an error message, and whether
the reply is one that an operation asked for. Main statements: a reply passes the check exactly if
it is no refusal, comes from the family and has the command, and is refused for the first of these
that fails; an error message with code zero, and no other message, is an acknowledgement.
-/

namespace WifiNetlink

namespace Packet

/-- Whether the first attribute of a kind has that payload. -/
def First (p : Packet) (kind : UInt16) (payload : Bytes) : Prop :=
  ∃ before after, p.attributes = before ++ ⟨kind, payload⟩ :: after ∧
    ∀ item ∈ before, item.kind ≠ kind

/-- Whether no attribute is of a kind. -/
def Lacks (p : Packet) (kind : UInt16) : Prop := ∀ item ∈ p.attributes, item.kind ≠ kind

variable {p : Packet} {kind : UInt16} {payload : Bytes} {c : Int32}

theorem attribute?_eq_some_iff : p.attribute? kind = some payload ↔ p.First kind payload := by
  show ((p.attributes.find? fun item ↦ item.kind == kind).map Item.payload) = some payload ↔ _
  constructor
  · intro h
    obtain ⟨item, hitem, rfl⟩ := Option.map_eq_some_iff.mp h
    obtain ⟨hkind, before, after, hsplit, hbefore⟩ := List.find?_eq_some_iff_append.mp hitem
    obtain rfl := eq_of_beq hkind
    refine ⟨before, after, hsplit, ?_⟩
    intro other hother
    simpa using hbefore other hother
  · rintro ⟨before, after, hsplit, hbefore⟩
    have hfirst : p.attributes.find? (fun item ↦ item.kind == kind) = some ⟨kind, payload⟩ := by
      apply List.find?_eq_some_iff_append.mpr
      refine ⟨beq_self_eq_true kind, before, after, hsplit, ?_⟩
      intro other hother
      simpa using hbefore other hother
    rw [hfirst, Option.map_some]

theorem attribute?_eq_none_iff : p.attribute? kind = none ↔ p.Lacks kind := by
  show ((p.attributes.find? fun item ↦ item.kind == kind).map Item.payload) = none ↔ _
  simp [Lacks]

/-- A value is read from the first attribute of its kind. -/
theorem value?_eq_some_iff {α : Type} [Payload α] {value : α} :
    p.value? α kind = some value ↔
      ∃ payload, p.First kind payload ∧ Payload.ofPayload payload = .ok value := by
  change (p.attribute? kind).bind _ = some value ↔ _
  rw [Option.bind_eq_some_iff]
  apply exists_congr
  intro payload
  rw [attribute?_eq_some_iff, toOption_eq_some_iff]

theorem value?_eq_some_iff_first {α : Type} [Payload α] [Payload.IsExact α] {value : α} :
    p.value? α kind = some value ↔ p.First kind (toPayload value) := by
  rw [value?_eq_some_iff]
  simp only [Payload.IsExact.ofPayload_eq_ok_iff, exists_eq_right]

/-- A message with a command is one of a family. -/
theorem leastFamilyType_le_of_command_ne (hc : p.command ≠ 0) :
    leastFamilyType ≤ p.type := by
  rw [← UInt16.not_lt]
  intro ht
  apply hc
  rw [command, commandHeader?, if_pos ht]
  rfl

/-- A control message has no attributes. -/
theorem lacks_of_type_lt (ht : p.type < leastFamilyType) : p.Lacks kind := by
  have hregion : p.region = [] := by
    rw [region, commandHeader?, if_pos ht]
    rfl
  intro item hitem
  rw [attributes, hregion, ← Region.row, Region.items_row] at hitem
  exact absurd hitem List.not_mem_nil

/-- A message with an attribute is one of a family. -/
theorem First.leastFamilyType_le (h : p.First kind payload) : leastFamilyType ≤ p.type := by
  rw [← UInt16.not_lt]
  intro ht
  have hsome := attribute?_eq_some_iff.mpr h
  rw [attribute?_eq_none_iff.mpr (lacks_of_type_lt ht)] at hsome
  contradiction

/-! ### Error messages -/

/-- An error is a message of the type of errors; one without a code counts as a bad message. -/
theorem kind_eq_error_iff {errno : Int32} :
    p.kind = .error errno ↔ p.type = errorType ∧
      (p.errorCode? = none ∧ errno = Errno.badmsg ∨ p.errorCode? = some errno ∧ errno ≠ 0) := by
  unfold kind
  by_cases htype : p.type = errorType
  · cases p.errorCode? with
    | none => simp [htype, eq_comm]
    | some code =>
      by_cases hcode : code = 0
      · simp only [htype, hcode]
        simp +contextual
      · simp only [htype, hcode, if_true, if_false, PacketKind.error.injEq, Option.some.injEq,
          reduceCtorEq, false_and, false_or, true_and]
        exact ⟨fun h ↦ ⟨h, h ▸ hcode⟩, And.left⟩
  · simp only [htype, if_false, false_and, iff_false]
    repeat' split
    all_goals exact PacketKind.noConfusion

theorem kind_ne_error (ht : leastFamilyType ≤ p.type) (errno : Int32) :
    p.kind ≠ .error errno := by
  intro hk
  obtain ⟨htype, -⟩ := kind_eq_error_iff.mp hk
  rw [htype] at ht
  exact absurd ht (by decide)

/-- The code of an error message as the kernel wrote it. -/
def code? (p : Packet) : Option Int32 :=
  if p.type ≠ errorType ∨ p.body.length < 4 then none
  else some (UInt32.ofNat (p.body.natAt 0 4)).toInt32

theorem errorCode?_eq (p : Packet) : p.errorCode? = p.code?.map saturatingNeg := by
  unfold errorCode? code?
  split <;> rfl

theorem saturatingNeg_ne_zero {c : Int32} (hc : c ≠ 0) : saturatingNeg c ≠ 0 := by
  unfold saturatingNeg
  split
  · decide
  · intro h
    have hneg := congrArg Neg.neg h
    rw [Int32.neg_neg] at hneg
    exact hc hneg

theorem saturatingNeg_eq_noent_iff {code : Int32} :
    saturatingNeg code = Errno.noent ↔ code = -Errno.noent := by
  unfold saturatingNeg
  split
  · next h =>
    rw [h]
    decide
  · rw [← Int32.neg_inj, Int32.neg_neg]

/-- Whether a message is an error message with a code, the four bytes of which come first in its
body. -/
structure HoldsCode (p : Packet) (c : Int32) : Prop where
  type_eq : p.type = errorType
  isPrefix : toPayload c <+: p.body

/-- The code at the start of a body, if there is room for one. -/
private theorem isPrefix_iff {body : Bytes} : toPayload c <+: body ↔
    4 ≤ body.length ∧ (UInt32.ofNat (body.natAt 0 4)).toInt32 = c := by
  have hlength : (toPayload c).length = 4 := Bytes.length_ofNat 4 c.toUInt32.toNat
  rw [List.prefix_iff_eq_take, hlength, @eq_comm _ (toPayload c),
    ← Payload.IsExact.ofPayload_eq_ok_iff]
  change (Payload.readNat 4 "i32" (body.take 4)).map _ = _ ↔ _
  rw [Payload.readNat, List.length_take]
  by_cases hle : 4 ≤ body.length
  · rw [if_pos (by omega)]
    simp only [hle, true_and, Except.map, Except.ok.injEq, Bytes.natAt, List.drop_zero]
  · rw [if_neg (by omega)]
    simp [hle, Except.map]

theorem code?_eq_some_iff : p.code? = some c ↔ p.HoldsCode c := by
  have hiff : p.HoldsCode c ↔ p.type = errorType ∧ toPayload c <+: p.body :=
    ⟨fun h ↦ ⟨h.type_eq, h.isPrefix⟩, fun h ↦ ⟨h.1, h.2⟩⟩
  rw [hiff, isPrefix_iff, code?]
  by_cases htype : p.type = errorType
  · by_cases hle : 4 ≤ p.body.length
    · simp [htype, hle, Nat.not_lt.mpr hle]
    · simp [hle, Nat.lt_of_not_le hle]
  · simp [htype]

/-- An error message with a code is a refusal with the opposite of that code. -/
theorem kind_of_code? (hp : p.code? = some c) (hc : c ≠ 0) :
    p.kind = .error (saturatingNeg c) := by
  have htype := (code?_eq_some_iff.mp hp).type_eq
  have hcode : p.errorCode? = some (saturatingNeg c) := by
    rw [errorCode?_eq, hp, Option.map_some]
  exact kind_eq_error_iff.mpr ⟨htype, .inr ⟨hcode, saturatingNeg_ne_zero hc⟩⟩

/-- The error messages that are long enough for a code have one. -/
theorem exists_holdsCode_iff : (∃ c, p.HoldsCode c) ↔ p.type = errorType ∧ 20 ≤ p.length := by
  simp only [← code?_eq_some_iff, ← Option.isSome_iff_exists, code?, length]
  by_cases htype : p.type = errorType
  · by_cases hle : 4 ≤ p.body.length
    · simp [htype, Nat.not_lt.mpr hle]
      omega
    · simp [htype, Nat.lt_of_not_le hle]
      omega
  · simp [htype]

/-- An error message too short for a code counts as a bad message. -/
theorem kind_of_length_lt (ht : p.type = errorType) (hl : p.length < 20) :
    p.kind = .error Errno.badmsg := by
  have hnone : p.code? = none := by
    apply Option.eq_none_iff_forall_ne_some.mpr
    intro c hc
    have := (exists_holdsCode_iff.mp ⟨c, code?_eq_some_iff.mp hc⟩).2
    omega
  have hcode : p.errorCode? = none := by
    rw [errorCode?_eq, hnone, Option.map_none]
  exact kind_eq_error_iff.mpr ⟨ht, .inl ⟨hcode, rfl⟩⟩

/-- An acknowledgement is an error message with code zero. -/
theorem kind_eq_ack_iff : p.kind = .ack ↔ p.HoldsCode 0 := by
  constructor
  · intro hk
    have htype : p.type = errorType := by
      unfold kind at hk
      split at hk
      · next ht => exact ht
      · repeat' split at hk
        all_goals contradiction
    by_cases hl : p.length < 20
    · rw [kind_of_length_lt htype hl] at hk
      contradiction
    · obtain ⟨c, hc⟩ := exists_holdsCode_iff.mpr ⟨htype, Nat.le_of_not_lt hl⟩
      by_cases hzero : c = 0
      · rwa [← hzero]
      · rw [kind_of_code? (code?_eq_some_iff.mpr hc) hzero] at hk
        contradiction
  · intro h
    rw [kind, if_pos h.type_eq, errorCode?_eq, code?_eq_some_iff.mpr h]
    rfl

theorem type_eq_of_kind_eq_ack (h : p.kind = .ack) : p.type = errorType :=
  (kind_eq_ack_iff.mp h).type_eq

end Packet

namespace Operation

/-- Whether a message is a reply of a family with a command. -/
structure IsReply (family : UInt16) (command : Command) (p : Packet) : Prop where
  kind_ne (errno : Int32) : p.kind ≠ .error errno
  type_eq : p.type = family
  command_eq : p.command = command.number

/-- What is wrong with a message that is no such reply, the first of three things. -/
inductive Offends (family : UInt16) (command : Command) (operation : String) (p : Packet) :
    Error → Prop where
  | refusal (errno : Int32) (h : p.kind = .error errno) :
    Offends family command operation p (.kernelDuring operation errno)
  | foreign (h : ∀ errno, p.kind ≠ .error errno) (ht : p.type ≠ family) :
    Offends family command operation p (.unexpectedType family p.type)
  | wrongCommand (h : ∀ errno, p.kind ≠ .error errno) (ht : p.type = family)
    (hc : p.command ≠ command.number) :
    Offends family command operation p (.unexpectedCommand command.number p.command)

variable {family : UInt16} {command : Command} {operation : String} {p : Packet}

/-- A reply that is a refusal is reported. -/
theorem checkReply_of_error {p : Packet} {errno : Int32} (hk : p.kind = .error errno)
    (family : UInt16) (expected : Command) (name : String) :
    checkReply family expected name p = .error (.kernelDuring name errno) := by
  simp [checkReply, hk, Error.ofErrnoDuring]

/-- What is no refusal is checked for its family, then for its command. -/
theorem checkReply_of_kind_ne (h : ∀ errno, p.kind ≠ .error errno) :
    checkReply family command operation p =
      if p.type ≠ family then .error (.unexpectedType family p.type)
      else if p.command ≠ command.number then
        .error (.unexpectedCommand command.number p.command)
      else .ok () := by
  unfold checkReply
  split
  · next errno hk => exact absurd hk (h errno)
  · rfl

theorem checkReply_of_offends {e : Error} (h : Offends family command operation p e) :
    checkReply family command operation p = .error e := by
  cases h with
  | refusal errno hk => exact checkReply_of_error hk family command operation
  | foreign hk ht => rw [checkReply_of_kind_ne hk, if_pos ht]
  | wrongCommand hk ht hc => rw [checkReply_of_kind_ne hk, if_neg (not_not.mpr ht), if_pos hc]

theorem checkReply_of_isReply (h : IsReply family command p) :
    checkReply family command operation p = .ok () := by
  rw [checkReply_of_kind_ne h.kind_ne, if_neg (not_not.mpr h.type_eq),
    if_neg (not_not.mpr h.command_eq)]

/-- A message is such a reply, or something is wrong with it. -/
theorem isReply_or_offends (family : UInt16) (command : Command) (operation : String)
    (p : Packet) : IsReply family command p ∨ ∃ e, Offends family command operation p e := by
  by_cases hk : ∃ errno, p.kind = .error errno
  · obtain ⟨errno, hk⟩ := hk
    exact .inr ⟨_, .refusal errno hk⟩
  have hk (errno : Int32) : p.kind ≠ .error errno := fun h ↦ hk ⟨errno, h⟩
  by_cases ht : p.type = family
  · by_cases hc : p.command = command.number
    · exact .inl ⟨hk, ht, hc⟩
    · exact .inr ⟨_, .wrongCommand hk ht hc⟩
  · exact .inr ⟨_, .foreign hk ht⟩

theorem checkReply_eq_ok_iff (operation : String) :
    checkReply family command operation p = .ok () ↔ IsReply family command p := by
  apply eq_ok_iff_of_cases (P := fun _ ↦ IsReply family command p)
  · exact fun _ ↦ checkReply_of_isReply
  · rcases isReply_or_offends family command operation p with hp | ⟨e, he⟩
    · exact .inl ⟨(), hp⟩
    · exact .inr ⟨e, checkReply_of_offends he⟩

theorem checkReply_eq_error_iff {e : Error} :
    checkReply family command operation p = .error e ↔ Offends family command operation p e := by
  apply eq_error_iff_of_cases
  · exact fun _ ↦ checkReply_of_offends
  · rcases isReply_or_offends family command operation p with hp | he
    · exact .inl ⟨(), checkReply_of_isReply hp⟩
    · exact .inr he

/-! ### Acknowledgements -/

/-- A refusal is no acknowledgement. -/
theorem expectAck_cons_of_error {errno : Int32} (hk : p.kind = .error errno)
    (name : String) (rest : List Packet) :
    expectAck name (p :: rest) = .error (.kernelDuring name errno) := by
  simp [expectAck, hk, Error.ofErrnoDuring]

theorem expectAck_cons_of_ack (hk : p.kind = .ack) (name : String) (rest : List Packet) :
    expectAck name (p :: rest) = .ok () := by
  rw [expectAck, hk]

/-- Nor is any message of another type. -/
theorem expectAck_cons_of_type_ne (ht : p.type ≠ errorType) (name : String) (rest : List Packet) :
    expectAck name (p :: rest) = .error (.unexpectedType errorType p.type) := by
  rw [expectAck]
  split
  · next hk => exact absurd (Packet.type_eq_of_kind_eq_ack hk) ht
  · next errno hk => exact absurd (Packet.kind_eq_error_iff.mp hk).1 ht
  · rfl

end Operation

end WifiNetlink
