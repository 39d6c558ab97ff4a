import WifiNetlink.Proofs.Deciding

/-!
# Acknowledgements and errors

An error message is an acknowledgement if its code is zero, a refusal if it is another number, and
a bad message if there is none. Main statement: requests for scans succeed exactly on an
acknowledgement, and stopping a schedule also if there was none; every other first reply has its own
failure. Queries never take an acknowledgement for data.
-/

namespace WifiNetlink

namespace Operation

variable {family : UInt16} {command : Command} {operation : String} {p : Packet}
  {tolerated : Int32 → Prop} {result : List Packet → Except Error Unit}

/-- How an operation heeds the first reply, if it waits for an acknowledgement and tolerates some
codes of refusals. -/
structure Heeds (operation : String) (tolerated : Int32 → Prop)
    (result : List Packet → Except Error Unit) : Prop where
  ok_iff (replies : List Packet) : result replies = .ok () ↔
    ∃ p rest c, replies = p :: rest ∧ p.HoldsCode c ∧ (c = 0 ∨ tolerated c)
  empty : result [] = .error .emptyResponse
  refused (p : Packet) (rest : List Packet) (c : Int32) : p.HoldsCode c → c ≠ 0 → ¬ tolerated c →
    result (p :: rest) = .error (.kernelDuring operation (saturatingNeg c))
  short (p : Packet) (rest : List Packet) : p.type = errorType → p.length < 20 →
    result (p :: rest) = .error (.kernelDuring operation Errno.badmsg)
  other (p : Packet) (rest : List Packet) : p.type ≠ errorType →
    result (p :: rest) = .error (.unexpectedType errorType p.type)

/-- The cases are all there are, so success in one of them and failure in the others is enough. -/
theorem heeds_of_cases (empty : result [] = .error .emptyResponse)
    (accepted : ∀ p rest c, p.HoldsCode c → c = 0 ∨ tolerated c → result (p :: rest) = .ok ())
    (refused : ∀ p rest c, p.HoldsCode c → c ≠ 0 → ¬ tolerated c →
      result (p :: rest) = .error (.kernelDuring operation (saturatingNeg c)))
    (short : ∀ p rest, p.type = errorType → p.length < 20 →
      result (p :: rest) = .error (.kernelDuring operation Errno.badmsg))
    (other : ∀ p rest, p.type ≠ errorType →
      result (p :: rest) = .error (.unexpectedType errorType p.type)) :
    Heeds operation tolerated result := by
  refine ⟨?_, empty, refused, short, other⟩
  intro replies
  constructor
  · intro hok
    cases replies with
    | nil =>
      rw [empty] at hok
      contradiction
    | cons p rest =>
      by_cases htype : p.type = errorType
      swap
      · rw [other p rest htype] at hok
        contradiction
      by_cases hlength : p.length < 20
      · rw [short p rest htype hlength] at hok
        contradiction
      obtain ⟨c, hc⟩ := Packet.exists_holdsCode_iff.mpr ⟨htype, Nat.le_of_not_lt hlength⟩
      by_cases haccepted : c = 0 ∨ tolerated c
      · exact ⟨p, rest, c, rfl, hc, haccepted⟩
      · rw [not_or] at haccepted
        rw [refused p rest c hc haccepted.1 haccepted.2] at hok
        contradiction
  · rintro ⟨p, rest, c, rfl, hc, haccepted⟩
    exact accepted p rest c hc haccepted

/-- Waiting for an acknowledgement tolerates no refusal. -/
theorem heeds_expectAck (operation : String) :
    Heeds operation (fun _ ↦ False) (expectAck operation) := by
  apply heeds_of_cases
  · rfl
  · rintro p rest c hc (rfl | htolerated)
    · exact expectAck_cons_of_ack (Packet.kind_eq_ack_iff.mpr hc) operation rest
    · contradiction
  · intro p rest c hc hzero _
    have hk := Packet.kind_of_code? (Packet.code?_eq_some_iff.mpr hc) hzero
    exact expectAck_cons_of_error hk operation rest
  · intro p rest htype hlength
    exact expectAck_cons_of_error (Packet.kind_of_length_lt htype hlength) operation rest
  · intro p rest htype
    exact expectAck_cons_of_type_ne htype operation rest

/-- An operation that waits for an acknowledgement fails without a reply, as waiting does. -/
theorem heeds_conclude {op : Operation Unit}
    (hread : ∀ replies, op.read family replies = expectAck operation replies) :
    Heeds operation (fun _ ↦ False) fun replies ↦ op.conclude family (.ok replies) := by
  have hconclude : (fun replies ↦ op.conclude family (.ok replies)) = expectAck operation := by
    funext replies
    cases replies with
    | nil => rfl
    | cons p rest => exact hread (p :: rest)
  rw [hconclude]
  exact heeds_expectAck operation

/-- An acknowledgement comes from no family. -/
theorem type_ne_of_ack (h : p.HoldsCode 0) (hf : leastFamilyType ≤ family) : p.type ≠ family := by
  rintro rfl
  rw [h.type_eq] at hf
  exact absurd hf (by decide)

theorem checkReply_of_ack (h : p.HoldsCode 0) (hf : leastFamilyType ≤ family) (command : Command)
    (operation : String) :
    checkReply family command operation p = .error (.unexpectedType family errorType) := by
  rw [← h.type_eq]
  apply checkReply_of_offends
  apply Offends.foreign _ (type_ne_of_ack h hf)
  intro errno hk
  rw [Packet.kind_eq_ack_iff.mpr h] at hk
  contradiction

end Operation

namespace ScanRequest

open Operation

/-- A schedule that does not exist is stopped already. -/
theorem heeds_stop (family : UInt16) (ifindex : UInt32) :
    Heeds "stop scheduled scan" (· = -Errno.noent)
      fun replies ↦ (stop ifindex).conclude family (.ok replies) := by
  have h := heeds_expectAck "stop scheduled scan"
  have hfails {p : Packet} {rest : List Packet} {e : Error}
      (he : expectAck "stop scheduled scan" (p :: rest) = .error e) :
      (stop ifindex).conclude family (.ok (p :: rest)) =
        if e.errno? = some Errno.noent then .ok () else .error e := by
    simp only [conclude, stop, he]
  apply heeds_of_cases
  · rfl
  · rintro p rest c hc (rfl | rfl)
    · have hok := (h.ok_iff (p :: rest)).mpr ⟨p, rest, 0, rfl, hc, .inl rfl⟩
      simp only [conclude, stop, hok]
    · rw [hfails (h.refused p rest _ hc (by decide) not_false)]
      rfl
  · intro p rest c hc hzero htolerated
    rw [hfails (h.refused p rest c hc hzero not_false)]
    apply if_neg
    intro hnoent
    exact htolerated (Packet.saturatingNeg_eq_noent_iff.mp (Option.some.inj hnoent))
  · intro p rest htype hlength
    rw [hfails (h.short p rest htype hlength)]
    rfl
  · intro p rest htype
    rw [hfails (h.other p rest htype)]
    rfl

end ScanRequest

namespace Query

open Operation

variable {α : Type} {family : UInt16} {p : Packet}

/-- Whether a first reply that is an acknowledgement is refused for its type. -/
def RefusesAck (family : UInt16) (result : List Packet → Except Error α) : Prop :=
  ∀ p rest, p.HoldsCode 0 → result (p :: rest) = .error (.unexpectedType family errorType)

theorem refusesAck_wiphyIndex (hf : leastFamilyType ≤ family) :
    RefusesAck family fun replies ↦ wiphyIndex.conclude family (.ok replies) := by
  intro p rest h
  simp only [conclude, wiphyIndex, wiphyIndexOf, List.mapM_cons, checkReply_of_ack h hf]
  rfl

theorem refusesAck_interface (hf : leastFamilyType ≤ family) (wiphy : UInt32) :
    RefusesAck family fun replies ↦ (interface wiphy).conclude family (.ok replies) := by
  intro p rest h
  simp only [conclude, interface, firstInterface, checkReply_of_ack h hf]
  rfl

theorem refusesAck_wiphyInfo (hf : leastFamilyType ≤ family) (wiphy : UInt32) :
    RefusesAck family fun replies ↦ (wiphyInfo wiphy).conclude family (.ok replies) := by
  intro p rest h
  simp only [conclude, wiphyInfo, List.foldlM_cons, WiphyDraft.pushReply, checkReply_of_ack h hf]
  rfl

theorem refusesAck_station (hf : leastFamilyType ≤ family) (ifindex : UInt32)
    (mac : MacAddress) :
    RefusesAck family fun replies ↦ (station ifindex mac).conclude family (.ok replies) := by
  intro p rest h
  simp only [conclude, station, stationOf, checkReply_of_ack h hf]
  rfl

/-- Every reply counts for what a wiphy can do. -/
private theorem isReply_of_foldlM {wiphy : UInt32} {replies : List Packet} {d d' : WiphyDraft}
    (h : replies.foldlM (WiphyDraft.pushReply family wiphy) d = .ok d') :
    ∀ p ∈ replies, IsReply family .newWiphy p := by
  induction replies generalizing d with
  | nil => exact List.forall_mem_nil _
  | cons p replies ih =>
    rw [List.foldlM_cons] at h
    obtain ⟨d₁, hpush, hrest⟩ := bind_eq_ok_iff.mp h
    obtain ⟨_, hcheck, -⟩ := bind_eq_ok_iff.mp hpush
    exact List.forall_mem_cons.mpr ⟨(checkReply_eq_ok_iff _).mp hcheck, ih hrest⟩

/-- A dump of wiphys with an acknowledgement anywhere in it has no result. -/
theorem wiphyIndex_ne_ok_of_ack {replies : List Packet} (hp : p ∈ replies) (h : p.HoldsCode 0)
    (hf : leastFamilyType ≤ family) (w : UInt32) :
    wiphyIndex.conclude family (.ok replies) ≠ .ok w := by
  intro hok
  obtain ⟨htold, -⟩ := ((decidesWiphy (List.ne_nil_of_mem hp)).ok_iff w).mp hok
  obtain ⟨v, hv⟩ := htold p hp
  exact type_ne_of_ack h hf hv.isReply.type_eq

theorem wiphyInfo_ne_ok_of_ack {replies : List Packet} (hp : p ∈ replies) (h : p.HoldsCode 0)
    (hf : leastFamilyType ≤ family) (wiphy : UInt32) (info : WiphyInfo) :
    (wiphyInfo wiphy).conclude family (.ok replies) ≠ .ok info := by
  intro hok
  have hread : (wiphyInfo wiphy).read family replies = .ok info := by
    cases replies with
    | nil => exact absurd hp List.not_mem_nil
    | cons q rest => exact hok
  obtain ⟨d, hd, -⟩ := bind_eq_ok_iff.mp hread
  exact type_ne_of_ack h hf (isReply_of_foldlM hd p hp).type_eq

end Query

/-- Acknowledgements, refusals and replies are told apart: what waits for an acknowledgement takes
nothing else for one, and what waits for data does not take an acknowledgement. -/
theorem acknowledgements_areHeeded {r : Rehearsal} {family : UInt16} (hr : r.family = some family)
    (hf : leastFamilyType ≤ family) :
    (∀ ifindex names values randomMac,
      r.Sends (ScanRequest.trigger ifindex names values randomMac) →
      Operation.Heeds "trigger scan" (fun _ ↦ False) fun replies ↦
        ((r.replying replies).perform (ScanRequest.trigger ifindex names values randomMac)).1) ∧
    (∀ schedule, r.Sends (ScanRequest.start schedule) →
      Operation.Heeds "start scheduled scan" (fun _ ↦ False) fun replies ↦
        ((r.replying replies).perform (ScanRequest.start schedule)).1) ∧
    (∀ ifindex, Operation.Heeds "stop scheduled scan" (· = -Errno.noent) fun replies ↦
      ((r.replying replies).perform (ScanRequest.stop ifindex)).1) ∧
    (Query.RefusesAck family fun replies ↦ ((r.replying replies).perform Query.wiphyIndex).1) ∧
    (∀ wiphy, Query.RefusesAck family fun replies ↦
      ((r.replying replies).perform (Query.interface wiphy)).1) ∧
    (∀ wiphy, Query.RefusesAck family fun replies ↦
      ((r.replying replies).perform (Query.wiphyInfo wiphy)).1) ∧
    (∀ ifindex mac, Query.RefusesAck family fun replies ↦
      ((r.replying replies).perform (Query.station ifindex mac)).1) ∧
    ∀ replies, ∀ p ∈ replies, p.HoldsCode 0 →
      (∀ w, ((r.replying replies).perform Query.wiphyIndex).1 ≠ .ok w) ∧
      ∀ wiphy info, ((r.replying replies).perform (Query.wiphyInfo wiphy)).1 ≠ .ok info := by
  simp only [ScanRequest.perform_stop hr, Query.perform_wiphyIndex hr, Query.perform_interface hr,
    Query.perform_wiphyInfo hr, Query.perform_station hr]
  refine ⟨?_, ?_, ScanRequest.heeds_stop family, Query.refusesAck_wiphyIndex hf,
    Query.refusesAck_interface hf, Query.refusesAck_wiphyInfo hf, Query.refusesAck_station hf, ?_⟩
  · intro ifindex names values randomMac hsends
    simp only [Rehearsal.perform_of_sends hsends hr]
    apply Operation.heeds_conclude
    intro replies
    rfl
  · intro schedule hsends
    simp only [Rehearsal.perform_of_sends hsends hr]
    apply Operation.heeds_conclude
    intro replies
    rfl
  · intro replies p hp h
    exact ⟨Query.wiphyIndex_ne_ok_of_ack hp h hf, Query.wiphyInfo_ne_ok_of_ack hp h hf⟩

/-- A scan that is refused is not started by an acknowledgement that comes second, a schedule that
does not exist is stopped, and an acknowledgement is no wiphy. -/
theorem heeds_mixedReplies :
    (((⟨some 28, .fresh, [], []⟩ : Rehearsal).replying
      [⟨errorType, 0, 1, 0, [240, 255, 255, 255]⟩, ⟨errorType, 0, 1, 0, [0, 0, 0, 0]⟩]).perform
        (ScanRequest.trigger 3 [] [] false)).1 =
      .error (.kernelDuring "trigger scan" Errno.busy) ∧
    (((⟨some 28, .fresh, [], []⟩ : Rehearsal).replying
      [⟨errorType, 0, 1, 0, [254, 255, 255, 255]⟩]).perform (ScanRequest.stop 3)).1 = .ok () ∧
    (((⟨some 28, .fresh, [], []⟩ : Rehearsal).replying
      [⟨errorType, 0, 1, 0, [0, 0, 0, 0]⟩]).perform Query.wiphyIndex).1 =
      .error (.unexpectedType 28 errorType) := by
  obtain ⟨htrigger, -, hstop, hwiphy, -⟩ :=
    acknowledgements_areHeeded (r := ⟨some 28, .fresh, [], []⟩) rfl (by decide)
  refine ⟨?_, ?_, ?_⟩
  · have hsends : Rehearsal.Sends ⟨some 28, .fresh, [], []⟩
        (ScanRequest.trigger 3 [] [] false) := ⟨_, rfl⟩
    exact (htrigger 3 [] [] false hsends).refused _ _ (-16) ⟨rfl, [], rfl⟩ (by decide) not_false
  · exact ((hstop 3).ok_iff _).mpr ⟨_, [], _, rfl, ⟨rfl, [], rfl⟩, .inr rfl⟩
  · exact hwiphy _ [] ⟨rfl, [], rfl⟩

end WifiNetlink
