import WifiNetlink.Transport.Dispatch

/-!
# Answers

What a row of messages with one sequence number answers. The first terminator among them ends the
answer; whether it is a part of it depends on its kind. Messages after it say nothing more. The
meaning of a message for a handler follows these rules.
-/

namespace WifiNetlink

namespace PacketKind

/-- Whether the kind ends an answer and is no part of it. -/
def isSilent : PacketKind → Bool
  | done | noop | overrun => true
  | _ => false

/-- Whether the kind ends an answer and is a part of it, even if more parts were to come. -/
def isVerdict : PacketKind → Bool
  | ack | error _ => true
  | _ => false

end PacketKind

namespace Packet

/-- Whether the message ends an answer without being a part of it. -/
def isSilent (p : Packet) : Bool := p.kind.isSilent

/-- Whether the message ends an answer. -/
def isTerminator (p : Packet) : Bool := p.isSilent || p.kind.isVerdict || !p.isMultipart

/-- The answer in a row of messages: up to the first terminator. -/
def answer : List Packet → List Packet
  | [] => []
  | p :: ps => if p.isTerminator then (if p.isSilent then [] else [p]) else p :: answer ps

/-- Whether a row of messages has a terminator. -/
def isAnswered (ps : List Packet) : Bool := ps.any isTerminator

/-- A part of a reply in many parts. -/
def part (sequence : UInt32) : Packet := ⟨28, multiFlag, sequence, 0, [34, 1, 0, 0]⟩

/-- The end of a reply in many parts. -/
def ending (sequence : UInt32) : Packet := ⟨doneType, multiFlag, sequence, 0, [0, 0, 0, 0]⟩

@[simp] theorem answer_nil : answer [] = [] := rfl

@[simp] theorem isAnswered_nil : isAnswered [] = false := rfl

theorem isAnswered_append (ps qs : List Packet) :
    isAnswered (ps ++ qs) = (isAnswered ps || isAnswered qs) := List.any_append

@[simp] theorem isAnswered_singleton (p : Packet) : isAnswered [p] = p.isTerminator := by
  simp [isAnswered]

/-- What follows a terminator is no part of the answer. -/
theorem answer_append_of_isAnswered {ps : List Packet} (qs : List Packet)
    (h : isAnswered ps = true) : answer (ps ++ qs) = answer ps := by
  induction ps with
  | nil => simp at h
  | cons p ps ih =>
    simp only [List.cons_append, answer]
    by_cases hp : p.isTerminator = true
    · simp [hp]
    · have ht : isAnswered ps = true := by simpa [isAnswered, hp] using h
      simp only [hp, Bool.false_eq_true, if_false, ih ht]

/-- Without a terminator all messages are parts of the answer. -/
theorem answer_append_of_not_isAnswered {ps : List Packet} (qs : List Packet)
    (h : isAnswered ps = false) : answer (ps ++ qs) = ps ++ answer qs := by
  induction ps with
  | nil => rfl
  | cons p ps ih =>
    simp only [isAnswered, List.any_cons, Bool.or_eq_false_iff] at h
    simp only [List.cons_append, answer, h.1, Bool.false_eq_true, if_false, ih h.2]

theorem answer_of_not_isAnswered {ps : List Packet} (h : isAnswered ps = false) :
    answer ps = ps := by
  simpa using answer_append_of_not_isAnswered [] h

/-- The answer is settled by any beginning of the row that has a terminator. -/
theorem answer_of_isPrefix {ps qs : List Packet} (h : ps <+: qs) (ha : isAnswered ps = true) :
    answer qs = answer ps := by
  obtain ⟨rest, rfl⟩ := h
  exact answer_append_of_isAnswered rest ha

theorem isTerminator_of_isSilent {p : Packet} (h : p.isSilent = true) : p.isTerminator = true := by
  simp [isTerminator, h]

/-- A message says nothing to a handler exactly if it is a silent end. -/
theorem delivery_eq_finish_iff (p : Packet) : p.delivery = .finish ↔ p.isSilent = true := by
  unfold delivery isSilent
  cases p.kind <;> simp only [PacketKind.isSilent, reduceCtorEq, iff_false, Bool.false_eq_true] <;>
    split <;> simp

/-- A handler waits for more exactly if the message is no terminator. -/
theorem delivery_eq_handOn_iff (p : Packet) : p.delivery = .handOn ↔ p.isTerminator = false := by
  unfold delivery isTerminator isSilent
  cases p.kind <;> simp [PacketKind.isSilent, PacketKind.isVerdict]

/-- One more message of a row that is not answered yet. -/
theorem answer_append_singleton {ps : List Packet} (p : Packet) (h : isAnswered ps = false) :
    answer (ps ++ [p]) = answer ps ++ if p.delivery = .finish then [] else [p] := by
  rw [answer_append_of_not_isAnswered [p] h, answer_of_not_isAnswered h]
  simp only [answer, delivery_eq_finish_iff]
  by_cases hs : p.isSilent = true
  · simp [hs, isTerminator_of_isSilent hs]
  · simp [hs]

end Packet

end WifiNetlink
