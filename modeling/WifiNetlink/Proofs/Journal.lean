import WifiNetlink.Transport.Event

/-!
# Reading a journal

What a journal says about messages: which were read in datagrams that were accepted, which were
dispatched, and with which ones the handler of a sequence number was called. All rows start with the
earliest message. A journal also tells when a sequence number was put to use. Each reading is a
reading of single events, so what happens later is added at the end.
-/

namespace WifiNetlink

/-- The messages of a datagram, none if it is malformed or there is no datagram. -/
def Event.messagesIn : Except SystemFault Reception → List Packet
  | .error _ => []
  | .ok reception =>
    match Packet.parseDatagram reception.datagram with
    | .ok packets => packets
    | .error _ => []

namespace Event

variable {ν : Type}

/-- The messages that an event brings. -/
def accepted : Event ν → List Packet
  | received _ outcome => messagesIn outcome
  | _ => []

/-- The messages whose turn an event is. -/
def dispatches : Event ν → List Packet
  | dispatched p => [p]
  | _ => []

/-- The messages that an event hands to the handler of a sequence number. -/
def handed (sequence : UInt32) : Event ν → List Packet
  | replied s p => if s = sequence then [p] else []
  | _ => []

/-- Whether a sequence number is put to use. -/
def opens (sequence : UInt32) : Event ν → Bool
  | registered s | exchangeBegan s => s == sequence
  | _ => false

/-- Whether a sequence number is put to use, or an exchange of it ends. -/
def marks (sequence : UInt32) : Event ν → Bool
  | registered s | exchangeBegan s | exchangeEnded s _ => s == sequence
  | _ => false

/-- Whether client code is called that waited for messages. -/
def isCall : Event ν → Bool
  | replied .. | scanEnded .. | scheduleFired .. => true
  | _ => false

end Event

namespace Packet

/-- The messages of a row that have a sequence number. -/
def withSequence (sequence : UInt32) (ps : List Packet) : List Packet :=
  ps.filter (·.sequence == sequence)

@[simp] theorem withSequence_nil (sequence : UInt32) : withSequence sequence [] = [] := rfl

theorem withSequence_append (sequence : UInt32) (ps qs : List Packet) :
    withSequence sequence (ps ++ qs) = withSequence sequence ps ++ withSequence sequence qs :=
  List.filter_append ..

theorem withSequence_singleton (sequence : UInt32) (p : Packet) :
    withSequence sequence [p] = if p.sequence = sequence then [p] else [] := by
  by_cases h : p.sequence = sequence <;> simp [withSequence, h]

end Packet

namespace Journal

variable {ν : Type}

/-- The messages of the datagrams that were accepted. -/
def accepted (journal : Journal ν) : List Packet := journal.reverse.flatMap Event.accepted

/-- The messages that were dispatched. -/
def dispatched (journal : Journal ν) : List Packet := journal.reverse.flatMap Event.dispatches

/-- The messages that the handler of a sequence number was called with. -/
def handed (sequence : UInt32) (journal : Journal ν) : List Packet :=
  journal.reverse.flatMap (Event.handed sequence)

/-- The messages with a sequence number that were dispatched. -/
def arrived (sequence : UInt32) (journal : Journal ν) : List Packet :=
  Packet.withSequence sequence journal.dispatched

/-- Whether a sequence number was put to use. -/
def opens (sequence : UInt32) (journal : Journal ν) : Bool := journal.any (Event.opens sequence)

/-- The last event that put a sequence number to use or ended an exchange of it. -/
def lastMark? (sequence : UInt32) (journal : Journal ν) : Option (Event ν) :=
  journal.find? (Event.marks sequence)

/-- What happened since the last event of this kind. -/
def since (sequence : UInt32) (journal : Journal ν) : Journal ν :=
  journal.takeWhile (!Event.marks sequence ·)

/-- Whether a condition holds of each event and of what came before it. -/
def Each (C : Event ν → Journal ν → Prop) : Journal ν → Prop
  | [] => True
  | e :: earlier => C e earlier ∧ Each C earlier

section cons

variable (e : Event ν) (journal : Journal ν) (sequence : UInt32)

theorem accepted_cons : accepted (e :: journal) = accepted journal ++ e.accepted := by
  simp [accepted]

theorem dispatched_cons : dispatched (e :: journal) = dispatched journal ++ e.dispatches := by
  simp [dispatched]

theorem handed_cons :
    handed sequence (e :: journal) = handed sequence journal ++ e.handed sequence := by
  simp [handed]

theorem arrived_cons : arrived sequence (e :: journal) =
    arrived sequence journal ++ Packet.withSequence sequence e.dispatches := by
  simp [arrived, dispatched_cons, Packet.withSequence_append]

theorem opens_cons : opens sequence (e :: journal) = (e.opens sequence || opens sequence journal) :=
  List.any_cons

end cons

section marks

variable (e : Event ν) (journal : Journal ν) (sequence : UInt32)

theorem lastMark?_cons : lastMark? sequence (e :: journal) =
    if e.marks sequence then some e else lastMark? sequence journal := by
  cases h : e.marks sequence <;> simp [lastMark?, h]

theorem since_cons : since sequence (e :: journal) =
    if e.marks sequence then [] else e :: since sequence journal := by
  cases h : e.marks sequence <;> simp [since, h]

variable {journal sequence}

/-- Events that mark nothing leave the last mark of a number as it is. -/
theorem lastMark?_append {new : Journal ν} (h : ∀ e ∈ new, e.marks sequence = false) :
    lastMark? sequence (new ++ journal) = lastMark? sequence journal ∧
      since sequence (new ++ journal) = new ++ since sequence journal := by
  induction new with
  | nil => exact ⟨rfl, rfl⟩
  | cons e new ih =>
    obtain ⟨hmark, hsince⟩ := ih fun e he ↦ h e (List.mem_cons_of_mem _ he)
    have he := h e List.mem_cons_self
    simp [lastMark?_cons, since_cons, he, hmark, hsince]

/-- A journal whose last event of this kind is known. -/
theorem lastMark?_append_cons {later : Journal ν} (e : Event ν) (earlier : Journal ν)
    (hl : later.any (Event.marks sequence) = false) (he : e.marks sequence = true) :
    lastMark? sequence (later ++ e :: earlier) = some e ∧
      since sequence (later ++ e :: earlier) = later := by
  induction later with
  | nil => simp [lastMark?_cons, since_cons, he]
  | cons first later ih =>
    rw [List.any_cons, Bool.or_eq_false_iff] at hl
    simp [lastMark?_cons, since_cons, hl.1, ih hl.2]

end marks

/-- A condition on each event holds of more events if it holds of them. -/
theorem Each.append {C : Event ν → Journal ν → Prop} {new journal : Journal ν}
    (hnew : ∀ e ∈ new, ∀ earlier, C e earlier) (h : Each C journal) : Each C (new ++ journal) := by
  induction new with
  | nil => exact h
  | cons first new ih =>
    exact ⟨hnew first List.mem_cons_self _, ih fun e he ↦ hnew e (List.mem_cons_of_mem _ he)⟩

/-- A condition on each event holds of the events in the middle. -/
theorem Each.of_append {C : Event ν → Journal ν → Prop} {later earlier : Journal ν} {e : Event ν}
    (h : Each C (later ++ e :: earlier)) : C e earlier := by
  induction later with
  | nil => exact h.1
  | cons first later ih => exact ih h.2

/-- A condition on each event holds of the events before. -/
theorem Each.tail {C : Event ν → Journal ν → Prop} {later earlier : Journal ν}
    (h : Each C (later ++ earlier)) : Each C earlier := by
  induction later with
  | nil => exact h
  | cons first later ih => exact ih h.2

instance Each.decidable (C : Event ν → Journal ν → Prop) [∀ e earlier, Decidable (C e earlier)] :
    (journal : Journal ν) → Decidable (Each C journal)
  | [] => .isTrue trivial
  | e :: earlier =>
    have := Each.decidable C earlier
    inferInstanceAs (Decidable (C e earlier ∧ Each C earlier))

section nil

variable (sequence : UInt32)

@[simp] theorem accepted_nil : accepted ([] : Journal ν) = [] := rfl

@[simp] theorem dispatched_nil : dispatched ([] : Journal ν) = [] := rfl

@[simp] theorem handed_nil : handed sequence ([] : Journal ν) = [] := rfl

@[simp] theorem arrived_nil : arrived sequence ([] : Journal ν) = [] := rfl

@[simp] theorem opens_nil : opens sequence ([] : Journal ν) = false := rfl

end nil

section append

variable (sequence : UInt32) (later earlier : Journal ν)

theorem accepted_append : accepted (later ++ earlier) = accepted earlier ++ accepted later := by
  simp [accepted]

theorem dispatched_append :
    dispatched (later ++ earlier) = dispatched earlier ++ dispatched later := by
  simp [dispatched]

theorem handed_append :
    handed sequence (later ++ earlier) = handed sequence earlier ++ handed sequence later := by
  simp [handed]

theorem arrived_append :
    arrived sequence (later ++ earlier) = arrived sequence earlier ++ arrived sequence later := by
  simp [arrived, dispatched_append, Packet.withSequence_append]

theorem opens_append :
    opens sequence (later ++ earlier) = (opens sequence later || opens sequence earlier) :=
  List.any_append

end append

end Journal

end WifiNetlink
