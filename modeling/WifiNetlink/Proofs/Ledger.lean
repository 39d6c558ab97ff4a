import Mathlib.Logic.Relation
import WifiNetlink.Proofs.Journal
import WifiNetlink.Proofs.Run

/-!
# The ledger of a machine

All of a machine but the system and what is in control. Each step changes the ledger by a few moves
of a small number of kinds, or by the dispatch of one message, so an invariant of ledgers is proved
once for each move and not for each function that makes it. The kind of a move says what it leaves
alone.
-/

namespace WifiNetlink

variable {σ ν : Type}

/-- All of a machine but the system and what is in control. -/
structure Ledger (σ ν : Type) extends Transport σ ν where
  watches : List Nat
  journal : Journal ν
  nextNumber : Nat
  stack : List (Frame σ ν)

/-- The ledger of a machine. -/
def Machine.ledger (m : Machine σ ν) : Ledger σ ν where
  toTransport := m.transport
  watches := m.watches
  journal := m.journal
  nextNumber := m.nextNumber
  stack := m.stack

/-- What a move is about. -/
inductive MoveKind where
  /-- Channels, the watch, groups, and that the transport is started. -/
  | wiring
  /-- Code comes and goes on the stack, the clock is read, and datagrams are taken. -/
  | routine
  /-- A message is sent whose replies client code is called with. -/
  | request
  /-- A number is taken, or the last handle dropped. -/
  | state
  | subscription
  | begin
  | ending
  | teardown
deriving DecidableEq

/-- The kind of the moves that enter an event. The dispatch of a message is no move. -/
def Event.kind : Event ν → MoveKind
  | opened .. | openFailed .. | closed _ | joined .. | watched .. | unwatched _ => .wiring
  | sent .. | registered _ => .request
  | released => .state
  | exchangeBegan _ => .begin
  | exchangeEnded .. => .ending
  | _ => .routine

/-- Whether an event says nothing about exchanges, handlers or watches. -/
def Event.isPlain : Event ν → Bool
  | clockRead _ | opened .. | openFailed .. | closed _ | sent .. | joined .. | left .. | awaited ..
  | noted _ => true
  | watched _ accepted => !accepted
  | received _ (.error _) => true
  | _ => false

/-- Whether a frame holds neither a request nor a message. -/
def Frame.isPlain : Frame σ ν → Bool
  | dispatching [] | notifying _ | firing _ | returning _ | awaiting _ => true
  | _ => false

/-- The families that are known after an exchange, if it was the lookup of one. -/
def Waiter.learn (families : Table String Family) (outcome : Except Error (List Packet)) :
    Waiter σ ν → Table String Family
  | .client _ => families
  | .discovery name _ =>
    match outcome.bind (Family.ofReplies name) with
    | .error _ => families
    | .ok family => families.insert name family

@[simp] theorem Waiter.learn_error (families : Table String Family) (e : Error)
    (waiter : Waiter σ ν) : waiter.learn families (.error e) = families := by
  cases waiter <;> rfl

namespace Ledger

/-- The ledger with one more event in its journal. -/
def log (l : Ledger σ ν) (e : Event ν) : Ledger σ ν := { l with journal := e :: l.journal }

/-- The ledger with another stack. -/
def withStack (l : Ledger σ ν) (stack : List (Frame σ ν)) : Ledger σ ν := { l with stack }

end Ledger

/-- The changes that steps make to a ledger, the dispatch of a message left out. -/
inductive Move : Ledger σ ν → MoveKind → Ledger σ ν → Prop where
  | entry (l : Ledger σ ν) {kind : MoveKind} (e : Event ν) (he : e.isPlain = true)
    (hk : e.kind = kind) : Move l kind (l.log e)
  | release (l : Ledger σ ν) : Move l .state { l.log .released with isHeld := false }
  /-- A sequence number is taken. -/
  | count (l : Ledger σ ν) : Move l .state { l with counter := l.counter.advance }
  | subscribe (l : Ledger σ ν) (scans : Table UInt32 (Subscription σ ν ScanNotification))
    (schedules : Table UInt32 (Subscription σ ν UInt32)) :
    Move l .subscription { l with scans, schedules, nextNumber := l.nextNumber + 1 }
  | unsubscribe (l : Ledger σ ν) (scans : Table UInt32 (Subscription σ ν ScanNotification))
    (schedules : Table UInt32 (Subscription σ ν UInt32)) :
    Move l .subscription { l with scans, schedules }
  | renewSync (l : Ledger σ ν) (descriptor : Nat) :
    Move l .wiring { l with syncChannel := some descriptor }
  | renewAsync (l : Ledger σ ν) (descriptor : Nat) (hh : l.isHeld = true)
    (hw : l.watched = none) : Move l .wiring { l with asyncChannel := some descriptor }
  | watch (l : Ledger σ ν) (descriptor : Nat) (hc : l.asyncChannel = some descriptor) :
    Move l .wiring { l.log (.watched descriptor true) with
      watches := descriptor :: l.watches, watched := some descriptor }
  | unwatch (l : Ledger σ ν) (descriptor : Nat) (hw : l.watched = some descriptor) :
    Move l .wiring { l.log (.unwatched descriptor) with
      watches := l.watches.filter (· != descriptor), watched := none }
  | started (l : Ledger σ ν) : Move l .wiring { l with isStarted := true }
  /-- Client code waits for something. -/
  | push (l : Ledger σ ν) (frame : Frame σ ν) (hk : frame.keeps = false) :
    Move l .routine (l.withStack (frame :: l.stack))
  | pop (l : Ledger σ ν) (frame : Frame σ ν) (stack : List (Frame σ ν)) (hf : frame.isPlain = true)
    (hs : l.stack = frame :: stack) : Move l .routine (l.withStack stack)
  /-- The callback of a watch begins. -/
  | fire (l : Ledger σ ν) (descriptor : Nat) (hd : descriptor ∈ l.watches) :
    Move l .routine (l.withStack (.firing descriptor :: l.stack))
  /-- An attempt to receive gives messages to dispatch. -/
  | read (l : Ledger σ ν) (descriptor : Nat) (outcome : Except SystemFault Reception)
    (hk : l.stack.any Frame.keeps = true) :
    Move l .routine ((l.log (.received descriptor outcome)).withStack
      (.dispatching (Event.messagesIn outcome) :: l.stack))
  /-- A handler is done. -/
  | settle (l : Ledger σ ν) (sequence : UInt32) (handler : Handler σ ν) (again : Bool)
    (stack : List (Frame σ ν)) (hs : l.stack = .replying sequence handler again :: stack) :
    Move l .routine { l.withStack stack with
      pending := if again then l.pending.insert sequence handler else l.pending }
  | register (l : Ledger σ ν) (sequence : UInt32) (react : Journal ν → Packet → Program σ ν)
    (hn : sequence ≠ 0) (hh : l.isHeld = true) :
    Move l .request { l.log (.registered sequence) with
      pending := l.pending.insert sequence (.client react) }
  /-- An exchange begins: its request is sent and the clock is read. -/
  | begin (l : Ledger σ ν) (sequence : UInt32) (waiter : Waiter σ ν) (begun descriptor count : Nat)
    (message : Bytes) (hn : sequence ≠ 0) (hh : l.isHeld = true)
    (hc : l.syncChannel = some descriptor) :
    Move l .begin { l.withStack
        (.collecting ⟨l.nextNumber, sequence, begun, [], waiter⟩ :: l.stack) with
      pending := l.pending.insert sequence (.gather l.nextNumber)
      nextNumber := l.nextNumber + 1
      journal := .clockRead begun :: .sent descriptor message (.ok count) ::
        .exchangeBegan sequence :: l.journal }
  /-- An exchange ends because its request could not be sent. -/
  | refuse (l : Ledger σ ν) (sequence : UInt32) (e : Error) (entries : List (Event ν))
    (hn : sequence ≠ 0) (hh : l.isHeld = true) (he : ∀ budget, e ≠ .timeout budget)
    (hs : entries = [] ∨ ∃ descriptor message outcome,
      entries = [.sent descriptor message outcome]) :
    Move l .ending { l with
      pending := (l.pending.insert sequence (.gather l.nextNumber)).erase sequence
      nextNumber := l.nextNumber + 1
      journal := .exchangeEnded sequence (.error e) ::
        (entries ++ .exchangeBegan sequence :: l.journal) }
  /-- A request with the number of multicast traffic is turned down. -/
  | reject (l : Ledger σ ν) (e : Error) (he : ∀ budget, e ≠ .timeout budget) :
    Move l .ending (l.log (.exchangeEnded 0 (.error e)))
  /-- An exchange waits. -/
  | poll (l : Ledger σ ν) (x : Exchange σ ν) (stack : List (Frame σ ν)) (now descriptor : Nat)
    (outcome : Except SystemFault Bool) (hs : l.stack = .collecting x :: stack)
    (hp : l.pending.contains x.sequence = true)
    (hb : now - x.begun < l.config.syncTimeout.nanos) :
    Move l .routine ((l.log (.clockRead now)).log
      (.polled descriptor (l.config.syncTimeout.nanos - (now - x.begun)) outcome))
  /-- The budget of an exchange is spent. -/
  | timeout (l : Ledger σ ν) (x : Exchange σ ν) (stack : List (Frame σ ν)) (now : Nat)
    (hs : l.stack = .collecting x :: stack) (hp : l.pending.contains x.sequence = true)
    (hb : l.config.syncTimeout.nanos ≤ now - x.begun) :
    Move l .ending { ((l.log (.clockRead now)).log
        (.exchangeEnded x.sequence (.error (.timeout l.config.syncTimeout)))).withStack stack with
      pending := l.pending.erase x.sequence }
  | fail (l : Ledger σ ν) (x : Exchange σ ν) (stack : List (Frame σ ν)) (e : Error)
    (hs : l.stack = .collecting x :: stack) (he : ∀ budget, e ≠ .timeout budget) :
    Move l .ending { (l.log (.exchangeEnded x.sequence (.error e))).withStack stack with
      pending := l.pending.erase x.sequence }
  /-- An exchange has its replies. -/
  | finish (l : Ledger σ ν) (x : Exchange σ ν) (stack : List (Frame σ ν))
    (hs : l.stack = .collecting x :: stack) (hp : l.pending.get? x.sequence = none) :
    Move l .ending
      { (l.log (.exchangeEnded x.sequence (.ok x.gathered.reverse))).withStack stack with
        families := x.waiter.learn l.families (.ok x.gathered.reverse) }
  | takeDown (l : Ledger σ ν) (hh : l.isHeld = false) (hk : l.stack.any Frame.keeps = false)
    (hw : l.watched = none) :
    Move l .teardown { l with
      asyncChannel := none, syncChannel := none, pending := [], scans := [], schedules := []
      isAlive := false }

/-- The changes that the dispatch of a message makes to a ledger. -/
inductive Dispatch (p : Packet) : Ledger σ ν → Ledger σ ν → Prop where
  /-- The message is for nobody. -/
  | pass (l : Ledger σ ν) (rest : List Packet) (stack : List (Frame σ ν))
    (hs : l.stack = .dispatching (p :: rest) :: stack)
    (hp : p.sequence = 0 ∨ l.pending.get? p.sequence = none) :
    Dispatch p l ((l.log (.dispatched p)).withStack (.dispatching rest :: stack))
  /-- The message is for a subscription. -/
  | notify (l : Ledger σ ν) (rest : List Packet) (stack : List (Frame σ ν)) (number : Nat)
    (e : Event ν) (hs : l.stack = .dispatching (p :: rest) :: stack) (hp : p.sequence = 0)
    (he : (∃ n, e = .scanEnded number n) ∨ ∃ ifindex, e = .scheduleFired number ifindex) :
    Dispatch p l (((l.log (.dispatched p)).log e).withStack
      (.notifying number :: .dispatching rest :: stack))
  /-- The message ends what its handler waits for. -/
  | close (l : Ledger σ ν) (rest : List Packet) (stack : List (Frame σ ν)) (handler : Handler σ ν)
    (hs : l.stack = .dispatching (p :: rest) :: stack) (hp : p.sequence ≠ 0)
    (hg : l.pending.get? p.sequence = some handler) (hd : p.delivery = .finish) :
    Dispatch p l { (l.log (.dispatched p)).withStack (.dispatching rest :: stack) with
      pending := l.pending.erase p.sequence }
  /-- The message is gathered for an exchange. -/
  | gather (l : Ledger σ ν) (rest : List Packet) (stack : List (Frame σ ν)) (number : Nat)
    (hs : l.stack = .dispatching (p :: rest) :: stack) (hp : p.sequence ≠ 0)
    (hg : l.pending.get? p.sequence = some (.gather number)) (hd : p.delivery ≠ .finish) :
    Dispatch p l { (l.log (.dispatched p)).withStack
        (.dispatching rest :: stack.map (Frame.gather number p)) with
      pending := if p.delivery = .handOn
        then (l.pending.erase p.sequence).insert p.sequence (.gather number)
        else l.pending.erase p.sequence }
  /-- A handler is called with the message. -/
  | call (l : Ledger σ ν) (rest : List Packet) (stack : List (Frame σ ν))
    (react : Journal ν → Packet → Program σ ν)
    (hs : l.stack = .dispatching (p :: rest) :: stack) (hp : p.sequence ≠ 0)
    (hg : l.pending.get? p.sequence = some (.client react)) (hd : p.delivery ≠ .finish) :
    Dispatch p l { ((l.log (.dispatched p)).log (.replied p.sequence p)).withStack
        (.replying p.sequence (.client react) (p.delivery = .handOn) ::
          .dispatching rest :: stack) with
      pending := l.pending.erase p.sequence }

/-- The message that is dispatched is the first one on top of the stack. -/
theorem Dispatch.stack {p : Packet} {l l' : Ledger σ ν} (hd : Dispatch p l l') :
    ∃ rest stack, l.stack = .dispatching (p :: rest) :: stack := by
  cases hd with
  | pass rest stack hs | notify rest stack _ _ hs | close rest stack _ hs
  | gather rest stack _ hs | call rest stack _ hs => exact ⟨rest, stack, hs⟩

section

variable {p : Packet} {l l' : Ledger σ ν}

theorem Dispatch.counter_eq (hd : Dispatch p l l') : l'.counter = l.counter := by
  cases hd <;> rfl

theorem Dispatch.families_eq (hd : Dispatch p l l') : l'.families = l.families := by
  cases hd <;> rfl

theorem Dispatch.config_eq (hd : Dispatch p l l') : l'.config = l.config := by
  cases hd <;> rfl

end

/-- Any number of moves of one kind. -/
abbrev Row (kind : MoveKind) : Ledger σ ν → Ledger σ ν → Prop :=
  Relation.ReflTransGen fun l l' ↦ Move l kind l'

/-- Any number of moves. -/
abbrev Moves : Ledger σ ν → Ledger σ ν → Prop :=
  Relation.ReflTransGen fun l l' ↦ ∃ kind, Move l kind l'

theorem Move.moves {kind : MoveKind} {l l' : Ledger σ ν} (hm : Move l kind l') : Moves l l' :=
  .single ⟨kind, hm⟩

theorem Row.moves {kind : MoveKind} {l l' : Ledger σ ν} (hr : Row kind l l') : Moves l l' :=
  Relation.ReflTransGen.mono (fun _ _ hm ↦ ⟨kind, hm⟩) _ _ hr

/-- Moves keep what every move keeps. -/
theorem Moves.preserve {I : Ledger σ ν → Prop}
    (hmove : ∀ {kind l l'}, Move l kind l' → I l → I l') {l l' : Ledger σ ν} (hm : Moves l l')
    (hl : I l) : I l' := by
  induction hm with
  | refl => exact hl
  | tail _ hlast ih =>
    obtain ⟨_, hlast⟩ := hlast
    exact hmove hlast ih

/-! ### What moves leave alone -/

namespace Ledger

/-- The ledger with the wiring of another one. -/
def wiredAs (l l' : Ledger σ ν) : Ledger σ ν :=
  { l with
    isStarted := l'.isStarted, syncChannel := l'.syncChannel, asyncChannel := l'.asyncChannel
    watched := l'.watched, watches := l'.watches, journal := l'.journal }

/-- The ledger with the stack and the handlers of another one. -/
def goneOnAs (l l' : Ledger σ ν) : Ledger σ ν :=
  { l with pending := l'.pending, stack := l'.stack, journal := l'.journal }

end Ledger

section

variable {kind : MoveKind} {l l' : Ledger σ ν}

/-- A move about wiring changes nothing else. -/
theorem Move.eq_wiredAs (hm : Move l .wiring l') : l' = l.wiredAs l' := by
  cases hm <;> rfl

/-- A move of the routine or for a request changes only the stack and the handlers. -/
theorem Move.eq_goneOnAs (hm : Move l kind l') (hk : kind = .routine ∨ kind = .request) :
    l' = l.goneOnAs l' := by
  cases hm with
  | entry e he hk => rfl
  | _ => simp_all <;> rfl

/-- The events that a move enters are of its kind, unless it begins or ends an exchange. -/
theorem Move.kind_of_mem (hm : Move l kind l') (hb : kind ≠ .begin) (he : kind ≠ .ending) :
    ∃ new, l'.journal = new ++ l.journal ∧ ∀ e ∈ new, e.kind = kind := by
  cases hm with
  | entry e _ hk => exact ⟨[e], rfl, by simpa using hk⟩
  | release => exact ⟨[.released], rfl, by simp [Event.kind]⟩
  | watch descriptor _ => exact ⟨[.watched descriptor true], rfl, by simp [Event.kind]⟩
  | unwatch descriptor _ => exact ⟨[.unwatched descriptor], rfl, by simp [Event.kind]⟩
  | read descriptor outcome _ => exact ⟨[.received descriptor outcome], rfl, by simp [Event.kind]⟩
  | register sequence _ _ _ => exact ⟨[.registered sequence], rfl, by simp [Event.kind]⟩
  | poll x stack now descriptor outcome _ _ _ =>
    exact ⟨[.polled descriptor _ outcome, .clockRead now], rfl, by simp [Event.kind]⟩
  | begin => contradiction
  | refuse | reject | timeout | fail | finish => contradiction
  | _ => exact ⟨[], rfl, by simp⟩

/-- Taking a transport down enters nothing. -/
theorem Move.journal_of_teardown (hm : Move l .teardown l') : l'.journal = l.journal := by
  cases hm with
  | entry e he hk => cases e <;> simp_all [Event.kind]
  | takeDown => rfl

/-- Only the end of an exchange makes a family known. -/
theorem Move.families_eq (hm : Move l kind l') (hk : kind ≠ .ending) :
    l'.families = l.families := by
  cases hm with
  | finish => contradiction
  | _ => rfl

theorem Move.config_eq (hm : Move l kind l') : l'.config = l.config := by
  cases hm <;> rfl

/-- Only a move about the state takes a number, and then one. -/
theorem Move.counter_eq (hm : Move l kind l') (hk : kind ≠ .state) : l'.counter = l.counter := by
  cases hm with
  | count => contradiction
  | _ => rfl

namespace Row

theorem eq_wiredAs (hr : Row .wiring l l') : l' = l.wiredAs l' := by
  induction hr with
  | refl => rfl
  | @tail l₁ l₂ _ hlast ih =>
    calc l₂ = l₁.wiredAs l₂ := hlast.eq_wiredAs
      _ = (l.wiredAs l₁).wiredAs l₂ := congrArg (Ledger.wiredAs · l₂) ih
      _ = l.wiredAs l₂ := rfl

theorem eq_goneOnAs (hr : Row kind l l') (hk : kind = .routine ∨ kind = .request) :
    l' = l.goneOnAs l' := by
  induction hr with
  | refl => rfl
  | @tail l₁ l₂ _ hlast ih =>
    calc l₂ = l₁.goneOnAs l₂ := hlast.eq_goneOnAs hk
      _ = (l.goneOnAs l₁).goneOnAs l₂ := congrArg (Ledger.goneOnAs · l₂) ih
      _ = l.goneOnAs l₂ := rfl

theorem counter_eq (hr : Row kind l l') (hk : kind ≠ .state) : l'.counter = l.counter := by
  induction hr with
  | refl => rfl
  | tail _ hlast ih => exact (hlast.counter_eq hk).trans ih

theorem kind_of_mem (hr : Row kind l l') (hb : kind ≠ .begin) (he : kind ≠ .ending) :
    ∃ new, l'.journal = new ++ l.journal ∧ ∀ e ∈ new, e.kind = kind := by
  induction hr with
  | refl => exact ⟨[], rfl, by simp⟩
  | tail _ hlast ih =>
    obtain ⟨new, hj, hnew⟩ := ih
    obtain ⟨new', hj', hnew'⟩ := hlast.kind_of_mem hb he
    refine ⟨new' ++ new, by rw [hj', hj, List.append_assoc], fun e hmem ↦ ?_⟩
    rcases List.mem_append.mp hmem with hmem | hmem
    · exact hnew' e hmem
    · exact hnew e hmem

end Row

end

/-- What every run keeps: at most the descriptor of the asynchronous channel is watched, and a
transport that is taken down has nothing left. -/
structure Ledger.IsSound (l : Ledger σ ν) : Prop where
  watched_of_mem : ∀ descriptor ∈ l.watches, l.watched = some descriptor
  asyncChannel_of_watched : ∀ descriptor, l.watched = some descriptor →
    l.asyncChannel = some descriptor
  isAlive_of_asyncChannel : ∀ descriptor, l.asyncChannel = some descriptor → l.isAlive = true
  isAlive_of_isHeld : l.isHeld = true → l.isAlive = true
  isAlive_of_keeps : l.stack.any Frame.keeps = true → l.isAlive = true
  pending_of_not_isAlive : l.isAlive = false → l.pending = []

namespace Ledger.IsSound

theorem watched_of_not_isAlive {l : Ledger σ ν} (hs : l.IsSound) (ha : l.isAlive = false) :
    l.watched = none := by
  cases hw : l.watched with
  | none => rfl
  | some descriptor =>
    have halive := hs.isAlive_of_asyncChannel _ (hs.asyncChannel_of_watched _ hw)
    rw [ha] at halive
    contradiction

/-- A move keeps what every run keeps. -/
theorem move {kind : MoveKind} {l l' : Ledger σ ν} (hs : l.IsSound) (hm : Move l kind l') :
    l'.IsSound := by
  obtain ⟨hmem, hasync, hchannel, hheld, hkeeps, hpending⟩ := hs
  cases hm with
  | entry e he hk => exact ⟨hmem, hasync, hchannel, hheld, hkeeps, hpending⟩
  | release => exact ⟨hmem, hasync, hchannel, by simp, hkeeps, hpending⟩
  | count => exact ⟨hmem, hasync, hchannel, hheld, hkeeps, hpending⟩
  | subscribe scans schedules => exact ⟨hmem, hasync, hchannel, hheld, hkeeps, hpending⟩
  | unsubscribe scans schedules => exact ⟨hmem, hasync, hchannel, hheld, hkeeps, hpending⟩
  | renewSync descriptor => exact ⟨hmem, hasync, hchannel, hheld, hkeeps, hpending⟩
  | renewAsync descriptor hh hw =>
    exact ⟨hmem, by simp [hw], fun _ _ ↦ hheld hh, hheld, hkeeps, hpending⟩
  | watch descriptor hc =>
    refine ⟨?_, by simp [log, hc], hchannel, hheld, hkeeps, hpending⟩
    intro other ho
    rcases List.mem_cons.mp ho with rfl | ho
    · rfl
    · exact hc.symm.trans (hasync other (hmem other ho)) ▸ rfl
  | unwatch descriptor hw =>
    refine ⟨?_, by simp, hchannel, hheld, hkeeps, hpending⟩
    intro other ho
    obtain ⟨ho, hne⟩ := List.mem_filter.mp ho
    have := (hmem other ho).symm.trans hw
    simp_all
  | started => exact ⟨hmem, hasync, hchannel, hheld, hkeeps, hpending⟩
  | push frame hk =>
    refine ⟨hmem, hasync, hchannel, hheld, ?_, hpending⟩
    simpa [withStack, hk] using hkeeps
  | pop frame stack hf hs =>
    refine ⟨hmem, hasync, hchannel, hheld, fun hk ↦ hkeeps ?_, hpending⟩
    simp only [withStack] at hk
    simp [hs, hk]
  | fire descriptor hd =>
    have ha := hchannel descriptor (hasync descriptor (hmem descriptor hd))
    exact ⟨hmem, hasync, hchannel, hheld, fun _ ↦ ha, hpending⟩
  | read descriptor outcome hk =>
    exact ⟨hmem, hasync, hchannel, hheld, fun _ ↦ hkeeps hk, hpending⟩
  | settle sequence handler again stack hs =>
    have ha := hkeeps (by simp [hs, Frame.keeps])
    exact ⟨hmem, hasync, hchannel, hheld, fun _ ↦ ha, by simp [withStack, ha]⟩
  | register sequence react hn hh =>
    have ha := hheld hh
    exact ⟨hmem, hasync, hchannel, hheld, hkeeps, by simp [log, ha]⟩
  | begin sequence waiter begun descriptor count message hn hh hc =>
    have ha := hheld hh
    exact ⟨hmem, hasync, hchannel, hheld, fun _ ↦ ha, by simp [withStack, ha]⟩
  | refuse sequence e entries hn hh he hs =>
    have ha := hheld hh
    exact ⟨hmem, hasync, hchannel, hheld, hkeeps, by simp [ha]⟩
  | reject e he => exact ⟨hmem, hasync, hchannel, hheld, hkeeps, hpending⟩
  | poll x stack now descriptor outcome hs hp hb =>
    exact ⟨hmem, hasync, hchannel, hheld, hkeeps, hpending⟩
  | timeout x stack now hs hp hb =>
    have ha := hkeeps (by simp [hs, Frame.keeps])
    exact ⟨hmem, hasync, hchannel, hheld, fun _ ↦ ha, by simp [withStack, log, ha]⟩
  | fail x stack e hs he =>
    have ha := hkeeps (by simp [hs, Frame.keeps])
    exact ⟨hmem, hasync, hchannel, hheld, fun _ ↦ ha, by simp [withStack, log, ha]⟩
  | finish x stack hs hp =>
    have ha := hkeeps (by simp [hs, Frame.keeps])
    exact ⟨hmem, hasync, hchannel, hheld, fun _ ↦ ha, by simp [withStack, log, ha]⟩
  | takeDown hh hk hw =>
    exact ⟨hmem, by simp [hw], by simp, by simp [hh], by simp [hk], by simp⟩

/-- Dispatching a message keeps what every run keeps. -/
theorem dispatch {p : Packet} {l l' : Ledger σ ν} (hs : l.IsSound) (hd : Dispatch p l l') :
    l'.IsSound := by
  obtain ⟨hmem, hasync, hchannel, hheld, hkeeps, hpending⟩ := hs
  -- The frame with the messages keeps the transport.
  obtain ⟨rest, stack, hs⟩ := hd.stack
  have ha := hkeeps (by simp [hs, Frame.keeps])
  cases hd with
  | pass rest stack hs hp => exact ⟨hmem, hasync, hchannel, hheld, fun _ ↦ ha, hpending⟩
  | notify rest stack number e hs hp he =>
    exact ⟨hmem, hasync, hchannel, hheld, fun _ ↦ ha, hpending⟩
  | close rest stack handler hs hp hg hd =>
    exact ⟨hmem, hasync, hchannel, hheld, fun _ ↦ ha, by simp [withStack, log, ha]⟩
  | gather rest stack number hs hp hg hd =>
    exact ⟨hmem, hasync, hchannel, hheld, fun _ ↦ ha, by simp [withStack, log, ha]⟩
  | call rest stack react hs hp hg hd =>
    exact ⟨hmem, hasync, hchannel, hheld, fun _ ↦ ha, by simp [withStack, log, ha]⟩

end Ledger.IsSound

/-- The ledger of a transport that is not started. -/
theorem Machine.isSound_fresh (config : Config) (port : UInt32) (world : σ) :
    (Machine.fresh (ν := ν) config port world).ledger.IsSound where
  watched_of_mem := by simp [fresh, ledger]
  asyncChannel_of_watched := by simp [fresh, ledger, Transport.fresh]
  isAlive_of_asyncChannel := by simp [fresh, ledger, Transport.fresh]
  isAlive_of_isHeld := by simp [fresh, ledger, Transport.fresh]
  isAlive_of_keeps := by simp [fresh, ledger]
  pending_of_not_isAlive := by simp [fresh, ledger, Transport.fresh]

end WifiNetlink
