import WifiNetlink.Proofs.Boundary

/-!
# Lookups that go on

A lookup of a family is an exchange, and it has a place on the stack while it goes on. Main
statement: a step neither learns a family nor begins or ends a lookup, unless client code asks for a
family or the lookup on top of the stack has its turn.
-/

namespace WifiNetlink

variable {σ ν : Type}

/-- A lookup of a family that goes on. -/
structure Lookup (σ ν : Type) where
  /-- The frames below it. -/
  depth : Nat
  sequence : UInt32
  name : String
  discoverer : Discoverer σ ν

/-- The lookup in a frame with some frames below. -/
def Frame.lookup? (depth : Nat) : Frame σ ν → Option (Lookup σ ν)
  | collecting x =>
    match x.waiter with
    | .client _ => none
    | .discovery name discoverer => some ⟨depth, x.sequence, name, discoverer⟩
  | _ => none

namespace Machine

/-- The lookups on a stack, the latest first. -/
def lookups : List (Frame σ ν) → List (Lookup σ ν)
  | [] => []
  | frame :: stack => (frame.lookup? stack.length).toList ++ lookups stack

theorem lookups_cons_of_none {frame : Frame σ ν} {stack : List (Frame σ ν)}
    (hf : frame.lookup? stack.length = none) : lookups (frame :: stack) = lookups stack := by
  rw [lookups, hf]
  rfl

theorem lookups_cons_of_some {frame : Frame σ ν} {stack : List (Frame σ ν)} {l : Lookup σ ν}
    (hf : frame.lookup? stack.length = some l) :
    lookups (frame :: stack) = l :: lookups stack := by
  rw [lookups, hf]
  rfl

/-- A frame with a lookup is an exchange with a waiter that looks a family up. -/
theorem of_lookup?_eq_some {frame : Frame σ ν} {depth : Nat} {l : Lookup σ ν}
    (hf : frame.lookup? depth = some l) :
    ∃ x, frame = .collecting x ∧ x.sequence = l.sequence ∧
      x.waiter = .discovery l.name l.discoverer ∧ l.depth = depth := by
  unfold Frame.lookup? at hf
  split at hf
  · next x =>
    split at hf
    · contradiction
    · next name discoverer hw =>
      obtain rfl := Option.some.inj hf
      exact ⟨x, rfl, rfl, hw, rfl⟩
  · contradiction

theorem lookup?_collecting_client {x : Exchange σ ν}
    {next : Except Error (List Packet) → Program σ ν} (hw : x.waiter = .client next)
    (depth : Nat) : (Frame.collecting x).lookup? depth = none := by
  rw [Frame.lookup?, hw]

/-- Gathering a reply changes no lookup. -/
theorem lookups_gather (number : Nat) (p : Packet) (stack : List (Frame σ ν)) :
    lookups (stack.map (Frame.gather number p)) = lookups stack := by
  have hframe (frame : Frame σ ν) (depth : Nat) :
      (frame.gather number p).lookup? depth = frame.lookup? depth := by
    cases frame with
    | collecting x =>
      rw [Frame.gather, Exchange.gather]
      split <;> rfl
    | _ => rfl
  induction stack with
  | nil => rfl
  | cons frame stack ih => rw [List.map_cons, lookups, lookups, hframe, List.length_map, ih]

/-- A stack is higher than the place of each lookup. -/
theorem depth_lt_of_mem_lookups {stack : List (Frame σ ν)} {l : Lookup σ ν}
    (hl : l ∈ lookups stack) : l.depth < stack.length := by
  induction stack with
  | nil => exact absurd hl List.not_mem_nil
  | cons frame stack ih =>
    rw [List.length_cons]
    rcases List.mem_append.mp hl with htop | hbelow
    · obtain ⟨-, -, -, -, hdepth⟩ := of_lookup?_eq_some (Option.mem_toList.mp htop)
      omega
    · have hless := ih hbelow
      omega

end Machine

/-- Whether between two ledgers no family becomes known and no lookup begins or ends. -/
structure Ledger.LearnsNothing (l l' : Ledger σ ν) : Prop where
  families : l'.families = l.families
  config : l'.config = l.config
  lookups : Machine.lookups l'.stack = Machine.lookups l.stack

section

variable {l l' : Ledger σ ν} {kind : MoveKind}

theorem Ledger.LearnsNothing.trans {l'' : Ledger σ ν} (hl : l.LearnsNothing l')
    (hl' : l'.LearnsNothing l'') : l.LearnsNothing l'' where
  families := hl'.families.trans hl.families
  config := hl'.config.trans hl.config
  lookups := hl'.lookups.trans hl.lookups

/-- Only the end of an exchange makes a family known, and only its beginning and its end change the
lookups that go on. -/
private theorem Move.learnsNothing (hm : Move l kind l') (hb : kind ≠ .begin)
    (he : kind ≠ .ending) : l.LearnsNothing l' := by
  refine ⟨hm.families_eq he, hm.config_eq, ?_⟩
  cases hm with
  | push frame hk =>
    apply Machine.lookups_cons_of_none
    cases frame with
    | returning | awaiting => rfl
    | _ => contradiction
  | pop frame stack hf hs =>
    rw [hs]
    refine (Machine.lookups_cons_of_none ?_).symm
    cases frame with
    | collecting x => contradiction
    | _ => rfl
  | settle sequence handler again stack hs =>
    rw [hs]
    exact (Machine.lookups_cons_of_none rfl).symm
  | begin => contradiction
  | refuse | reject | timeout | fail | finish => contradiction
  | _ => rfl

private theorem Row.learnsNothing (hr : Row kind l l') (hb : kind ≠ .begin)
    (he : kind ≠ .ending) : l.LearnsNothing l' := by
  induction hr with
  | refl => exact ⟨rfl, rfl, rfl⟩
  | tail _ hlast ih => exact ih.trans (hlast.learnsNothing hb he)

/-- What a message is handed to is no lookup that begins. -/
private theorem Dispatch.learnsNothing {p : Packet} (hd : Dispatch p l l') :
    l.LearnsNothing l' := by
  refine ⟨hd.families_eq, hd.config_eq, ?_⟩
  cases hd with
  | gather rest stack number hs =>
    rw [hs]
    exact Machine.lookups_gather number p stack
  | pass rest stack hs | notify rest stack _ _ hs | close rest stack _ hs
  | call rest stack _ hs => rw [hs]; rfl

private theorem Machine.Aside.learnsNothing {m : Machine σ ν} (ha : m.Aside l) :
    m.ledger.LearnsNothing l := by
  cases ha with
  | routine hr => exact Row.learnsNothing hr (by simp) (by simp)
  | wiring hr => exact Row.learnsNothing hr (by simp) (by simp)
  | request _ hr => exact Row.learnsNothing hr (by simp) (by simp)
  | state hm => exact hm.learnsNothing (by simp) (by simp)
  | subscription _ _ _ hm => exact hm.learnsNothing (by simp) (by simp)
  | teardown hr hm =>
    exact (Row.learnsNothing hr (by simp) (by simp)).trans (hm.learnsNothing (by simp) (by simp))

end

namespace Machine

variable (h : Host σ) (m : Machine σ ν)

/-! ### Exchanges of client code -/

private theorem learnsNothing_beginExchange (request : Packet)
    (next : Except Error (List Packet) → Program σ ν) :
    m.ledger.LearnsNothing (m.beginExchange h request (.client next)).ledger := by
  by_cases hn : request.sequence = 0
  · simp only [beginExchange, hn, if_true]
    exact ⟨rfl, rfl, rfl⟩
  · have hb := begins_beginExchange h m request (.client next) hn
    generalize m.beginExchange h request (.client next) = m' at hb ⊢
    cases hb with
    | refused e ready new hl hj hnew hk =>
      exact ⟨hk.families, hk.config, congrArg lookups hl.stack_eq⟩
    | sent begun m' new hs hp hj hnew hk hc =>
      refine ⟨hk.families, hk.config, (congrArg lookups hs).trans ?_⟩
      exact lookups_cons_of_none (lookup?_collecting_client rfl _)

/-- An exchange that waits goes on as it was. -/
theorem lookups_of_waits {x : Exchange σ ν} {m' : Machine σ ν} {read : Option (List Packet)}
    (hs : m'.stack = read.toList.map .dispatching ++ .collecting x :: m.stack) :
    lookups m'.stack = lookups (.collecting x :: m.stack) := by
  rw [hs]
  cases read with
  | none => rfl
  | some packets => exact lookups_cons_of_none rfl

private theorem learnsNothing_turnExchange {x : Exchange σ ν}
    {next : Except Error (List Packet) → Program σ ν} (hw : x.waiter = .client next) :
    m.ledger.LearnsNothing (m.turnExchange h x).ledger := by
  have ht := turns_turnExchange h m x
  generalize m.turnExchange h x = m' at ht ⊢
  cases ht with
  | ends outcome ready hcloses =>
    rw [hw]
    exact ⟨hcloses.keeps.families, hcloses.keeps.config, congrArg lookups hcloses.leaves.stack_eq⟩
  | waits m' read hs hj ht =>
    refine ⟨congrArg Transport.families ht, congrArg Transport.config ht, ?_⟩
    exact (lookups_of_waits m hs).trans
      (lookups_cons_of_none (lookup?_collecting_client hw _))

/-! ### Steps -/

/-- Whether client code is about to ask for a family. -/
def LooksUp (m : Machine σ ν) : Prop :=
  m.transport.isHeld = true ∧
    ∃ sequence name discoverer, m.asks? = some (sequence, .discovery name discoverer)

/-- Client code that asks for an exchange and not for a family. -/
private theorem learnsNothing_of_asks (ha : m.asks? ≠ none) (hh : m.transport.isHeld = true)
    (hn : ¬ m.LooksUp) : m.ledger.LearnsNothing (m.step h).ledger := by
  unfold LooksUp at hn
  unfold asks? at ha hn
  split at ha
  · next request next hc =>
    rw [step_eq_call h hc hh]
    exact learnsNothing_beginExchange h m request next
  · next name next hc => simp [hc, hh] at hn
  · next next hc =>
    split at ha
    · contradiction
    · next hstarted => simp [hc, hh, hstarted] at hn
  · contradiction

/-- A step learns no family, unless client code asks for one or a lookup has its turn. -/
theorem learnsNothing_step (hn : ¬ m.LooksUp)
    (hturn : ∀ frame stack, m.control = .resume → m.stack = frame :: stack →
      frame.lookup? stack.length = none) : m.ledger.LearnsNothing (m.step h).ledger := by
  cases hd : m.due? with
  | some p => exact (m.dispatch_step h hd).learnsNothing
  | none =>
    by_cases hx : ∃ x stack, m.stack = .collecting x :: stack ∧ m.control = .resume
    · obtain ⟨x, stack, hs, hc⟩ := hx
      have hclient := hturn _ stack hc hs
      have hpopped : m.ledger.LearnsNothing ({ m with stack } : Machine σ ν).ledger := by
        refine ⟨rfl, rfl, ?_⟩
        simp only [ledger, hs, lookups_cons_of_none hclient]
      rw [step_of_collecting h hc hs]
      cases hw : x.waiter with
      | client next => exact hpopped.trans (learnsNothing_turnExchange h _ hw)
      | discovery name discoverer => simp [Frame.lookup?, hw] at hclient
    · by_cases hasks : m.asks? = none ∨ m.transport.isHeld = false
      · exact (m.aside_step h hd hasks fun x stack hs hc ↦ hx ⟨x, stack, hs, hc⟩).learnsNothing
      · rw [not_or, Bool.not_eq_false] at hasks
        exact learnsNothing_of_asks h m hasks.1 hasks.2 hn

end Machine

end WifiNetlink
