import Mathlib
import WifiNetlink.Proofs.Clock
import WifiNetlink.Proofs.Returning

/-!
# The budget of an exchange

The exchanges that a journal has under way are those on the stack. Every wait of an exchange is
given what is left of its budget since its request was sent, and there is something left; an
exchange that is not over when nothing is left ends with a timeout, and no other does, and whoever
asked for it gets to know. So the waits of an exchange take its budget at most, whatever happens
between them.
-/

namespace WifiNetlink

variable {σ ν : Type}

namespace Event

/-- Whether an exchange waits or its budget is spent. -/
def isTimed : Event ν → Bool
  | polled .. | exchangeEnded _ (.error (.timeout _)) => true
  | _ => false

end Event

namespace Frame

/-- The number of an exchange, and when it began. -/
def key? : Frame σ ν → Option (UInt32 × Option Nat)
  | collecting x => some (x.sequence, some x.begun)
  | _ => none

theorem key?_of_isPlain {frame : Frame σ ν} (h : frame.isPlain = true) : frame.key? = none := by
  cases frame with
  | collecting x => contradiction
  | _ => rfl

theorem key?_of_not_keeps {frame : Frame σ ν} (h : frame.keeps = false) : frame.key? = none := by
  cases frame with
  | collecting x => contradiction
  | _ => rfl

@[simp] theorem key?_gather (number : Nat) (p : Packet) (frame : Frame σ ν) :
    (frame.gather number p).key? = frame.key? := by
  cases frame with
  | collecting x =>
    simp only [gather, key?, Exchange.gather]
    split <;> rfl
  | _ => rfl

end Frame

namespace Ledger

/-- The numbers of the exchanges on the stack, and when they began. -/
def keys (l : Ledger σ ν) : List (UInt32 × Option Nat) := l.stack.filterMap Frame.key?

/-- What a journal tells about time: the exchanges under way are those on the stack, and waits and
timeouts are as the budget says. -/
structure KeepsTime (took : Journal ν → Nat) (config : Config) (l : Ledger σ ν) : Prop where
  config_eq : l.config = config
  waits_eq : (l.journal.waits took).map Wait.key = l.keys
  ne_zero : ∀ key ∈ l.keys, key.1 ≠ 0
  isGranted : l.journal.IsGranted took config.syncTimeout.nanos
  isExpired : l.journal.IsExpired took config.syncTimeout

namespace KeepsTime

variable {took : Journal ν → Nat} {config : Config} {l l' : Ledger σ ν}

/-- Events that are not timed keep what the journal tells about time. -/
private theorem isGranted_append (hl : l.KeepsTime took config) (new : Journal ν)
    (hnew : ∀ e ∈ new, e.isTimed = false) :
    Journal.IsGranted took config.syncTimeout.nanos (new ++ l.journal) := by
  apply hl.isGranted.append
  intro e he _ descriptor timeout outcome h
  have htimed := hnew e he
  rw [h] at htimed
  contradiction

private theorem isExpired_append (hl : l.KeepsTime took config) (new : Journal ν)
    (hnew : ∀ e ∈ new, e.isTimed = false) :
    Journal.IsExpired took config.syncTimeout (new ++ l.journal) := by
  apply hl.isExpired.append
  intro e he _ sequence stated h
  have htimed := hnew e he
  rw [h] at htimed
  contradiction

/-- A change that concerns no exchange. -/
private theorem extend (hl : l.KeepsTime took config) (new : Journal ν)
    (hc : l'.config = l.config) (hj : l'.journal = new ++ l.journal) (hk : l'.keys = l.keys)
    (hnew : ∀ e ∈ new, e.isTimed = false)
    (hw : Journal.waits took (new ++ l.journal) = Journal.waits took l.journal) :
    l'.KeepsTime took config where
  config_eq := hc.trans hl.config_eq
  waits_eq := by rw [hj, hk, hw, hl.waits_eq]
  ne_zero := hk ▸ hl.ne_zero
  isGranted := hj ▸ hl.isGranted_append _ hnew
  isExpired := hj ▸ hl.isExpired_append _ hnew

/-- The exchange at the top of the stack is the one that was begun last. -/
private theorem waits_top (hl : l.KeepsTime took config) {x : Exchange σ ν}
    {stack : List (Frame σ ν)} (hs : l.stack = .collecting x :: stack) :
    ∃ w ws, l.journal.waits took = w :: ws ∧ w.key = (x.sequence, some x.begun) ∧
      ws.map Wait.key = stack.filterMap Frame.key? ∧ x.sequence ≠ 0 := by
  have hkeys : l.keys = (x.sequence, some x.begun) :: stack.filterMap Frame.key? := by
    simp [keys, hs, Frame.key?]
  have hwaits := hl.waits_eq
  rw [hkeys] at hwaits
  obtain ⟨w, ws, hws, hw, htail⟩ := List.map_eq_cons_iff.mp hwaits
  exact ⟨w, ws, hws, hw, htail, hl.ne_zero _ (hkeys ▸ List.mem_cons_self)⟩

/-- Reading the clock changes nothing: the requests of all exchanges on the stack are sent. -/
private theorem waits_clockRead (hl : l.KeepsTime took config) (now : Nat) :
    Journal.waits took (.clockRead now :: l.journal) = Journal.waits took l.journal := by
  cases hws : l.journal.waits took with
  | nil => simp only [Journal.waits, hws]
  | cons w ws =>
    have hkey : w.key ∈ l.keys := hl.waits_eq ▸ List.mem_map_of_mem (hws ▸ List.mem_cons_self)
    obtain ⟨frame, -, hframe⟩ := List.mem_filterMap.mp hkey
    cases frame with
    | collecting x =>
      exact Journal.waits_clockRead now hws (congrArg Prod.snd (Option.some.inj hframe).symm)
    | _ => contradiction

/-- The exchange at the top of the stack ends. -/
private theorem leave (hl : l.KeepsTime took config) {x : Exchange σ ν}
    {stack : List (Frame σ ν)} (hs : l.stack = .collecting x :: stack) (new : Journal ν)
    (outcome : Except Error (List Packet)) (hc : l'.config = l.config)
    (hj : l'.journal = .exchangeEnded x.sequence outcome :: (new ++ l.journal))
    (hstack : l'.stack = stack)
    (hw : Journal.waits took (new ++ l.journal) = Journal.waits took l.journal)
    (hg : l'.journal.IsGranted took config.syncTimeout.nanos)
    (he : l'.journal.IsExpired took config.syncTimeout) : l'.KeepsTime took config := by
  obtain ⟨w, ws, hws, -, htail, hne⟩ := hl.waits_top hs
  refine ⟨hc.trans hl.config_eq, ?_, fun key hkey ↦ hl.ne_zero key ?_, hg, he⟩
  · simp only [hj, Journal.waits, hne, if_false, hw, hws, List.tail_cons, htail, keys, hstack]
  · rw [keys, hstack] at hkey
    obtain ⟨frame, hframe, hk⟩ := List.mem_filterMap.mp hkey
    exact List.mem_filterMap.mpr ⟨frame, hs ▸ List.mem_cons_of_mem _ hframe, hk⟩

/-- An exchange is sent. -/
private theorem begin (hl : l.KeepsTime took config) (sequence : UInt32) (waiter : Waiter σ ν)
    (begun descriptor count : Nat) (message : Bytes) (hn : sequence ≠ 0)
    (hc : l'.config = l.config)
    (hj : l'.journal = .clockRead begun :: .sent descriptor message (.ok count) ::
      .exchangeBegan sequence :: l.journal)
    (hs : l'.stack = .collecting ⟨l.nextNumber, sequence, begun, [], waiter⟩ :: l.stack) :
    l'.KeepsTime took config := by
  have hkeys : l'.keys = (sequence, some begun) :: l.keys := by
    simp [keys, hs, Frame.key?]
  have hnew : ∀ e ∈ [Event.clockRead begun, .sent descriptor message (.ok count),
      .exchangeBegan (ν := ν) sequence], e.isTimed = false := by
    simp [Event.isTimed]
  refine ⟨hc.trans hl.config_eq, ?_, ?_, hj ▸ hl.isGranted_append _ hnew,
    hj ▸ hl.isExpired_append _ hnew⟩
  · rw [hj, hkeys, ← hl.waits_eq]
    rfl
  · rw [hkeys]
    exact List.forall_mem_cons.mpr ⟨hn, hl.ne_zero⟩

/-- An exchange waits. -/
private theorem poll (hl : l.KeepsTime took config) {x : Exchange σ ν} {stack : List (Frame σ ν)}
    (now descriptor : Nat) (outcome : Except SystemFault Bool)
    (hs : l.stack = .collecting x :: stack)
    (hb : now - x.begun < l.config.syncTimeout.nanos) :
    KeepsTime took config ((l.log (.clockRead now)).log
      (.polled descriptor (l.config.syncTimeout.nanos - (now - x.begun)) outcome)) := by
  obtain ⟨w, ws, hws, hw, -, -⟩ := hl.waits_top hs
  have hclock := hl.waits_clockRead now
  refine ⟨hl.config_eq, ?_, hl.ne_zero, ⟨?_, ?_⟩, ⟨by simp, ?_⟩⟩
  · have hkeys := hl.waits_eq
    rw [hws] at hclock hkeys
    refine Eq.trans ?_ hkeys
    simp only [log, Journal.waits_polled _ _ _ hclock, List.map_cons, Wait.key_spend, List.map_map,
      Function.comp_def, Wait.key_pass]
  · intro _ _ _ he
    obtain ⟨rfl, rfl, rfl⟩ := Event.polled.inj he
    rw [← hl.config_eq]
    exact ⟨now, l.journal, w, ws, x.begun, rfl, hws, congrArg Prod.snd hw, hb, rfl⟩
  · exact hl.isGranted_append [.clockRead now] (by simp [Event.isTimed])
  · exact hl.isExpired_append [.clockRead now] (by simp [Event.isTimed])

/-- The budget of an exchange is spent. -/
private theorem timeout (hl : l.KeepsTime took config) {x : Exchange σ ν}
    {stack : List (Frame σ ν)} (now : Nat) (hs : l.stack = .collecting x :: stack)
    (hb : l.config.syncTimeout.nanos ≤ now - x.begun) :
    KeepsTime took config { ((l.log (.clockRead now)).log
      (.exchangeEnded x.sequence (.error (.timeout l.config.syncTimeout)))).withStack stack with
      pending := l.pending.erase x.sequence } := by
  obtain ⟨w, ws, hws, hw, -, -⟩ := hl.waits_top hs
  refine hl.leave hs [.clockRead now] _ rfl rfl rfl (hl.waits_clockRead now) ⟨by simp, ?_⟩ ⟨?_, ?_⟩
  · exact hl.isGranted_append [.clockRead now] (by simp [Event.isTimed])
  · intro _ _ he
    obtain ⟨rfl, hstated⟩ := Event.exchangeEnded.inj he
    obtain rfl := Error.timeout.inj (Except.error.inj hstated)
    rw [← hl.config_eq]
    exact ⟨rfl, now, l.journal, w, ws, x.begun, rfl, hws, hw, hb⟩
  · exact hl.isExpired_append [.clockRead now] (by simp [Event.isTimed])

/-- A move keeps what the journal tells about time. -/
theorem move {kind : MoveKind} (hm : Move l kind l') (hl : l.KeepsTime took config) :
    l'.KeepsTime took config := by
  cases hm with
  | entry e he hk =>
    refine hl.extend [e] rfl rfl rfl ?_ ?_
    · cases e <;> simp_all [Event.isPlain, Event.isTimed]
    · cases e with
      | clockRead instant => exact hl.waits_clockRead instant
      | exchangeBegan sequence => contradiction
      | exchangeEnded sequence outcome => contradiction
      | polled descriptor timeout outcome => contradiction
      | _ => rfl
  | release => exact hl.extend [.released] rfl rfl rfl (by simp [Event.isTimed]) rfl
  | subscribe scans schedules => exact hl.extend [] rfl rfl rfl (by simp) rfl
  | count | unsubscribe | renewSync | renewAsync | started =>
    exact hl.extend [] rfl rfl rfl (by simp) rfl
  | watch descriptor hc =>
    exact hl.extend [.watched descriptor true] rfl rfl rfl (by simp [Event.isTimed]) rfl
  | unwatch descriptor hw =>
    exact hl.extend [.unwatched descriptor] rfl rfl rfl (by simp [Event.isTimed]) rfl
  | push frame hk =>
    have hkeys : (l.withStack (frame :: l.stack)).keys = l.keys := by
      simp [keys, withStack, Frame.key?_of_not_keeps hk]
    exact hl.extend [] rfl rfl hkeys (by simp) rfl
  | pop frame stack hf hs =>
    have hkeys : (l.withStack stack).keys = l.keys := by
      simp [keys, withStack, hs, Frame.key?_of_isPlain hf]
    exact hl.extend [] rfl rfl hkeys (by simp) rfl
  | fire descriptor hd => exact hl.extend [] rfl rfl rfl (by simp) rfl
  | read descriptor outcome hk =>
    exact hl.extend [.received descriptor outcome] rfl rfl rfl (by simp [Event.isTimed]) rfl
  | settle sequence handler again stack hs =>
    refine hl.extend [] rfl rfl ?_ (by simp) rfl
    simp [keys, withStack, hs, List.filterMap_cons, Frame.key?]
  | register sequence react hn hh =>
    exact hl.extend [.registered sequence] rfl rfl rfl (by simp [Event.isTimed]) rfl
  | begin sequence waiter begun descriptor count message hn hh hc =>
    exact hl.begin sequence waiter begun descriptor count message hn rfl rfl rfl
  | refuse sequence e entries hn hh he hs =>
    -- The exchange is under way for no time.
    refine hl.extend (.exchangeEnded sequence (.error e) :: (entries ++ [.exchangeBegan sequence]))
      rfl (by simp) rfl ?_ ?_
    · have hend : Event.isTimed (.exchangeEnded (ν := ν) sequence (.error e)) = false := by
        cases e <;> simp_all [Event.isTimed]
      rcases hs with rfl | ⟨descriptor, message, outcome, rfl⟩
      · simpa [Event.isTimed] using hend
      · simpa [Event.isTimed] using hend
    · rcases hs with rfl | ⟨descriptor, message, outcome, rfl⟩
      · simp [Journal.waits, hn]
      · simp [Journal.waits, hn]
  | reject e he =>
    refine hl.extend [.exchangeEnded 0 (.error e)] rfl rfl rfl ?_ (by simp [Journal.waits])
    cases e <;> simp_all [Event.isTimed]
  | poll x stack now descriptor outcome hs hp hb => exact hl.poll now descriptor outcome hs hb
  | timeout x stack now hs hp hb => exact hl.timeout now hs hb
  | fail x stack e hs he =>
    have hnew : ∀ other ∈ [Event.exchangeEnded (ν := ν) x.sequence (.error e)],
        other.isTimed = false := by
      cases e <;> simp_all [Event.isTimed]
    exact hl.leave hs [] _ rfl rfl rfl rfl (hl.isGranted_append _ hnew) (hl.isExpired_append _ hnew)
  | finish x stack hs hp =>
    have hnew : ∀ other ∈ [Event.exchangeEnded (ν := ν) x.sequence (.ok x.gathered.reverse)],
        other.isTimed = false := by
      simp [Event.isTimed]
    exact hl.leave hs [] _ rfl rfl rfl rfl (hl.isGranted_append _ hnew) (hl.isExpired_append _ hnew)
  | takeDown hh hk hw => exact hl.extend [] rfl rfl rfl (by simp) rfl

/-- Dispatching a message keeps what the journal tells about time. -/
theorem dispatch {p : Packet} (hd : Dispatch p l l') (hl : l.KeepsTime took config) :
    l'.KeepsTime took config := by
  cases hd with
  | pass rest stack hs hp =>
    refine hl.extend [.dispatched p] rfl rfl ?_ (by simp [Event.isTimed]) rfl
    simp [keys, withStack, hs, List.filterMap_cons, Frame.key?]
  | notify rest stack number e hs hp he =>
    refine hl.extend [e, .dispatched p] rfl rfl ?_ ?_ ?_
    · simp [keys, withStack, hs, List.filterMap_cons, Frame.key?]
    · rcases he with ⟨n, rfl⟩ | ⟨ifindex, rfl⟩
      · simp [Event.isTimed]
      · simp [Event.isTimed]
    · rcases he with ⟨n, rfl⟩ | ⟨ifindex, rfl⟩
      · rfl
      · rfl
  | close rest stack handler hs hp hg hd =>
    refine hl.extend [.dispatched p] rfl rfl ?_ (by simp [Event.isTimed]) rfl
    simp [keys, withStack, hs, List.filterMap_cons, Frame.key?]
  | gather rest stack number hs hp hg hd =>
    refine hl.extend [.dispatched p] rfl rfl ?_ (by simp [Event.isTimed]) rfl
    have hgather : (stack.map (Frame.gather number p)).filterMap Frame.key? =
        stack.filterMap Frame.key? := by
      simp only [List.filterMap_map, Function.comp_def, Frame.key?_gather]
    simp [keys, withStack, hs, List.filterMap_cons, Frame.key?, hgather]
  | call rest stack react hs hp hg hd =>
    refine hl.extend [.replied p.sequence p, .dispatched p] rfl rfl ?_ (by simp [Event.isTimed]) rfl
    simp [keys, withStack, hs, List.filterMap_cons, Frame.key?]

end KeepsTime

end Ledger

/-! ### The check of an exchange -/

namespace Machine

variable (h : Host σ) {m : Machine σ ν}

/-- Handing over a failure does nothing else. -/
private theorem journal_endExchange (sequence : UInt32) (waiter : Waiter σ ν) (e : Error)
    (m : Machine σ ν) : (m.endExchange h sequence waiter (.error e)).journal =
      .exchangeEnded sequence (.error e) :: m.journal := by
  cases waiter with
  | client next => rfl
  | discovery name discoverer => cases discoverer <;> rfl

/-- Whether an exchange has just ended with a timeout, which what waits for it goes on with. -/
def TimesOut (x : Exchange σ ν) (m : Machine σ ν) : Prop :=
  ∃ stated earlier, m.journal = .exchangeEnded x.sequence (.error (.timeout stated)) :: earlier ∧
    x.waiter.GoesOn (.error (.timeout stated)) m.control

/-- An exchange that ends with replies does not end with a timeout, and what goes on after it ends
none. -/
private theorem not_timesOut_endExchange (x : Exchange σ ν) (replies : List Packet)
    (m : Machine σ ν) : ¬ (m.endExchange h x.sequence x.waiter (.ok replies)).TimesOut x := by
  obtain ⟨new, hj, hnew⟩ := (wires_handReplies h (m.log (.exchangeEnded x.sequence (.ok replies)))
    x.waiter (.ok replies)).journal
  rintro ⟨stated, earlier, hm, -⟩
  have hlast := hj.symm.trans hm
  cases new with
  | nil => cases hlast
  | cons e new =>
    have hwiring := hnew e List.mem_cons_self
    rw [(List.cons.inj hlast).1] at hwiring
    contradiction

/-- At the check of an exchange it ends with a timeout exactly if it is not over and its budget is
spent. -/
private theorem timesOut_turnExchange_iff (x : Exchange σ ν) (m : Machine σ ν) :
    (m.turnExchange h x).TimesOut x ↔ m.IsSpent h x := by
  have ht := turns_turnExchange h m x
  generalize m.turnExchange h x = m' at ht ⊢
  cases ht with
  | ends outcome ready hcloses =>
    cases outcome with
    | error e =>
      have hj := journal_endExchange h x.sequence x.waiter e ready
      constructor
      · rintro ⟨stated, earlier, hm, -⟩
        have hsame := (Event.exchangeEnded.inj (List.cons.inj (hj.symm.trans hm)).1).2
        exact ((hcloses.eq_timeout_iff stated).mp hsame).2
      · intro hspent
        obtain rfl := Except.error.inj ((hcloses.eq_timeout_iff _).mpr ⟨rfl, hspent⟩)
        exact ⟨_, _, hj, goesOn_handReplies h _ x.waiter _⟩
    | ok replies =>
      refine iff_of_false (not_timesOut_endExchange h x replies ready) fun hspent ↦ ?_
      cases (hcloses.eq_timeout_iff _).mpr ⟨rfl, hspent⟩
  | waits m' read hs hj ht hw hc hb =>
    -- Nothing goes on that waits for the exchange.
    refine iff_of_false ?_ hb
    rintro ⟨stated, earlier, -, hgoes⟩
    obtain ⟨program, hrun⟩ := hgoes.exists_run
    rw [hc] at hrun
    contradiction

/-- Whether the call for an exchange returned a timeout if and only if its budget was spent: it
failed before there was anything to wait for, which is no matter of time; or it returned from a
check, and with a timeout exactly if the exchange was not over there and its budget was spent. -/
def IsPunctual (sequence : UInt32) (waiter : Waiter σ ν) (budget : Duration)
    (m₀ m : Machine σ ν) : Prop :=
  ∃ outcome, waiter.GoesOn outcome m.control ∧
    ((m = m₀.step h ∧ ∃ e, outcome = .error e ∧ ∀ stated, e ≠ .timeout stated) ∨
    ∃ m₁ x stack, Run h (fun m ↦ m₀.stack.length < m.stack.length) (m₀.step h) m₁ ∧
      m₁.Checks sequence m₀.stack.length waiter x stack ∧ m = m₁.step h ∧
      ∀ stated, outcome = .error (.timeout stated) ↔ stated = budget ∧
        m₁.transport.pending.contains sequence = true ∧
        budget.nanos ≤ (h.now m₁.world).1 - x.begun)

end Machine

/-! ### Runs -/

namespace Reachable

variable {h : Host σ} {config : Config} {port : UInt32} {m : Machine σ ν}

/-- Every run keeps what a journal tells about time. -/
theorem keepsTime (hr : Reachable h config port m) (took : Journal ν → Nat) :
    m.ledger.KeepsTime took config :=
  hr.invariant (fun _ ↦ ⟨rfl, rfl, by simp [Ledger.keys, Machine.ledger, Machine.fresh],
    trivial, trivial⟩) (fun _ hm hl ↦ hl.move hm) fun _ hd hl ↦ hl.dispatch hd

/-- The call for an exchange returns a timeout exactly if its budget is spent. -/
theorem isPunctual (hr : Reachable h config port m) {sequence : UInt32} {waiter : Waiter σ ν}
    (ha : m.asks? = some (sequence, waiter)) (hh : m.transport.isHeld = true) {m' : Machine σ ν}
    (hret : m.Returns h m') : m.IsPunctual h sequence waiter config.syncTimeout m' := by
  obtain ⟨outcome, hreturned⟩ := hret.exists_returnsWith ha hh
  refine ⟨outcome, hreturned.goesOn, ?_⟩
  cases hreturned with
  | unsent e ht hg hs hp => exact .inl ⟨rfl, e, rfl, ht⟩
  | checked m₁ ready x stack hsent hrun hcheck hcloses hend =>
    have hr₁ : Reachable h config port m₁ := hr.step.run hrun
    have hconfig : m₁.transport.config = config := hr₁.config_eq
    have hiff := hcloses.eq_timeout_iff
    refine .inr ⟨m₁, x, stack, hrun, hcheck, rfl, ?_⟩
    rw [← hcheck.sequence_eq, ← hconfig]
    exact hiff

/-- In every run each wait of an exchange may take what is left of its budget since its request was
sent, which is more than nothing, and an exchange ends with a timeout only when nothing is left. At
its check it ends so exactly if it is not over and nothing is left, and this is how its call
returns. If the clock goes on in waits only, and in none for longer than it may take, the waits of
an exchange take the budget at most, whatever happens in between. -/
theorem keeps_budget (hr : Reachable h config port m) (took : Journal ν → Nat) :
    m.journal.IsGranted took config.syncTimeout.nanos ∧
    m.journal.IsExpired took config.syncTimeout ∧
    (∀ x stack, m.control = .resume → m.stack = .collecting x :: stack →
      (∃ w ws, m.journal.waits took = w :: ws ∧ w.key = (x.sequence, some x.begun)) ∧
      ((m.step h).TimesOut x ↔ m.transport.pending.contains x.sequence = true ∧
        config.syncTimeout.nanos ≤ (h.now m.world).1 - x.begun)) ∧
    (∀ sequence waiter, m.asks? = some (sequence, waiter) → m.transport.isHeld = true →
      ∀ m', m.Returns h m' → m.IsPunctual h sequence waiter config.syncTimeout m') ∧
    ∀ start, m.journal.IsSteady took start → ∀ later earlier, m.journal = later ++ earlier →
      earlier.IsThrifty took start config.syncTimeout.nanos := by
  have hl := hr.keepsTime took
  refine ⟨hl.isGranted, hl.isExpired, fun x stack hc hs ↦ ⟨?_, ?_⟩,
    fun _ _ ha hh _ ↦ hr.isPunctual ha hh, ?_⟩
  · obtain ⟨w, ws, hws, hw, -, -⟩ := hl.waits_top hs
    exact ⟨w, ws, hws, hw⟩
  · rw [Machine.step_of_collecting h hc hs, ← hl.config_eq]
    exact Machine.timesOut_turnExchange_iff h x _
  · intro start hsteady later earlier hj
    have hgranted := hl.isGranted
    rw [show m.ledger.journal = m.journal from rfl, hj] at hgranted
    rw [hj] at hsteady
    exact .of_isGranted hgranted.tail hsteady.tail

end Reachable

/-! ### An exchange that nobody answers -/

/-- How long a kernel without a script waits for an empty inbox. -/
def idleTime : Journal (Except Error (List Packet)) → Nat
  | .polled _ timeout _ :: _ => min ScriptedKernel.standard.pollDelay timeout
  | _ => 0

/-- The settings with a budget of two waits and a half. -/
def hastyConfig : Config := { Config.standard with syncTimeout := .ofMillis 25 }

/-- Client code that is about to begin an exchange which it notes the outcome of. -/
def hastyMachine : Machine ScriptedKernel (Except Error (List Packet)) :=
  ((Machine.fresh hastyConfig 0 (answeringKernel [])).run (.start fun _ ↦
    .collect (.request 28 5 8 0) fun outcome ↦ .note outcome .done)).step ScriptedKernel.host

/-- The exchange has waited three times, the last time for the rest of its budget. -/
def idleMachine : Machine ScriptedKernel (Except Error (List Packet)) :=
  (((hastyMachine.step ScriptedKernel.host).step ScriptedKernel.host).step
    ScriptedKernel.host).step ScriptedKernel.host

/-- The exchange has spent its budget, ends with a timeout at its next check, and so its call
returns. -/
theorem timesOut_idleMachine :
    idleMachine.journal.IsSteady idleTime 0 ∧
      idleMachine.journal.waits idleTime = [⟨8, some ⟨0, 25000000, 0⟩⟩] ∧
      idleMachine.journal.IsGranted idleTime 25000000 ∧
      idleMachine.journal.IsThrifty idleTime 0 25000000 ∧
      (∃ x, x.sequence = 8 ∧ (idleMachine.step ScriptedKernel.host).TimesOut x) ∧
      hastyMachine.IsPunctual ScriptedKernel.host 8 (.client fun outcome ↦ .note outcome .done)
        hastyConfig.syncTimeout (idleMachine.step ScriptedKernel.host) ∧
      (idleMachine.step ScriptedKernel.host).control =
        .run (.note (.error (.timeout hastyConfig.syncTimeout)) .done) := by
  have hasked : Reachable ScriptedKernel.host hastyConfig 0 hastyMachine :=
    (Reachable.start ScriptedKernel.host hastyConfig 0 (answeringKernel []) _).step
  have hidle : Reachable ScriptedKernel.host hastyConfig 0 idleMachine := hasked.step.step.step.step
  have hsteady : idleMachine.journal.IsSteady idleTime 0 := of_decide_eq_true (by cbv)
  obtain ⟨hgranted, -, hcheck, -, hthrifty⟩ := hidle.keeps_budget idleTime
  obtain ⟨-, -, -, hcalls, -⟩ := hasked.keeps_budget idleTime
  have hstack : idleMachine.stack =
    [.collecting ⟨1, 8, 0, [], .client fun outcome ↦ .note outcome .done⟩] := by cbv
  obtain ⟨-, hiff⟩ := hcheck _ _ (by cbv) hstack
  have hspent : hastyConfig.syncTimeout.nanos ≤ (ScriptedKernel.host.now idleMachine.world).1 - 0 :=
    of_decide_eq_true (by cbv)
  have hreturns : hastyMachine.Returns ScriptedKernel.host (idleMachine.step ScriptedKernel.host) :=
    Machine.returns_iterate 4 (of_decide_eq_true (by cbv)) (by cbv)
  exact ⟨hsteady, by cbv, hgranted, hthrifty 0 hsteady [] _ rfl,
    ⟨_, rfl, hiff.mpr ⟨by cbv, hspent⟩⟩, hcalls 8 _ (by cbv) (by cbv) _ hreturns, by cbv⟩

end WifiNetlink
