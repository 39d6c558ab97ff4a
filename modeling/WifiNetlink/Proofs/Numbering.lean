import Mathlib
import WifiNetlink.Proofs.Boundary

/-!
# Numbering

All requests take their numbers from one counter, whichever channel they are sent on. The counter
goes through all numbers of 32 bits but zero, in a cycle. Main statement: of the requests that are
built in a run, two have the same number exactly if a whole number of cycles lies between them. So
no request that still waits has the number of a new one, as long as fewer numbers than a cycle were
given out since the oldest of those that wait was built.
-/

namespace WifiNetlink

/-! ### The cycle of the counter -/

namespace SequenceCounter

/-- How many numbers there are: all of 32 bits but zero. -/
def cycle : Nat := 2 ^ 32 - 1

/-- The number that is given out after so many others. -/
def number (c : SequenceCounter) (count : Nat) : UInt32 := (advance^[count] c).next

variable (c : SequenceCounter)

theorem toNat_next : c.next.toNat = c.last.toNat % cycle + 1 := by
  have hlast := c.last.toNat_lt
  have hsum : (c.last + 1).toNat = (c.last.toNat + 1) % 2 ^ 32 := UInt32.toNat_add c.last 1
  rw [cycle, next]
  split
  · next h =>
    -- The sum is zero only after the greatest number, and the cycle starts again.
    have hzero : (c.last.toNat + 1) % 2 ^ 32 = 0 := hsum.symm.trans (congrArg UInt32.toNat h)
    have hgreatest : c.last.toNat = 2 ^ 32 - 1 := by omega
    rw [hgreatest]
    rfl
  · next h =>
    have hne : (c.last + 1).toNat ≠ 0 := fun hz ↦ h (UInt32.toNat_inj.mp hz)
    omega

/-- The numbers in closed form: they go through a cycle in order, from wherever it is entered. -/
theorem toNat_number (count : Nat) :
    (c.number count).toNat = (c.last.toNat + count) % cycle + 1 := by
  induction count generalizing c with
  | zero => exact c.toNat_next
  | succ count ih =>
    have hnumber : c.number (count + 1) = c.advance.number count := rfl
    have hlast : c.advance.last.toNat = c.last.toNat % cycle + 1 := c.toNat_next
    rw [hnumber, ih, hlast, Nat.add_assoc, Nat.mod_add_mod, Nat.add_comm 1 count]

theorem advance_ne : c.advance ≠ c := by
  intro h
  have hnext : c.next.toNat = c.last.toNat := congrArg (fun d ↦ d.last.toNat) h
  rw [toNat_next] at hnext
  have hlast := c.last.toNat_lt
  unfold cycle at hnext
  omega

theorem number_ne_zero (count : Nat) : c.number count ≠ 0 := next_ne_zero _

variable {c}

theorem number_eq_iff {i j : Nat} : c.number i = c.number j ↔ i ≡ j [MOD cycle] := by
  rw [← UInt32.toNat_inj, toNat_number, toNat_number, Nat.add_right_cancel_iff]
  exact ⟨Nat.ModEq.add_left_cancel' _, Nat.ModEq.add_left _⟩

/-- A number comes again exactly after whole cycles. -/
theorem number_zero_eq_iff {count : Nat} : c.number 0 = c.number count ↔ cycle ∣ count :=
  number_eq_iff.trans (Nat.modEq_iff_dvd' (Nat.zero_le count))

theorem periodic_number_iff {period : Nat} :
    Function.Periodic c.number period ↔ cycle ∣ period := by
  constructor
  · intro h
    have hzero : c.number 0 = c.number period := by rw [← h 0, Nat.zero_add]
    exact number_zero_eq_iff.mp hzero
  · intro h count
    have hmod : count ≡ count + period [MOD cycle] :=
      (Nat.modEq_iff_dvd' (Nat.le_add_right count period)).mpr (by rwa [Nat.add_sub_cancel_left])
    exact number_eq_iff.mpr hmod.symm

theorem take_eq_map (c : SequenceCounter) (count : Nat) :
    c.take count = (List.range count).map c.number := by
  induction count generalizing c with
  | zero => rfl
  | succ count ih =>
    rw [take, ih, List.range_succ_eq_map, List.map_cons, List.map_map]
    rfl

theorem nodup_take {count : Nat} (h : count ≤ cycle) : (c.take count).Nodup := by
  rw [take_eq_map]
  refine List.Nodup.map_on ?_ List.nodup_range
  intro i hi j hj hij
  have hi := List.mem_range.mp hi
  have hj := List.mem_range.mp hj
  exact (number_eq_iff.mp hij).eq_of_lt_of_lt (by omega) (by omega)

theorem zero_notMem_take (count : Nat) : 0 ∉ c.take count := by
  rw [take_eq_map, List.mem_map]
  rintro ⟨i, -, hi⟩
  exact c.number_ne_zero i hi

end SequenceCounter

variable {σ ν : Type}

namespace Machine

variable (h : Host σ) (m : Machine σ ν)

/-! ### What gives out a number -/

private theorem counter_beginExchange (request : Packet) (waiter : Waiter σ ν) :
    (m.beginExchange h request waiter).transport.counter = m.transport.counter := by
  by_cases hn : request.sequence = 0
  · simp only [beginExchange, hn, if_true]
    exact counter_endExchange h m 0 waiter _
  · have hb := begins_beginExchange h m request waiter hn
    generalize m.beginExchange h request waiter = m' at hb ⊢
    cases hb with
    | refused e ready new hl hj hnew hk =>
      exact (counter_endExchange h ready _ waiter _).trans hk.counter
    | sent begun m' new hs hp hj hnew hk hc => exact hk.counter

private theorem counter_turnExchange (x : Exchange σ ν) :
    (m.turnExchange h x).transport.counter = m.transport.counter := by
  have ht := turns_turnExchange h m x
  generalize m.turnExchange h x = m' at ht ⊢
  cases ht with
  | ends outcome ready hcloses =>
    exact (counter_endExchange h ready _ x.waiter outcome).trans hcloses.keeps.counter
  | waits m' read hs hj ht => rw [ht]

/-- A lookup of a family takes a number, even if the name does not fit into a request. -/
private theorem counter_discover (name : String) (discoverer : Discoverer σ ν) :
    (m.discover h name discoverer).transport.counter = m.transport.counter.advance := by
  simp only [discover]
  split
  · exact Row.counter_eq (row_handFamily h (m.adjust Transport.advance) discoverer _) (by simp)
  · exact counter_beginExchange h (m.adjust Transport.advance) _ _

/-- The start of the transport takes a number for the lookup of its family, if it comes to it. -/
private theorem counter_start (next : Except Error Unit → Program σ ν)
    (hh : m.transport.isHeld = true) :
    (m.start h next).transport.counter = m.transport.counter ∨
      (m.start h next).transport.counter = m.transport.counter.advance := by
  cases hs : m.transport.isStarted with
  | true =>
    simp only [start, hs, if_true]
    exact .inl rfl
  | false =>
    have hout := setsOut_start h m next hh hs
    generalize m.start h next = m' at hout ⊢
    cases hout with
    | noSync e hr he => exact .inl (hr.counter_eq (by simp))
    | noAsync e hr he he' => exact .inl (hr.counter_eq (by simp))
    | looksUp sync async hr he he' ht => exact .inr (by rw [counter_discover, ht])

/-- A step that asks for an exchange gives out one number at most. -/
private theorem counter_of_asks (ha : m.asks? ≠ none) (hh : m.transport.isHeld = true) :
    (m.step h).transport.counter = m.transport.counter ∨
      (m.step h).transport.counter = m.transport.counter.advance := by
  unfold asks? at ha
  split at ha
  · next request next hc =>
    rw [step_eq_call h hc hh]
    exact .inl (counter_beginExchange h m request _)
  · next name next hc =>
    rw [step_eq_call h hc hh]
    exact .inr (counter_discover h m name _)
  · next next hc =>
    rw [step_eq_call h hc hh]
    exact counter_start h m next hh
  · contradiction

/-- A step gives out one number at most. -/
theorem counter_step : (m.step h).transport.counter = m.transport.counter ∨
    (m.step h).transport.counter = m.transport.counter.advance := by
  cases hd : m.due? with
  | some p => exact .inl (m.dispatch_step h hd).counter_eq
  | none =>
    by_cases hturn : ∃ x stack, m.stack = .collecting x :: stack ∧ m.control = .resume
    · obtain ⟨x, stack, hs, hc⟩ := hturn
      rw [step_of_collecting h hc hs]
      exact .inl (counter_turnExchange h { m with stack } x)
    · by_cases hasks : m.asks? = none ∨ m.transport.isHeld = false
      · exact (m.aside_step h hd hasks fun x stack hs hc ↦ hturn ⟨x, stack, hs, hc⟩).counter
      · rw [not_or, Bool.not_eq_false] at hasks
        exact counter_of_asks h m hasks.1 hasks.2

/-! ### Numbers given out and requests built -/

/-- The number that the next step gives out, if it gives one out. -/
def allotted? : Option UInt32 :=
  if (m.step h).transport.counter = m.transport.counter then none
  else some m.transport.counter.next

/-- The requests that the next step builds: one to the configured family, or one of a lookup, which
may be that of the transport's start. -/
inductive Builds : Packet → Prop where
  | request {command : UInt8} {next : Except Error Packet → Program σ ν} {p : Packet}
    (control_eq : m.control = .run (.newRequest command next)) (isHeld : m.transport.isHeld = true)
    (eq : (m.transport.request command).1 = .ok p) : Builds p
  | lookup {name : String} {next : Except Error Family → Program σ ν} {p : Packet}
    (control_eq : m.control = .run (.discover name next)) (isHeld : m.transport.isHeld = true)
    (eq : Family.request name m.transport.counter.next m.transport.port = .ok p) : Builds p
  | start {next : Except Error Unit → Program σ ν} {opened ready : Machine σ ν} {p : Packet}
    (control_eq : m.control = .run (.start next)) (isHeld : m.transport.isHeld = true)
    (isStarted_eq : m.transport.isStarted = false)
    (opened_eq : (m.stopWatching h).renewSync h = (.ok (), opened))
    (ready_eq : opened.renewAsync h = (.ok (), ready))
    (eq : Family.request ready.transport.config.familyName ready.transport.counter.next
      ready.transport.port = .ok p) : Builds p

variable {m} {p : Packet}

/-- A request has the number that is given out as it is built. -/
theorem Builds.allotted?_eq (hb : m.Builds h p) : m.allotted? h = some p.sequence := by
  have hadvance : (m.step h).transport.counter = m.transport.counter.advance ∧
      p.sequence = m.transport.counter.next := by
    cases hb with
    | @request command next _ hc hh hp =>
      rw [step_eq_call h hc hh]
      unfold Transport.request at hp
      simp only [call, Transport.request]
      split at hp
      · contradiction
      · rw [← Except.ok.inj hp]
        exact ⟨rfl, rfl⟩
    | lookup hc hh hp =>
      rw [step_eq_call h hc hh]
      exact ⟨counter_discover h m _ _, Family.sequence_of_request hp⟩
    | @start next opened ready _ hc hh hs ho hr hp =>
      -- New channels take no number, so the lookup gets the one that was next before.
      obtain ⟨sync, hopened⟩ := transport_renewSync h ho
      obtain ⟨async, hready⟩ := transport_renewAsync h hr
      rw [transport_stopWatching] at hopened
      have hcounter : ready.transport.counter = m.transport.counter := by rw [hready, hopened]
      have hstep : m.step h = ready.discover h ready.transport.config.familyName (.start next) := by
        rw [step_eq_call h hc hh]
        simp only [call, Machine.start, hs, ho, hr, Bool.false_eq_true, if_false]
      rw [hstep, ← hcounter]
      exact ⟨counter_discover h ready _ _, Family.sequence_of_request hp⟩
  rw [allotted?, if_neg (by rw [hadvance.1]; exact m.transport.counter.advance_ne), hadvance.2]

end Machine

/-- The machines that a run from `start` can lead to while so many numbers are given out. -/
inductive Allots (h : Host σ) (start : Machine σ ν) : Nat → Machine σ ν → Prop where
  | refl : Allots h start 0 start
  | step {count : Nat} {m : Machine σ ν} (ha : Allots h start count m) :
    Allots h start (count + (m.allotted? h).toList.length) (m.step h)
  | enter {count : Nat} {m : Machine σ ν} (program : Program σ ν) (ha : Allots h start count m)
    (hi : m.isIdle = true) : Allots h start count (m.run program)

/-- The counter is as many numbers further. -/
theorem Allots.counter_eq {h : Host σ} {start m : Machine σ ν} {count : Nat}
    (ha : Allots h start count m) :
    m.transport.counter = SequenceCounter.advance^[count] start.transport.counter := by
  induction ha with
  | refl => rfl
  | @step count m _ ih =>
    rcases Machine.counter_step h m with hsame | hadvance
    · rw [Machine.allotted?, if_pos hsame, hsame]
      exact ih
    · have hne : (m.step h).transport.counter ≠ m.transport.counter := by
        rw [hadvance]
        exact m.transport.counter.advance_ne
      rw [Machine.allotted?, if_neg hne, hadvance, ih, Option.toList_some, List.length_singleton,
        Function.iterate_succ_apply']
  | enter program _ _ ih => exact ih

namespace Machine

variable {h : Host σ} {m₀ m : Machine σ ν} {first second : UInt32} {count : Nat}

/-- Whether a number was given out in a run to the machine, and fewer than a cycle since then, the
next one counted. -/
def IsRecent (h : Host σ) (m : Machine σ ν) (sequence : UInt32) : Prop :=
  ∃ (m₀ : Machine σ ν) (count : Nat), m₀.allotted? h = some sequence ∧
    Allots h (m₀.step h) count m ∧ count + 1 < SequenceCounter.cycle

theorem eq_next_of_allotted? (ha : m.allotted? h = some first) :
    first = m.transport.counter.next ∧
      (m.step h).transport.counter = m.transport.counter.advance := by
  unfold allotted? at ha
  split at ha
  · contradiction
  · next hne => exact ⟨(Option.some.inj ha).symm, (counter_step h m).resolve_left hne⟩

/-- A number that is given out again comes after whole cycles. -/
theorem allotted?_eq_iff (hfirst : m₀.allotted? h = some first)
    (ha : Allots h (m₀.step h) count m) (hsecond : m.allotted? h = some second) :
    first = second ↔ SequenceCounter.cycle ∣ count + 1 := by
  obtain ⟨rfl, hadvance⟩ := eq_next_of_allotted? hfirst
  obtain ⟨rfl, -⟩ := eq_next_of_allotted? hsecond
  have hnumber : m.transport.counter.next = m₀.transport.counter.number (count + 1) := by
    rw [ha.counter_eq, hadvance, SequenceCounter.number, Function.iterate_succ_apply]
  rw [hnumber]
  exact SequenceCounter.number_zero_eq_iff

/-- A request does not get a number that was given out recently. -/
theorem Builds.not_isRecent {q : Packet} (hq : m.Builds h q) : ¬ m.IsRecent h q.sequence := by
  rintro ⟨m₀, count, hfirst, hrun, hcount⟩
  have hdvd := (allotted?_eq_iff hfirst hrun hq.allotted?_eq).mp rfl
  have hle := Nat.le_of_dvd (Nat.succ_pos count) hdvd
  omega

/-- The numbers that a counter gives out in a row differ and are not zero if there are no more of
them than in a cycle, and the cycle is the period of all of them. Every request that is built has
the number that is given out then; two have the same number exactly if whole cycles lie between
them. So a new request shares its number with none that waits, nor with one that is at work, if each
of those was built recently. -/
theorem numbers_recur_after_cycle (h : Host σ) :
    (∀ (c : SequenceCounter) (count : Nat), count ≤ SequenceCounter.cycle →
      (c.take count).Nodup ∧ 0 ∉ c.take count) ∧
    (∀ (c : SequenceCounter) (period : Nat),
      Function.Periodic c.number period ↔ SequenceCounter.cycle ∣ period) ∧
    (∀ (m : Machine σ ν) (p : Packet), m.Builds h p → m.allotted? h = some p.sequence) ∧
    (∀ (m₀ m : Machine σ ν) (count : Nat) (p q : Packet), m₀.Builds h p →
      Allots h (m₀.step h) count m → m.Builds h q →
      (p.sequence = q.sequence ↔ SequenceCounter.cycle ∣ count + 1)) ∧
    (∀ (m : Machine σ ν) (q : Packet), m.Builds h q →
      (∀ sequence, m.transport.pending.get? sequence ≠ none → m.IsRecent h sequence) →
      m.transport.pending.get? q.sequence = none) ∧
    ∀ (m : Machine σ ν) (q : Packet), m.Builds h q →
      (∀ sequence, ¬ m.ledger.IsUntouched sequence → m.IsRecent h sequence) →
      m.ledger.IsUntouched q.sequence := by
  refine ⟨?_, ?_, ?_, ?_, ?_, ?_⟩
  · intro c count hcount
    exact ⟨c.nodup_take hcount, c.zero_notMem_take count⟩
  · intro c period
    exact SequenceCounter.periodic_number_iff
  · intro m p hp
    exact hp.allotted?_eq
  · intro m₀ m count p q hp ha hq
    exact allotted?_eq_iff hp.allotted?_eq ha hq.allotted?_eq
  · intro m q hq hrecent
    by_contra hpending
    exact hq.not_isRecent (hrecent q.sequence hpending)
  · intro m q hq hrecent
    by_contra htouched
    exact hq.not_isRecent (hrecent q.sequence htouched)

end Machine

/-- Client code that sends one request and builds another while the first one waits. -/
def sendAndBuild : Except Error Packet → Program ScriptedKernel Unit
  | .error _ => .done
  | .ok request => .register request (fun _ _ ↦ .done) fun _ ↦ .newRequest 6 fun _ ↦ .done

/-- A machine that is about to build a request with the greatest number. -/
def lateMachine : Machine ScriptedKernel Unit :=
  (((Machine.fresh Config.standard 0 (describingKernel [])).run (.start fun _ ↦
    .newRequest 5 sendAndBuild)).steps ScriptedKernel.host 5).adjust fun t ↦
      { t with counter := ⟨4294967294⟩ }

/-- The machine after that request is sent. -/
def wrappingMachine : Machine ScriptedKernel Unit :=
  (lateMachine.step ScriptedKernel.host).step ScriptedKernel.host

/-- The counter wraps between two requests, and the second one is numbered apart from the first. -/
theorem numbers_recur_after_cycle_wrapping :
    ((⟨4294967294⟩ : SequenceCounter).take 3).Nodup ∧
    lateMachine.Builds ScriptedKernel.host (.request 28 5 4294967295 0) ∧
    wrappingMachine.Builds ScriptedKernel.host (.request 28 6 1 0) ∧
    lateMachine.allotted? ScriptedKernel.host = some 4294967295 ∧
    ¬ SequenceCounter.cycle ∣ 0 + 1 ∧
    wrappingMachine.transport.pending.get? 4294967295 ≠ none ∧
    wrappingMachine.transport.pending.get? 1 = none ∧ wrappingMachine.ledger.IsUntouched 1 := by
  have hbuild : lateMachine.control = .run (.newRequest 5 sendAndBuild) := by cbv
  have hfirst : lateMachine.Builds ScriptedKernel.host (.request 28 5 4294967295 0) :=
    .request hbuild (by cbv) (by cbv)
  have hbuild' : wrappingMachine.control = .run (.newRequest 6 fun _ ↦ .done) := by cbv
  have hsecond : wrappingMachine.Builds ScriptedKernel.host (.request 28 6 1 0) :=
    .request hbuild' (by cbv) (by cbv)
  have hnone : (lateMachine.step ScriptedKernel.host).allotted? ScriptedKernel.host = none := by cbv
  have hrun : Allots ScriptedKernel.host (lateMachine.step ScriptedKernel.host) 0
      wrappingMachine := by
    have hstep : Allots ScriptedKernel.host (lateMachine.step ScriptedKernel.host)
        (0 + ((lateMachine.step ScriptedKernel.host).allotted? ScriptedKernel.host).toList.length)
        wrappingMachine := Allots.refl.step
    rwa [hnone] at hstep
  have hpending : wrappingMachine.transport.pending = [(4294967295, .client fun _ _ ↦ .done)] := by
    cbv
  have hstack : wrappingMachine.stack = [] := by cbv
  obtain ⟨hcycle, -, hnumber, hagain, hnew, huntouched⟩ :=
    Machine.numbers_recur_after_cycle (ν := Unit) ScriptedKernel.host
  have hallotted := hnumber _ _ hfirst
  have hrecent : wrappingMachine.IsRecent ScriptedKernel.host 4294967295 :=
    ⟨lateMachine, 0, hallotted, hrun, by decide⟩
  have hlookup (sequence : UInt32) (hne : sequence ≠ 4294967295) :
      wrappingMachine.transport.pending.get? sequence = none := by
    rw [hpending]
    simp [Table.get?, hne]
  refine ⟨(hcycle ⟨4294967294⟩ 3 (by decide)).1, hfirst, hsecond, hallotted, ?_, ?_, ?_, ?_⟩
  · exact (hagain _ _ 0 _ _ hfirst hrun hsecond).not.mp (by decide)
  · rw [hpending]
    simp [Table.get?]
  · refine hnew _ _ hsecond fun sequence hwaits ↦ ?_
    by_cases hs : sequence = 4294967295
    · rwa [hs]
    · exact absurd (hlookup sequence hs) hwaits
  · refine huntouched _ _ hsecond fun sequence htouched ↦ ?_
    by_cases hs : sequence = 4294967295
    · rwa [hs]
    · exact absurd ⟨hlookup sequence hs, by rw [Machine.ledger, hstack]; rfl⟩ htouched

end WifiNetlink
