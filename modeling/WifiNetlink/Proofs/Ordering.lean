import Mathlib.Tactic.IntervalCases
import WifiNetlink.Proofs.Asked
import WifiNetlink.Proofs.Refusal
import WifiNetlink.Proofs.Rehearsing
import WifiNetlink.Proofs.ScanOrder
import WifiNetlink.Proofs.Sending

/-!
# Ordering scans

A scan is ordered over a transport that knows its family, in a rehearsal or in a machine. What
becomes of the request is decided before anything is sent: an order that does not fit is refused for
an attribute, and every other is sent in one request that carries it. Main statement: that is so
over every rehearsal, and over every machine that can be reached, which then sends nothing more
until other client code is in control.
-/

namespace WifiNetlink

namespace ScanOrder

open ScanRequest

/-- What becomes of an order when its request is made from one without attributes. -/
inductive Fate (order : ScanOrder) (empty : Packet) : Prop where
  /-- It is refused before there is a request. -/
  | refused (fault : AttributeFault) (hno : ¬ order.Fits)
    (hr : order.operation.refusal = some (.invalidAttribute fault))
  /-- Its request cannot be filled. -/
  | unfilled (fault : AttributeFault) (hno : ¬ order.Fits) (hr : order.operation.refusal = none)
    (hfill : order.operation.fill empty = .error (.invalidAttribute fault))
  | filled (p : Packet) (hfits : order.Fits) (hr : order.operation.refusal = none)
    (hfill : order.operation.fill empty = .ok p) (hp : order.IsCarriedBy p)
    (hs : p.sequence = empty.sequence)

/-- Only an interval is checked before there is a request. -/
theorem refusal_cases (order : ScanOrder) :
    ((∀ s ∈ order.schedule?, s.interval.millis < UInt32.size) ∧ order.operation.refusal = none) ∨
    (¬ (∀ s ∈ order.schedule?, s.interval.millis < UInt32.size) ∧
      ∃ fault, order.operation.refusal = some (.invalidAttribute fault)) := by
  cases order with
  | once ifindex names values randomMac => exact .inl ⟨fun _ hs ↦ (nomatch hs), rfl⟩
  | scheduled s =>
    by_cases hmillis : s.interval.millis < UInt32.size
    · refine .inl ⟨?_, if_pos hmillis⟩
      rintro _ ⟨⟩
      exact hmillis
    · exact .inr ⟨fun h ↦ hmillis (h s rfl), _, if_neg hmillis⟩

theorem fate (order : ScanOrder) {family : UInt16} (hf : leastFamilyType ≤ family)
    (sequence port : UInt32) :
    order.Fate (.request family order.operation.command.number sequence port) := by
  have hfill := order.checks_fill family sequence port
  rcases order.refusal_cases with ⟨hmillis, hr⟩ | ⟨hmillis, fault, hr⟩
  · by_cases hroom : order.HasRoom
    · obtain ⟨p, hp, c, hc, hfilled⟩ := hfill.ok hroom
      have hcarried := isCarriedBy_of_isFilled hf ⟨hmillis, hroom⟩ hc hfilled
      exact .filled p ⟨hmillis, hroom⟩ hr hp hcarried hfilled.sequence_eq
    · obtain ⟨fault, hno⟩ := hfill.error hroom
      exact .unfilled fault (fun h ↦ hroom h.2) hr hno
  · exact .refused fault (fun h ↦ hmillis h.1) hr

end ScanOrder

/-! ### In a rehearsal -/

namespace ScanOrder

/-- What a rehearsal makes of an order. -/
structure IsRehearsed (order : ScanOrder) (r : Rehearsal) : Prop where
  refused_iff : (∃ fault, (r.perform order.operation).1 = .error (.invalidAttribute fault) ∧
    (r.perform order.operation).2.sent = r.sent) ↔ ¬ order.Fits
  sent (h : order.Fits) : ∃ request, order.IsCarriedBy request ∧
    (r.perform order.operation).2.sent = request :: r.sent

theorem isRehearsed (order : ScanOrder) {family : UInt16} (hf : leastFamilyType ≤ family)
    {r : Rehearsal} (hr : r.family = some family) : order.IsRehearsed r := by
  have hrefused {fault : AttributeFault} {r' : Rehearsal} (hno : ¬ order.Fits)
      (hp : r.perform order.operation = (.error (.invalidAttribute fault), r'))
      (hs : r'.sent = r.sent) : order.IsRehearsed r := by
    refine ⟨iff_of_true ⟨fault, ?_, ?_⟩ hno, fun h ↦ absurd h hno⟩
    · rw [hp]
    · rw [hp, hs]
  cases order.fate hf r.counter.next 0 with
  | refused fault hno hrefusal =>
    exact hrefused hno (Rehearsal.perform_of_refusal hrefusal) rfl
  | unfilled fault hno hrefusal hfill =>
    exact hrefused hno (Rehearsal.perform_of_unfilled hr hrefusal hfill) rfl
  | filled p hfits hrefusal hfill hp _ =>
    have hsent := Rehearsal.sent_perform_of_filled hr hrefusal hfill
    refine ⟨iff_of_false ?_ fun hno ↦ hno hfits, fun _ ↦ ⟨p, hp, hsent⟩⟩
    rintro ⟨fault, -, hsame⟩
    exact List.cons_ne_self p r.sent (hsent.symm.trans hsame)

end ScanOrder

/-! ### In a machine -/

namespace Machine

variable {σ ν α : Type} {h : Host σ} {m : Machine σ ν} {op : Operation α}
  {next : Except Error α → Program σ ν} {family : UInt16}

/-- Client code goes on with what becomes of the request of an operation. -/
theorem step_of_fill (hh : m.transport.isHeld = true) (hc : m.control = .run (.perform op next))
    (hop : op.refusal = none) (hf : m.transport.familyId = .ok family) :
    m.step h = ({ m with transport := m.transport.advance } : Machine σ ν).run
      (match op.fill (.request family op.command.number m.transport.counter.next
          m.transport.port) with
        | .error e => next (.error e)
        | .ok filled => .collect filled fun replies ↦ next (op.conclude family replies)) := by
  rw [Machine.step_eq_call h hc hh]
  simp only [Program.perform, hop, Machine.call, Transport.request, hf]
  rfl

end Machine

namespace ScanOrder

variable {σ ν : Type}

/-- What a machine makes of an order of client code that goes on with `next`. -/
structure IsPerformed (order : ScanOrder) (family : UInt16) (h : Host σ)
    (next : Except Error Unit → Program σ ν) (m : Machine σ ν) : Prop where
  refused (hno : ¬ order.Fits) : ∃ fault m', (m' = m ∨ m' = m.step h) ∧
    m'.control = .run (next (.error (.invalidAttribute fault))) ∧
    m'.journal = m.journal ∧ m'.world = m.world
  /-- The request is handed to an exchange, which sends it as it begins; after that nothing is sent
  until other client code is in control. -/
  sent (hfits : order.Fits) : ∃ request channel, order.IsCarriedBy request ∧
    m.transport.syncChannel = some channel ∧
    (m.step h).control = .run (.collect request fun replies ↦
      next (order.operation.conclude family replies)) ∧
    (m.step h).journal = m.journal ∧
    ∀ count, (∀ i < count, ((Machine.step h)^[i] ((m.step h).step h)).control = .resume) →
      ((Machine.step h)^[count] ((m.step h).step h)).journal.sends =
        (channel, request.toBytes) :: m.journal.sends

theorem isPerformed (order : ScanOrder) {family : UInt16} (hf : leastFamilyType ≤ family)
    {h : Host σ} {config : Config} {port : UInt32} {m : Machine σ ν}
    {next : Except Error Unit → Program σ ν} (hr : Reachable h config port m)
    (hh : m.transport.isHeld = true) (hc : m.control = .run (.perform order.operation next))
    (hfamily : m.transport.familyId = .ok family) : order.IsPerformed family h next m := by
  cases order.fate hf m.transport.counter.next m.transport.port with
  | refused fault hno hrefusal =>
    refine ⟨fun _ ↦ ⟨fault, m, .inl rfl, ?_, rfl, rfl⟩, fun hfits ↦ absurd hfits hno⟩
    rw [hc, Program.perform, hrefusal]
  | unfilled fault hno hrefusal hfill =>
    have hstep := Machine.step_of_fill (h := h) hh hc hrefusal hfamily
    rw [hfill] at hstep
    refine ⟨fun _ ↦ ⟨fault, m.step h, .inr rfl, ?_, ?_, ?_⟩, fun hfits ↦ absurd hfits hno⟩
    all_goals
      rw [hstep]
      rfl
  | filled p hfits hrefusal hfill hp hsequence =>
    have hstep := Machine.step_of_fill (h := h) hh hc hrefusal hfamily
    rw [hfill] at hstep
    obtain ⟨channel, hchannel⟩ := hr.exists_syncChannel hh hfamily
    have hheld : (m.step h).transport.isHeld = true := by
      rw [hstep]
      exact hh
    have hopen : (m.step h).transport.syncChannel = some channel := by
      rw [hstep]
      exact hchannel
    have hcollect : (m.step h).control = .run (.collect p fun replies ↦
        next (order.operation.conclude family replies)) := by
      rw [hstep]
      rfl
    have hjournal : (m.step h).journal = m.journal := by
      rw [hstep]
      rfl
    have hnumber : p.sequence ≠ 0 := by
      rw [hsequence]
      exact m.transport.counter.next_ne_zero
    have hbegun : ((m.step h).step h).journal.sends =
        (channel, p.toBytes) :: m.journal.sends := by
      rw [Machine.step_eq_call h hcollect hheld, ← hjournal]
      exact Machine.sends_beginExchange h hnumber hopen _
    refine ⟨fun hno ↦ absurd hfits hno, fun _ ↦ ⟨p, channel, hp, hchannel, hcollect, hjournal, ?_⟩⟩
    intro count hquiet
    exact (Machine.sends_iterate h count hquiet).trans hbegun

/-- What comes of an order over a transport that knows its family. -/
structure IsAsked (order : ScanOrder) (family : UInt16) : Prop where
  isRehearsed {r : Rehearsal} (hr : r.family = some family) : order.IsRehearsed r
  isPerformed {σ ν : Type} {h : Host σ} {config : Config} {port : UInt32} {m : Machine σ ν}
    {next : Except Error Unit → Program σ ν} (hr : Reachable h config port m)
    (hh : m.transport.isHeld = true) (hc : m.control = .run (.perform order.operation next))
    (hf : m.transport.familyId = .ok family) : order.IsPerformed family h next m

/-- A scan is asked for in one request that carries its order, or refused with nothing sent. -/
theorem isAsked (order : ScanOrder) {family : UInt16} (hf : leastFamilyType ≤ family) :
    order.IsAsked family where
  isRehearsed hr := order.isRehearsed hf hr
  isPerformed hr hh hc hfamily := order.isPerformed hf hr hh hc hfamily

/-- A scan for one network on one channel. -/
def onceOrder : ScanOrder := .once 5 [[104, 111, 109, 101]] [2412] true

/-- A scan every fifty days, which has too many milliseconds. -/
def rareOrder : ScanOrder :=
  .scheduled ⟨5, ⟨4320000000000000⟩, -70, false, [[]], [[104, 111, 109, 101]], []⟩

/-- The one is sent in a rehearsal and in a machine, the other is refused. -/
theorem isAsked_onceOrder_rareOrder :
    leastFamilyType ≤ 28 ∧ onceOrder.Fits ∧ ¬ rareOrder.Fits ∧
    onceOrder.IsAsked 28 ∧ rareOrder.IsAsked 28 ∧
    (∃ request, onceOrder.IsCarriedBy request ∧
      (Rehearsal.perform ⟨some 28, .fresh, [], []⟩ onceOrder.operation).2.sent = [request]) ∧
    (∃ fault, (Rehearsal.perform ⟨some 28, .fresh, [], []⟩ rareOrder.operation).1 =
        .error (.invalidAttribute fault) ∧
      (Rehearsal.perform ⟨some 28, .fresh, [], []⟩ rareOrder.operation).2.sent = []) ∧
    ∃ request channel, onceOrder.IsCarriedBy request ∧
      (deniedMachine onceOrder.operation).journal.sends =
        (channel, request.toBytes) :: (trialMachine onceOrder.operation).journal.sends := by
  have hfits : onceOrder.Fits := by decide
  have hno : ¬ rareOrder.Fits := by decide
  have honce : onceOrder.IsAsked 28 := isAsked onceOrder (by decide)
  have hrare : rareOrder.IsAsked 28 := isAsked rareOrder (by decide)
  refine ⟨by decide, hfits, hno, honce, hrare, (honce.isRehearsed rfl).sent hfits,
    (hrare.isRehearsed rfl).refused_iff.mpr hno, ?_⟩
  have hr : Reachable ScriptedKernel.host .standard 0 (trialMachine onceOrder.operation) :=
    (Reachable.start ScriptedKernel.host _ _ _ _).steps 5
  have hc : (trialMachine onceOrder.operation).control =
      .run (.trial onceOrder.operation) := by cbv
  have hperformed := honce.isPerformed hr (by cbv) hc (by cbv)
  obtain ⟨request, channel, hcarried, -, -, -, hsends⟩ := hperformed.sent hfits
  refine ⟨request, channel, hcarried, hsends 4 fun i hi ↦ ?_⟩
  interval_cases i <;> cbv

end ScanOrder

end WifiNetlink
