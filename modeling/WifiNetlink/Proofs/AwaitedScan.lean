import Mathlib.Data.List.Basic
import Mathlib.Tactic.ByContra
import WifiNetlink.Proofs.Sessions

/-!
# Scans that are waited for

A scan that is waited for listens before it asks for anything, and reads what it hears only when it
waits, which is after the kernel acknowledged the request. So its results are printed after a notice
that was read since, and a wait that is over in vain has read all that arrived. A notice that
arrived between the subscription and the request is read then like any other.
-/

namespace WifiNetlink

open CommandLine

variable {σ : Type} {h : Host σ}

/-! ### The words of a failure -/

/-- The first letters of a text that begins with a longer one. -/
private theorem take_toList_append (s t : String) (hs : 4 ≤ s.toList.length) :
    (s ++ t).toList.take 4 = s.toList.take 4 := by
  rw [String.toList_append, List.take_append_of_le_length hs]

/-- The last letter of a text that ends with another one. -/
private theorem getLast?_toList_append (s t : String) (ht : t.toList ≠ []) :
    (s ++ t).toList.getLast? = t.toList.getLast? := by
  rw [String.toList_append, List.getLast?_append_of_ne_nil _ ht]

/-- No error is worded like a scan that was waited for in vain. -/
private theorem Error.chainMessage_ne (e : Error) (text : String) :
    e.chainMessage ≠ "no scan result after " ++ (text ++ "s") := by
  intro hsame
  have hbegin := congrArg (fun s ↦ s.toList.take 4) hsame
  rw [take_toList_append _ _ (by decide)] at hbegin
  cases e with
  | kernelDuring operation errno =>
    -- The operation can have any name, but the text ends with a bracket.
    have hend := congrArg (fun s ↦ s.toList.getLast?) hsame
    dsimp only [chainMessage, message] at hend
    rw [getLast?_toList_append _ ")" (by decide), ← String.append_assoc,
      getLast?_toList_append _ "s" (by decide)] at hend
    exact absurd hend (by decide)
  | emptyResponse => exact absurd hbegin (by decide)
  | notStarted => exact absurd hbegin (by decide)
  | dumpNotAllowed => exact absurd hbegin (by decide)
  | _ =>
    dsimp only [chainMessage, message] at hbegin
    try simp only [String.append_assoc] at hbegin
    rw [take_toList_append _ _ (by decide)] at hbegin
    exact absurd hbegin (by decide)

/-- Nor is a scan that was broken off. -/
private theorem aborted_ne (ifindex text : String) :
    "scan aborted on ifindex " ++ ifindex ≠ "no scan result after " ++ (text ++ "s") := by
  intro hsame
  have hbegin := congrArg (fun s ↦ s.toList.take 4) hsame
  rw [take_toList_append _ _ (by decide), take_toList_append _ _ (by decide)] at hbegin
  exact absurd hbegin (by decide)

/-- The line for a scan that was waited for in vain. -/
def CommandLine.overdueLine (seconds : Nat) : String :=
  "Error: " ++ ("no scan result after " ++ toString seconds ++ "s")

/-- Other failures have other lines. -/
theorem error_ne_overdueLine {cause : String}
    (hc : ∀ text, cause ≠ "no scan result after " ++ (text ++ "s")) (seconds : Nat) :
    "Error: " ++ cause ≠ overdueLine seconds := by
  intro hsame
  have hcause := String.append_right_inj _ |>.mp hsame
  rw [String.append_assoc] at hcause
  exact hc (toString seconds) hcause

/-! ### Operations in a session -/

section operations

variable {α : Type} {I : h.Inboxes} {isOnWay : Machine σ Remark → Prop}
  {truth : Remark → Machine σ Remark → Prop} {m m' : Machine σ Remark}

/-- An operation between two machines, with its result. What succeeded was an exchange of its
request. -/
structure Machine.Performs (I : h.Inboxes) (isOnWay : Machine σ Remark → Prop) (op : Operation α)
    (result : Except Error α) (m m' : Machine σ Remark) : Prop where
  listens : m.Listens I [] [] m'
  exchanged : ∀ a, result = .ok a → isOnWay m' ∧
    ∃ fresh request family replies before, op.fill fresh = .ok request ∧
      (∃ channel count, .sent channel request.toBytes count ∈ m'.journal) ∧
      m'.journal = .exchangeEnded request.sequence (.ok replies) :: before ∧
      op.conclude family (.ok replies) = .ok a

theorem Program.tells_perform {op : Operation α} {next : Except Error α → Program σ Remark}
    (hnext : ∀ result m', m.Performs I isOnWay op result m' →
      (next result).Tells I isOnWay truth m') :
    (Program.perform op next).Tells I isOnWay truth m := by
  have hfails {m' : Machine σ Remark} (e : Error) (hl : m.Listens I [] [] m') :
      (next (.error e)).Tells I isOnWay truth m' :=
    hnext _ m' ⟨hl, fun _ hok ↦ by contradiction⟩
  unfold perform
  cases op.refusal with
  | some e => exact hfails e (.refl m [])
  | none =>
    intro request m₁ hl
    cases request with
    | error e => exact hfails e hl
    | ok fresh =>
      dsimp only
      cases hfill : op.fill fresh with
      | error e => exact hfails e hl
      | ok request =>
        intro outcome m₂ hx hway
        refine hnext _ m₂ ⟨hl.trans hx.listens, fun a hok ↦ ?_⟩
        cases outcome with
        | error e => cases hok
        | ok replies =>
          obtain ⟨before, hended⟩ := hx.ended
          exact ⟨hway, fresh, request, fresh.type, replies, before, hfill,
            hx.sent replies rfl, hended, hok⟩

/-- An operation that fails ends the session. -/
theorem Script.tells_attempt {op : Operation α} {next : α → Script σ}
    (hfails : ∀ (e : Error) m', m.Listens I [] [] m' →
      truth (.failed ("Error: " ++ e.chainMessage)) m')
    (hnext : ∀ a m', m.Performs I isOnWay op (.ok a) m' → (next a).Tells I isOnWay truth m') :
    (Script.attempt op next).Tells I isOnWay truth m := by
  refine Program.tells_perform fun result m' hp ↦ ?_
  cases result with
  | error e => exact ⟨hfails e m' hp.listens, trivial⟩
  | ok a => exact hnext a m' hp

/-- An interface that is not given is asked for. -/
theorem Script.tells_resolveInterface {ifindex : Option UInt32} {next : UInt32 → Script σ}
    (hfails : ∀ (e : Error) m', m.Listens I [] [] m' →
      truth (.failed ("Error: " ++ e.chainMessage)) m')
    (hnext : ∀ found m', (∀ given, ifindex = some given → found = given) →
      m.Listens I [] [] m' → (next found).Tells I isOnWay truth m') :
    (Script.resolveInterface ifindex next).Tells I isOnWay truth m := by
  cases ifindex with
  | some given =>
    exact hnext given m (fun _ h ↦ Option.some.inj h) (.refl m [])
  | none =>
    refine Script.tells_attempt hfails fun wiphy m₁ hp ↦ ?_
    refine Script.tells_attempt (fun e m' hl ↦ hfails e m' (hp.listens.trans hl))
      fun found m₂ hp' ↦ ?_
    exact hnext found.index m₂ (fun _ h ↦ by cases h) (hp.listens.trans hp'.listens)

end operations

/-! ### A scan that is waited for -/

/-- Whether a datagram announces the end of a scan of an interface. -/
def Machine.Announces {ν : Type} (m : Machine σ ν) (ifindex : UInt32) (n : ScanNotification)
    (r : Reception) : Prop :=
  n.ifindex = ifindex ∧
    ∃ p ∈ Event.messagesIn (.ok r), p.sequence = 0 ∧ m.notice? p = some (.scan n)

namespace CommandLine

/-- What an order asks the kernel for. -/
def ScanOrder.trigger (order : ScanOrder) (ifindex : UInt32) : Operation Unit :=
  ScanRequest.trigger ifindex (if order.ssids.isEmpty then [[]] else order.ssids.map Utf8.encode)
    order.frequencies order.randomMac

/-- Whether a session has just read that the kernel acknowledged the request for a scan. -/
structure ScanOrder.IsAcknowledged (order : ScanOrder) (ifindex : UInt32)
    (m : Machine σ Remark) : Prop where
  interface : ∀ given, order.ifindex = some given → ifindex = given
  acknowledged : ∃ fresh request p rest before,
    (order.trigger ifindex).fill fresh = .ok request ∧
    (∃ channel count, .sent channel request.toBytes count ∈ m.journal) ∧
    m.journal = .exchangeEnded request.sequence (.ok (p :: rest)) :: before ∧ p.kind = .ack

/-- Whether a scan that is waited for is answered at a machine by a notice, with what happened since
its request was acknowledged: the first notice that was heard is about the interface. Where nothing
about the interface was heard or waited on a channel when the acknowledgement was read, the notice
is in a datagram that arrived later. -/
structure ScanOrder.Answers (order : ScanOrder) (I : h.Inboxes) (ifindex : UInt32)
    (a : Machine σ Remark) (since : Journal Remark) (n : ScanNotification)
    (m : Machine σ Remark) : Prop where
  acknowledged : order.IsAcknowledged ifindex a
  journal : m.journal = since ++ a.journal
  first : (Script.scansHeard m.journal).head? = some n
  interface : n.ifindex = ifindex
  arrived : Script.scansHeard a.journal = [] →
    (∀ channel, ∀ r ∈ I.waiting channel a.world, ∀ n, ¬ a.Announces ifindex n r) →
    ∃ channel, ∃ r ∈ (since.taken channel).drop (I.waiting channel a.world).length,
      a.Announces ifindex n r

/-- Whether a scan was waited for in vain, with what happened since its request was acknowledged:
the event loop waited for all that was left of the time, nothing waits on the asynchronous channel,
and no datagram that was read announces the end of a scan of the interface. -/
structure ScanOrder.Lapses (order : ScanOrder) (I : h.Inboxes) (ifindex : UInt32)
    (a : Machine σ Remark) (since : Journal Remark) (m : Machine σ Remark) : Prop where
  acknowledged : order.IsAcknowledged ifindex a
  journal : m.journal = since ++ a.journal
  unheard : Script.scansHeard m.journal = []
  waited : ∃ begun instant between, since =
    .awaited (some ((Duration.ofSeconds order.waitSeconds).nanos - (instant - begun))) none ::
      .clockRead instant :: (between ++ [.clockRead begun])
  empty : ∃ channel, m.transport.asyncChannel = some channel ∧ I.waiting channel m.world = []
  silent : ∀ channel, ∀ r ∈ since.taken channel, ∀ n, ¬ a.Announces ifindex n r

end CommandLine

namespace Machine

variable {I : h.Inboxes} {m m' : Machine σ Remark} {ifindex : UInt32}
  {s : Subscription σ Remark ScanNotification}

/-- With one subscription, messages about its interface tell something. -/
theorem tells?_eq_some_iff (hs : m.transport.scans = [(ifindex, s)]) {p : Packet}
    {n : ScanNotification} : m.transport.tells? p = some n ↔
      n.ifindex = ifindex ∧ p.sequence = 0 ∧ m.notice? p = some (.scan n) := by
  have hfind (key : UInt32) :
      Table.get? [(ifindex, s)] key = if key = ifindex then some s else none := by
    by_cases hk : key = ifindex
    · simp [Table.get?, hk]
    · simp [Table.get?, List.lookup_cons, hk, beq_false_of_ne hk]
  unfold Transport.tells?
  split
  · next hp =>
    have hnotice : (m.transport.family?.bind fun family ↦ Notice.ofPacket? family.id p) =
      m.notice? p := rfl
    rw [hnotice, hs]
    cases m.notice? p with
    | none => simp
    | some notice =>
      cases notice with
      | schedule ifindex' => simp
      | scan n' =>
        dsimp only
        rw [hfind]
        split
        · next hi =>
          simp only [Option.map_some, Option.some.injEq, Notice.scan.injEq, hp, true_and]
          exact ⟨fun h ↦ ⟨h ▸ hi, h⟩, And.right⟩
        · next hi =>
          simp only [Option.map_none, reduceCtorEq, Option.some.injEq, Notice.scan.injEq, false_iff]
          rintro ⟨hn, -, rfl⟩
          exact hi hn
  · next hp => simp [hp]

/-- A session with one subscription hears exactly what datagrams announce about its interface. -/
theorem Listens.announced (hl : m.Listens I [] [] m')
    (hs : m.transport.scans = [(ifindex, s)]) :
    ∃ new heard, m'.journal = new ++ m.journal ∧ I.Passes (new.taken ·) m.world m'.world ∧
      Script.scansHeard m'.journal = Script.scansHeard m.journal ++ heard ∧
      ∀ n, n ∈ heard ↔ ∃ channel, ∃ r ∈ new.taken channel, m.Announces ifindex n r := by
  obtain ⟨new, hj, hnew⟩ := hl.journal
  have hall : new.accepted = new.dispatched := by simpa using hnew.dispatched
  refine ⟨new, _, hj, hnew.taken, hj ▸ hnew.scansHeard_append m.journal, fun n ↦ ?_⟩
  rw [List.mem_filterMap, ← hall]
  constructor
  · rintro ⟨p, hp, ht⟩
    obtain ⟨channel, r, hr, hp⟩ := Journal.mem_accepted hp
    obtain ⟨hi, hsequence, hn⟩ := (tells?_eq_some_iff hs).mp ht
    exact ⟨channel, r, hr, hi, p, hp, hsequence, hn⟩
  · rintro ⟨channel, r, hr, hi, p, hp, hsequence, hn⟩
    exact ⟨p, Journal.mem_accepted_of_taken hr hp, (tells?_eq_some_iff hs).mpr ⟨hi, hsequence, hn⟩⟩

end Machine

namespace CommandLine

variable {I : h.Inboxes} {isOnWay : Machine σ Remark → Prop} {a m m' : Machine σ Remark}
  {order : ScanOrder} {ifindex : UInt32} {since : Journal Remark} {n : ScanNotification}
  {s : Subscription σ Remark ScanNotification}

/-- A scan that is answered stays answered while nothing more is heard. -/
theorem ScanOrder.Answers.later (ha : order.Answers I ifindex a since n m) {new : Journal Remark}
    (hj : m'.journal = new ++ m.journal)
    (hh : Script.scansHeard m'.journal = Script.scansHeard m.journal) :
    order.Answers I ifindex a (new ++ since) n m' where
  acknowledged := ha.acknowledged
  journal := by rw [hj, ha.journal, List.append_assoc]
  first := hh ▸ ha.first
  interface := ha.interface
  arrived hbefore hfresh := by
    obtain ⟨channel, r, hr, hn⟩ := ha.arrived hbefore hfresh
    refine ⟨channel, r, ?_, hn⟩
    rw [Journal.taken_append, List.drop_append]
    exact List.mem_append_left _ hr

/-- The remarks of a scan that is waited for: results are printed of a scan that is answered, and
that time is up is said of one that was waited for in vain. -/
def ScanOrder.Truth (order : ScanOrder) (I : h.Inboxes) (isOnWay : Machine σ Remark → Prop) :
    Remark → Machine σ Remark → Prop
  | .printed _, m => ∃ ifindex a since n, isOnWay a ∧ order.Answers I ifindex a since n m ∧
      n.aborted = false
  | .failed line, m => line = overdueLine order.waitSeconds →
      ∃ ifindex a since, isOnWay a ∧ order.Lapses I ifindex a since m
  | _, _ => True

/-- A failure for another cause. -/
theorem ScanOrder.truth_failed {cause : String}
    (hc : ∀ text, cause ≠ "no scan result after " ++ (text ++ "s")) (m : Machine σ Remark) :
    order.Truth I isOnWay (.failed ("Error: " ++ cause)) m :=
  fun hline ↦ absurd hline (error_ne_overdueLine hc order.waitSeconds)

section wait

variable (hack : order.IsAcknowledged ifindex a) (hs : a.transport.scans = [(ifindex, s)])
include hack hs

/-- A scan whose first notice is heard is answered. -/
theorem ScanOrder.answers_of_heard
    (hbefore : ∀ n ∈ Script.scansHeard a.journal, n.ifindex = ifindex)
    (hl : a.Listens I [] [] m) {rest : List ScanNotification}
    (hh : Script.scansHeard m.journal = n :: rest) :
    ∃ since, order.Answers I ifindex a since n m := by
  obtain ⟨new, heard, hj, hpasses, hscans, hmem⟩ := hl.announced hs
  refine ⟨new, hack, hj, by rw [hh]; rfl, ?_, fun hnone hfresh ↦ ?_⟩
  · have hn : n ∈ Script.scansHeard a.journal ++ heard := by
      rw [← hscans, hh]
      exact List.mem_cons_self
    rcases List.mem_append.mp hn with hn | hn
    · exact hbefore n hn
    · obtain ⟨channel, r, hr, hi, -⟩ := (hmem n).mp hn
      exact hi
  · rw [hnone, hh] at hscans
    have hn : n ∈ heard := by
      rw [← List.nil_append heard, ← hscans]
      exact List.mem_cons_self
    obtain ⟨channel, r, hr, hn⟩ := (hmem n).mp hn
    -- What waited before announces nothing, so the datagram arrived later.
    rcases hpasses.mem_or hr with hwaited | hlater
    · exact absurd hn (hfresh channel r hwaited n)
    · exact ⟨channel, r, hlater, hn⟩

/-- A scan of which nothing is heard until time is up was waited for in vain. -/
theorem ScanOrder.lapses_of_expired {ready between : Machine σ Remark} {begun instant : Nat}
    (hwatch : ∃ channel, a.transport.asyncChannel = some channel ∧ a.watches = [channel])
    (hready : a.Listens I [] [] ready) (hbegun : ready.journal = .clockRead begun :: a.journal)
    (hl : ready.Listens I [] [] between) (hl' : between.Listens I [] [] m)
    (hh : Script.scansHeard m.journal = [])
    (hj : m.journal =
      .awaited (some ((Duration.ofSeconds order.waitSeconds).nanos - (instant - begun))) none ::
        .clockRead instant :: between.journal)
    (hempty : ∀ channel ∈ between.watches, I.waiting channel m.world = []) :
    ∃ since, order.Lapses I ifindex a since m := by
  have hall := (hready.trans hl).trans hl'
  obtain ⟨new, heard, hnew, -, hscans, hmem⟩ := hall.announced hs
  obtain ⟨middle, hmiddle, -⟩ := hl.journal
  obtain ⟨channel, hasync, hwatches⟩ := hwatch
  refine ⟨new, hack, hnew, hh, ⟨begun, instant, middle, ?_⟩, ⟨channel, ?_, ?_⟩, ?_⟩
  · rw [hj, hmiddle, hbegun] at hnew
    apply List.append_cancel_right (hnew.symm.trans _)
    simp
  · exact hall.asyncChannel.trans hasync
  · apply hempty
    rw [hl.watches, hready.watches, hwatches]
    exact List.mem_singleton_self _
  · intro channel r hr n hn
    have hheard : n ∈ heard := (hmem n).mpr ⟨channel, r, hr, hn⟩
    rw [hh] at hscans
    rw [(List.append_eq_nil_iff.mp hscans.symm).2] at hheard
    cases hheard

end wait

/-! ### The code of a scan that is waited for -/

/-- Results are fetched and printed once the scan is answered. -/
private theorem tells_printResults (i : Invocation) (hs : m.transport.scans = []) (hway : isOnWay a)
    (ha : order.Answers I ifindex a since n m) (hn : n.aborted = false) :
    (Script.printResults i ifindex .done).Tells I isOnWay (order.Truth I isOnWay) m := by
  refine Script.tells_attempt (fun e m' _ ↦ ScanOrder.truth_failed e.chainMessage_ne m')
    fun networks m' hp ↦ ⟨?_, trivial⟩
  obtain ⟨new, hj, -⟩ := hp.listens.journal
  have hh : Script.scansHeard m'.journal = Script.scansHeard m.journal := by
    simp only [Script.scansHeard, Script.heard, (hp.listens.calms hs).notes]
  exact ⟨ifindex, a, _, n, hway, ha.later hj hh, hn⟩

/-- The wait that follows the acknowledgement. -/
private theorem tells_awaitScan (i : Invocation) (hway : isOnWay a)
    (hack : order.IsAcknowledged ifindex a) (hs : a.transport.scans = [(ifindex, s)])
    (hbefore : ∀ n ∈ Script.scansHeard a.journal, n.ifindex = ifindex)
    (hwatch : ∃ channel, a.transport.asyncChannel = some channel ∧ a.watches = [channel]) :
    (Script.awaitScan i ifindex order.waitSeconds).Tells I isOnWay (order.Truth I isOnWay) a := by
  intro begun ready m hready hbegun hwakes
  obtain ⟨between, hl, hl', hexpired⟩ := hwakes
  have hall := (hready.trans hl).trans hl'
  have hscans : (m.transport.scans.erase ifindex : Table UInt32 _) = [] := by
    rw [hall.scans, hs]
    simp [Table.erase]
  dsimp only [Program.Tells]
  cases hh : Script.scansHeard m.journal with
  | nil =>
    -- Nothing was heard, so the wait was not woken.
    have hwanted : (!(Script.scansHeard between.journal).isEmpty) = false := by
      obtain ⟨new, -, -, hheard⟩ := hl'.scansHeard
      rw [hh] at hheard
      simp [(List.append_eq_nil_iff.mp hheard.symm).1]
    obtain ⟨instant, hj, hempty⟩ := hexpired hwanted
    obtain ⟨since, hlapses⟩ :=
      ScanOrder.lapses_of_expired hack hs hwatch hready hbegun hl hl' hh hj hempty
    exact ⟨fun _ ↦ ⟨ifindex, a, since, hway, { hlapses with }⟩, trivial⟩
  | cons n rest =>
    obtain ⟨since, hanswers⟩ := ScanOrder.answers_of_heard hack hs hbefore hall hh
    dsimp only
    cases hn : n.aborted with
    | true => exact ⟨ScanOrder.truth_failed (aborted_ne _) _, trivial⟩
    | false =>
      exact tells_printResults i hscans hway (hanswers.later (List.nil_append _).symm rfl) hn

/-- The acknowledgement of the request for a scan. -/
private theorem ScanOrder.isAcknowledged_of_performs
    (hi : ∀ given, order.ifindex = some given → ifindex = given)
    (hp : m.Performs I isOnWay (order.trigger ifindex) (.ok ()) m') :
    isOnWay m' ∧ order.IsAcknowledged ifindex m' := by
  obtain ⟨hway, fresh, request, family, replies, before, hfill, hsent, hj, hok⟩ :=
    hp.exchanged () rfl
  cases replies with
  | nil => cases hok
  | cons p rest =>
    refine ⟨hway, hi, fresh, request, p, rest, before, hfill, hsent, hj, ?_⟩
    have hack : Operation.expectAck "trigger scan" (p :: rest) = .ok () := hok
    unfold Operation.expectAck at hack
    dsimp only at hack
    cases hk : p.kind with
    | ack => rfl
    | _ => rw [hk] at hack; cases hack

private theorem tells_scan (i : Invocation) (hawaited : order.isAwaited = true)
    (hnotes : m.journal.notes = []) (hscans : m.transport.scans = [])
    (hwatch : ∃ channel, m.transport.asyncChannel = some channel ∧ m.watches = [channel]) :
    (Script.scan i order).Tells I isOnWay (order.Truth I isOnWay) m := by
  refine Script.tells_resolveInterface (fun e m' _ ↦ ScanOrder.truth_failed e.chainMessage_ne m')
    fun ifindex m₁ hi hl ↦ ?_
  simp only [hawaited, if_true]
  refine ⟨rfl, Program.tells_perform fun result m₂ hp ↦ ?_⟩
  cases result with
  | error e => exact ⟨ScanOrder.truth_failed e.chainMessage_ne _, trivial⟩
  | ok _ =>
    obtain ⟨hway, hack⟩ := ScanOrder.isAcknowledged_of_performs hi hp
    have hempty : m₁.transport.scans = [] := hl.scans.trans hscans
    have hsubscribed : ∃ s, (m₁.transport.scans.insert ifindex ⟨m₁.nextNumber, Script.hear⟩ :
        Table UInt32 (Subscription σ Remark ScanNotification)) = [(ifindex, s)] :=
      ⟨_, by rw [hempty]; rfl⟩
    obtain ⟨s, hs⟩ := hsubscribed
    obtain ⟨new, heard, -, -, hheard, hmem⟩ := hp.listens.announced hs
    obtain ⟨channel, hasync, hwatches⟩ := hwatch
    refine tells_awaitScan i hway hack (hp.listens.scans.trans hs) ?_ ⟨channel, ?_, ?_⟩
    · -- From the subscription to the acknowledgement only notices about the interface are heard.
      intro n hn
      have hnone : Script.scansHeard m₁.journal = [] := by
        simp only [Script.scansHeard, Script.heard, (hl.calms hscans).notes, hnotes]
        rfl
      rw [hheard] at hn
      rcases List.mem_append.mp hn with hn | hn
      · cases (hnone ▸ hn : n ∈ [])
      · obtain ⟨channel, r, hr, hi, -⟩ := (hmem n).mp hn
        exact hi
    · exact hp.listens.asyncChannel.trans (hl.asyncChannel.trans hasync)
    · exact hp.listens.watches.trans (hl.watches.trans hwatches)

/-- The code of a session with a scan that is waited for leaves only notes that tell the truth. -/
private theorem tells_session {i : Invocation} (hc : i.command = .scan order)
    (hawaited : order.isAwaited = true) (rounds : Nat) (hwired : m.IsWired)
    (hstarted : m.transport.isStarted = false) (hscans : m.transport.scans = [])
    (hnotes : m.journal.notes = []) :
    (Script.session i rounds).Tells I isOnWay (order.Truth I isOnWay) m := by
  refine ⟨hwired, hstarted, hscans, fun outcome m' hs ↦ ?_⟩
  cases outcome with
  | error e => exact ⟨ScanOrder.truth_failed e.chainMessage_ne m', trivial⟩
  | ok _ =>
    have hcommand : (Script.ofCommand i rounds : Script σ) = Script.scan i order := by
      unfold Script.ofCommand
      rw [hc]
    dsimp only
    rw [hcommand]
    exact tells_scan i hawaited (hs.notes.trans hnotes) hs.scans (hs.watches rfl)

/-! ### Sessions that wait for a scan -/

/-- What is printed stands in the journal. -/
theorem exists_printed_of_output_ne {journal : Journal Remark} (ho : output journal ≠ "") :
    ∃ text later earlier, journal = later ++ .noted (.printed text) :: earlier := by
  by_contra! hnone
  apply ho
  unfold output
  rw [List.filterMap_eq_nil_iff.mpr]
  · rfl
  · intro note hnote
    obtain ⟨e, he, hnoted⟩ := List.mem_filterMap.mp (List.mem_reverse.mp hnote)
    obtain ⟨later, earlier, hj⟩ := List.append_of_mem he
    cases note with
    | printed text =>
      cases e with
      | noted note' =>
        cases hnoted
        exact absurd hj (hnone text later earlier)
      | _ => cases hnoted
    | _ => rfl

/-- The replies to a session that asks for an interface, has a scan of it and asks for the results:
the wiphy 0, its interface 3, an acknowledgement and a network. -/
def scanReplies : List Packet :=
  [⟨28, 0, 2, 0, [3, 1, 0, 0] ++ [8, 0, 1, 0, 0, 0, 0, 0]⟩,
   ⟨28, 0, 3, 0, [7, 1, 0, 0] ++ [8, 0, 3, 0, 3, 0, 0, 0] ++
     [10, 0, 4, 0, 119, 108, 97, 110, 48, 0, 0, 0]⟩,
   ⟨errorType, 0, 4, 0, [0, 0, 0, 0]⟩,
   ⟨28, 0, 5, 0, [34, 1, 0, 0] ++ [8, 0, 3, 0, 3, 0, 0, 0] ++ [64, 0, 47, 128] ++
     [10, 0, 1, 0, 0, 17, 34, 51, 68, 85, 0, 0] ++ [8, 0, 2, 0, 133, 9, 0, 0] ++
     [12, 0, 3, 0, 135, 214, 18, 0, 0, 0, 0, 0] ++ [6, 0, 5, 0, 49, 4, 0, 0] ++
     [10, 0, 6, 0, 0, 4, 84, 101, 115, 116, 0, 0] ++ [8, 0, 7, 0, 132, 234, 255, 255]⟩]

/-- A kernel that answers such a session, and announces the end of a scan along with the reply of
this number. -/
def scanningKernel (moment : Nat) : ScriptedKernel :=
  describingKernel (scanReplies.zipIdx.map fun (p, number) ↦
    ⟨.ok none, [.datagram p.toBytes],
      if number = moment then [(1001, [.datagram Packet.announcement.toBytes])] else []⟩)

/-- A scan of the first interface that is waited for for a second. -/
def waitingOrder : ScanOrder where
  ifindex := none
  ssids := []
  frequencies := []
  randomMac := false
  isAwaited := true
  waitSeconds := 1

/-- The session of such a scan. -/
def waitingScan : Invocation where
  isVerbose := false
  isJson := false
  isPretty := false
  timeoutMillis := 300
  family := "nl80211"
  command := .scan waitingOrder

/-- The session after some steps. -/
def scanningMachine (moment steps : Nat) : Machine ScriptedKernel Remark :=
  ((Machine.fresh waitingScan.config 0 (scanningKernel moment)).run
    (Script.session waitingScan 80)).steps ScriptedKernel.host steps

/-- The system in which the end of a scan is announced while the event loop waits. -/
def belatedHost : Host ScriptedKernel :=
  ScriptedKernel.hostBringing 1001 [.datagram Packet.announcement.toBytes]

/-- What waits on its channels. -/
def belatedInboxes : belatedHost.Inboxes :=
  ScriptedKernel.inboxesBringing 1001 [.datagram Packet.announcement.toBytes]

/-- The session in that system, whose kernel announces nothing else, after some steps. -/
def belatedMachine (steps : Nat) : Machine ScriptedKernel Remark :=
  ((Machine.fresh waitingScan.config 0 (scanningKernel 4)).run
    (Script.session waitingScan 80)).steps belatedHost steps

/-- Whether a session, if it has just read an acknowledgement, has heard nothing so far and nothing
waits for it. -/
private def isUnaware (m : Machine ScriptedKernel Remark) : Bool :=
  match m.journal with
  | .exchangeEnded _ (.ok (p :: _)) :: _ =>
    p.kind != .ack || (m.journal.notes.isEmpty && m.world.inboxes.all fun entry ↦ entry.2.isEmpty)
  | _ => true

private theorem isUnaware_belatedMachine (steps : Nat) :
    isUnaware (belatedMachine steps) = true := by
  have hshort : ∀ steps ≤ 42, isUnaware (belatedMachine steps) = true := by decide +kernel
  have hover : (belatedMachine 42).isIdle = true := by decide +kernel
  rcases Nat.le_total steps 42 with hle | hle
  · exact hshort steps hle
  · rw [belatedMachine, Machine.steps_of_isIdle hover hle]
    exact hshort 42 (Nat.le_refl 42)

/-- When the acknowledgement is read, no notice was heard and no datagram waits. -/
private theorem waiting_belatedMachine {order : ScanOrder} {steps : Nat}
    (ha : order.IsAcknowledged ifindex (belatedMachine steps)) :
    Script.scansHeard (belatedMachine steps).journal = [] ∧
      ∀ channel, belatedInboxes.waiting channel (belatedMachine steps).world = [] := by
  obtain ⟨_, _, p, _, _, -, -, hj, hk⟩ := ha.acknowledged
  have hunaware := isUnaware_belatedMachine steps
  simp only [isUnaware, hj, hk, bne_self_eq_false, Bool.false_or, Bool.and_eq_true,
    List.isEmpty_iff, List.all_eq_true] at hunaware
  obtain ⟨hnotes, hempty⟩ := hunaware
  constructor
  · rw [hj, Script.scansHeard, Script.heard, hnotes]
    rfl
  · intro channel
    have hinbox : (belatedMachine steps).world.inbox channel = [] := by
      unfold ScriptedKernel.inbox
      cases hg : (belatedMachine steps).world.inboxes.get? channel with
      | none => rfl
      | some arrivals => exact hempty (channel, arrivals) (Table.mem_of_get? hg)
    change (ScriptedKernel.inbox _ channel).filterMap _ = []
    rw [hinbox]
    rfl

/-- Of a scan that is waited for, results are printed only after the kernel acknowledged its request
and the first notice that was heard is of the end of a scan of the interface; it arrived after the
acknowledgement was read, unless one was heard or waited before. That time is up is said only if the
event loop has read all that arrived in time, and nothing of it announces the end of a scan of the
interface. -/
theorem Invocation.scan_isAwaited {i : Invocation} (hc : i.command = .scan order)
    (hawaited : order.isAwaited = true) (I : h.Inboxes) (port : UInt32) (world : σ)
    (count : Nat) :
    let start := (Machine.fresh i.config port world).run (Script.session i count)
    (∀ text later earlier,
      (i.run h port world count).journal = later ++ .noted (.printed text) :: earlier →
      ∃ ifindex since n steps steps', (start.steps h steps').journal = earlier ∧
        order.Answers I ifindex (start.steps h steps) since n (start.steps h steps') ∧
        n.aborted = false) ∧
    ∀ later earlier, (i.run h port world count).journal =
        later ++ .noted (.failed (overdueLine order.waitSeconds)) :: earlier →
      ∃ ifindex since steps steps', (start.steps h steps').journal = earlier ∧
        order.Lapses I ifindex (start.steps h steps) since (start.steps h steps') := by
  intro start
  have hwired : start.IsWired :=
    ⟨rfl, rfl, fun _ hd ↦ absurd hd (Option.some_ne_none _).symm, .nil, trivial⟩
  have hstart : start.Abides I (fun m ↦ ∃ steps, m = start.steps h steps)
      (order.Truth I fun m ↦ ∃ steps, m = start.steps h steps) :=
    ⟨⟨fun _ _ hg ↦ absurd hg (Option.some_ne_none _).symm,
      fun _ _ hg ↦ absurd hg (Option.some_ne_none _).symm, rfl⟩, rfl,
      .calling _ rfl rfl (tells_session hc hawaited count hwired rfl rfl rfl) trivial⟩
  have hall := (hstart.steps count).each_isTrue
  constructor
  · intro text later earlier hj
    rw [show (start.steps h count).journal = _ from hj] at hall
    obtain ⟨m, ⟨steps', rfl⟩, hm, ifindex, a, since, n, ⟨steps, rfl⟩, hanswers, hn⟩ :=
      hall.of_append _ rfl fun _ ↦ by simp
    exact ⟨ifindex, since, n, steps, steps', hm, hanswers, hn⟩
  · intro later earlier hj
    rw [show (start.steps h count).journal = _ from hj] at hall
    obtain ⟨m, ⟨steps', rfl⟩, hm, htruth⟩ := hall.of_append _ rfl fun _ ↦ by simp
    obtain ⟨ifindex, a, since, ⟨steps, rfl⟩, hlapses⟩ := htruth rfl
    exact ⟨ifindex, since, steps, steps', hm, hlapses⟩

set_option maxRecDepth 4000 in
/-- The results are printed where the scan is announced in time, and that time is up is said where
it is not. A notice that comes while the event loop waits is what a scan is answered by that was
acknowledged before it. -/
theorem Invocation.scan_isAwaited_waitingScan :
    waitingScan.command = .scan waitingOrder ∧ waitingOrder.isAwaited = true ∧
    (∃ ifindex since n steps steps', waitingOrder.Answers ScriptedKernel.inboxesOf ifindex
      (scanningMachine 2 steps) since n (scanningMachine 2 steps')) ∧
    (∃ ifindex since steps steps', waitingOrder.Lapses ScriptedKernel.inboxesOf ifindex
      (scanningMachine 4 steps) since (scanningMachine 4 steps')) ∧
    ∃ ifindex since n steps steps', waitingOrder.Answers belatedInboxes ifindex
      (belatedMachine steps) since n (belatedMachine steps') ∧
      (∀ channel, belatedInboxes.waiting channel (belatedMachine steps).world = []) ∧
      ∃ channel, ∃ r ∈ since.taken channel, (belatedMachine steps).Announces ifindex n r := by
  have hc : waitingScan.command = .scan waitingOrder := rfl
  have hawaited (moment : Nat) :=
    Invocation.scan_isAwaited hc rfl ScriptedKernel.inboxesOf 0 (scanningKernel moment) 80
  refine ⟨hc, rfl, ?_, ?_, ?_⟩
  · have hprinted : output (scanningMachine 2 80).journal ≠ "" := by decide +kernel
    obtain ⟨text, later, earlier, hj⟩ := exists_printed_of_output_ne hprinted
    obtain ⟨ifindex, since, n, steps, steps', -, hanswers, -⟩ :=
      (hawaited 2).1 text later earlier hj
    exact ⟨ifindex, since, n, steps, steps', hanswers⟩
  · have hfailed : (scanningMachine 4 80).journal.head? =
        some (.noted (.failed (overdueLine 1))) := by cbv
    obtain ⟨earlier, hj⟩ := List.head?_eq_some_iff.mp hfailed
    obtain ⟨ifindex, since, steps, steps', -, hlapses⟩ := (hawaited 4).2 [] earlier hj
    exact ⟨ifindex, since, steps, steps', hlapses⟩
  · have hprinted : output (belatedMachine 80).journal ≠ "" := by decide +kernel
    obtain ⟨text, later, earlier, hj⟩ := exists_printed_of_output_ne hprinted
    obtain ⟨ifindex, since, n, steps, steps', -, hanswers, -⟩ :=
      (Invocation.scan_isAwaited hc rfl belatedInboxes 0 (scanningKernel 4) 80).1 text later earlier
        hj
    change waitingOrder.Answers belatedInboxes ifindex (belatedMachine steps) since n
      (belatedMachine steps') at hanswers
    obtain ⟨hsilent, hempty⟩ := waiting_belatedMachine hanswers.acknowledged
    obtain ⟨channel, r, hr, hannounces⟩ := hanswers.arrived hsilent fun channel r hr ↦ by
      rw [hempty] at hr
      cases hr
    rw [hempty, List.length_nil, List.drop_zero] at hr
    exact ⟨ifindex, since, n, steps, steps', hanswers, hempty, channel, r, hr, hannounces⟩

/-- The request for the scan of such a session. -/
def scanTrigger : Packet :=
  ⟨28, 5, 4, 0, [33, 1, 0, 0] ++ [8, 0, 3, 0, 3, 0, 0, 0] ++ [8, 0, 45, 128] ++ [4, 0, 0, 0]⟩

set_option maxRecDepth 4000 in
/-- After 24 steps the acknowledgement of the request has been read. -/
private theorem isAcknowledged_scanningMachine :
    waitingOrder.IsAcknowledged 3 (scanningMachine 0 24) := by
  have hsent : (scanningMachine 0 24).journal[6]? =
      some (.sent 1000 scanTrigger.toBytes (.ok 36)) := by cbv
  have hended : (scanningMachine 0 24).journal.head? =
      some (.exchangeEnded 4 (.ok [⟨errorType, 0, 4, 0, [0, 0, 0, 0]⟩])) := by cbv
  obtain ⟨before, hj⟩ := List.head?_eq_some_iff.mp hended
  refine ⟨fun given hg ↦ ?_, .request 28 33 4 0, scanTrigger, _, [], before, rfl, ?_, hj, rfl⟩
  · cases hg
  · exact ⟨1000, .ok 36, List.mem_of_getElem? hsent⟩

/-- All datagrams that have arrived on a channel so far. -/
def arrivals (channel : Nat) (m : Machine ScriptedKernel Remark) : List Reception :=
  m.journal.taken channel ++ ScriptedKernel.waiting channel m.world

/-- A notice that arrived before the request is taken for the answer to it: the results are printed,
though nothing that arrived since the acknowledgement was read announces the end of a scan. -/
theorem Invocation.scan_printsAtOnce :
    output (waitingScan.run ScriptedKernel.host 0 (scanningKernel 0) 80).journal =
      "00:11:22:33:44:55  2437 MHz  -55.0 dBm   Test\n" ∧
    status (waitingScan.run ScriptedKernel.host 0 (scanningKernel 0) 80).journal = 0 ∧
    waitingOrder.IsAcknowledged 3 (scanningMachine 0 24) ∧
    ∀ channel ∈ (scanningMachine 0 80).journal.opened,
      ∀ r ∈ (arrivals channel (scanningMachine 0 80)).drop
        (arrivals channel (scanningMachine 0 24)).length,
        ∀ n, ¬ (scanningMachine 0 24).Announces 3 n r := by
  refine ⟨by decide +kernel, by decide +kernel, isAcknowledged_scanningMachine, ?_⟩
  -- Only the reply to the request for results arrived later, and it has that request's number.
  have hreplies : ∀ channel ∈ (scanningMachine 0 80).journal.opened,
      ∀ r ∈ (arrivals channel (scanningMachine 0 80)).drop
        (arrivals channel (scanningMachine 0 24)).length,
        ∀ p ∈ Event.messagesIn (.ok r), p.sequence ≠ 0 := by decide +kernel
  intro channel hc r hr n hannounces
  obtain ⟨-, p, hp, hsequence, -⟩ := hannounces
  exact hreplies channel hc r hr p hp hsequence

end CommandLine

end WifiNetlink
