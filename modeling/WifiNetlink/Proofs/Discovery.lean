import WifiNetlink.Proofs.Description
import WifiNetlink.Proofs.Lookups
import WifiNetlink.Proofs.Refusal

/-!
# What a lookup comes to

A lookup of a family succeeds exactly if one reply was gathered and a family is read from it. Main
statement: a family that was looked up is known from then on under the name that was asked for, a
lookup that failed leaves all families as they were, and it says that there is no such family
exactly if the kernel's only reply does.
-/

namespace WifiNetlink

/-! ### Replies to a lookup -/

/-- Whether an error may be that something does not exist: the kernel's, or that there is no such
family. -/
def Error.isDenial : Error → Bool
  | kernel _ | kernelDuring .. | familyNotFound _ => true
  | _ => false

/-- No exchange fails for want of something. -/
theorem Error.isDenial_of_isOfExchange {e : Error} (he : e.isOfExchange = true) :
    e.isDenial = false := by
  cases e <;> simp_all [isOfExchange, isDenial]

/-- Whether nothing that is made is refused by the kernel or for want of a family. -/
def FailsPlainly {α : Type} (made : Except Error α) : Prop :=
  ∀ e, made = .error e → e.isDenial = false

namespace FailsPlainly

variable {α β : Type} {made : Except Error α}

theorem pure (a : α) : FailsPlainly (.ok a) := nofun

theorem throw {e : Error} (he : e.isDenial = false) : FailsPlainly (.error e : Except Error α) := by
  intro e' h
  rw [← Except.error.inj h, he]

theorem bind {next : α → Except Error β} (hm : FailsPlainly made)
    (hn : ∀ a, FailsPlainly (next a)) : FailsPlainly (made >>= next) := by
  cases made with
  | error e => exact throw (hm e rfl)
  | ok a => exact hn a

theorem map {f : α → β} (hm : FailsPlainly made) : FailsPlainly (made.map f) := by
  cases made with
  | error e => exact throw (hm e rfl)
  | ok a => exact pure (f a)

theorem foldlM {push : β → α → Except Error β} (hp : ∀ b a, FailsPlainly (push b a)) (b : β)
    (as : List α) : FailsPlainly (as.foldlM push b) := by
  induction as generalizing b with
  | nil => exact pure b
  | cons a as ih =>
    rw [List.foldlM_cons]
    exact (hp b a).bind ih

end FailsPlainly

namespace Payload

theorem failsPlainly_readNat (width : Nat) (type : String) (bytes : Bytes) :
    FailsPlainly (readNat width type bytes) := by
  unfold readNat
  split
  · exact .pure _
  · exact .throw rfl

theorem failsPlainly_readText (bytes : Bytes) : FailsPlainly (readText bytes) := by
  unfold readText
  split
  · exact .pure _
  · exact .throw rfl

end Payload

namespace Packet

/-- Only a message with the code of that error number says that something does not exist. -/
theorem kind_eq_noent_iff {p : Packet} :
    p.kind = .error Errno.noent ↔ p.code? = some (-Errno.noent) := by
  constructor
  · intro hk
    obtain ⟨-, ⟨-, hbad⟩ | ⟨hcode, -⟩⟩ := kind_eq_error_iff.mp hk
    · contradiction
    · rw [errorCode?_eq, Option.map_eq_some_iff] at hcode
      obtain ⟨code, hcode, hneg⟩ := hcode
      rw [hcode, saturatingNeg_eq_noent_iff.mp hneg]
  · intro hcode
    rw [kind_of_code? hcode (by decide)]
    rfl

end Packet

namespace Family

theorem failsPlainly_pushEntry (entry : GroupEntry) (item : Item) :
    FailsPlainly (entry.push item) := by
  unfold GroupEntry.push
  split
  · exact (Payload.failsPlainly_readText _).bind fun _ ↦ .pure _
  · split
    · exact (Payload.failsPlainly_readNat _ _ _).map.bind fun _ ↦ .pure _
    · exact .pure _

theorem failsPlainly_pushGroup (groups : Table String UInt32) (payload : Bytes) :
    FailsPlainly (pushGroup groups payload) := by
  apply FailsPlainly.bind
  · exact .foldlM failsPlainly_pushEntry _ _
  · intro entry
    split <;> exact .pure _

theorem failsPlainly_readGroups (payload : Bytes) : FailsPlainly (readGroups payload) := by
  apply FailsPlainly.foldlM
  intro groups item
  exact failsPlainly_pushGroup groups item.payload

theorem failsPlainly_pushDraft (draft : Draft) (item : Item) : FailsPlainly (draft.push item) := by
  unfold Draft.push
  split
  · exact (Payload.failsPlainly_readNat _ _ _).map.bind fun _ ↦ .pure _
  · split
    · exact (Payload.failsPlainly_readText _).bind fun _ ↦ .pure _
    · split
      · exact (Payload.failsPlainly_readNat _ _ _).map.bind fun _ ↦ .pure _
      · split
        · exact (failsPlainly_readGroups _).bind fun _ ↦ .pure _
        · exact .pure _

theorem failsPlainly_finish (draft : Draft) : FailsPlainly draft.finish := by
  unfold Draft.finish
  split
  · exact .throw rfl
  · exact .throw rfl
  · exact .pure _

/-- A request that cannot be made is not refused either. -/
theorem failsPlainly_request (name : String) (sequence port : UInt32) :
    FailsPlainly (request name sequence port) := by
  apply FailsPlainly.map
  unfold Attribute.encode Attribute.ofPayload
  split
  · exact .pure _
  · exact .throw rfl

/-- A refusal is reported with the kernel's error number. -/
theorem ofPacket_of_error {p : Packet} {errno : Int32} (hk : p.kind = .error errno) :
    ofPacket p = .error (.kernelDuring "get family" errno) := by
  rw [ofPacket_eq_checks, hk]
  simp only [Error.ofErrno, Error.during, Int32.neg_neg]

/-- Whatever else is wrong with a reply is no refusal. -/
theorem failsPlainly_ofPacket {p : Packet} (hk : ∀ errno, p.kind ≠ .error errno) :
    FailsPlainly (ofPacket p) := by
  rw [ofPacket_eq_checks]
  split
  · next errno h => exact absurd h (hk errno)
  · split
    · exact .throw rfl
    · split
      · exact .throw rfl
      · exact (FailsPlainly.foldlM failsPlainly_pushDraft _ _).bind failsPlainly_finish

/-- A family is read from the replies if there is one reply, and it is read from that. -/
theorem ofReplies_eq_ok_iff {name : String} {replies : List Packet} {f : Family} :
    ofReplies name replies = .ok f ↔ ∃ reply, replies = [reply] ∧ ofPacket reply = .ok f := by
  match replies with
  | [] => simp [ofReplies]
  | [reply] =>
    simp only [ofReplies, List.cons.injEq, and_true, exists_eq_left']
    cases ofPacket reply <;> simp
  | _ :: _ :: _ => simp [ofReplies]

/-- That there is no such family is said of a lookup whose only reply is the kernel's error of that
number. -/
theorem ofReplies_eq_notFound_iff {name : String} {replies : List Packet} :
    ofReplies name replies = .error (.familyNotFound name) ↔
      ∃ reply, replies = [reply] ∧ reply.code? = some (-Errno.noent) := by
  match replies with
  | [] => simp [ofReplies]
  | [reply] =>
    simp only [List.cons.injEq, and_true, exists_eq_left', ← Packet.kind_eq_noent_iff]
    by_cases hk : ∃ errno, reply.kind = .error errno
    · obtain ⟨errno, hk⟩ := hk
      simp only [ofReplies, ofPacket_of_error hk, hk, Error.errno?]
      by_cases hno : errno = Errno.noent
      · simp [hno]
      · simp [hno]
    · have hplain : FailsPlainly (ofPacket reply) :=
        failsPlainly_ofPacket fun errno h ↦ hk ⟨errno, h⟩
      have hnone : reply.kind ≠ .error Errno.noent := fun h ↦ hk ⟨_, h⟩
      simp only [ofReplies, hnone, iff_false]
      cases hread : ofPacket reply with
      | ok f => simp
      | error e =>
        have he := hplain e hread
        cases e <;> simp_all [Error.isDenial, Error.errno?]
  | _ :: _ :: _ => simp [ofReplies]

variable {outcome : Except Error (List Packet)} {name : String}

/-- A lookup succeeds if its exchange gathers one reply and a family is read from it. -/
theorem bind_ofReplies_eq_ok_iff {f : Family} : outcome.bind (ofReplies name) = .ok f ↔
    ∃ reply, outcome = .ok [reply] ∧ ofPacket reply = .ok f := by
  cases outcome with
  | error e => simp [Except.bind]
  | ok replies =>
    simp only [Except.bind, Except.ok.injEq]
    exact ofReplies_eq_ok_iff

/-- A lookup says that there is no such family if its exchange gathers one reply that says so. -/
theorem bind_ofReplies_eq_notFound_iff (ho : FailsPlainly outcome) :
    outcome.bind (ofReplies name) = .error (.familyNotFound name) ↔
      ∃ reply, outcome = .ok [reply] ∧ reply.code? = some (-Errno.noent) := by
  cases outcome with
  | error e =>
    have hother : e ≠ .familyNotFound name := by
      rintro rfl
      exact absurd (ho _ rfl) (by simp [Error.isDenial])
    simp [Except.bind, hother]
  | ok replies =>
    simp only [Except.bind, Except.ok.injEq]
    exact ofReplies_eq_notFound_iff

end Family

/-! ### The end of a lookup -/

variable {σ ν : Type}

namespace Journal

/-- The exchange that ended last, if nothing but wiring came after it, and its outcome. -/
def lastEnd? (journal : Journal ν) : Option (Event ν) := journal.find? (!·.isWiring)

theorem lastEnd?_append_cons {later : Journal ν} (hl : ∀ e ∈ later, e.isWiring = true)
    (sequence : UInt32) (outcome : Except Error (List Packet)) (earlier : Journal ν) :
    lastEnd? (later ++ .exchangeEnded sequence outcome :: earlier) =
      some (.exchangeEnded sequence outcome) := by
  have hnone : later.find? (!·.isWiring) = none := by
    simpa [List.find?_eq_none] using hl
  rw [lastEnd?, List.find?_append, hnone]
  rfl

end Journal

namespace Machine

/-- Whether the exchange with the next sequence number of one machine has ended in another one with
these replies, and nothing was done since then but to channels, the watch and groups. -/
def Collects (m m' : Machine σ ν) (replies : List Packet) : Prop :=
  ∃ later between, m'.journal = later ++
      .exchangeEnded m.transport.counter.next (.ok replies) :: (between ++ m.journal) ∧
    ∀ e ∈ later, e.isWiring = true

/-- What a lookup has come to when it returns. Its exchange has the next sequence number of the
machine where it begins. That no other family becomes known is said of a quiet lookup, during which
no other one begins. -/
structure Discovers (quiet : Prop) (m : Machine σ ν) (name : String) (discoverer : Discoverer σ ν)
    (m' : Machine σ ν) (result : Except Error Family) : Prop where
  /-- Whoever asked for the family goes on with the result. -/
  goesOn : discoverer.GoesOn result m'.control
  /-- It succeeds if exactly one reply was gathered and the family is read from it. -/
  ok_iff : ∀ f, result = .ok f ↔ ∃ reply, m.Collects m' [reply] ∧ Family.ofPacket reply = .ok f
  /-- The family is known then. -/
  known : ∀ f, result = .ok f → m'.transport.families.get? name = some f
  /-- All others are as they were. -/
  others : quiet → ∀ f, result = .ok f → ∀ other, other ≠ name →
    m'.transport.families.get? other = m.transport.families.get? other
  /-- If it fails, everything is as it was. -/
  kept : quiet → ∀ e, result = .error e →
    m'.transport.families = m.transport.families ∧
    m'.transport.familyId = m.transport.familyId ∧
    ∀ group, m'.transport.groupId group = m.transport.groupId group
  /-- The request does not wait any more, or there never was one. -/
  forgotten : m'.transport.pending.get? m.transport.counter.next = none ∨
    (∃ e, Family.request name m.transport.counter.next m.transport.port = .error e) ∧
      m'.transport.pending = m.transport.pending
  /-- There is no such family if the only reply says so. -/
  notFound_iff : result = .error (.familyNotFound name) ↔
    ∃ reply, m.Collects m' [reply] ∧ reply.code? = some (-Errno.noent)

/-- Whether a lookup that began in one machine has just come to its result in another one. -/
def Found (quiet : Prop) (m : Machine σ ν) (name : String) (discoverer : Discoverer σ ν)
    (m' : Machine σ ν) : Prop :=
  m'.stack.length = m.stack.length ∧ ∃ result, m.Discovers quiet name discoverer m' result

variable {h : Host σ} {quiet : Prop} {m m' ready : Machine σ ν} {name : String}
  {discoverer : Discoverer σ ν} {outcome : Except Error (List Packet)}

/-- A lookup that has come to its result is not idle. -/
theorem Found.isIdle_eq_false (hf : Found quiet m name discoverer m') : m'.isIdle = false := by
  obtain ⟨-, result, hdiscovers⟩ := hf
  obtain ⟨program, hc⟩ := hdiscovers.goesOn.exists_run
  exact isIdle_eq_false_of_run hc

/-- What has been gathered is the outcome of the exchange that ended last. -/
theorem collects_iff {later between : Journal ν} {replies : List Packet}
    (hj : m'.journal = later ++
      .exchangeEnded m.transport.counter.next outcome :: (between ++ m.journal))
    (hl : ∀ e ∈ later, e.isWiring = true) : m.Collects m' replies ↔ outcome = .ok replies := by
  constructor
  · rintro ⟨later', between', hj', hl'⟩
    have hend := congrArg Journal.lastEnd? (hj.symm.trans hj')
    rw [Journal.lastEnd?_append_cons hl, Journal.lastEnd?_append_cons hl'] at hend
    exact (Event.exchangeEnded.inj (Option.some.inj hend)).2
  · rintro rfl
    exact ⟨later, between, hj, hl⟩

/-- A lookup whose request cannot be made leaves everything as it was. -/
private theorem found_of_request {e : Error}
    (hr : Family.request name m.transport.counter.next m.transport.port = .error e) :
    Found quiet m name discoverer (m.discover h name discoverer) := by
  have hplain : e.isDenial = false := Family.failsPlainly_request _ _ _ e hr
  have hdiscover : m.discover h name discoverer =
      (m.adjust Transport.advance).handFamily h discoverer (.error e) := by
    rw [discover, hr]
  -- Whoever asked gets the failure, and nothing else happens.
  have hsame : (m.discover h name discoverer).ledger = (m.adjust Transport.advance).ledger := by
    rw [hdiscover]
    cases discoverer <;> rfl
  have hcollects (replies : List Packet) : ¬ m.Collects (m.discover h name discoverer) replies := by
    rintro ⟨later, between, hj, -⟩
    have hlength := congrArg List.length ((congrArg Ledger.journal hsame).symm.trans hj)
    simp only [ledger, adjust, List.length_cons, List.length_append] at hlength
    omega
  have htransport : (m.discover h name discoverer).transport = m.transport.advance :=
    congrArg Ledger.toTransport hsame
  refine ⟨congrArg (fun l ↦ l.stack.length) hsame, .error e, ?_⟩
  exact {
    goesOn := by
      rw [hdiscover]
      exact goesOn_handFamily h _ discoverer _
    ok_iff := by simp [hcollects]
    known := by simp
    others := by simp
    kept := fun _ _ _ ↦ by
      rw [htransport]
      exact ⟨rfl, rfl, fun _ ↦ rfl⟩
    forgotten := .inr ⟨⟨e, hr⟩, by rw [htransport]; rfl⟩
    notFound_iff := by
      simp only [hcollects, false_and, exists_false, iff_false, Except.error.injEq]
      rintro rfl
      contradiction }

/-- A lookup has come to its result when its exchange ends. -/
private theorem found_endExchange (hs : m'.stack.length = m.stack.length)
    (hp : m'.transport.pending.get? m.transport.counter.next = none)
    (hj : m.journal <:+ m'.journal) (ho : ∀ e, outcome = .error e → e.isOfExchange = true)
    (hquiet : quiet → m'.transport.families = m.transport.families ∧
      m'.transport.config = m.transport.config) :
    Found quiet m name discoverer
      (m'.endExchange h m.transport.counter.next (.discovery name discoverer) outcome) := by
  obtain ⟨between, hj⟩ := hj
  have hhanded := row_handReplies h (m'.log (.exchangeEnded m.transport.counter.next outcome))
    (.discovery name discoverer) outcome
  have hgoes := goesOn_handReplies h (m'.log (.exchangeEnded m.transport.counter.next outcome))
    (.discovery name discoverer) outcome
  rw [← endExchange] at hhanded hgoes
  generalize m'.endExchange h m.transport.counter.next (.discovery name discoverer) outcome = told
    at hhanded hgoes ⊢
  obtain ⟨later, hlater, hwiring⟩ := hhanded.kind_of_mem (by simp) (by simp)
  have hledger := hhanded.eq_wiredAs
  have hfamilies : told.transport.families =
      (Waiter.discovery name discoverer).learn m'.transport.families outcome :=
    congrArg (·.families) hledger
  have hconfig : told.transport.config = m'.transport.config := congrArg (·.config) hledger
  have hpending : told.transport.pending = m'.transport.pending := congrArg (·.pending) hledger
  have hjournal : told.journal = later ++ .exchangeEnded m.transport.counter.next outcome ::
      (between ++ m.journal) := by
    rw [hj]
    exact hlater
  have hplain : FailsPlainly outcome := fun e he ↦ Error.isDenial_of_isOfExchange (ho e he)
  have hcollects (replies : List Packet) : m.Collects told replies ↔ outcome = .ok replies :=
    collects_iff hjournal fun e he ↦ Event.isWiring_of_kind (hwiring e he)
  refine ⟨(congrArg (·.stack.length) hledger).trans hs, outcome.bind (Family.ofReplies name), ?_⟩
  exact {
    goesOn := hgoes
    ok_iff := fun f ↦ by simp only [hcollects, Family.bind_ofReplies_eq_ok_iff]
    known := by
      intro f hf
      rw [hfamilies, Waiter.learn, hf, Table.get?_insert, if_pos rfl]
    others := by
      intro hq f hf other hother
      rw [hfamilies, Waiter.learn, hf, Table.get?_insert, if_neg hother, (hquiet hq).1]
    kept := by
      intro hq e he
      rw [Waiter.learn, he, (hquiet hq).1] at hfamilies
      rw [(hquiet hq).2] at hconfig
      refine ⟨hfamilies, ?_, fun group ↦ ?_⟩
      · simp only [Transport.familyId, Transport.family?, hfamilies, hconfig]
      · simp only [Transport.groupId, Transport.family?, hfamilies, hconfig]
    forgotten := .inl (by rw [hpending, hp])
    notFound_iff := by simp only [hcollects, Family.bind_ofReplies_eq_notFound_iff hplain] }

/-! ### A lookup that goes on -/

/-- The lookup of a family that begins in a machine. -/
def sought (m : Machine σ ν) (name : String) (discoverer : Discoverer σ ν) : Lookup σ ν :=
  ⟨m.stack.length, m.transport.counter.next, name, discoverer⟩

/-- Whether a lookup that began in one machine goes on in another one. -/
structure Seeks (quiet : Prop) (m : Machine σ ν) (name : String) (discoverer : Discoverer σ ν)
    (m' : Machine σ ν) : Prop where
  mem : m.sought name discoverer ∈ lookups m'.stack
  journal : m.journal <:+ m'.journal
  families : quiet → m'.transport.families = m.transport.families
  config : quiet → m'.transport.config = m.transport.config
  latest : quiet → lookups m'.stack = m.sought name discoverer :: lookups m.stack

theorem Seeks.length_stack_lt (hs : Seeks quiet m name discoverer m') :
    m.stack.length < m'.stack.length := depth_lt_of_mem_lookups hs.mem

/-- A lookup that goes on is not idle. -/
theorem Seeks.isIdle_eq_false (hs : Seeks quiet m name discoverer m') : m'.isIdle = false :=
  isIdle_eq_false_of_stack (List.ne_nil_of_length_pos (Nat.zero_lt_of_lt hs.length_stack_lt))

/-- The journal of a lookup goes on with each step. -/
private theorem Seeks.journal_step (hs : Seeks quiet m name discoverer m') :
    m.journal <:+ (m'.step h).journal := by
  obtain ⟨new, hj, -⟩ := Machine.journal_step h m'
  exact hs.journal.trans ⟨new, hj.symm⟩

/-- A lookup goes on that is not quiet. -/
private theorem Seeks.of_not_quiet (hq : ¬ quiet)
    (hmem : m.sought name discoverer ∈ lookups m'.stack) (hj : m.journal <:+ m'.journal) :
    Seeks quiet m name discoverer m' :=
  ⟨hmem, hj, fun h ↦ absurd h hq, fun h ↦ absurd h hq, fun h ↦ absurd h hq⟩

/-- A step that learns nothing is no matter of a lookup. -/
private theorem Seeks.of_learnsNothing (hs : Seeks quiet m name discoverer m')
    (hl : m'.ledger.LearnsNothing (m'.step h).ledger) :
    Seeks quiet m name discoverer (m'.step h) where
  mem := hl.lookups ▸ hs.mem
  journal := hs.journal_step
  families hq := hl.families.trans (hs.families hq)
  config hq := hl.config.trans (hs.config hq)
  latest hq := hl.lookups.trans (hs.latest hq)

/-- Where an exchange begins the lookups below it go on. -/
private theorem Begins.isSuffix_lookups {sequence : UInt32} {waiter : Waiter σ ν}
    (hb : Begins h sequence waiter m m') : lookups m.stack <:+ lookups m'.stack := by
  cases hb with
  | refused e ready new hl hj hnew hk =>
    simp only [(hl.endExchange h sequence waiter (.error e)).stack_eq, List.suffix_rfl]
  | sent begun m' new hs hp hj hnew hk hc =>
    rw [hs]
    exact List.suffix_append _ _

/-- A lookup begins, or it has come to its result at once. -/
private theorem seeks_or_found_discover :
    Seeks quiet m name discoverer (m.discover h name discoverer) ∨
      Found quiet m name discoverer (m.discover h name discoverer) := by
  cases hr : Family.request name m.transport.counter.next m.transport.port with
  | error e => exact .inr (found_of_request hr)
  | ok request =>
    have hsequence := Family.sequence_of_request hr
    have hnumbered : request.sequence ≠ 0 := by
      rw [hsequence]
      exact SequenceCounter.next_ne_zero _
    have hdiscover : m.discover h name discoverer =
        (m.adjust Transport.advance).beginExchange h request (.discovery name discoverer) := by
      rw [discover, hr]
    have hb := begins_beginExchange h (m.adjust Transport.advance) request
      (.discovery name discoverer) hnumbered
    rw [hsequence, ← hdiscover] at hb
    generalize m.discover h name discoverer = m' at hb ⊢
    cases hb with
    | refused e ready new hl hj hnew hk he =>
      right
      apply found_endExchange
      · rw [hl.stack_eq]
        rfl
      · rw [hl.pending_eq, if_pos rfl]
      · exact ⟨new ++ [.exchangeBegan _], by rw [hj, List.append_assoc]; rfl⟩
      · rintro _ ⟨⟩
        exact he
      · exact fun _ ↦ ⟨hk.families, hk.config⟩
    | sent begun m' new hs hp hj hnew hk hc =>
      have hlookups : lookups m'.stack = m.sought name discoverer :: lookups m.stack := by
        rw [hs]
        exact lookups_cons_of_some rfl
      left
      exact {
        mem := by
          rw [hlookups]
          exact List.mem_cons_self
        journal := ⟨new ++ [.exchangeBegan _], by rw [hj, List.append_assoc]; rfl⟩
        families := fun _ ↦ hk.families
        config := fun _ ↦ hk.config
        latest := fun _ ↦ hlookups }

/-- No lookup has the number of multicast traffic. -/
private theorem sequence_ne_zero_of_asks {sequence : UInt32}
    (ha : m.asks? = some (sequence, .discovery name discoverer)) : sequence ≠ 0 := by
  unfold asks? at ha
  split at ha
  · exact absurd (Prod.mk.inj (Option.some.inj ha)).2 (by simp)
  · obtain ⟨rfl, -⟩ := Prod.mk.inj (Option.some.inj ha)
    exact SequenceCounter.next_ne_zero _
  · split at ha
    · contradiction
    · obtain ⟨rfl, -⟩ := Prod.mk.inj (Option.some.inj ha)
      exact SequenceCounter.next_ne_zero _
  · contradiction

/-- While other lookups begin a lookup goes on. -/
private theorem Seeks.step_of_looksUp (hs : Seeks quiet m name discoverer m') (hl : m'.LooksUp)
    (hquiet : ¬ quiet) : Seeks quiet m name discoverer (m'.step h) := by
  obtain ⟨hheld, sequence, other, discoverer', hasks⟩ := hl
  have hgoes : lookups m'.stack <:+ lookups (m'.step h).stack := by
    rcases step_of_asks h hasks hheld with ⟨hw, -⟩ | ⟨ready, request, hw, rfl, hstep⟩
    · simp only [hw.stack, List.suffix_rfl]
    · have hb := begins_beginExchange h ready request (.discovery other discoverer')
        (sequence_ne_zero_of_asks hasks)
      rw [← hstep] at hb
      rw [← hw.stack]
      exact hb.isSuffix_lookups
  exact .of_not_quiet hquiet (hgoes.subset hs.mem) hs.journal_step

/-- The turn of a lookup on top of the stack is that of another one that began later, or its own. -/
private theorem Seeks.step_of_turn (hs : Seeks quiet m name discoverer m') {frame : Frame σ ν}
    {stack : List (Frame σ ν)} {l : Lookup σ ν} (hc : m'.control = .resume)
    (hstack : m'.stack = frame :: stack) (hl : frame.lookup? stack.length = some l) :
    Seeks quiet m name discoverer (m'.step h) ∨ Found quiet m name discoverer (m'.step h) := by
  have hlookups : lookups m'.stack = l :: lookups stack := by
    rw [hstack]
    exact lookups_cons_of_some hl
  obtain ⟨x, rfl, hsequence, hwaiter, hdepth⟩ := of_lookup?_eq_some hl
  have hjournal : m.journal <:+ (m'.step h).journal := hs.journal_step
  have ht := turns_turnExchange h { m' with stack } x
  rw [← step_of_collecting h hc hstack] at ht
  generalize m'.step h = m'' at ht hjournal ⊢
  cases ht with
  | ends outcome ready hcloses =>
    have hmem := hs.mem
    rw [hlookups] at hmem
    rcases List.mem_cons.mp hmem with heq | hbelow
    · right
      subst heq
      rw [hsequence, hwaiter]
      obtain ⟨new, hj, -⟩ := hcloses.attempts
      apply found_endExchange
      · rw [hcloses.leaves.stack_eq]
        exact hdepth.symm
      · rw [hcloses.leaves.pending_eq]
        exact if_pos hsequence.symm
      · exact hs.journal.trans ⟨new, hj.symm⟩
      · exact hcloses.isOfExchange
      · exact fun hq ↦ ⟨hcloses.keeps.families.trans (hs.families hq),
          hcloses.keeps.config.trans (hs.config hq)⟩
    · left
      -- A quiet lookup is the last one that began.
      have hquiet : ¬ quiet := by
        intro hq
        have heq := (List.cons.inj (hlookups.symm.trans (hs.latest hq))).1
        have hless := depth_lt_of_mem_lookups hbelow
        rw [← heq, hdepth] at hless
        exact Nat.lt_irrefl _ hless
      refine .of_not_quiet hquiet ?_ hjournal
      rw [(hcloses.leaves.endExchange h x.sequence x.waiter outcome).stack_eq]
      exact hbelow
  | waits m'' read hread hj ht hw hc' =>
    left
    have hsame : lookups m''.stack = lookups m'.stack := by
      rw [lookups_of_waits _ hread, hstack]
    exact {
      mem := hsame ▸ hs.mem
      journal := hjournal
      families := fun hq ↦ (congrArg Transport.families ht).trans (hs.families hq)
      config := fun hq ↦ (congrArg Transport.config ht).trans (hs.config hq)
      latest := fun hq ↦ hsame.trans (hs.latest hq) }

/-- A step goes on with a lookup or brings it to its result. -/
private theorem Seeks.step (hs : Seeks quiet m name discoverer m') (hn : quiet → ¬ m'.LooksUp) :
    Seeks quiet m name discoverer (m'.step h) ∨ Found quiet m name discoverer (m'.step h) := by
  by_cases hturn : ∃ frame stack l, m'.control = .resume ∧ m'.stack = frame :: stack ∧
      frame.lookup? stack.length = some l
  · obtain ⟨frame, stack, l, hc, hstack, hl⟩ := hturn
    exact hs.step_of_turn hc hstack hl
  · left
    by_cases hl : m'.LooksUp
    · exact hs.step_of_looksUp hl fun hq ↦ hn hq hl
    · apply hs.of_learnsNothing
      apply learnsNothing_step h m' hl
      intro frame stack hc hstack
      rw [Option.eq_none_iff_forall_not_mem]
      intro l hl
      exact hturn ⟨frame, stack, l, hc, hstack, hl⟩

/-- Whether a lookup that begins in one machine, and has led to another one by then, has just
returned in a third one: until then the stack was higher than at its beginning, and each machine was
allowed. -/
def LookupReturns (h : Host σ) (allowed : Machine σ ν → Prop) (m begun m' : Machine σ ν) : Prop :=
  Run h (fun m'' ↦ m.stack.length < m''.stack.length ∧ allowed m'') begun m' ∧
    m'.stack.length ≤ m.stack.length

private theorem exists_discovers {allowed : Machine σ ν → Prop}
    (hret : m.LookupReturns h allowed (m.discover h name discoverer) m') :
    ∃ result, m.Discovers (∀ m'', allowed m'' → ¬ m''.LooksUp) name discoverer m' result := by
  obtain ⟨hrun, hlength⟩ := hret
  have hgoes : Seeks (∀ m'', allowed m'' → ¬ m''.LooksUp) m name discoverer m' ∨
      Found (∀ m'', allowed m'' → ¬ m''.LooksUp) m name discoverer m' := by
    refine hrun.lasts_or_ends _ _ seeks_or_found_discover ?_ ?_ ?_
    · intro m' _ hallowed hseeks
      exact hseeks.step fun hq ↦ hq m' hallowed.2
    · intro m' hfound hallowed
      rw [hfound.1] at hallowed
      exact absurd hallowed.1 (Nat.lt_irrefl _)
    · exact fun m' ↦ Or.rec Seeks.isIdle_eq_false Found.isIdle_eq_false
  rcases hgoes with hseeks | ⟨-, hfound⟩
  · exact absurd hseeks.length_stack_lt (Nat.not_lt.mpr hlength)
  · exact hfound

/-- Client code that asks for a family looks it up. -/
private theorem step_of_discover {next : Except Error Family → Program σ ν}
    (hc : m.control = .run (.discover name next)) (hh : m.transport.isHeld = true) :
    m.step h = m.discover h name (.client next) := by
  rw [step_eq_call h hc hh]
  rfl

/-- When a lookup returns, whoever asked for the family goes on with the result: client code that
called for it, or the start of the transport. It succeeds exactly if one reply was gathered and a
family is read from it, which is then known under the name that was asked for; the request does not
wait any more; and there is no such family exactly if the only reply is an error message that says
so. If no other lookup began meanwhile, what was known of other families stays, and all of it if the
lookup fails. -/
theorem discovers_of_lookupReturns (h : Host σ) (allowed : Machine σ ν → Prop) (m m' : Machine σ ν)
    (name : String) :
    (∀ next, m.control = .run (.discover name next) → m.transport.isHeld = true →
      m.LookupReturns h allowed (m.step h) m' →
      ∃ result, m'.control = .run (next result) ∧
        m.Discovers (∀ m'', allowed m'' → ¬ m''.LooksUp) name (.client next) m' result) ∧
    ∀ discoverer, m.LookupReturns h allowed (m.discover h name discoverer) m' →
      ∃ result, m.Discovers (∀ m'', allowed m'' → ¬ m''.LooksUp) name discoverer m' result := by
  constructor
  · intro next hc hh hret
    rw [step_of_discover hc hh] at hret
    obtain ⟨result, hdiscovers⟩ := exists_discovers hret
    exact ⟨result, hdiscovers.goesOn, hdiscovers⟩
  · intro discoverer hret
    exact exists_discovers hret

/-- No lookup begins while the top of the stack goes on. -/
theorem not_looksUp_of_resume (hc : m.control = .resume) : ¬ m.LooksUp := by
  rintro ⟨-, sequence, name, discoverer, hasks⟩
  rw [asks?, hc] at hasks
  contradiction

end Machine

/-! ### A family that is gone -/

/-- An error message to the second request: there is nothing of that name. -/
def Packet.absence : Packet := ⟨errorType, 0, 2, 0, [254, 255, 255, 255]⟩

/-- Client code that notes whether a family was found. -/
def Program.noteFamily {σ : Type} (outcome : Except Error Family) : Program σ Bool :=
  .note outcome.isOk .done

/-- A started transport whose client code is about to ask for its family again, which is gone. -/
def askingAgainMachine : Machine ScriptedKernel Bool :=
  ((Machine.fresh .standard 0 (describingKernel
    [⟨.ok none, [.datagram Packet.absence.toBytes], []⟩])).run
      (.start fun _ ↦ .discover "nl80211" .noteFamily)).steps ScriptedKernel.host 5

/-- The lookup has returned. -/
def toldMachine : Machine ScriptedKernel Bool :=
  ((((askingAgainMachine.step ScriptedKernel.host).step ScriptedKernel.host).step
    ScriptedKernel.host).step ScriptedKernel.host).step ScriptedKernel.host

/-- The client is told that the family is gone, and the transport keeps the number that it knew. -/
theorem Machine.familyId_toldMachine :
    askingAgainMachine.LookupReturns ScriptedKernel.host (¬ ·.LooksUp)
      (askingAgainMachine.step ScriptedKernel.host) toldMachine ∧
    toldMachine.control = .run (.note false .done) ∧ toldMachine.transport.familyId = .ok 28 := by
  have hreturns : askingAgainMachine.LookupReturns ScriptedKernel.host (¬ ·.LooksUp)
      (askingAgainMachine.step ScriptedKernel.host) toldMachine := by
    refine ⟨?_, by cbv⟩
    refine .step (.step (.step (.step .refl ?_) ?_) ?_) ?_
    all_goals exact ⟨of_decide_eq_true (by cbv), not_looksUp_of_resume (by cbv)⟩
  obtain ⟨result, hcontrol, hdiscovers⟩ := (discovers_of_lookupReturns ScriptedKernel.host _
    askingAgainMachine toldMachine "nl80211").1 .noteFamily (by cbv) (by cbv) hreturns
  have hcollects : askingAgainMachine.Collects toldMachine [.absence] := by
    refine ⟨[], toldMachine.journal.tail.take
      (toldMachine.journal.length - askingAgainMachine.journal.length - 1), ?_, by simp⟩
    cbv
  have hresult : result = .error (.familyNotFound "nl80211") :=
    hdiscovers.notFound_iff.mpr ⟨.absence, hcollects, by decide⟩
  obtain ⟨-, hkept, -⟩ := hdiscovers.kept (fun _ ↦ id) _ hresult
  refine ⟨hreturns, ?_, ?_⟩
  · rw [hcontrol, hresult]
    rfl
  · exact hkept.trans (by cbv)

end WifiNetlink
