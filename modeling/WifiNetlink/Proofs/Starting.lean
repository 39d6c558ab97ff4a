import WifiNetlink.Proofs.Returning

/-!
# Attempts to start that succeed

An attempt to start asks for two channels and sends the request for its family; when that exchange
is over, it has the asynchronous channel watched and joins the configured groups. Main statement: an
attempt that returns has succeeded exactly if nothing of this was refused and a family with these
groups was read from the replies.
-/

namespace WifiNetlink

variable {σ ν : Type}

/-- Whether an event is that something was refused which a start asks for. -/
def Event.isSetback : Event ν → Bool
  | openFailed .. => true
  | sent _ message outcome => outcome.toOption != some message.length
  | watched _ accepted => !accepted
  | joined _ _ outcome => outcome.toOption.isNone
  | _ => false

/-- What was refused in a run, the latest first. -/
def Journal.setbacks (journal : Journal ν) : Journal ν := journal.filter Event.isSetback

theorem Journal.setbacks_append_eq_iff {later earlier : Journal ν} :
    setbacks (later ++ earlier) = setbacks earlier ↔ ∀ e ∈ later, e.isSetback = false := by
  simp [setbacks, List.filter_append]

namespace Machine

variable {h : Host σ} {m m' : Machine σ ν}

/-! ### The calls of a start -/

/-- Closing a channel is not refused. -/
private theorem setbacks_closeChannel (m : Machine σ ν) (channel : Option Nat) :
    (m.closeChannel h channel).journal.setbacks = m.journal.setbacks := by
  cases channel <;> rfl

/-- Nor is the end of a watch. -/
private theorem setbacks_stopWatching (m : Machine σ ν) :
    (m.stopWatching h).journal.setbacks = m.journal.setbacks := by
  unfold stopWatching
  split <;> rfl

/-- A channel is open unless it was refused. -/
private theorem setbacks_openChannel {outcome : Except Error Nat}
    (he : m.openChannel h = (outcome, m')) :
    m'.journal.setbacks = m.journal.setbacks ↔ ∃ descriptor, outcome = .ok descriptor := by
  unfold openChannel at he
  split at he
  · next descriptor _ _ =>
    obtain ⟨rfl, rfl⟩ := Prod.mk.inj he
    exact iff_of_true rfl ⟨descriptor, rfl⟩
  · obtain ⟨rfl, rfl⟩ := Prod.mk.inj he
    exact iff_of_false (List.cons_ne_self _ _) (by simp)

/-- A channel is replaced unless the new one was refused. -/
private theorem setbacks_renew (place : Nat → Transport σ ν → Transport σ ν)
    (old : Transport σ ν → Option Nat) {outcome : Except Error Unit}
    (he : (match m.openChannel h with
      | (.error e, m) => (.error e, m)
      | (.ok descriptor, m) =>
        (.ok (), (m.adjust (place descriptor)).closeChannel h (old m.transport))) =
      (outcome, m')) :
    m'.journal.setbacks = m.journal.setbacks ↔ outcome = .ok () := by
  split at he
  · next e m'' ho =>
    obtain ⟨rfl, rfl⟩ := Prod.mk.inj he
    exact (setbacks_openChannel ho).trans (iff_of_false (by simp) (by simp))
  · next descriptor m'' ho =>
    obtain ⟨rfl, rfl⟩ := Prod.mk.inj he
    rw [setbacks_closeChannel]
    exact (setbacks_openChannel ho).trans (iff_of_true ⟨descriptor, rfl⟩ rfl)

private theorem setbacks_renewSync {outcome : Except Error Unit}
    (he : m.renewSync h = (outcome, m')) :
    m'.journal.setbacks = m.journal.setbacks ↔ outcome = .ok () :=
  setbacks_renew (fun descriptor t ↦ { t with syncChannel := some descriptor }) (·.syncChannel) he

private theorem setbacks_renewAsync {outcome : Except Error Unit}
    (he : m.renewAsync h = (outcome, m')) :
    m'.journal.setbacks = m.journal.setbacks ↔ outcome = .ok () :=
  setbacks_renew (fun descriptor t ↦ { t with asyncChannel := some descriptor }) (·.asyncChannel) he

/-- A request is sent unless it was refused or cut. -/
private theorem setbacks_send {channel : Nat} {p : Packet} {outcome : Except Error Unit}
    (he : m.send h (some channel) p = (outcome, m')) :
    (m'.journal.setbacks = m.journal.setbacks ↔ outcome = .ok ()) ∧ m'.stack = m.stack ∧
      m'.transport = m.transport := by
  rcases hs : h.send channel p.toBytes m.world with ⟨sent, world⟩
  simp only [send, hs] at he
  obtain ⟨rfl, rfl⟩ := Prod.mk.inj he
  refine ⟨?_, rfl, rfl⟩
  have hsetback : (Event.sent channel p.toBytes sent : Event ν).isSetback =
      (sent.toOption != some p.length) := by rw [← Packet.length_toBytes]; rfl
  simp only [after, Journal.setbacks, List.filter_cons, hsetback]
  cases sent with
  | error fault => simp [Except.toOption]
  | ok count => by_cases hcount : count = p.length <;> simp [Except.toOption, hcount]

/-- The groups are joined unless one is not known or was refused. -/
private theorem setbacks_joinGroups {async : Nat} (ha : m.transport.asyncChannel = some async)
    {groups : List String} {outcome : Except Error Unit}
    (he : m.joinGroups h groups = (outcome, m')) :
    outcome = .ok () ↔ m'.journal.setbacks = m.journal.setbacks ∧
      ∀ group ∈ groups, ∃ id, m.transport.groupId group = .ok id := by
  induction groups generalizing m with
  | nil =>
    obtain ⟨rfl, rfl⟩ := Prod.mk.inj he
    exact iff_of_true rfl ⟨rfl, List.forall_mem_nil _⟩
  | cons group groups ih =>
    cases hg : m.transport.groupId group with
    | error e =>
      simp only [joinGroups, joinGroup, hg] at he
      obtain ⟨rfl, rfl⟩ := Prod.mk.inj he
      refine iff_of_false (by simp) fun hknown ↦ ?_
      obtain ⟨id, hid⟩ := hknown.2 group List.mem_cons_self
      rw [hg] at hid
      contradiction
    | ok id =>
      rcases hj : h.joinGroup async id m.world with ⟨joined, world⟩
      simp only [joinGroups, joinGroup, hg, ha, hj] at he
      cases joined with
      | error fault =>
        obtain ⟨rfl, rfl⟩ := Prod.mk.inj he
        exact iff_of_false (by simp) fun hjoined ↦ absurd hjoined.1 (List.cons_ne_self _ _)
      | ok _ =>
        have hknown : ∃ id, m.transport.groupId group = .ok id := ⟨id, hg⟩
        rw [List.forall_mem_cons, and_iff_right hknown]
        exact ih (m := m.after world (.joined async id (.ok ()))) ha he

/-! ### The beginning of a start -/

/-- Whether a start gets as far as to wait for its family: the family's name fits into a request,
and neither a channel nor the request is refused. -/
def IsPrepared (h : Host σ) (m : Machine σ ν) : Prop :=
  (∃ request, Family.request m.transport.config.familyName m.transport.counter.next
    m.transport.port = .ok request) ∧ (m.step h).journal.setbacks = m.journal.setbacks

/-- An exchange begins on a channel unless its request is refused. -/
private theorem setbacks_beginExchange {channel : Nat} (hc : m.transport.syncChannel = some channel)
    {request : Packet} (hn : request.sequence ≠ 0) (name : String)
    (next : Except Error Unit → Program σ ν) :
    let begun := m.beginExchange h request (.discovery name (.start next))
    begun.stack = m.stack ∧ begun.journal.setbacks ≠ m.journal.setbacks ∨
      begun.stack ≠ m.stack ∧ begun.journal.setbacks = m.journal.setbacks ∧
        begun.transport.asyncChannel = m.transport.asyncChannel := by
  intro begun
  generalize hready : ((m.adjust (·.expect request.sequence (.gather m.nextNumber))).log
    (.exchangeBegan request.sequence)).advance = ready
  have hsame : ready.journal.setbacks = m.journal.setbacks ∧ ready.stack = m.stack ∧
      ready.transport.asyncChannel = m.transport.asyncChannel := by
    subst hready
    exact ⟨rfl, rfl, rfl⟩
  have hbegun : begun = m.beginExchange h request (.discovery name (.start next)) := rfl
  simp only [beginExchange, hn, if_false, hc, hready] at hbegun
  rcases hsent : ready.send h (some channel) request with ⟨outcome, sent⟩
  obtain ⟨hrefused, hstack, htransport⟩ := setbacks_send hsent
  rw [hsent] at hbegun
  rw [hsame.1] at hrefused
  cases outcome with
  | error e =>
    left
    rw [hbegun]
    exact ⟨hstack.trans hsame.2.1, fun hnone ↦ absurd (hrefused.mp hnone) (by simp)⟩
  | ok _ =>
    right
    rw [hbegun]
    refine ⟨?_, hrefused.mpr rfl, ?_⟩
    · exact fun hs ↦ List.cons_ne_self _ _ (hs.trans (hsame.2.1.symm.trans hstack.symm))
    · exact (congrArg Transport.asyncChannel htransport).trans hsame.2.2

/-- A start that looks its family up waits for it, or the request could not be made or sent. -/
private theorem setbacks_discover {sync : Nat} (hc : m.transport.syncChannel = some sync)
    (name : String) (next : Except Error Unit → Program σ ν) :
    let sought := m.discover h name (.start next)
    sought.stack = m.stack ∧
        ((∃ e, Family.request name m.transport.counter.next m.transport.port = .error e) ∨
          sought.journal.setbacks ≠ m.journal.setbacks) ∨
      sought.stack ≠ m.stack ∧
        (∃ request, Family.request name m.transport.counter.next m.transport.port = .ok request) ∧
        sought.journal.setbacks = m.journal.setbacks ∧
        sought.transport.asyncChannel = m.transport.asyncChannel := by
  intro sought
  have hsought : sought = m.discover h name (.start next) := rfl
  cases hrequest : Family.request name m.transport.counter.next m.transport.port with
  | error e =>
    simp only [discover, hrequest] at hsought
    rw [hsought]
    exact .inl ⟨rfl, .inl ⟨e, rfl⟩⟩
  | ok request =>
    simp only [discover, hrequest] at hsought
    rw [hsought]
    have hn : request.sequence ≠ 0 := by
      rw [Family.sequence_of_request hrequest]
      exact SequenceCounter.next_ne_zero _
    rcases setbacks_beginExchange (m := m.adjust Transport.advance) hc hn name next with
      ⟨hsame, hrefused⟩ | ⟨hbegun, hnone, hkept⟩
    · exact .inl ⟨hsame, .inr hrefused⟩
    · exact .inr ⟨hbegun, ⟨request, rfl⟩, hnone, hkept⟩

/-- A start that is prepared waits for its family, and any other is over at once. -/
private theorem isPrepared_cases {next : Except Error Unit → Program σ ν}
    (hc : m.control = .run (.start next)) (hh : m.transport.isHeld = true)
    (hs : m.transport.isStarted = false) :
    (m.step h).stack = m.stack ∧ ¬ m.IsPrepared h ∨
      (m.step h).stack ≠ m.stack ∧ m.IsPrepared h ∧
        ∃ async, (m.step h).transport.asyncChannel = some async := by
  have hstep : m.step h = m.start h next := by
    rw [step_eq_call h hc hh]
    rfl
  unfold IsPrepared
  rw [hstep]
  have hout := setsOut_start h m next hh hs
  generalize m.start h next = begun at hout ⊢
  have hstopped := setbacks_stopWatching (h := h) m
  cases hout with
  | noSync e hr he =>
    refine .inl ⟨(Wires.of_row hr).stack, fun hprepared ↦ ?_⟩
    have hok := (setbacks_renewSync he).mp (hprepared.2.trans hstopped.symm)
    contradiction
  | noAsync e hr he he' =>
    have hopened := ((setbacks_renewSync he).mpr rfl).trans hstopped
    refine .inl ⟨(Wires.of_row hr).stack, fun hprepared ↦ ?_⟩
    have hok := (setbacks_renewAsync he').mp (hprepared.2.trans hopened.symm)
    contradiction
  | @looksUp _ ready sync async hr he he' ht =>
    have hopened : ready.journal.setbacks = m.journal.setbacks :=
      ((setbacks_renewAsync he').mpr rfl).trans (((setbacks_renewSync he).mpr rfl).trans hstopped)
    have hstack : ready.stack = m.stack := (Wires.of_row hr).stack
    have hsync : ready.transport.syncChannel = some sync := by rw [ht]
    have hsought := setbacks_discover (h := h) hsync m.transport.config.familyName next
    simp only [hstack, hopened, ht] at hsought
    rcases hsought with ⟨hsame, ⟨e, hfailed⟩ | hrefused⟩ | ⟨hbegun, hmade, hnone, hkept⟩
    · refine .inl ⟨hsame, fun hprepared ↦ ?_⟩
      obtain ⟨request, hmade⟩ := hprepared.1
      rw [hmade] at hfailed
      contradiction
    · exact .inl ⟨hsame, fun hprepared ↦ hrefused hprepared.2⟩
    · exact .inr ⟨hbegun, ⟨hmade, hnone⟩, async, hkept⟩

/-! ### The end of a start -/

/-- From a family that was looked up, a start succeeds unless the watch or a group was refused or a
group is not known. -/
private theorem finishStart_outcome {async : Nat} (ha : m.transport.asyncChannel = some async)
    (next : Except Error Unit → Program σ ν) :
    ∃ outcome, (m.finishStart h next).control = .run (next outcome) ∧
      (outcome = .ok () ↔ (m.finishStart h next).journal.setbacks = m.journal.setbacks ∧
        ∀ group ∈ m.transport.config.multicastGroups,
          ∃ id, m.transport.groupId group = .ok id) := by
  unfold finishStart
  rcases hw : h.watch async m.world with ⟨accepted, world⟩
  simp only [startWatching, ha, hw]
  cases accepted with
  | false =>
    refine ⟨_, rfl, iff_of_false (by simp) fun hnone ↦ ?_⟩
    exact absurd hnone.1 (List.cons_ne_self _ _)
  | true =>
    dsimp only
    split
    · next e m' he =>
      have hjoined := setbacks_joinGroups rfl he
      exact ⟨.error e, rfl, hjoined⟩
    · next m' he =>
      have hjoined := setbacks_joinGroups rfl he
      exact ⟨.ok (), rfl, hjoined⟩

/-- When its exchange is over and the family was looked up, a start succeeds unless the family has
not all of the groups, or the watch or a group was refused. -/
private theorem handReplies_outcome {async : Nat} (ha : m.transport.asyncChannel = some async)
    (next : Except Error Unit → Program σ ν) (gathered : Except Error (List Packet)) :
    let handed := m.handReplies h (.discovery m.transport.config.familyName (.start next)) gathered
    ∃ outcome, handed.control = .run (next outcome) ∧
      (outcome = .ok () ↔ handed.journal.setbacks = m.journal.setbacks ∧ ∃ f,
        gathered.bind (Family.ofReplies m.transport.config.familyName) = .ok f ∧
        ∀ group ∈ m.transport.config.multicastGroups, (f.group? group).isSome = true) := by
  simp only [handReplies]
  split
  · next e he =>
    refine ⟨.error e, rfl, iff_of_false (by simp) fun hread ↦ ?_⟩
    obtain ⟨-, f, hf, -⟩ := hread
    rw [he] at hf
    contradiction
  · next f hf =>
    have hknown (group : String) :
        (∃ id, (m.transport.remember m.transport.config.familyName f).groupId group = .ok id) ↔
          (f.group? group).isSome = true := by
      have hfamily : (m.transport.remember m.transport.config.familyName f).family? = some f :=
        (Table.get?_insert ..).trans (if_pos rfl)
      cases hg : f.group? group <;> simp [Transport.groupId, hfamily, hg]
    obtain ⟨outcome, hcontrol, hok⟩ := finishStart_outcome (h := h)
      (m := m.adjust (·.remember m.transport.config.familyName f)) ha next
    refine ⟨outcome, hcontrol, hok.trans ?_⟩
    simp only [adjust, hknown, hf, Except.ok.injEq, exists_eq_left', handFamily]
    rfl

/-- What has become of a start that was prepared when it returns: its exchange is over, and it has
succeeded exactly if a family with the configured groups was read from the replies and nothing was
refused since then. -/
def FinishesStart (m₀ m : Machine σ ν) (outcome : Except Error Unit) : Prop :=
  ∃ later gathered between, m.journal = later ++
      .exchangeEnded m₀.transport.counter.next gathered :: (between ++ m₀.journal) ∧
    (∀ e ∈ later, e.isWiring = true) ∧
    (outcome = .ok () ↔ (∀ e ∈ later, e.isSetback = false) ∧ ∃ f,
      gathered.bind (Family.ofReplies m₀.transport.config.familyName) = .ok f ∧
      ∀ group ∈ m₀.transport.config.multicastGroups, (f.group? group).isSome = true)

/-- A start finishes with the end of its exchange. -/
private theorem finishesStart_endExchange {m₀ ready : Machine σ ν}
    (hj : m₀.journal <:+ ready.journal) (hconfig : ready.transport.config = m₀.transport.config)
    {async : Nat} (ha : ready.transport.asyncChannel = some async)
    (next : Except Error Unit → Program σ ν)
    (gathered : Except Error (List Packet)) :
    let ended := ready.endExchange h m₀.transport.counter.next
      (.discovery m₀.transport.config.familyName (.start next)) gathered
    ∃ outcome, ended.control = .run (next outcome) ∧ m₀.FinishesStart ended outcome := by
  obtain ⟨between, hbetween⟩ := hj
  simp only [endExchange]
  generalize hlogged : ready.log (.exchangeEnded m₀.transport.counter.next gathered) = logged
  have hjournal : logged.journal =
      .exchangeEnded m₀.transport.counter.next gathered :: (between ++ m₀.journal) := by
    rw [← hlogged, hbetween]
    rfl
  have hasync : logged.transport.asyncChannel = some async := hlogged ▸ ha
  have hsettings : logged.transport.config = m₀.transport.config := hlogged ▸ hconfig
  obtain ⟨outcome, hcontrol, hok⟩ := handReplies_outcome (h := h) hasync next gathered
  obtain ⟨later, hlater, hwiring⟩ := (wires_handReplies h logged
    (.discovery m₀.transport.config.familyName (.start next)) gathered).journal
  rw [hsettings] at hcontrol hok
  refine ⟨outcome, hcontrol, later, gathered, between, hjournal ▸ hlater, hwiring, ?_⟩
  rw [hok, hlater, Journal.setbacks_append_eq_iff]

end Machine

/-- A transport that has its asynchronous channel has one for as long as it is there. -/
private theorem Run.exists_asyncChannel {h : Host σ} {allowed : Machine σ ν → Prop}
    {m m' : Machine σ ν} (hrun : Run h allowed m m') (hs : m.ledger.IsSound) {async : Nat}
    (ha : m.transport.asyncChannel = some async) (halive : m'.transport.isAlive = true) :
    ∃ async, m'.transport.asyncChannel = some async := by
  refine (hrun.preserve (I := fun l : Ledger σ ν ↦ l.isAlive = true →
    ∃ async, l.asyncChannel = some async) hs (fun _ ↦ ⟨async, ha⟩) ?_ ?_).2 halive
  · rintro l kind l' - hm hl
    cases hm with
    | renewAsync descriptor => exact fun _ ↦ ⟨descriptor, rfl⟩
    | takeDown => exact fun h ↦ absurd h Bool.false_ne_true
    | _ => exact hl
  · rintro m p l' - - - hd hl
    cases hd <;> exact hl

namespace Machine

variable {h : Host σ} {config : Config} {port : UInt32} {m₀ m : Machine σ ν}

/-- An attempt to start that returns fails if it was not prepared, and finishes otherwise. -/
theorem Returns.start (hr : Reachable h config port m₀) {next : Except Error Unit → Program σ ν}
    (hc : m₀.control = .run (.start next)) (hh : m₀.transport.isHeld = true)
    (hs : m₀.transport.isStarted = false) (hret : m₀.Returns h m) :
    ∃ outcome, m.control = .run (next outcome) ∧
      (¬ m₀.IsPrepared h → ∃ e, outcome = .error e) ∧
      (m₀.IsPrepared h → m₀.FinishesStart m outcome) := by
  have ha : m₀.asks? = some (m₀.transport.counter.next,
      .discovery m₀.transport.config.familyName (.start next)) := by
    rw [asks?, hc]
    simp [hs]
  obtain ⟨gathered, hreturns⟩ := hret.exists_returnsWith ha hh
  have hprepared := isPrepared_cases (h := h) hc hh hs
  cases hreturns with
  | unsent e ht hgoes hstack hpending =>
    rcases hprepared with ⟨-, hnot⟩ | ⟨hbegun, -, -⟩
    · exact ⟨.error e, hgoes, fun _ ↦ ⟨e, rfl⟩, fun hp ↦ absurd hp hnot⟩
    · exact absurd hstack hbegun
  | checked m ready x stack hsent hrun hcheck hcloses hend =>
    obtain ⟨y, hstack, -⟩ := hsent.stack
    rcases hprepared with ⟨hsame, -⟩ | ⟨-, hp, async, hasync⟩
    · rw [hstack] at hsame
      exact absurd hsame (List.cons_ne_self _ _)
    · -- The exchange keeps the transport, so the asynchronous channel is there at its end.
      have hchecked := hr.step.run hrun
      have halive : m.transport.isAlive = true :=
        hchecked.isSound.isAlive_of_keeps (by simp [ledger, hcheck.stack_eq, Frame.keeps])
      obtain ⟨async, hasync⟩ := hrun.exists_asyncChannel hr.step.isSound hasync halive
      obtain ⟨checked, hchecks, -⟩ := hcloses.attempts
      have hfirst : Run h (fun _ ↦ True) m₀ (m₀.step h) := .step .refl trivial
      have hj : m₀.journal <:+ ready.journal :=
        (hfirst.journal_isSuffix.trans hrun.journal_isSuffix).trans ⟨checked, hchecks.symm⟩
      have hconfig : ready.transport.config = m₀.transport.config :=
        hcloses.keeps.config.trans (hchecked.config_eq.trans hr.config_eq.symm)
      have ha : ready.transport.asyncChannel = some async := by
        rw [hcloses.keeps.transport]
        exact hasync
      obtain ⟨outcome, hcontrol, hfinishes⟩ :=
        finishesStart_endExchange (h := h) hj hconfig ha next gathered
      rw [← hend] at hcontrol hfinishes
      exact ⟨outcome, hcontrol, fun hnot ↦ absurd hp hnot, fun _ ↦ hfinishes⟩

end Machine

end WifiNetlink
