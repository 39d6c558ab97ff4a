import WifiNetlink.Proofs.Boundary

/-!
# Channels, watches and groups

What a journal tells of channels, watches and multicast groups, and what opening, watching and
joining do to them. An attempt to start first gives up the watch of the one before, then replaces
each channel once a new one is open, so nothing is watched whenever a channel is opened or closed.
-/

namespace WifiNetlink

variable {σ ν : Type}

/-! ### Channels, watches and groups in a journal -/

namespace Event

/-- The channel that an event opens. -/
def opened? : Event ν → Option Nat
  | opened descriptor _ => some descriptor
  | _ => none

/-- The channel that an event closes. -/
def closed? : Event ν → Option Nat
  | closed descriptor => some descriptor
  | _ => none

/-- The watched descriptors after an event. -/
def watch (descriptors : List Nat) : Event ν → List Nat
  | watched descriptor true => descriptor :: descriptors
  | unwatched descriptor => descriptors.filter (· != descriptor)
  | _ => descriptors

/-- The groups of a channel after an event. A channel has none when it is opened. -/
def join (descriptor : Nat) (groups : List UInt32) : Event ν → List UInt32
  | opened d _ => if d = descriptor then [] else groups
  | joined d group (.ok ()) => if d = descriptor then groups ++ [group] else groups
  | left d group (.ok ()) => if d = descriptor then groups.filter (· != group) else groups
  | _ => groups

/-- Whether an event neither opens nor closes a channel, nor begins or ends a watch. -/
def isStill : Event ν → Bool
  | opened .. | closed _ | unwatched _ => false
  | watched _ accepted => !accepted
  | _ => true

/-- Whether an event is still, changes no groups, and is no note. -/
def isQuiet : Event ν → Bool
  | opened .. | closed _ | watched .. | unwatched _ | joined .. | left .. | noted _ => false
  | _ => true

theorem isStill_of_isQuiet {e : Event ν} (he : e.isQuiet = true) : e.isStill = true := by
  cases e <;> simp_all [isQuiet, isStill]

theorem isQuiet_of_isTalk {e : Event ν} (he : e.isTalk = true) : e.isQuiet = true := by
  cases e <;> simp_all [isTalk, isQuiet]

end Event

namespace Journal

/-- The channels that were opened, the latest first. -/
def opened (journal : Journal ν) : List Nat := journal.filterMap Event.opened?

/-- The channels that were closed, the latest first. -/
def closed (journal : Journal ν) : List Nat := journal.filterMap Event.closed?

/-- The descriptors that are watched at the end of a journal. -/
def watching (journal : Journal ν) : List Nat :=
  journal.foldr (fun e descriptors ↦ e.watch descriptors) []

/-- The groups that were joined on a channel since it was opened and not left again, in order. -/
def groups (descriptor : Nat) (journal : Journal ν) : List UInt32 :=
  journal.foldr (fun e groups ↦ e.join descriptor groups) []

/-- What is known of the moment of an event: nothing is watched when a channel is opened or closed,
and a watch is that of the channel opened last. -/
def Timely (e : Event ν) (earlier : Journal ν) : Prop :=
  match e with
  | .opened .. | .closed _ => earlier.watching = []
  | .watched descriptor true =>
    earlier.watching = [] ∧ earlier.opened.head? = some descriptor
  | _ => True

/-- Still events change neither channels nor watches. -/
theorem append_of_isStill {new : Journal ν} (journal : Journal ν)
    (hnew : ∀ e ∈ new, e.isStill = true) :
    opened (new ++ journal) = journal.opened ∧ closed (new ++ journal) = journal.closed ∧
      watching (new ++ journal) = journal.watching ∧
      (journal.Each Timely → Journal.Each Timely (new ++ journal)) := by
  induction new with
  | nil => exact ⟨rfl, rfl, rfl, id⟩
  | cons e new ih =>
    obtain ⟨ho, hc, hw, ht⟩ := ih fun e he ↦ hnew e (List.mem_cons_of_mem _ he)
    have he := hnew e List.mem_cons_self
    cases e with
    | opened d size => simp [Event.isStill] at he
    | closed d => simp [Event.isStill] at he
    | unwatched d => simp [Event.isStill] at he
    | watched d accepted =>
      cases accepted with
      | true => simp [Event.isStill] at he
      | false => exact ⟨ho, hc, hw, fun h ↦ ⟨trivial, ht h⟩⟩
    | _ => exact ⟨ho, hc, hw, fun h ↦ ⟨trivial, ht h⟩⟩

/-- Quiet events change no groups and are no notes. -/
theorem append_of_isQuiet {new : Journal ν} (journal : Journal ν)
    (hnew : ∀ e ∈ new, e.isQuiet = true) :
    (∀ descriptor, groups descriptor (new ++ journal) = journal.groups descriptor) ∧
      notes (new ++ journal) = journal.notes := by
  induction new with
  | nil => exact ⟨fun _ ↦ rfl, rfl⟩
  | cons e new ih =>
    obtain ⟨hg, hn⟩ := ih fun e he ↦ hnew e (List.mem_cons_of_mem _ he)
    have he := hnew e List.mem_cons_self
    cases e with
    | opened d size => simp [Event.isQuiet] at he
    | joined d group outcome => simp [Event.isQuiet] at he
    | left d group outcome => simp [Event.isQuiet] at he
    | noted note => simp [Event.isQuiet] at he
    | _ => exact ⟨hg, hn⟩

/-- A channel is closed while nothing is watched. -/
theorem append_closed (old : Option Nat) (journal : Journal ν) :
    opened (old.toList.map .closed ++ journal) = journal.opened ∧
      closed (old.toList.map .closed ++ journal) = old.toList ++ journal.closed ∧
      watching (old.toList.map .closed ++ journal) = journal.watching ∧
      (journal.watching = [] → journal.Each Timely →
        Journal.Each Timely (old.toList.map .closed ++ journal)) := by
  cases old with
  | none => exact ⟨rfl, rfl, rfl, fun _ ht ↦ ht⟩
  | some descriptor => exact ⟨rfl, rfl, rfl, fun hw ht ↦ ⟨hw, ht⟩⟩

/-- Where all events are timely nothing is watched, or the channel opened last. -/
theorem watching_of_timely {journal : Journal ν} (ht : journal.Each Timely) :
    journal.watching = [] ∨
      ∃ descriptor, journal.opened.head? = some descriptor ∧ journal.watching = [descriptor] := by
  induction journal with
  | nil => exact .inl rfl
  | cons e earlier ih =>
    obtain ⟨he, hearlier⟩ := ht
    cases e with
    | opened d size => exact .inl he
    | closed d => exact .inl he
    | watched d accepted =>
      cases accepted with
      -- A watch begins where there is none, so it is the only one.
      | true => exact .inr ⟨d, he.2, congrArg (d :: ·) he.1⟩
      | false => exact ih hearlier
    | unwatched d =>
      have hwatch : watching (.unwatched d :: earlier) = (watching earlier).filter (· != d) := rfl
      rw [hwatch]
      rcases ih hearlier with hnone | ⟨d', ho, hw⟩
      · rw [hnone]
        exact .inl rfl
      · rw [hw]
        by_cases hd : d' = d
        · exact .inl (by simp [hd])
        · exact .inr ⟨d', ho, by simp [hd]⟩
    | _ => exact ih hearlier

end Journal

/-! ### What is held and watched -/

namespace Machine

/-- The channels that a transport holds. -/
def channels (m : Machine σ ν) : List Nat :=
  m.transport.syncChannel.toList ++ m.transport.asyncChannel.toList

/-- What every attempt to start keeps: the event loop watches what the transport asked it to, which
is nothing or the asynchronous channel, opened last; every channel that was opened is held or was
closed; and all this was so at every moment before. -/
structure IsWired (m : Machine σ ν) : Prop where
  watches : m.watches = m.transport.watched.toList
  watching : m.journal.watching = m.watches
  newest : ∀ descriptor, m.transport.watched = some descriptor →
    m.transport.asyncChannel = some descriptor ∧ m.journal.opened.head? = some descriptor
  opened : m.journal.opened.Perm (m.channels ++ m.journal.closed)
  timely : m.journal.Each Journal.Timely

variable (h : Host σ) {m m' : Machine σ ν}

namespace IsWired

/-- Still events leave a machine wired. -/
theorem of_isStill (hm : m.IsWired) (hj : m.Adds (fun e ↦ e.isStill = true) m')
    (hw : m'.watches = m.watches) (hwatched : m'.transport.watched = m.transport.watched)
    (hs : m'.transport.syncChannel = m.transport.syncChannel)
    (ha : m'.transport.asyncChannel = m.transport.asyncChannel) : m'.IsWired := by
  obtain ⟨new, hj, hnew⟩ := hj
  obtain ⟨hopened, hclosed, hwatching, htimely⟩ := Journal.append_of_isStill
    m.journal hnew
  rw [← hj] at hopened hclosed hwatching htimely
  constructor
  · rw [hw, hwatched, hm.watches]
  · rw [hwatching, hw, hm.watching]
  · rw [hwatched, ha, hopened]
    exact hm.newest
  · rw [hopened, hclosed, channels, hs, ha]
    exact hm.opened
  · exact htimely hm.timely

theorem run (hm : m.IsWired) (program : Program σ ν) : (m.run program).IsWired :=
  ⟨hm.watches, hm.watching, hm.newest, hm.opened, hm.timely⟩

/-- The watch is ended if there is one. -/
theorem stopWatching (hm : m.IsWired) : (m.stopWatching h).IsWired := by
  have hwatches := hm.watches
  have hwatching := hm.watching
  unfold Machine.stopWatching
  split
  · exact hm
  · next descriptor hw =>
    rw [hw] at hwatches
    have hnone : m.watches.filter (· != descriptor) = [] := by
      rw [hwatches]
      simp
    refine ⟨hnone, ?_, fun _ hd ↦ absurd hd (Option.some_ne_none _).symm, hm.opened,
      trivial, hm.timely⟩
    exact (congrArg (List.filter (· != descriptor)) hwatching)

/-- A channel that was opened takes the place of another one. -/
private theorem renew (hm : m.IsWired) (hn : m.transport.watched = none) {descriptor size : Nat}
    {old : Option Nat}
    (hj : m'.journal = old.toList.map .closed ++ .opened descriptor size :: m.journal)
    (hw : m'.watches = m.watches) (hwatched : m'.transport.watched = none)
    (hperm : (descriptor :: m.channels).Perm (m'.channels ++ old.toList)) : m'.IsWired := by
  have hnone : m.journal.watching = [] := by
    rw [hm.watching, hm.watches, hn]
    rfl
  obtain ⟨hopened, hclosed, hwatching, htimely⟩ :=
    Journal.append_closed old (.opened descriptor size :: m.journal)
  rw [← hj] at hopened hclosed hwatching htimely
  constructor
  · rw [hw, hwatched, hm.watches, hn]
  · calc m'.journal.watching = m.journal.watching := hwatching
      _ = m'.watches := hm.watching.trans hw.symm
  · rw [hwatched]
    exact fun _ hd ↦ absurd hd (Option.some_ne_none _).symm
  · calc m'.journal.opened = descriptor :: m.journal.opened := hopened
      List.Perm _ (descriptor :: (m.channels ++ m.journal.closed)) := hm.opened.cons descriptor
      List.Perm _ (m'.channels ++ (old.toList ++ m.journal.closed)) := by
        rw [← List.append_assoc]
        exact hperm.append_right m.journal.closed
      _ = m'.channels ++ m'.journal.closed := by rw [hclosed]; rfl
  · exact htimely hnone ⟨hnone, hm.timely⟩

/-- A failure to open a channel changes nothing. -/
private theorem openFailed (hm : m.IsWired) (world : σ) (size : Nat) (fault : SystemFault) :
    (m.after world (.openFailed size fault)).IsWired :=
  hm.of_isStill (Adds.single rfl rfl) rfl rfl rfl rfl

end IsWired

/-- An attempt to open a channel gives a new one or is entered as failed. -/
private theorem openChannel_cases (m : Machine σ ν) :
    (∃ e world fault, m.openChannel h =
      (.error e, m.after world (.openFailed m.transport.config.receiveBufferSize fault))) ∨
    ∃ descriptor world, m.openChannel h =
      (.ok descriptor, m.after world
        (.opened descriptor m.transport.config.receiveBufferSize)) := by
  unfold openChannel
  split
  · exact .inr ⟨_, _, rfl⟩
  · exact .inl ⟨_, _, _, rfl⟩

/-- Closing a channel is entered in the journal. -/
private theorem closeChannel_eq (m : Machine σ ν) (channel : Option Nat) :
    ∃ world, m.closeChannel h channel =
      { m with world, journal := channel.toList.map .closed ++ m.journal } := by
  cases channel with
  | none => exact ⟨m.world, rfl⟩
  | some descriptor => exact ⟨_, rfl⟩

namespace IsWired

/-- The synchronous channel is replaced by a new one, unless none can be opened. -/
theorem renewSync (hm : m.IsWired) (hn : m.transport.watched = none) {outcome : Except Error Unit}
    (he : m.renewSync h = (outcome, m')) :
    m'.IsWired ∧ m'.transport.isStarted = m.transport.isStarted ∧ (outcome = .ok () → ∃ sync,
      m'.transport = { m.transport with syncChannel := some sync } ∧
      m'.journal.opened = sync :: m.journal.opened) := by
  unfold Machine.renewSync at he
  rcases openChannel_cases h m with ⟨e, world, fault, ho⟩ | ⟨sync, world, ho⟩
  · rw [ho] at he
    obtain ⟨rfl, rfl⟩ := Prod.mk.inj he
    exact ⟨hm.openFailed _ _ _, rfl, fun hok ↦ by contradiction⟩
  · rw [ho] at he
    obtain ⟨world', hclosed⟩ := closeChannel_eq h
      (((m.after world (.opened sync m.transport.config.receiveBufferSize)).adjust
        fun t ↦ { t with syncChannel := some sync })) m.transport.syncChannel
    dsimp only [after] at hclosed he
    rw [hclosed] at he
    obtain ⟨-, rfl⟩ := Prod.mk.inj he
    refine ⟨hm.renew hn rfl rfl hn (List.perm_append_comm.cons sync), rfl,
      fun _ ↦ ⟨sync, rfl, ?_⟩⟩
    cases m.transport.syncChannel <;> rfl

/-- The asynchronous channel is replaced by a new one without groups, unless none can be opened. -/
theorem renewAsync (hm : m.IsWired) (hn : m.transport.watched = none) {outcome : Except Error Unit}
    (he : m.renewAsync h = (outcome, m')) :
    m'.IsWired ∧ m'.transport.isStarted = m.transport.isStarted ∧ (outcome = .ok () → ∃ async,
      m'.transport = { m.transport with asyncChannel := some async } ∧
      m'.journal.opened = async :: m.journal.opened ∧ m'.journal.groups async = []) := by
  unfold Machine.renewAsync at he
  rcases openChannel_cases h m with ⟨e, world, fault, ho⟩ | ⟨async, world, ho⟩
  · rw [ho] at he
    obtain ⟨rfl, rfl⟩ := Prod.mk.inj he
    exact ⟨hm.openFailed _ _ _, rfl, fun hok ↦ by contradiction⟩
  · rw [ho] at he
    obtain ⟨world', hclosed⟩ := closeChannel_eq h
      (((m.after world (.opened async m.transport.config.receiveBufferSize)).adjust
        fun t ↦ { t with asyncChannel := some async })) m.transport.asyncChannel
    dsimp only [after] at hclosed he
    rw [hclosed] at he
    obtain ⟨-, rfl⟩ := Prod.mk.inj he
    refine ⟨hm.renew hn rfl rfl hn ?_, rfl, fun _ ↦ ⟨async, rfl, ?_, ?_⟩⟩
    · simpa [channels, adjust] using List.perm_middle.symm
    · cases m.transport.asyncChannel <;> rfl
    · have hnone : (if async = async then [] else m.journal.groups async) = [] := if_pos rfl
      cases m.transport.asyncChannel <;> exact hnone

/-- The event loop is asked to watch a channel that was just opened, and accepts or refuses. -/
theorem startWatching (hm : m.IsWired) (hn : m.transport.watched = none) {async : Nat}
    (ha : m.transport.asyncChannel = some async) (ho : m.journal.opened.head? = some async)
    {outcome : Except Error Unit} (he : m.startWatching h = (outcome, m')) :
    m'.IsWired ∧ m'.transport.isStarted = m.transport.isStarted ∧ (outcome = .ok () →
      m'.transport = { m.transport with watched := some async } ∧
      m'.journal.opened = m.journal.opened ∧
      m'.journal.groups async = m.journal.groups async) := by
  have hnone : m.watches = [] := by
    rw [hm.watches, hn]
    rfl
  unfold Machine.startWatching at he
  split at he
  · next hc => cases ha.symm.trans hc
  · next descriptor hc =>
    obtain rfl := Option.some.inj (hc.symm.trans ha)
    split at he
    · next world hwatch =>
      obtain ⟨-, rfl⟩ := Prod.mk.inj he
      refine ⟨?_, rfl, fun _ ↦ ⟨rfl, rfl, rfl⟩⟩
      constructor
      · exact congrArg (descriptor :: ·) hnone
      · exact congrArg (descriptor :: ·) hm.watching
      · intro other hd
        obtain rfl := Option.some.inj hd
        exact ⟨ha, ho⟩
      · exact hm.opened
      · exact ⟨⟨hm.watching.trans hnone, ho⟩, hm.timely⟩
    · next world hwatch =>
      obtain ⟨rfl, rfl⟩ := Prod.mk.inj he
      exact ⟨hm.of_isStill (Adds.single rfl rfl) rfl rfl rfl rfl, rfl, fun hok ↦ by contradiction⟩

end IsWired

/-- The groups are joined in order, or one of them fails. -/
theorem joinGroups_cases {m m' : Machine σ ν} {groups : List String} {async : Nat}
    (ha : m.transport.asyncChannel = some async) {outcome : Except Error Unit}
    (he : m.joinGroups h groups = (outcome, m')) :
    m'.transport = m.transport ∧ m'.watches = m.watches ∧
    m.Adds (fun e ↦ e.isStill = true) m' ∧ (outcome = .ok () → ∃ ids,
      groups.map m.transport.groupId = ids.map .ok ∧
      m'.journal.groups async = m.journal.groups async ++ ids) := by
  induction groups generalizing m with
  | nil =>
    obtain ⟨-, rfl⟩ := Prod.mk.inj he
    exact ⟨rfl, rfl, Adds.refl rfl, fun _ ↦ ⟨[], rfl, (List.append_nil _).symm⟩⟩
  | cons group groups ih =>
    cases hg : m.transport.groupId group with
    | error e =>
      simp only [joinGroups, joinGroup, hg] at he
      obtain ⟨rfl, rfl⟩ := Prod.mk.inj he
      exact ⟨rfl, rfl, Adds.refl rfl, fun hok ↦ by contradiction⟩
    | ok id =>
      rcases hj : h.joinGroup async id m.world with ⟨joined, world⟩
      have hstill : m.Adds (fun e ↦ e.isStill = true)
        (m.after world (.joined async id joined)) := Adds.single rfl rfl
      simp only [joinGroups, joinGroup, hg, ha, hj] at he
      cases joined with
      | error fault =>
        obtain ⟨rfl, rfl⟩ := Prod.mk.inj he
        exact ⟨rfl, rfl, hstill, fun hok ↦ by contradiction⟩
      | ok joined =>
        dsimp only [Error.mapError_io_ok] at he
        obtain ⟨ht, hw, hrest, hids⟩ := ih (m := m.after world (.joined async id (.ok ()))) ha he
        refine ⟨ht, hw, hstill.trans hrest, fun hok ↦ ?_⟩
        obtain ⟨ids, hmap, hgroups⟩ := hids hok
        have hmore : (m.after world (.joined async id (.ok ()))).journal.groups async =
            m.journal.groups async ++ [id] := if_pos rfl
        refine ⟨id :: ids, ?_, ?_⟩
        · rw [List.map_cons, List.map_cons, hg]
          exact congrArg (.ok id :: ·) hmap
        · rw [hgroups, hmore, List.append_assoc]
          rfl

/-- A transport that is taken down has nothing left. -/
theorem IsWired.tearDown (hm : m.IsWired) : (m.tearDown h).IsWired := by
  have hstopped := hm.stopWatching h
  have hwatches : (m.stopWatching h).watches = [] := by
    rw [hstopped.watches, transport_stopWatching]
    rfl
  have hnone : (m.stopWatching h).journal.watching = [] := hstopped.watching.trans hwatches
  have hperm := hstopped.opened
  rw [channels, transport_stopWatching] at hperm
  obtain ⟨world, hasync⟩ := closeChannel_eq h (m.stopWatching h) m.transport.asyncChannel
  obtain ⟨world', hsync⟩ := closeChannel_eq h
    ((m.stopWatching h).closeChannel h m.transport.asyncChannel) m.transport.syncChannel
  have hjournal : (m.tearDown h).journal = m.transport.syncChannel.toList.map .closed ++
      (m.transport.asyncChannel.toList.map .closed ++ (m.stopWatching h).journal) := by
    unfold Machine.tearDown
    rw [hsync, hasync]
    rfl
  have hsame : (m.tearDown h).watches = (m.stopWatching h).watches := by
    unfold Machine.tearDown
    rw [hsync, hasync]
    rfl
  have hwatched : (m.tearDown h).transport.watched = none := by
    unfold Machine.tearDown
    rw [hsync, hasync]
    exact congrArg Transport.watched (transport_stopWatching h m)
  obtain ⟨ho, hc, hw, ht⟩ := Journal.append_closed m.transport.asyncChannel
    (m.stopWatching h).journal
  obtain ⟨ho', hc', hw', ht'⟩ := Journal.append_closed m.transport.syncChannel
    (m.transport.asyncChannel.toList.map .closed ++ (m.stopWatching h).journal)
  constructor
  · rw [hsame, hwatches, hwatched]
    rfl
  · rw [hjournal, hw', hw, hsame, hstopped.watching]
  · rw [hwatched]
    exact fun _ hd ↦ absurd hd (Option.some_ne_none _).symm
  · have hchannels : (m.tearDown h).channels = [] := rfl
    rw [hjournal, ho', ho, hc', hc, hchannels, List.nil_append, ← List.append_assoc]
    exact hperm
  · rw [hjournal]
    exact ht' (hw.trans hnone) (ht hnone hstopped.timely)

/-! ### What an attempt leads to -/

/-- Whether the channels were just opened for an attempt to start: they are the last two that were
opened, and the asynchronous one is neither watched nor in any group. -/
structure IsReady (m : Machine σ ν) : Prop where
  isStarted : m.transport.isStarted = false
  watched : m.transport.watched = none
  channels : ∃ sync async earlier, m.transport.syncChannel = some sync ∧
    m.transport.asyncChannel = some async ∧ m.journal.opened = async :: sync :: earlier ∧
    m.journal.groups async = []

/-- Whether the transport is up: it holds the last two channels that were opened, all earlier ones
are closed, the asynchronous one is watched, and the groups joined on it are the configured ones. -/
def IsUp (m : Machine σ ν) : Prop :=
  ∃ sync async earlier, m.transport.syncChannel = some sync ∧
    m.transport.asyncChannel = some async ∧ m.journal.opened = async :: sync :: earlier ∧
    earlier.Perm m.journal.closed ∧ m.watches = [async] ∧
    m.transport.config.multicastGroups.map m.transport.groupId =
      (m.journal.groups async).map .ok

/-- Where all channels that were opened are held or closed, those opened before the two that are
held are closed. -/
theorem IsWired.perm_closed (hm : m.IsWired) {sync async : Nat} {earlier : List Nat}
    (hs : m.transport.syncChannel = some sync) (ha : m.transport.asyncChannel = some async)
    (ho : m.journal.opened = async :: sync :: earlier) : earlier.Perm m.journal.closed := by
  have hperm := hm.opened
  rw [ho, channels, hs, ha] at hperm
  exact ((List.Perm.swap sync async earlier).symm.trans hperm).cons_inv.cons_inv

/-- From channels that were just opened and a family that was just looked up, the transport comes up
or the attempt fails. -/
theorem finishStart_cases (m : Machine σ ν) (next : Except Error Unit → Program σ ν)
    (hw : m.IsWired) (hr : m.IsReady) :
    ∃ outcome, (m.finishStart h next).control = .run (next outcome) ∧
      (m.finishStart h next).IsWired ∧
      ((m.finishStart h next).transport.isStarted = true ↔ outcome = .ok ()) ∧
      (outcome = .ok () → (m.finishStart h next).IsUp) := by
  obtain ⟨hstarted, hwatched, sync, async, earlier, hs, ha, ho, hg⟩ := hr
  have hnewest : m.journal.opened.head? = some async := by
    rw [ho]
    rfl
  unfold finishStart
  split
  · next e m' he =>
    obtain ⟨hwired, hsame, -⟩ := hw.startWatching h hwatched ha hnewest he
    refine ⟨.error e, rfl, hwired.run _, ?_, fun hok ↦ by contradiction⟩
    simp [run, hsame, hstarted]
  · next m' he =>
    obtain ⟨hwired, hsame, hok⟩ := hw.startWatching h hwatched ha hnewest he
    obtain ⟨ht, hopened, hgroups⟩ := hok rfl
    have ha' : m'.transport.asyncChannel = some async := by rw [ht, ha]
    split
    · next e m'' he' =>
      obtain ⟨hjoined, hwatches, hstill, -⟩ := joinGroups_cases h ha' he'
      have hwired' := hwired.of_isStill hstill hwatches (by rw [hjoined]) (by rw [hjoined])
        (by rw [hjoined])
      refine ⟨.error e, rfl, hwired'.run _, ?_, fun hok ↦ by contradiction⟩
      simp [run, hjoined, hsame, hstarted]
    · next m'' he' =>
      obtain ⟨hjoined, hwatches, hstill, hids⟩ := joinGroups_cases h ha' he'
      have hwired' := hwired.of_isStill hstill hwatches (by rw [hjoined]) (by rw [hjoined])
        (by rw [hjoined])
      refine ⟨.ok (), rfl, ?_, by simp [run, adjust], fun _ ↦ ?_⟩
      · exact ⟨hwired'.watches, hwired'.watching, hwired'.newest, hwired'.opened, hwired'.timely⟩
      · obtain ⟨new, hj, hnew⟩ := hstill
        have hopened' : m''.journal.opened = async :: sync :: earlier := by
          rw [hj, (Journal.append_of_isStill m'.journal hnew).1, hopened, ho]
        have hs' : m''.transport.syncChannel = some sync := by rw [hjoined, ht, hs]
        have ha'' : m''.transport.asyncChannel = some async := by rw [hjoined, ha']
        refine ⟨sync, async, earlier, hs', ha'', hopened', hwired'.perm_closed hs' ha'' hopened',
          ?_, ?_⟩
        · calc m''.watches = m''.transport.watched.toList := hwired'.watches
            _ = [async] := by rw [hjoined, ht]; rfl
        · obtain ⟨ids, hmap, hjoin⟩ := hids rfl
          have hgroups' : m''.journal.groups async = ids := by
            rw [hjoin, hgroups, hg, List.nil_append]
          calc m''.transport.config.multicastGroups.map m''.transport.groupId
              = m'.transport.config.multicastGroups.map m'.transport.groupId := by rw [hjoined]
            _ = ids.map .ok := hmap
            _ = (m''.journal.groups async).map .ok := by rw [hgroups']

end Machine

end WifiNetlink
