import WifiNetlink.Kernel.Scripted
import WifiNetlink.Proofs.Journal

/-!
# Datagrams in the order of their arrival

What arrives on a channel waits there until it is taken, and is taken in the order of its arrival.
So what is taken after a moment of a run is first what waited at that moment, and then what arrived
later.
-/

namespace WifiNetlink

variable {σ ν : Type}

/-- The datagrams that wait on the channels of a system. Calls only add to them, but receiving takes
the one that arrived first, if it takes any. The event loop tells a channel that it was asked to
wait for, or none if nothing waits on these when it stops to wait. -/
structure Host.Inboxes (h : Host σ) where
  waiting : (channel : Nat) → σ → List Reception
  now : ∀ channel world, waiting channel world <+: waiting channel (h.now world).2
  send : ∀ channel descriptor message world,
    waiting channel world <+: waiting channel (h.send descriptor message world).2
  poll : ∀ channel descriptor timeout world,
    waiting channel world <+: waiting channel (h.poll descriptor timeout world).2
  receive : ∀ channel descriptor capacity world,
    ∃ arrived, waiting channel world ++ arrived =
      (if descriptor = channel then (h.receive descriptor capacity world).1.toOption.toList
        else []) ++ waiting channel (h.receive descriptor capacity world).2
  await : ∀ channel watched timeout world,
    waiting channel world <+: waiting channel (h.await watched timeout world).2
  await_some : ∀ watched timeout world channel,
    (h.await watched timeout world).1 = some channel → channel ∈ watched
  await_none : ∀ watched timeout world, (h.await watched timeout world).1 = none →
    ∀ channel ∈ watched, waiting channel (h.await watched timeout world).2 = []

/-- The datagrams that an event takes from a channel. -/
def Event.taken (channel : Nat) : Event ν → List Reception
  | .received descriptor outcome =>
    if descriptor = channel then outcome.toOption.toList else []
  | _ => []

namespace Journal

/-- The datagrams that were taken from a channel, the earliest first. -/
def taken (channel : Nat) (journal : Journal ν) : List Reception :=
  journal.reverse.flatMap (Event.taken channel)

theorem taken_append (channel : Nat) (later earlier : Journal ν) :
    taken channel (later ++ earlier) = taken channel earlier ++ taken channel later := by
  simp [taken]

/-- The messages that were accepted came in datagrams that were taken. -/
theorem mem_accepted {journal : Journal ν} {p : Packet} (hp : p ∈ journal.accepted) :
    ∃ channel r, r ∈ journal.taken channel ∧ p ∈ Event.messagesIn (.ok r) := by
  obtain ⟨e, he, hp⟩ := List.mem_flatMap.mp hp
  cases e with
  | received channel outcome =>
    cases outcome with
    | error fault => cases hp
    | ok r =>
      refine ⟨channel, r, List.mem_flatMap.mpr ⟨_, he, ?_⟩, hp⟩
      simp [Event.taken, Except.toOption]
  | _ => cases hp

/-- A datagram that was taken had its messages accepted. -/
theorem mem_accepted_of_taken {journal : Journal ν} {channel : Nat} {r : Reception} {p : Packet}
    (hr : r ∈ journal.taken channel) (hp : p ∈ Event.messagesIn (.ok r)) :
    p ∈ journal.accepted := by
  obtain ⟨e, he, hr⟩ := List.mem_flatMap.mp hr
  refine List.mem_flatMap.mpr ⟨e, he, ?_⟩
  cases e with
  | received descriptor outcome =>
    cases outcome with
    | error fault => simp [Event.taken, Except.toOption] at hr
    | ok r' =>
      simp only [Event.taken, Except.toOption, Option.toList_some] at hr
      split at hr
      · rw [List.mem_singleton.mp hr] at hp
        exact hp
      · cases hr
  | _ => cases hr

end Journal

namespace Host.Inboxes

variable {h : Host σ} (I : h.Inboxes)

/-- Whether between two states of the system these datagrams were taken from the channels, in the
order of their arrival. -/
def Passes (taken : Nat → List Reception) (world world' : σ) : Prop :=
  ∀ channel, ∃ arrived,
    I.waiting channel world ++ arrived = taken channel ++ I.waiting channel world'

variable {I} {taken taken' : Nat → List Reception} {world world' world'' : σ}

theorem Passes.refl (world : σ) : I.Passes (fun _ ↦ []) world world :=
  fun _ ↦ ⟨[], List.append_nil _⟩

theorem Passes.of_isPrefix
    (hp : ∀ channel, I.waiting channel world <+: I.waiting channel world') :
    I.Passes (fun _ ↦ []) world world' := by
  intro channel
  obtain ⟨arrived, ha⟩ := hp channel
  exact ⟨arrived, ha⟩

theorem Passes.trans (hw : I.Passes taken world world') (hw' : I.Passes taken' world' world'') :
    I.Passes (fun channel ↦ taken channel ++ taken' channel) world world'' := by
  intro channel
  obtain ⟨arrived, ha⟩ := hw channel
  obtain ⟨arrived', ha'⟩ := hw' channel
  refine ⟨arrived ++ arrived', ?_⟩
  rw [← List.append_assoc, ha, List.append_assoc, ha', List.append_assoc]

/-- What was taken waited before, or arrived later and was taken after all that waited. -/
theorem Passes.mem_or (hw : I.Passes taken world world') {channel : Nat} {r : Reception}
    (hr : r ∈ taken channel) : r ∈ I.waiting channel world ∨
      r ∈ (taken channel).drop (I.waiting channel world).length := by
  obtain ⟨arrived, ha⟩ := hw channel
  generalize I.waiting channel world = waited at ha ⊢
  rw [← List.take_append_drop waited.length (taken channel)] at hr
  rcases List.mem_append.mp hr with hr | hr
  · left
    have hprefix : (taken channel).take waited.length <+: waited ++ arrived := by
      rw [ha]
      exact (List.take_prefix _ _).trans (List.prefix_append _ _)
    have hwaited : (taken channel).take waited.length <+: waited :=
      List.prefix_of_prefix_length_le hprefix (List.prefix_append _ _)
        (List.length_take_le _ _)
    exact hwaited.subset hr
  · exact .inr hr

end Host.Inboxes

/-! ### The scripted kernel -/

namespace ScriptedKernel

/-- The datagrams among the arrivals on a channel. -/
def waiting (channel : Nat) (k : ScriptedKernel) : List Reception :=
  (k.inbox channel).filterMap fun arrival ↦ arrival.outcome.toOption

theorem inbox_deliver (k : ScriptedKernel) (channel descriptor : Nat) (arrivals : List Arrival) :
    (k.deliver descriptor arrivals).inbox channel =
      if channel = descriptor then k.inbox channel ++ arrivals else k.inbox channel := by
  unfold deliver inbox
  dsimp only
  rw [Table.get?_insert]
  split
  · next hc =>
    rw [hc]
    rfl
  · rfl

theorem waiting_deliver (k : ScriptedKernel) (channel descriptor : Nat)
    (arrivals : List Arrival) :
    waiting channel k <+: waiting channel (k.deliver descriptor arrivals) := by
  unfold waiting
  rw [inbox_deliver]
  split
  · rw [List.filterMap_append]
    exact List.prefix_append _ _
  · exact List.prefix_rfl

/-- A message brings what its reaction says. -/
theorem waiting_send (k : ScriptedKernel) (channel descriptor : Nat) (message : Bytes) :
    waiting channel k <+: waiting channel (send descriptor message k).2 := by
  have hdelivered (others : List (Nat × List Arrival)) (k : ScriptedKernel) :
      waiting channel k <+: waiting channel
        (others.foldl (fun k other ↦ k.deliver other.1 other.2) k) := by
    induction others generalizing k with
    | nil => exact List.prefix_rfl
    | cons other others ih => exact (waiting_deliver k channel _ _).trans (ih _)
  unfold send
  split
  · exact List.prefix_rfl
  · next r reactions _ =>
    exact (waiting_deliver { k with reactions } channel descriptor r.arrivals).trans
      (hdelivered r.others _)

/-- Waiting takes time only. -/
theorem inbox_poll (k : ScriptedKernel) (channel descriptor timeout : Nat) :
    (poll descriptor timeout k).2.inbox channel = k.inbox channel := by
  unfold poll
  dsimp only
  split
  · split <;> rfl
  · split
    · rfl
    · split <;> rfl

/-- The first arrival of a channel is taken. -/
theorem waiting_receive (k : ScriptedKernel) (channel descriptor : Nat) :
    waiting channel k =
      (if descriptor = channel then (k.receive descriptor).1.toOption.toList else []) ++
        waiting channel (k.receive descriptor).2 := by
  unfold receive
  cases hi : k.inbox descriptor with
  | nil => simp [Except.toOption]
  | cons arrival rest =>
    dsimp only
    by_cases hc : descriptor = channel
    · subst hc
      have hrest : ({ k with inboxes := k.inboxes.insert descriptor rest } :
          ScriptedKernel).inbox descriptor = rest := by
        simp [inbox, Table.get?_insert]
      rw [if_pos rfl, waiting, waiting, hi, hrest, List.filterMap_cons]
      cases arrival.outcome <;> rfl
    · have hsame : ({ k with inboxes := k.inboxes.insert descriptor rest } :
          ScriptedKernel).inbox channel = k.inbox channel := by
        simp [inbox, Table.get?_insert, Ne.symm hc]
      rw [if_neg hc, waiting, waiting, hsame, List.nil_append]

theorem inbox_await (k : ScriptedKernel) (channel : Nat) (watched : List Nat)
    (timeout : Option Nat) : (await watched timeout k).2.inbox channel = k.inbox channel := by
  unfold await
  split <;> rfl

/-- A scripted kernel keeps what arrives until it is taken. -/
def inboxesOf : host.Inboxes where
  waiting := waiting
  now _ _ := List.prefix_rfl
  send channel descriptor message k := waiting_send k channel descriptor message
  poll channel descriptor timeout k := by
    have hi := inbox_poll k channel descriptor timeout
    unfold waiting
    exact hi ▸ List.prefix_rfl
  receive channel descriptor _ k :=
    ⟨[], (List.append_nil _).trans (waiting_receive k channel descriptor)⟩
  await channel watched timeout k := by
    have hi := inbox_await k channel watched timeout
    unfold waiting
    exact hi ▸ List.prefix_rfl
  await_some watched timeout k channel hc := by
    change (await watched timeout k).1 = some channel at hc
    unfold await at hc
    split at hc
    · next descriptor hf => exact Option.some.inj hc ▸ List.mem_of_find?_eq_some hf
    · contradiction
  await_none watched timeout k hn channel hc := by
    have hi := inbox_await k channel watched timeout
    change (await watched timeout k).1 = none at hn
    unfold await at hn
    split at hn
    · contradiction
    · next hf =>
      have hempty := List.find?_eq_none.mp hf channel hc
      have hnil : k.inbox channel = [] := by simpa using hempty
      change waiting channel (await watched timeout k).2 = []
      rw [waiting, hi, hnil]
      rfl

/-- The system of a scripted kernel where something arrives on a channel whenever the event loop has
time to wait for it. -/
def hostBringing (channel : Nat) (arrivals : List Arrival) : Host ScriptedKernel :=
  { host with
    await := fun watched timeout k ↦
      await watched timeout (if timeout = some 0 then k else k.deliver channel arrivals) }

/-- What arrives while the event loop waits is kept like all the rest. -/
def inboxesBringing (channel : Nat) (arrivals : List Arrival) :
    (hostBringing channel arrivals).Inboxes where
  waiting := waiting
  now := inboxesOf.now
  send := inboxesOf.send
  poll := inboxesOf.poll
  receive := inboxesOf.receive
  await descriptor watched timeout k := by
    refine List.IsPrefix.trans ?_ (inboxesOf.await descriptor watched timeout _)
    split
    · exact List.prefix_rfl
    · exact waiting_deliver k descriptor channel arrivals
  await_some watched timeout _ := inboxesOf.await_some watched timeout _
  await_none watched timeout _ := inboxesOf.await_none watched timeout _

end ScriptedKernel

end WifiNetlink
