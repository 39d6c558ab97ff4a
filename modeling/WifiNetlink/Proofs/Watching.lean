import WifiNetlink.Proofs.Interleaving

/-!
# Watches and their callbacks

The task of a watch, the entry of the table and the registration go at different times, and a task
may end its own watch, so a task can outlive its watch. It does not outlive the registration, whose
number no other one gets: a task whose registration is there is the one that the table names for the
descriptor. Main statement: in every interleaving a descriptor has at most one such task, and what
is called back for a descriptor is what was last watched and not ended since.
-/

namespace WifiNetlink

variable {α ν : Type}

namespace EventLoop

/-- Whether a task waits for input, or goes on to wait after what runs. -/
def Waits (l : EventLoop α ν) (task : WatchTask α ν) : Prop :=
  (∃ number, l.tasks.get? number = some (.watching task)) ∨
    ∃ job, l.running = some (job, some task)

/-- Whether a task may still call back: it waits, and its registration is there. -/
def Attends (l : EventLoop α ν) (task : WatchTask α ν) : Prop :=
  l.Waits task ∧ (l.reactor.registrations.get? task.registration).isSome = true

/-- Whether the tables of a loop fit the calls that were made on it. -/
structure IsSound (past : List (WatchCall α ν)) (l : EventLoop α ν) : Prop where
  /-- Numbers of registrations are given out upwards. -/
  numbered {number : Nat} {registration : Registration} :
    l.reactor.registrations.get? number = some registration → number < l.reactor.nextNumber
  /-- A registration is kept by the watch of its descriptor only. -/
  kept {number : Nat} {registration : Registration} :
    l.reactor.registrations.get? number = some registration →
      ∃ w, l.watches.get? registration.descriptor = some w ∧ w.registration = number
  /-- No later registration gets the number that a task waits for. -/
  bounded {task : WatchTask α ν} : l.Waits task → task.registration < l.reactor.nextNumber
  /-- A task that may still call back belongs to the watch of its descriptor, and to the last call
  that watched it. -/
  current {task : WatchTask α ν} : l.Attends task →
    l.watches.get? task.descriptor = some ⟨task.registration, task.number⟩ ∧
      WatchCall.current? task.descriptor past = some task.callback
  /-- A loop that was dropped watches nothing. -/
  released : l.isHeld = false → ∀ descriptor, l.watches.get? descriptor = none

variable {past made : List (WatchCall α ν)} {l l' : EventLoop α ν}

/-! ### Steps that change no watch -/

theorem Attends.of_resembles {task : WatchTask α ν} (ha : l'.Attends task)
    (hr : l.reactor.Resembles l'.reactor) (ht : l'.Waits task → l.Waits task) :
    l.Attends task := by
  obtain ⟨registration, hregistration⟩ := Option.isSome_iff_exists.mp ha.2
  obtain ⟨earlier, he, -⟩ := hr.exists_registration hregistration
  exact ⟨ht ha.1, Option.isSome_iff_exists.mpr ⟨earlier, he⟩⟩

/-- What changes no watch, leaves the reactor alike and makes no task wait leaves a loop sound. -/
theorem IsSound.frame (hs : l.IsSound past) (hw : l'.watches = l.watches)
    (hh : l'.isHeld = l.isHeld) (hr : l.reactor.Resembles l'.reactor)
    (ht : ∀ task, l'.Waits task → l.Waits task) : l'.IsSound past where
  numbered hregistration := by
    obtain ⟨earlier, he, -⟩ := hr.exists_registration hregistration
    exact Nat.lt_of_lt_of_le (hs.numbered he) hr.nextNumber
  kept hregistration := by
    obtain ⟨earlier, he, hdescriptor⟩ := hr.exists_registration hregistration
    rw [hw, ← hdescriptor]
    exact hs.kept he
  bounded hwaits := Nat.lt_of_lt_of_le (hs.bounded (ht _ hwaits)) hr.nextNumber
  current hattends := by
    rw [hw]
    exact hs.current (hattends.of_resembles hr (ht _))
  released hheld := by
    rw [hw]
    exact hs.released (hh ▸ hheld)

theorem IsSound.log (hs : l.IsSound past) (e : LoopEvent ν) : (l.log e).IsSound past :=
  hs.frame rfl rfl (.refl _) fun _ h ↦ h

/-- What runs next for a task that waits, or for none. -/
theorem IsSound.run (hs : l.IsSound past) (job : Job α ν) {owner : Option (WatchTask α ν)}
    (ho : ∀ task, owner = some task → l.Waits task) : (l.run job owner).IsSound past := by
  refine hs.frame rfl rfl (.refl _) fun task hwaits ↦ ?_
  rcases hwaits with htable | ⟨job', hrunning⟩
  · exact .inl htable
  · exact ho task (Prod.mk.inj (Option.some.inj hrunning)).2

theorem IsSound.wake (hs : l.IsSound past) (tasks : List Nat) : (l.wake tasks).IsSound past :=
  hs.frame rfl rfl (.refl _) fun _ h ↦ h

theorem IsSound.react (hs : l.IsSound past) {reactor : Reactor α}
    (hr : l.reactor.Resembles reactor) : { l with reactor }.IsSound past :=
  hs.frame rfl rfl hr fun _ h ↦ h

/-- A task of another kind is put into the table, or one is taken out. -/
theorem waits_of_tasks {task : WatchTask α ν} {tasks : Table Nat (LoopTask α ν)}
    (ht : ∀ number, tasks.get? number = some (.watching task) →
      l.tasks.get? number = some (.watching task))
    (hwaits : { l with tasks }.Waits task) : l.Waits task := by
  rcases hwaits with ⟨number, hnumber⟩ | hrunning
  · exact .inl ⟨number, ht number hnumber⟩
  · exact .inr hrunning

theorem get?_of_get?_erase {κ β : Type} [DecidableEq κ] {t : Table κ β} {number other : κ}
    {value : β}
    (h : (t.erase other).get? number = some value) : t.get? number = some value := by
  rw [Table.get?_erase] at h
  split at h
  · contradiction
  · exact h

theorem get?_of_get?_insert {t : Table Nat (LoopTask α ν)} {number other : Nat}
    {entry : LoopTask α ν} {task : WatchTask α ν} (he : ∀ task, entry ≠ .watching task)
    (h : (t.insert other entry).get? number = some (.watching task)) :
    t.get? number = some (.watching task) := by
  rw [Table.get?_insert] at h
  split at h
  · exact absurd (Option.some.inj h) (he task)
  · exact h

/-- A task is taken out of the table. -/
theorem IsSound.drop (hs : l.IsSound past) (number : Nat) :
    { l with tasks := l.tasks.erase number }.IsSound past :=
  hs.frame rfl rfl (.refl _) fun _ ↦ waits_of_tasks fun _ ↦ get?_of_get?_erase

theorem IsSound.spawn (hs : l.IsSound past) {entry : Nat → LoopTask α ν}
    (he : ∀ task, entry l.nextTask ≠ .watching task) : (l.spawn entry).IsSound past :=
  hs.frame rfl rfl (.refl _) fun _ ↦ waits_of_tasks fun _ ↦ get?_of_get?_insert he

/-- The task of a watch is looked at. -/
theorem IsSound.pollWatch (hs : l.IsSound past) {task : WatchTask α ν} (hwaits : l.Waits task) :
    (l.pollWatch task).IsSound past := by
  have hr := l.reactor.resembles_pollReadable task.registration
  unfold EventLoop.pollWatch
  split <;> rename_i reactor hpoll <;> rw [hpoll] at hr
  · refine hs.frame rfl rfl hr fun other hother ↦ ?_
    rcases hother with ⟨number, hnumber⟩ | ⟨job, hrunning⟩
    · exact .inl ⟨number, get?_of_get?_erase hnumber⟩
    · contradiction
  · refine hs.frame rfl rfl hr fun other hother ↦ ?_
    rcases hother with htable | ⟨job, hrunning⟩
    · exact .inl htable
    · contradiction
  · refine ((hs.react hr).log _).run _ fun other hother ↦ ?_
    obtain rfl := Option.some.inj hother
    exact hwaits

theorem IsSound.poll (hs : l.IsSound past) (number : Nat) : (l.poll number).IsSound past := by
  unfold EventLoop.poll
  split
  · exact hs
  · exact (hs.drop number).run _ nofun
  · exact (hs.drop number).run _ nofun
  · split
    · exact (hs.drop number).run _ nofun
    · exact hs.frame rfl rfl (.refl _) fun _ ↦ waits_of_tasks fun _ ↦ get?_of_get?_insert nofun
  · next task htask => exact hs.pollWatch (.inl ⟨number, htask⟩)

theorem IsSound.turn (hs : l.IsSound past) : l.turn.IsSound past :=
  hs.frame rfl rfl l.reactor.resembles_harvest fun _ h ↦ h

/-! ### Watches end -/

theorem watches_cancel (l : EventLoop α ν) (descriptor other : Int) :
    (l.cancel descriptor).watches.get? other =
      if other = descriptor then none else l.watches.get? other := by
  unfold cancel
  split
  · next hnone =>
    split
    · next ho => rw [ho, hnone]
    · rfl
  · exact Table.get?_erase _ _ _

/-- The watch of a descriptor ends, and the calls made so far agree on the others. -/
theorem IsSound.cancel {past' : List (WatchCall α ν)} (hs : l.IsSound past) (descriptor : Int)
    (hpast : ∀ other, other ≠ descriptor →
      WatchCall.current? other past' = WatchCall.current? other past) :
    (l.cancel descriptor).IsSound past' := by
  unfold EventLoop.cancel
  split
  · next hnone =>
    refine { hs with current := fun {task} hattends ↦ ?_ }
    obtain ⟨hw, hc⟩ := hs.current hattends
    have hne : task.descriptor ≠ descriptor := fun he ↦ by rw [he, hnone] at hw; contradiction
    exact ⟨hw, (hpast _ hne).trans hc⟩
  · next w hw =>
    refine ⟨fun hregistration ↦ hs.numbered (get?_of_get?_erase hregistration),
      fun {number registration} hregistration ↦ ?_, fun {task} hwaits ↦ ?_,
      fun {task} hattends ↦ ?_, fun hheld ↦ ?_⟩
    · have hne : number ≠ w.registration := by
        rintro rfl
        simp [Reactor.deregister, Table.get?_erase] at hregistration
      obtain ⟨w', hw', hnumber⟩ := hs.kept (get?_of_get?_erase hregistration)
      refine ⟨w', ?_, hnumber⟩
      rw [Table.get?_erase, if_neg, hw']
      rintro he
      rw [he, hw] at hw'
      exact hne (hnumber.symm.trans (congrArg _ (Option.some.inj hw').symm))
    · exact hs.bounded (waits_of_tasks (fun _ ↦ get?_of_get?_erase) hwaits)
    · have hne : task.registration ≠ w.registration := fun he ↦ by
        have hsome := hattends.2
        simp [Reactor.deregister, Table.get?_erase, he] at hsome
      have hearlier : l.Attends task := by
        obtain ⟨registration, hregistration⟩ := Option.isSome_iff_exists.mp hattends.2
        exact ⟨waits_of_tasks (fun _ ↦ get?_of_get?_erase) hattends.1,
          Option.isSome_iff_exists.mpr ⟨registration, get?_of_get?_erase hregistration⟩⟩
      obtain ⟨hw', hc⟩ := hs.current hearlier
      have hd : task.descriptor ≠ descriptor := by
        intro he
        rw [he, hw] at hw'
        exact hne (congrArg Watch.registration (Option.some.inj hw')).symm
      exact ⟨by rw [Table.get?_erase, if_neg hd, hw'], (hpast _ hd).trans hc⟩
    · rw [hs.released hheld] at hw
      contradiction

theorem isHeld_cancel (l : EventLoop α ν) (descriptor : Int) :
    (l.cancel descriptor).isHeld = l.isHeld := by
  unfold cancel
  split <;> rfl

theorem running_cancel (l : EventLoop α ν) (descriptor : Int) :
    (l.cancel descriptor).running = l.running := by
  unfold cancel
  split <;> rfl

theorem IsSound.unwatch (hs : l.IsSound past) (descriptor : Int) :
    (l.unwatch descriptor).IsSound (.unwatched descriptor :: past) :=
  (hs.cancel descriptor fun _ ho ↦ by rw [WatchCall.current?, if_neg ho.symm]).log _

/-- What ending watches one after the other leaves. -/
theorem IsSound.foldl_cancel (hs : l.IsSound past) (descriptors : List Int) :
    ((descriptors.foldl EventLoop.cancel l).IsSound
        ((descriptors.map WatchCall.unwatched).reverse ++ past) ∧
      ∀ other, (descriptors.foldl EventLoop.cancel l).watches.get? other =
        if other ∈ descriptors then none else l.watches.get? other) := by
  induction descriptors generalizing l past with
  | nil => exact ⟨hs, fun _ ↦ rfl⟩
  | cons descriptor descriptors ih =>
    have hcancel : (l.cancel descriptor).IsSound (.unwatched descriptor :: past) :=
      hs.cancel descriptor fun _ ho ↦ by rw [WatchCall.current?, if_neg ho.symm]
    obtain ⟨hsound, hwatches⟩ := ih hcancel
    refine ⟨by simpa using hsound, fun other ↦ ?_⟩
    rw [List.foldl_cons, hwatches, watches_cancel]
    by_cases ho : other = descriptor
    · simp [ho]
    · simp [ho]

/-- Ending watches does not depend on whether the loop is held. -/
theorem foldl_cancel_drop (descriptors : List Int) (l : EventLoop α ν) :
    descriptors.foldl cancel { l with isHeld := false } =
      { descriptors.foldl cancel l with isHeld := false } := by
  induction descriptors generalizing l with
  | nil => rfl
  | cons descriptor descriptors ih =>
    have hcancel : ({ l with isHeld := false } : EventLoop α ν).cancel descriptor =
        { l.cancel descriptor with isHeld := false } := by
      simp only [cancel]
      cases l.watches.get? descriptor <;> rfl
    rw [List.foldl_cons, List.foldl_cons, hcancel, ih]

theorem running_foldl_cancel (descriptors : List Int) (l : EventLoop α ν) :
    (descriptors.foldl cancel l).running = l.running := by
  induction descriptors generalizing l with
  | nil => rfl
  | cons descriptor descriptors ih => rw [List.foldl_cons, ih, running_cancel]

/-- The loop is dropped, and no watch is left. -/
theorem IsSound.release (hs : l.IsSound past) : l.release.IsSound (.released :: past) := by
  obtain ⟨hsound, hwatches⟩ := hs.foldl_cancel l.watches.keys
  have hnone (other : Int) :
      (l.watches.keys.foldl EventLoop.cancel l).watches.get? other = none := by
    rw [hwatches]
    split
    · rfl
    · next ho =>
      rw [Table.mem_keys_iff] at ho
      exact Option.not_isSome_iff_eq_none.mp ho
  unfold EventLoop.release
  rw [foldl_cancel_drop]
  have hnobody (task : WatchTask α ν) :
      ¬ (l.watches.keys.foldl EventLoop.cancel l).Attends task := by
    intro hattends
    have hw := (hsound.current hattends).1
    rw [hnone] at hw
    contradiction
  refine IsSound.log ?_ _
  exact ⟨hsound.numbered, hsound.kept, hsound.bounded, fun hattends ↦ absurd hattends (hnobody _),
    fun _ ↦ hnone⟩

theorem running_release (l : EventLoop α ν) : l.release.running = l.running :=
  running_foldl_cancel _ _

theorem isHeld_release (l : EventLoop α ν) : l.release.isHeld = false := by
  unfold release
  rw [foldl_cancel_drop]
  rfl

/-! ### Watches begin -/

/-- A new task waits, or one that waited before. -/
theorem waits_of_spawn {reactor : Reactor α} {watches : Table Int Watch}
    {entry : Nat → WatchTask α ν} {task : WatchTask α ν}
    (hwaits :
      ({ l with reactor, watches }.spawn fun number ↦ .watching (entry number)).Waits task) :
    task = entry l.nextTask ∨ l.Waits task := by
  rcases hwaits with ⟨number, hnumber⟩ | hrunning
  · simp only [spawn, Table.get?_insert] at hnumber
    split at hnumber
    · exact .inl (LoopTask.watching.inj (Option.some.inj hnumber)).symm
    · exact .inr (.inl ⟨number, hnumber⟩)
  · exact .inr (.inr hrunning)

/-- A watch begins in place of the one that the descriptor had, or is refused. -/
theorem IsSound.watch (hs : l.IsSound past) (hheld : l.isHeld = true) (descriptor : Int)
    (callback : List ν → Int → Job α ν) :
    (l.watch descriptor callback).2.IsSound
      ((if (l.watch descriptor callback).1 then WatchCall.watched descriptor callback
        else .unwatched descriptor) :: past) := by
  have hs' := hs.unwatch descriptor
  have hnone : (l.unwatch descriptor).watches.get? descriptor = none :=
    (watches_cancel l descriptor descriptor).trans (if_pos rfl)
  have hheld' : (l.unwatch descriptor).isHeld = true := (isHeld_cancel l descriptor).trans hheld
  unfold EventLoop.watch
  generalize l.unwatch descriptor = l' at hs' hnone hheld'
  rcases hregister : l'.reactor.register descriptor with ⟨_ | number, reactor⟩
  · simp only [hregister]
    exact hs'
  · simp only [hregister, if_true]
    obtain ⟨file, f, -, rfl, rfl⟩ := Reactor.register_eq_some hregister
    refine IsSound.log ⟨fun {number registration} hr ↦ ?_, fun {number registration} hr ↦ ?_,
      fun {task} hwaits ↦ ?_, fun {task} hattends ↦ ?_, fun h ↦ ?_⟩ _
    · change number < l'.reactor.nextNumber + 1
      change (l'.reactor.registrations.insert _ _).get? number = _ at hr
      rw [Table.get?_insert] at hr
      split at hr
      · omega
      · exact Nat.lt_succ_of_lt (hs'.numbered hr)
    · change ∃ w, (l'.watches.insert descriptor _).get? registration.descriptor = some w ∧ _
      change (l'.reactor.registrations.insert _ _).get? number = _ at hr
      rw [Table.get?_insert] at hr ⊢
      split at hr
      · next hn =>
        obtain rfl := Option.some.inj hr
        exact ⟨_, if_pos rfl, hn.symm⟩
      · obtain ⟨w, hw, hn⟩ := hs'.kept hr
        have hd : registration.descriptor ≠ descriptor := by
          intro he
          rw [he, hnone] at hw
          contradiction
        exact ⟨w, by rw [if_neg hd, hw], hn⟩
    · change task.registration < l'.reactor.nextNumber + 1
      rcases waits_of_spawn hwaits with rfl | hearlier
      · exact Nat.lt_succ_self _
      · exact Nat.lt_succ_of_lt (hs'.bounded hearlier)
    · obtain ⟨hwaits, hsome⟩ := hattends
      change (l'.watches.insert descriptor _).get? task.descriptor = some _ ∧ _
      change ((l'.reactor.registrations.insert _ _).get? task.registration).isSome = true at hsome
      rw [Table.get?_insert] at hsome ⊢
      rcases waits_of_spawn hwaits with rfl | hearlier
      · exact ⟨if_pos rfl, by rw [WatchCall.current?, if_pos rfl]⟩
      · rw [if_neg (Nat.ne_of_lt (hs'.bounded hearlier))] at hsome
        obtain ⟨hw, hc⟩ := hs'.current ⟨hearlier, hsome⟩
        have hd : task.descriptor ≠ descriptor := by
          intro he
          rw [he, hnone] at hw
          contradiction
        simp only [WatchCall.current?, if_neg hd.symm] at hc ⊢
        exact ⟨by rw [if_neg hd, hw], hc⟩
    · exact absurd (hheld'.symm.trans h) (by decide)

theorem running_watch (l : EventLoop α ν) (descriptor : Int)
    (callback : List ν → Int → Job α ν) :
    (l.watch descriptor callback).2.running = l.running := by
  have hunwatch : (l.unwatch descriptor).running = l.running := running_cancel l descriptor
  unfold watch
  dsimp only
  split <;> exact hunwatch

/-! ### Whatever happens -/

/-- The job that runs for a watch goes on with a later one. -/
private theorem IsSound.goOn (hs : l'.IsSound past) {job : Job α ν}
    {owner : Option (WatchTask α ν)} (hrunning : l'.running = some (job, owner))
    (next : Job α ν) : (l'.run next owner).IsSound past :=
  hs.run next fun _ ho ↦ .inr ⟨job, ho ▸ hrunning⟩

theorem IsSound.call (hs : l.IsSound past) {job : Job α ν} {owner : Option (WatchTask α ν)}
    (hrunning : l.running = some (job, owner))
    (hheld : job.needsLoop = true → l.isHeld = true) :
    (l.call owner job).IsSound ((l.watchCall? job).toList ++ past) := by
  cases job with
  | done =>
    cases owner with
    | none =>
      refine hs.frame rfl rfl (.refl _) fun task hwaits ↦ ?_
      rcases hwaits with htable | ⟨job, hnone⟩
      · exact .inl htable
      · contradiction
    | some task => exact hs.pollWatch (.inr ⟨_, hrunning⟩)
  | note note next => exact (hs.log _).goOn hrunning next
  | isHeld next => exact hs.goOn hrunning _
  | release next => exact hs.release.goOn ((running_release l).trans hrunning) next
  | post task next =>
    have hspawn : (l.spawn fun _ ↦ .once task).IsSound past := hs.spawn nofun
    exact hspawn.goOn hrunning next
  | postDelayed millis task next =>
    have hspawn : (l.spawn fun _ ↦ .delayed millis task).IsSound past := hs.spawn nofun
    exact hspawn.goOn hrunning next
  | watch descriptor isInside callback next =>
    cases isInside with
    | false => exact hs.goOn hrunning _
    | true =>
      have hrun := (running_watch l descriptor callback).trans hrunning
      exact (hs.watch (hheld rfl) descriptor callback).goOn hrun _
  | unwatch descriptor next =>
    exact (hs.unwatch descriptor).goOn ((running_cancel l descriptor).trans hrunning) next
  | read descriptor limit next =>
    obtain ⟨hregistrations, hnext⟩ := l.reactor.registrations_take descriptor limit
    exact (hs.react (.of_eq (Nat.le_of_eq hnext.symm) hregistrations)).goOn hrunning _
  | write descriptor units next =>
    obtain ⟨hregistrations, hnext⟩ := l.reactor.registrations_arrive descriptor units
    exact (hs.react (.of_eq (Nat.le_of_eq hnext.symm) hregistrations)).goOn hrunning _
  | hangUp descriptor next =>
    obtain ⟨hregistrations, hnext⟩ := l.reactor.registrations_excite descriptor _
    exact (hs.react (.of_eq (Nat.le_of_eq hnext.symm) hregistrations)).goOn hrunning _
  | replaceReactor next =>
    let sleeping := l.timers.map Prod.snd
    have hreplace : ({ l with
        reactor := l.reactor.replace
        tasks := l.tasks.filter fun entry ↦ !sleeping.contains entry.1
        timers := [] }).IsSound past := by
      refine hs.frame rfl rfl l.reactor.resembles_replace fun _ ↦ waits_of_tasks fun number h ↦ ?_
      rw [Table.get?_filter l.tasks fun number ↦ !sleeping.contains number] at h
      split at h
      · exact h
      · contradiction
    exact (hreplace.wake _).goOn hrunning next

theorem IsSound.happens (hs : l.IsSound past) (h : Happens Reactor.Resembles l made l') :
    l'.IsSound (made ++ past) := by
  cases h with
  | call hrunning hheld => exact hs.call hrunning hheld
  | poll number _ =>
    have hqueue : { l with queue := l.queue.erase number }.IsSound past :=
      hs.frame rfl rfl (.refl _) fun _ h ↦ h
    exact hqueue.poll number
  | turn _ => exact hs.turn
  | enter job _ => exact hs.run job nofun
  | disturb reactor hr => exact hs.react hr
  | tick clock => exact hs.frame rfl rfl (.refl _) fun _ h ↦ h

theorem isSound_fresh {reactor : Reactor α} (hr : reactor.registrations = []) :
    (fresh reactor : EventLoop α ν).IsSound [] where
  numbered h := by simp [fresh, hr] at h
  kept h := by simp [fresh, hr] at h
  bounded h := by simp [Waits, fresh] at h
  current h := by simp [Attends, Waits, fresh] at h
  released h := by simp [fresh] at h

theorem Leads.isSound {reactor : Reactor α} (hr : reactor.registrations = [])
    (h : Leads Reactor.Resembles (.fresh reactor) past l) : l.IsSound past := by
  induction h with
  | refl => exact isSound_fresh hr
  | next _ hstep ih => exact ih.happens hstep

/-! ### Callbacks -/

/-- Whether a step to `l'` calls back for the task of a watch: its callback is announced and runs
next. -/
structure CallsBack (l l' : EventLoop α ν) (task : WatchTask α ν) : Prop where
  attends : l.Attends task
  isHeld : l'.isHeld = l.isHeld
  running : l'.running = some (task.callback l.notes task.descriptor, some task)
  journal : l'.journal = .called task.descriptor task.number :: l.journal

/-- Whether a step to `l'` calls nothing back: what runs for a watch ran for it before, and nothing
is announced. -/
structure CallsNothing (l l' : EventLoop α ν) : Prop where
  running {job : Job α ν} {task : WatchTask α ν} : l'.running = some (job, some task) →
    ∃ before, l.running = some (before, some task)
  journal : ∃ new, l'.journal = new ++ l.journal ∧
    ∀ descriptor number, .called descriptor number ∉ new

theorem CallsNothing.of_run {job next : Job α ν} {owner : Option (WatchTask α ν)}
    (hrunning : l.running = some (job, owner)) (new : List (LoopEvent ν))
    (hj : l'.journal = new ++ l.journal)
    (hnew : ∀ descriptor number, .called descriptor number ∉ new) :
    CallsNothing l (l'.run next owner) where
  running h := by
    obtain rfl := (Prod.mk.inj (Option.some.inj h)).2
    exact ⟨job, hrunning⟩
  journal := ⟨new, hj, hnew⟩

theorem journal_cancel (l : EventLoop α ν) (descriptor : Int) :
    (l.cancel descriptor).journal = l.journal := by
  unfold cancel
  split <;> rfl

theorem journal_release (l : EventLoop α ν) : l.release.journal = .released :: l.journal := by
  have hfold (descriptors : List Int) (l : EventLoop α ν) :
      (descriptors.foldl cancel l).journal = l.journal := by
    induction descriptors generalizing l with
    | nil => rfl
    | cons descriptor descriptors ih => rw [List.foldl_cons, ih, journal_cancel]
  exact congrArg _ (hfold _ _)

theorem journal_watch (l : EventLoop α ν) (descriptor : Int)
    (callback : List ν → Int → Job α ν) :
    ∃ new, (l.watch descriptor callback).2.journal = new ++ l.journal ∧
      ∀ d n, .called d n ∉ new := by
  have hunwatch : (l.unwatch descriptor).journal = [.unwatched descriptor] ++ l.journal :=
    congrArg _ (journal_cancel l descriptor)
  unfold watch
  dsimp only
  split
  · exact ⟨_, hunwatch, by simp⟩
  · next number reactor _ =>
    exact ⟨[.watched descriptor (l.unwatch descriptor).nextTask, .unwatched descriptor],
      congrArg _ hunwatch, by simp⟩

theorem isSome_of_readable {r : Reactor α} {number : Nat}
    (h : (r.pollReadable number).1 = .readable) : (r.registrations.get? number).isSome = true := by
  unfold Reactor.pollReadable at h
  split at h
  · contradiction
  · next registration hr => rw [hr, Option.isSome_some]

theorem callsBack_or_callsNothing_pollWatch {task : WatchTask α ν} (hwaits : l.Waits task) :
    CallsBack l (l.pollWatch task) task ∨ CallsNothing l (l.pollWatch task) := by
  unfold pollWatch
  split
  · exact .inr ⟨nofun, [], rfl, by simp⟩
  · exact .inr ⟨nofun, [], rfl, by simp⟩
  · next reactor hpoll =>
    exact .inl ⟨⟨hwaits, isSome_of_readable (congrArg Prod.fst hpoll)⟩, rfl, rfl, rfl⟩

theorem callsNothing_call {job : Job α ν} {owner : Option (WatchTask α ν)}
    (hrunning : l.running = some (job, owner)) (hdone : job ≠ .done) :
    CallsNothing l (l.call owner job) := by
  cases job with
  | done => exact absurd rfl hdone
  | note note next => exact .of_run hrunning [.noted note] rfl (by simp)
  | release next => exact .of_run hrunning [.released] (journal_release l) (by simp)
  | watch descriptor isInside callback next =>
    cases isInside with
    | false => exact .of_run hrunning [] rfl (by simp)
    | true =>
      obtain ⟨new, hj, hnew⟩ := journal_watch l descriptor callback
      exact .of_run hrunning new hj hnew
  | unwatch descriptor next =>
    exact .of_run hrunning [.unwatched descriptor] (congrArg _ (journal_cancel l descriptor))
      (by simp)
  | _ => exact .of_run hrunning [] rfl (by simp)

/-- Whatever happens calls back for a task that attends, or calls nothing back. -/
theorem Happens.callsBack_or_callsNothing {E : Reactor α → Reactor α → Prop}
    (h : Happens E l made l') : (∃ task, CallsBack l l' task) ∨ CallsNothing l l' := by
  cases h with
  | @call job owner hrunning _ =>
    by_cases hdone : job = .done
    · subst hdone
      cases owner with
      | none => exact .inr ⟨nofun, [], rfl, by simp⟩
      | some task =>
        exact (callsBack_or_callsNothing_pollWatch (.inr ⟨_, hrunning⟩)).imp_left fun h ↦ ⟨task, h⟩
    · exact .inr (callsNothing_call hrunning hdone)
  | poll number hrunning =>
    unfold EventLoop.poll
    split
    · exact .inr ⟨fun {job _} h ↦ ⟨job, h⟩, [], rfl, by simp⟩
    · exact .inr ⟨nofun, [], rfl, by simp⟩
    · exact .inr ⟨nofun, [], rfl, by simp⟩
    · split
      · exact .inr ⟨nofun, [], rfl, by simp⟩
      · exact .inr ⟨fun {job _} h ↦ ⟨job, h⟩, [], rfl, by simp⟩
    · next task htask =>
      have hwaits : { l with queue := l.queue.erase number }.Waits task := .inl ⟨number, htask⟩
      refine (callsBack_or_callsNothing_pollWatch hwaits).imp (fun h ↦ ⟨task, ?_⟩) fun h ↦ ?_
      · exact ⟨h.attends, h.isHeld, h.running, h.journal⟩
      · exact ⟨h.running, h.journal⟩
  | turn _ => exact .inr ⟨fun {job _} h ↦ ⟨job, h⟩, [], rfl, by simp⟩
  | enter job _ => exact .inr ⟨nofun, [], rfl, by simp⟩
  | disturb reactor _ => exact .inr ⟨fun {job _} h ↦ ⟨job, h⟩, [], rfl, by simp⟩
  | tick clock => exact .inr ⟨fun {job _} h ↦ ⟨job, h⟩, [], rfl, by simp⟩

/-! ### What is called back -/

/-- Whether what a step from `l` to `l'` does to callbacks is right after the calls made so far. -/
structure CallsRightly (past : List (WatchCall α ν)) (l l' : EventLoop α ν) : Prop where
  /-- A callback that is announced runs next, on a loop that is held, and is the one that was last
  watched for the descriptor and not ended since. -/
  current (descriptor : Int) (number : Nat) :
    l'.journal = .called descriptor number :: l.journal → l'.isHeld = true ∧
      ∃ task, l'.running = some (task.callback l.notes descriptor, some task) ∧
        task.descriptor = descriptor ∧ task.number = number ∧
        WatchCall.current? descriptor past = some task.callback
  /-- What runs for a watch ran for it before, or is announced. -/
  announced {job : Job α ν} {task : WatchTask α ν} : l'.running = some (job, some task) →
    (∃ before, l.running = some (before, some task)) ∨
      l'.journal = .called task.descriptor task.number :: l.journal

theorem IsSound.callsRightly (hs : l.IsSound past) {E : Reactor α → Reactor α → Prop}
    (h : Happens E l made l') : CallsRightly past l l' := by
  rcases h.callsBack_or_callsNothing with ⟨task, hback⟩ | hnothing
  · obtain ⟨hw, hcurrent⟩ := hs.current hback.attends
    refine ⟨fun descriptor number hj ↦ ?_, fun hrunning ↦ .inr ?_⟩
    · obtain ⟨rfl, rfl⟩ := LoopEvent.called.inj (List.cons.inj (hback.journal.symm.trans hj)).1
      refine ⟨?_, task, hback.running, rfl, rfl, hcurrent⟩
      rw [hback.isHeld, ← Bool.not_eq_false]
      intro hheld
      rw [hs.released hheld] at hw
      contradiction
    · obtain rfl := Option.some.inj
        (Prod.mk.inj (Option.some.inj (hrunning.symm.trans hback.running))).2
      exact hback.journal
  · refine ⟨fun descriptor number hj ↦ ?_, fun hrunning ↦ .inl (hnothing.running hrunning)⟩
    obtain ⟨new, hnew, hcalled⟩ := hnothing.journal
    have hsingle : new = [.called descriptor number] :=
      List.append_cancel_right (hnew.symm.trans hj)
    exact absurd (hsingle ▸ List.mem_singleton_self _) (hcalled descriptor number)

/-- Two tasks that may call back for one descriptor are the same. -/
theorem IsSound.attends_unique (hs : l.IsSound past) {task other : WatchTask α ν}
    (ha : l.Attends task) (ho : l.Attends other) (hd : task.descriptor = other.descriptor) :
    task = other := by
  obtain ⟨hw, hc⟩ := hs.current ha
  obtain ⟨hw', hc'⟩ := hs.current ho
  rw [hd] at hw hc
  obtain ⟨hregistration, hnumber⟩ := Watch.mk.inj (Option.some.inj (hw.symm.trans hw'))
  have hcallback := Option.some.inj (hc.symm.trans hc')
  cases task
  cases other
  simp_all

/-- In every interleaving, a descriptor has at most one registration and one task that may call back
for it, and every callback that starts is the one last watched for its descriptor, with neither an
unwatching of the descriptor nor the end of the loop in between. -/
theorem callbacks_areCurrent {reactor : Reactor α} (hr : reactor.registrations = [])
    (h : Leads Reactor.Resembles (.fresh reactor) past l) :
    (∀ task other : WatchTask α ν, l.Attends task → l.Attends other →
      task.descriptor = other.descriptor → task = other) ∧
    (∀ number other registration registration',
      l.reactor.registrations.get? number = some registration →
      l.reactor.registrations.get? other = some registration' →
      registration.descriptor = registration'.descriptor → number = other) ∧
    ∀ made l', Happens Reactor.Resembles l made l' → CallsRightly past l l' := by
  have hs := h.isSound hr
  refine ⟨fun task other ha ho hd ↦ hs.attends_unique ha ho hd,
    fun number other registration registration' hn ho hd ↦ ?_, fun made l' hstep ↦
      hs.callsRightly hstep⟩
  obtain ⟨w, hw, rfl⟩ := hs.kept hn
  obtain ⟨w', hw', rfl⟩ := hs.kept ho
  rw [hd, hw'] at hw
  rw [Option.some.inj hw]

/-! ### A callback that watches its own descriptor anew -/

/-- A file with input is open. -/
def waitingReactor : Reactor Nat := Reactor.empty.openFile 10 ⟨[1, 2], false, false⟩

/-- A callback that leaves a note. -/
def notingCallback : List Nat → Int → Job Nat Nat := fun _ _ ↦ .note 2 .done

/-- A callback that has another one called from then on. -/
def yieldingCallback : List Nat → Int → Job Nat Nat :=
  fun _ descriptor ↦ .watch descriptor true notingCallback fun _ ↦ .done

/-- A loop that was asked to watch the file with the callback that yields, after some steps. -/
def yieldingLoop (count : Nat) : EventLoop Nat Nat :=
  steps count ((fresh waitingReactor).run (.watch 10 true yieldingCallback fun _ ↦ .done) none)

theorem callbacks_areCurrent_yielding :
    waitingReactor.registrations = [] ∧
      Leads Reactor.Resembles (.fresh waitingReactor)
        [.watched 10 notingCallback, .watched 10 yieldingCallback] (yieldingLoop 9) ∧
      (yieldingLoop 10).journal = .called 10 1 :: (yieldingLoop 9).journal ∧
      (yieldingLoop 10).isHeld = true ∧
      ∃ task, (yieldingLoop 10).running = some (task.callback [] 10, some task) ∧
        task.descriptor = 10 ∧ task.number = 1 ∧ some notingCallback = some task.callback := by
  have hentered : Leads Reactor.Resembles (.fresh waitingReactor) [] (yieldingLoop 0) :=
    Leads.refl.next (.enter _ rfl)
  have hleads := hentered.steps 9 (by decide)
  have hstep : Happens Reactor.Resembles (yieldingLoop 9) [] (yieldingLoop 10) :=
    happens_step (l := yieldingLoop 9) rfl
  have hcalled : (yieldingLoop 10).journal = .called 10 1 :: (yieldingLoop 9).journal := rfl
  refine ⟨rfl, hleads, hcalled, ?_⟩
  exact ((callbacks_areCurrent rfl hleads).2.2 _ _ hstep).current 10 1 hcalled

end EventLoop

end WifiNetlink
