import Mathlib.Data.List.Nodup
import WifiNetlink.Proofs.Readiness
import WifiNetlink.Proofs.Watching

/-!
# Input that waits and callbacks that are due

The readiness that a reactor keeps is all that brings the task of a watch back to input that waits.
While a registration's file has input, its signal waits to be looked at, or it is ready and its task
is to run. Main statement: along every run this is lost in one way only, by waiting for the
registration while an error is there that was not read, which clears the readiness over input.
-/

namespace WifiNetlink

variable {α ν : Type}

theorem Table.keys_erase {κ β : Type} [DecidableEq κ] (t : Table κ β) (key : κ) :
    (t.erase key).keys = t.keys.filter (· != key) := by
  simp only [keys, erase, List.filter_map]
  rfl

theorem Table.nodup_keys_erase {κ β : Type} [DecidableEq κ] {t : Table κ β} (ht : t.keys.Nodup)
    (key : κ) : (t.erase key).keys.Nodup := by
  rw [keys_erase]
  exact ht.filter _

theorem Table.nodup_keys_insert {κ β : Type} [DecidableEq κ] {t : Table κ β} (ht : t.keys.Nodup)
    (key : κ) (value : β) : (t.insert key value).keys.Nodup := by
  refine List.nodup_cons.mpr ⟨?_, nodup_keys_erase ht key⟩
  change key ∉ (t.erase key).keys
  rw [keys_erase]
  simp

theorem Table.get?_of_mem {κ β : Type} [DecidableEq κ] {t : Table κ β} (ht : t.keys.Nodup)
    {key : κ} {value : β} (h : (key, value) ∈ t) : t.get? key = some value := by
  induction t with
  | nil => contradiction
  | cons entry t ih =>
    obtain ⟨k, v⟩ := entry
    obtain ⟨hk, hrest⟩ := List.nodup_cons.mp ht
    rcases List.mem_cons.mp h with he | hmem
    · obtain ⟨rfl, rfl⟩ := Prod.mk.inj he
      simp [get?]
    · have hne : key ≠ k := by
        rintro rfl
        exact hk (List.mem_map.mpr ⟨_, hmem, rfl⟩)
      simp only [get?, List.lookup_cons, beq_false_of_ne hne] at ih ⊢
      exact ih hrest hmem

namespace EventLoop

/-! ### Tasks and their numbers -/

/-- Whether a number below the next one is that of a task and of no other in the table. -/
structure Owns (tasks : Table Nat (LoopTask α ν)) (nextTask number : Nat)
    (entry : LoopTask α ν) : Prop where
  given : number < nextTask
  alone {other : LoopTask α ν} : tasks.get? number = some other → other = entry

/-- Whether the tasks of a loop fit its watches and registrations. -/
structure IsWired (l : EventLoop α ν) : Prop where
  isNumbered : l.reactor.IsNumbered
  nodup : l.watches.keys.Nodup
  given {number : Nat} {entry : LoopTask α ν} :
    l.tasks.get? number = some entry → number < l.nextTask
  named {number : Nat} {task : WatchTask α ν} :
    l.tasks.get? number = some (.watching task) → task.number = number
  owner {job : Job α ν} {task : WatchTask α ν} : l.running = some (job, some task) →
    Owns l.tasks l.nextTask task.number (.watching task)
  /-- The number of a watch's task stands for no other task. -/
  entered {descriptor : Int} {w : Watch} : l.watches.get? descriptor = some w → ∃ callback,
    Owns l.tasks l.nextTask w.task (.watching ⟨w.task, descriptor, w.registration, callback⟩)
  /-- A watch has a registration of its descriptor. -/
  placed {descriptor : Int} {w : Watch} : l.watches.get? descriptor = some w → ∃ registration,
    l.reactor.registrations.get? w.registration = some registration ∧
      registration.descriptor = descriptor
  /-- A registration whose reactor is there has a watch and a task. -/
  attended {number : Nat} {registration : Registration} :
    l.reactor.registrations.get? number = some registration → registration.isLost = false →
      ∃ task callback, l.watches.get? registration.descriptor = some ⟨number, task⟩ ∧
        l.tasks.get? task = some (.watching ⟨task, registration.descriptor, number, callback⟩)

/-- Whether the task of a registration is to run, or runs. -/
def IsAwake (l : EventLoop α ν) (number : Nat) : Prop :=
  ∃ task : WatchTask α ν, task.registration = number ∧
    (l.tasks.get? task.number = some (.watching task) ∧ task.number ∈ l.queue ∨
      ∃ job, l.running = some (job, some task))

/-- Whether a callback for a registration is due: its signal waits to be looked at, or it is ready
and its task is to run, or runs. -/
def IsDue (l : EventLoop α ν) (number : Nat) : Prop :=
  number ∈ l.reactor.signals ∨ l.reactor.IsReady number ∧ l.IsAwake number

/-- Whether a callback for a registration is due if its file has input. -/
def IsAlert (l : EventLoop α ν) (number : Nat) : Prop :=
  ∀ registration f, l.reactor.Holds number registration f → f.queue ≠ [] → l.IsDue number

/-- Whether a step to `l'` clears the readiness of a registration over input, for an error that was
not read. -/
def Deafens (number : Nat) (l l' : EventLoop α ν) : Prop :=
  ∃ registration f, l.reactor.Holds number registration f ∧ f.queue ≠ [] ∧ f.hasFault = true ∧
    l.reactor.IsReady number ∧ ¬ l'.reactor.IsReady number

variable {past made : List (WatchCall α ν)} {l l' : EventLoop α ν} {number : Nat}

theorem Owns.mono {tasks tasks' : Table Nat (LoopTask α ν)} {next next' : Nat}
    {entry : LoopTask α ν} (h : Owns tasks next number entry) (hn : next ≤ next')
    (ht : ∀ other, tasks'.get? number = some other → tasks.get? number = some other) :
    Owns tasks' next' number entry :=
  ⟨Nat.lt_of_lt_of_le h.given hn, fun ho ↦ h.alone (ht _ ho)⟩

theorem IsWired.owns_of_get? (hw : l.IsWired) {task : WatchTask α ν}
    (ht : l.tasks.get? number = some (.watching task)) :
    Owns l.tasks l.nextTask task.number (.watching task) := by
  rw [hw.named ht]
  exact ⟨hw.given ht, fun ho ↦ Option.some.inj (ho.symm.trans ht)⟩

/-! ### The reactor changes -/

/-- The reactor's registrations change in readiness only, or get lost. -/
theorem IsWired.react (hw : l.IsWired) {reactor : Reactor α} (hn : reactor.IsNumbered)
    (hr : l.reactor.Resembles reactor)
    (hlost : ∀ {number earlier registration}, l.reactor.registrations.get? number = some earlier →
      reactor.registrations.get? number = some registration → registration.isLost = false →
        earlier.isLost = false) :
    { l with reactor }.IsWired := by
  refine ⟨hn, hw.nodup, hw.given, hw.named, hw.owner, hw.entered, fun {descriptor w} hentry ↦ ?_,
    fun hregistered hlive ↦ ?_⟩
  · obtain ⟨earlier, he, hd⟩ := hw.placed hentry
    have hdescriptors := hr.descriptors w.registration
    rw [he] at hdescriptors
    obtain ⟨registration, hregistered, hsame⟩ := Option.map_eq_some_iff.mp hdescriptors
    exact ⟨registration, hregistered, hsame.trans hd⟩
  · obtain ⟨earlier, he, hd⟩ := hr.exists_registration hregistered
    rw [← hd]
    exact hw.attended he (hlost he hregistered hlive)

theorem IsWired.track (hw : l.IsWired) {reactor : Reactor α} (ht : l.reactor.Tracks reactor)
    (hr : l.reactor.Resembles reactor) : { l with reactor }.IsWired := by
  refine hw.react (ht.isNumbered hw.isNumbered) hr fun {number earlier registration} he hregistered
    hlive ↦ ?_
  obtain ⟨earlier', he', -, -, hl⟩ := ht.tracked hregistered
  obtain rfl := Option.some.inj (he.symm.trans he')
  exact hl hlive

theorem IsWired.alarm (hw : l.IsWired) {reactor : Reactor α} (ha : l.reactor.Alarms reactor) :
    { l with reactor }.IsWired := by
  refine hw.react ha.isNumbered ha.resembles fun {number earlier registration} he hregistered
    hlive ↦ ?_
  rw [ha.registrations, he] at hregistered
  exact Option.some.inj hregistered ▸ hlive

theorem IsAlert.alarm (ha : l.IsAlert number) {reactor : Reactor α}
    (halarms : l.reactor.Alarms reactor) : { l with reactor }.IsAlert number := by
  intro registration f hholds hq
  rcases halarms.told hholds hq with hs | ⟨g, hg, hgq⟩
  · exact .inl hs
  · rcases ha registration g hg hgq with hs | ⟨hready, hawake⟩
    · exact .inl (halarms.signals hs)
    · refine .inr ⟨?_, hawake⟩
      obtain ⟨registered, hregistered, hisReady⟩ := hready
      exact ⟨registered, halarms.registrations ▸ hregistered, hisReady⟩

/-! ### Tasks change -/

/-- The reactor stays as it is, and so does whose task is awake. -/
theorem IsAlert.frame (ha : l.IsAlert number) (hr : l'.reactor = l.reactor)
    (hawake : l.IsAwake number → l'.IsAwake number) : l'.IsAlert number := by
  intro registration f hholds hq
  rw [hr] at hholds
  rcases ha registration f hholds hq with hs | ⟨hready, h⟩
  · exact .inl (hr ▸ hs)
  · exact .inr ⟨hr ▸ hready, hawake h⟩

theorem IsWired.run (hw : l.IsWired) (job : Job α ν) {owner : Option (WatchTask α ν)}
    (ho : ∀ task, owner = some task → Owns l.tasks l.nextTask task.number (.watching task)) :
    (l.run job owner).IsWired := by
  refine ⟨hw.isNumbered, hw.nodup, hw.given, hw.named, fun hrunning ↦ ?_, hw.entered, hw.placed,
    hw.attended⟩
  exact ho _ (Prod.mk.inj (Option.some.inj hrunning)).2

/-- Nothing runs any more. -/
theorem IsWired.rest (hw : l.IsWired) : { l with running := none }.IsWired :=
  ⟨hw.isNumbered, hw.nodup, hw.given, hw.named, nofun, hw.entered, hw.placed, hw.attended⟩

theorem IsWired.spawn (hw : l.IsWired) {entry : Nat → LoopTask α ν}
    (he : ∀ task, entry l.nextTask = .watching task → task.number = l.nextTask) :
    (l.spawn entry).IsWired := by
  have hearlier {number : Nat} (hn : number < l.nextTask) :
      (l.tasks.insert l.nextTask (entry l.nextTask)).get? number = l.tasks.get? number := by
    rw [Table.get?_insert, if_neg (Nat.ne_of_lt hn)]
  have howns {number : Nat} {owned : LoopTask α ν} (h : Owns l.tasks l.nextTask number owned) :
      Owns (l.spawn entry).tasks (l.spawn entry).nextTask number owned :=
    h.mono (Nat.le_succ _) fun other ho ↦ hearlier h.given ▸ ho
  refine ⟨hw.isNumbered, hw.nodup, fun {number other} ht ↦ ?_, fun {number task} ht ↦ ?_,
    fun hrunning ↦ howns (hw.owner hrunning), fun hentry ↦ ?_, hw.placed,
    fun hregistered hlive ↦ ?_⟩
  · change (l.tasks.insert _ _).get? number = _ at ht
    rw [Table.get?_insert] at ht
    split at ht
    · next hn => exact hn ▸ Nat.lt_succ_self _
    · exact Nat.lt_succ_of_lt (hw.given ht)
  · change (l.tasks.insert _ _).get? number = _ at ht
    rw [Table.get?_insert] at ht
    split at ht
    · next hn => exact hn ▸ he task (Option.some.inj ht)
    · exact hw.named ht
  · obtain ⟨callback, h⟩ := hw.entered hentry
    exact ⟨callback, howns h⟩
  · obtain ⟨task, callback, hwatch, ht⟩ := hw.attended hregistered hlive
    exact ⟨task, callback, hwatch, (hearlier (hw.given ht)).trans ht⟩

theorem IsAwake.spawn (hw : l.IsWired) (h : l.IsAwake number) (entry : Nat → LoopTask α ν) :
    (l.spawn entry).IsAwake number := by
  obtain ⟨task, hn, ⟨ht, hq⟩ | hrunning⟩ := h
  · refine ⟨task, hn, .inl ⟨?_, List.mem_append_left _ hq⟩⟩
    change (l.tasks.insert _ _).get? _ = _
    rw [Table.get?_insert, if_neg (Nat.ne_of_lt (hw.given ht)), ht]
  · exact ⟨task, hn, .inr hrunning⟩

/-- The table loses a task that waits for nothing any more, or one of its delays begins. -/
theorem IsWired.retask (hw : l.IsWired) {tasks : Table Nat (LoopTask α ν)}
    (ht : ∀ number entry, tasks.get? number = some entry → l.tasks.get? number = some entry ∨
      (∀ task, entry ≠ .watching task) ∧
        ∃ other, l.tasks.get? number = some other ∧ ∀ task, other ≠ .watching task)
    (hkeep : ∀ task : WatchTask α ν, l.tasks.get? task.number = some (.watching task) →
      (∃ registration, l.reactor.registrations.get? task.registration = some registration ∧
        registration.isLost = false) → tasks.get? task.number = some (.watching task)) :
    { l with tasks }.IsWired := by
  have howns {number : Nat} {task : WatchTask α ν}
      (h : Owns l.tasks l.nextTask number (.watching task)) :
      Owns tasks l.nextTask number (.watching task) := by
    refine ⟨h.given, fun {other} ho ↦ ?_⟩
    rcases ht _ _ ho with hother | ⟨-, earlier, he, hnot⟩
    · exact h.alone hother
    · exact absurd (h.alone he) (hnot task)
  refine ⟨hw.isNumbered, hw.nodup, fun {number entry} h ↦ ?_, fun {number task} h ↦ ?_,
    fun hrunning ↦ howns (hw.owner hrunning), fun hentry ↦ ?_, hw.placed,
    fun hregistered hlive ↦ ?_⟩
  · rcases ht _ _ h with h | ⟨-, earlier, he, -⟩
    · exact hw.given h
    · exact hw.given he
  · rcases ht _ _ h with h | ⟨hnot, -⟩
    · exact hw.named h
    · exact absurd rfl (hnot task)
  · obtain ⟨callback, h⟩ := hw.entered hentry
    exact ⟨callback, howns h⟩
  · obtain ⟨task, callback, hwatch, htask⟩ := hw.attended hregistered hlive
    exact ⟨task, callback, hwatch, hkeep ⟨task, _, _, callback⟩ htask ⟨_, hregistered, hlive⟩⟩

/-- A task is taken out of the table that has no registration to wait for. -/
theorem IsWired.drop (hw : l.IsWired) {gone : Nat}
    (hgone : ∀ task : WatchTask α ν, l.tasks.get? gone = some (.watching task) →
      ∀ registration, l.reactor.registrations.get? task.registration = some registration →
        registration.isLost = true) :
    { l with tasks := l.tasks.erase gone }.IsWired := by
  refine hw.retask (fun number entry h ↦ .inl (get?_of_get?_erase h)) fun task ht hlive ↦ ?_
  rw [Table.get?_erase, if_neg, ht]
  rintro rfl
  obtain ⟨registration, hregistered, hlive⟩ := hlive
  rw [hgone task ht registration hregistered] at hlive
  contradiction

/-! ### Watches end and begin -/

/-- The tasks of two watches have different numbers. -/
theorem IsWired.ne_of_entered (hw : l.IsWired) {descriptor : Int} {w : Watch}
    (hentry : l.watches.get? descriptor = some w) {task : WatchTask α ν}
    (ht : l.tasks.get? task.number = some (.watching task))
    (hne : task.registration ≠ w.registration) : task.number ≠ w.task := by
  intro he
  obtain ⟨callback, howns⟩ := hw.entered hentry
  rw [he] at ht
  have hsame := LoopTask.watching.inj (howns.alone ht)
  exact hne (congrArg WatchTask.registration hsame)

theorem IsWired.cancel (hw : l.IsWired) (descriptor : Int) : (l.cancel descriptor).IsWired := by
  unfold EventLoop.cancel
  split
  · exact hw
  · next w hentry =>
    have howns {number : Nat} {owned : LoopTask α ν} (h : Owns l.tasks l.nextTask number owned) :
        Owns (l.tasks.erase w.task) l.nextTask number owned :=
      h.mono (Nat.le_refl _) fun other ho ↦ get?_of_get?_erase ho
    refine ⟨⟨hw.isNumbered.files, fun hregistered ↦
        hw.isNumbered.registrations (get?_of_get?_erase hregistered)⟩,
      Table.nodup_keys_erase hw.nodup _, fun ht ↦ hw.given (get?_of_get?_erase ht),
      fun ht ↦ hw.named (get?_of_get?_erase ht), fun hrunning ↦ howns (hw.owner hrunning),
      fun {other w'} hother ↦ ?_, fun {other w'} hother ↦ ?_,
      fun {number registration} hregistered hlive ↦ ?_⟩
    · obtain ⟨callback, h⟩ := hw.entered (get?_of_get?_erase hother)
      exact ⟨callback, howns h⟩
    · rw [Table.get?_erase] at hother
      split at hother
      · contradiction
      · next ho =>
        obtain ⟨registration, hregistered, hd⟩ := hw.placed hother
        refine ⟨registration, ?_, hd⟩
        change (l.reactor.registrations.erase _).get? _ = _
        rw [Table.get?_erase, if_neg, hregistered]
        intro he
        obtain ⟨registration', hregistered', hd'⟩ := hw.placed hentry
        rw [he, hregistered'] at hregistered
        obtain rfl := Option.some.inj hregistered
        exact ho (hd.symm.trans hd')
    · have hne : number ≠ w.registration := by
        rintro rfl
        simp [Reactor.deregister, Table.get?_erase] at hregistered
      obtain ⟨task, callback, hwatch, ht⟩ :=
        hw.attended (get?_of_get?_erase hregistered) hlive
      have hd : registration.descriptor ≠ descriptor := by
        intro he
        rw [he, hentry] at hwatch
        exact hne (congrArg Watch.registration (Option.some.inj hwatch)).symm
      have htask : (⟨task, _, _, callback⟩ : WatchTask α ν).number ≠ w.task :=
        hw.ne_of_entered hentry ht hne
      refine ⟨task, callback, ?_, ?_⟩
      · rw [Table.get?_erase, if_neg hd, hwatch]
      · rw [Table.get?_erase, if_neg htask, ht]

theorem IsAlert.cancel (ha : l.IsAlert number) (hw : l.IsWired) (descriptor : Int) :
    (l.cancel descriptor).IsAlert number := by
  unfold EventLoop.cancel
  split
  · exact ha
  · next w hentry =>
    rintro registration f ⟨hregistered, hlive, hopen⟩ hq
    have hne : number ≠ w.registration := by
      rintro rfl
      simp [Reactor.deregister, Table.get?_erase] at hregistered
    rcases ha registration f ⟨get?_of_get?_erase hregistered, hlive, hopen⟩ hq with
      hs | ⟨⟨ready, hready, hisReady⟩, task, rfl, hawake⟩
    · exact .inl (List.mem_filter.mpr ⟨hs, by simpa using hne⟩)
    · refine .inr ⟨⟨ready, ?_, hisReady⟩, task, rfl, hawake.imp_left fun hawaits ↦ ?_⟩
      · change (l.reactor.registrations.erase _).get? _ = _
        rw [Table.get?_erase, if_neg hne, hready]
      · obtain ⟨ht, hqueue⟩ := hawaits
        refine ⟨?_, hqueue⟩
        rw [Table.get?_erase, if_neg (hw.ne_of_entered hentry ht hne), ht]

theorem IsWired.log (hw : l.IsWired) (e : LoopEvent ν) : (l.log e).IsWired :=
  ⟨hw.isNumbered, hw.nodup, hw.given, hw.named, hw.owner, hw.entered, hw.placed, hw.attended⟩

theorem IsWired.unwatch (hw : l.IsWired) (descriptor : Int) : (l.unwatch descriptor).IsWired :=
  (hw.cancel descriptor).log _

theorem IsWired.release (hw : l.IsWired) : l.release.IsWired := by
  have hfold (descriptors : List Int) {l : EventLoop α ν} (hw : l.IsWired) :
      (descriptors.foldl EventLoop.cancel l).IsWired := by
    induction descriptors generalizing l with
    | nil => exact hw
    | cons descriptor descriptors ih => exact ih (hw.cancel descriptor)
  refine IsWired.log (hfold _ ?_) _
  exact ⟨hw.isNumbered, hw.nodup, hw.given, hw.named, hw.owner, hw.entered, hw.placed, hw.attended⟩

/-- A loop that was dropped has no registration to be alert for. -/
theorem isAlert_release (hs : l.IsSound past) (number : Nat) : l.release.IsAlert number := by
  intro registration f hholds _
  have hnone := hs.release.released (isHeld_release l)
  obtain ⟨w, hw, -⟩ := hs.release.kept hholds.registered
  rw [hnone] at hw
  contradiction

/-- A registration gets the watch that its task was made for. -/
theorem IsWired.enter (hw : l.IsWired) {descriptor : Int} {task : Nat} {reactor : Reactor α}
    {callback : List ν → Int → Job α ν}
    (hregister : l.reactor.register descriptor = (some number, reactor))
    (hnone : l.watches.get? descriptor = none)
    (ht : l.tasks.get? task = some (.watching ⟨task, descriptor, number, callback⟩)) :
    { l with reactor, watches := l.watches.insert descriptor ⟨number, task⟩ }.IsWired := by
  obtain ⟨file, f, hf, rfl, rfl⟩ := Reactor.register_eq_some hregister
  have hfresh : l.reactor.registrations.get? l.reactor.nextNumber = none := by
    by_contra hsome
    obtain ⟨registration, hregistered⟩ := Option.ne_none_iff_exists'.mp hsome
    exact Nat.lt_irrefl _ (hw.isNumbered.registrations hregistered).1
  refine ⟨⟨fun hopen ↦ Nat.lt_succ_of_lt (hw.isNumbered.files hopen),
      fun {number registration} hregistered ↦ ?_⟩,
    Table.nodup_keys_insert hw.nodup _ _, hw.given, hw.named, hw.owner,
    fun {other w} hother ↦ ?_, fun {other w} hother ↦ ?_,
    fun {number registration} hregistered hlive ↦ ?_⟩
  · rw [Table.get?_insert] at hregistered
    split at hregistered
    · next hn =>
      obtain rfl := Option.some.inj hregistered
      exact ⟨hn ▸ Nat.lt_succ_self _, Nat.lt_succ_of_lt (hw.isNumbered.files hf)⟩
    · exact (hw.isNumbered.registrations hregistered).imp Nat.lt_succ_of_lt Nat.lt_succ_of_lt
  · rw [Table.get?_insert] at hother
    split at hother
    · next ho =>
      obtain rfl := Option.some.inj hother
      subst ho
      exact ⟨callback, hw.given ht, fun h ↦ Option.some.inj (h.symm.trans ht)⟩
    · exact hw.entered hother
  · rw [Table.get?_insert] at hother
    split at hother
    · next ho =>
      obtain rfl := Option.some.inj hother
      exact ⟨_, (Table.get?_insert _ _ _ _).trans (if_pos rfl), ho.symm⟩
    · obtain ⟨registration, hregistered, hd⟩ := hw.placed hother
      refine ⟨registration, ?_, hd⟩
      change (l.reactor.registrations.insert _ _).get? _ = _
      rw [Table.get?_insert, if_neg, hregistered]
      intro he
      rw [he, hfresh] at hregistered
      contradiction
  · change (l.reactor.registrations.insert _ _).get? number = _ at hregistered
    change ∃ task callback, (l.watches.insert descriptor _).get? _ = _ ∧ _
    rw [Table.get?_insert] at hregistered
    split at hregistered
    · next hn =>
      obtain rfl := Option.some.inj hregistered
      exact ⟨task, callback, by rw [Table.get?_insert, if_pos rfl, hn], hn ▸ ht⟩
    · obtain ⟨other, callback', hwatch, hother⟩ := hw.attended hregistered hlive
      refine ⟨other, callback', ?_, hother⟩
      rw [Table.get?_insert, if_neg, hwatch]
      intro hd
      rw [hd, hnone] at hwatch
      contradiction

/-- A new registration is signalled if its file has input. -/
theorem IsAlert.enter (ha : l.IsAlert number) {descriptor : Int} {given : Nat} {w : Watch}
    {reactor : Reactor α} (hregister : l.reactor.register descriptor = (some given, reactor)) :
    { l with reactor, watches := l.watches.insert descriptor w }.IsAlert number := by
  obtain ⟨file, f, hf, rfl, rfl⟩ := Reactor.register_eq_some hregister
  rintro registration g ⟨hregistered, hlive, hopen⟩ hq
  change (l.reactor.registrations.insert _ _).get? number = _ at hregistered
  change l.reactor.files.get? _ = _ at hopen
  rw [Table.get?_insert] at hregistered
  split at hregistered
  · next hn =>
    obtain rfl := Option.some.inj hregistered
    obtain ⟨-, rfl⟩ := Prod.mk.inj (Option.some.inj (hf.symm.trans hopen))
    left
    change number ∈ if f.events = 0 then _ else _
    rw [if_neg (File.events_ne_zero_of_queue hq), hn]
    exact List.mem_append_right _ List.mem_cons_self
  · next hn =>
    rcases ha registration g ⟨hregistered, hlive, hopen⟩ hq with
      hs | ⟨⟨ready, hready, hisReady⟩, hawake⟩
    · left
      change number ∈ if f.events = 0 then _ else _
      split
      · exact hs
      · exact List.mem_append_left _ hs
    · refine .inr ⟨⟨ready, ?_, hisReady⟩, hawake⟩
      change (l.reactor.registrations.insert _ _).get? number = _
      rw [Table.get?_insert, if_neg hn, hready]

/-- A watch begins in place of the one that the descriptor had, or is refused. -/
theorem IsWired.watch (hw : l.IsWired) (descriptor : Int) (callback : List ν → Int → Job α ν) :
    (l.watch descriptor callback).2.IsWired ∧
      (l.IsAlert number → (l.watch descriptor callback).2.IsAlert number) := by
  have hw' := hw.unwatch descriptor
  have ha' (ha : l.IsAlert number) : (l.unwatch descriptor).IsAlert number :=
    (ha.cancel hw descriptor).frame rfl id
  have hnone : (l.unwatch descriptor).watches.get? descriptor = none :=
    (watches_cancel l descriptor descriptor).trans (if_pos rfl)
  unfold EventLoop.watch
  generalize l.unwatch descriptor = l' at hw' ha' hnone
  dsimp only
  rcases hregister : l'.reactor.register descriptor with ⟨_ | given, reactor⟩
  · exact ⟨hw', ha'⟩
  · have hspawned : (l'.spawn fun number ↦
        .watching ⟨number, descriptor, given, callback⟩).IsWired :=
      hw'.spawn fun task ht ↦ (congrArg WatchTask.number (LoopTask.watching.inj ht)).symm
    have ht : (l'.tasks.insert l'.nextTask
        (.watching ⟨l'.nextTask, descriptor, given, callback⟩)).get? l'.nextTask =
          some (.watching ⟨l'.nextTask, descriptor, given, callback⟩) := by
      rw [Table.get?_insert, if_pos rfl]
    refine ⟨(hspawned.enter hregister hnone ht).log _, fun ha ↦ ?_⟩
    have hstill : (l'.spawn fun number ↦
        .watching ⟨number, descriptor, given, callback⟩).IsAlert number :=
      (ha' ha).frame rfl fun h ↦ h.spawn hw' _
    exact (hstill.enter (w := ⟨given, l'.nextTask⟩) hregister).frame rfl id

/-! ### Signals are looked at -/

/-- Only what is to run and what waits for time changes. -/
theorem IsWired.requeue (hw : l.IsWired) (queue : List Nat) (timers : List (Nat × Nat)) :
    { l with queue, timers }.IsWired :=
  ⟨hw.isNumbered, hw.nodup, hw.given, hw.named, hw.owner, hw.entered, hw.placed, hw.attended⟩

theorem IsWired.turn (hw : l.IsWired) : l.turn.IsWired :=
  (hw.track l.reactor.tracks_harvest l.reactor.resembles_harvest).requeue _ _

/-- The task of a registration that is told is to run. -/
theorem mem_waiters (hw : l.IsWired) {registration : Registration}
    (hregistered : l.reactor.registrations.get? number = some registration)
    (hlive : registration.isLost = false) {registrations : List Nat}
    (hn : number ∈ registrations) : ∃ task : WatchTask α ν, task.registration = number ∧
      l.tasks.get? task.number = some (.watching task) ∧ task.number ∈ l.waiters registrations := by
  obtain ⟨task, callback, hwatch, ht⟩ := hw.attended hregistered hlive
  refine ⟨⟨task, registration.descriptor, number, callback⟩, rfl, ht, ?_⟩
  refine List.mem_filterMap.mpr ⟨number, hn, ?_⟩
  cases hfind : l.watches.find? fun entry ↦ entry.2.registration == number with
  | none =>
    have hnone := List.find?_eq_none.mp hfind _ (Table.mem_of_get? hwatch)
    simp at hnone
  | some entry =>
    obtain ⟨descriptor, w⟩ := entry
    have hwn : w.registration = number := by simpa using List.find?_some hfind
    have hentry := Table.get?_of_mem hw.nodup (List.mem_of_find?_eq_some hfind)
    obtain ⟨registration', hregistered', rfl⟩ := hw.placed hentry
    rw [hwn, hregistered] at hregistered'
    obtain rfl := Option.some.inj hregistered'
    obtain rfl := Option.some.inj (hwatch.symm.trans hentry)
    rfl

theorem mem_wake {task : Nat} {tasks : List Nat} (h : task ∈ l.queue ∨ task ∈ tasks) :
    task ∈ (l.wake tasks).queue := by
  by_cases hq : task ∈ l.queue
  · exact List.mem_append_left _ hq
  · exact List.mem_append_right _ (List.mem_filter.mpr
      ⟨h.resolve_left hq, by simpa using hq⟩)

theorem IsAwake.wake (h : l.IsAwake number) (tasks : List Nat) : (l.wake tasks).IsAwake number := by
  obtain ⟨task, hn, hawake⟩ := h
  exact ⟨task, hn, hawake.imp_left fun ⟨ht, hq⟩ ↦ ⟨ht, mem_wake (.inl hq)⟩⟩

/-- Looking at the signals makes a registration ready whose file has input, and its task is to run.
-/
theorem IsWired.isReady_turn (hw : l.IsWired) {registration : Registration} {f : File α}
    (hholds : l.reactor.Holds number registration f) (hq : f.queue ≠ [])
    (hs : number ∈ l.reactor.signals) : l.turn.reactor.IsReady number ∧ l.turn.IsAwake number := by
  obtain ⟨htold, hready⟩ := hholds.harvest hq hs
  obtain ⟨task, hn, ht, hmem⟩ := mem_waiters hw hholds.registered hholds.isLive htold
  exact ⟨hready, task, hn, .inl ⟨ht, mem_wake (.inl (mem_wake (.inr hmem)))⟩⟩

theorem IsAlert.turn (ha : l.IsAlert number) (hw : l.IsWired) : l.turn.IsAlert number := by
  intro registration f hholds hq
  obtain ⟨earlier, hearlier, -, -⟩ := l.reactor.tracks_harvest.holds hholds
  right
  rcases ha earlier f hearlier hq with hs | ⟨hready, hawake⟩
  · exact hw.isReady_turn hearlier hq hs
  · have hkept : ({ l with
        reactor := l.reactor.harvest.2
        timers := l.timers.filter fun timer ↦ l.clock < timer.1 }).IsAwake number := hawake
    exact ⟨hready.harvest, (hkept.wake _).wake _⟩

/-! ### Tasks are looked at -/

theorem IsWired.pollWatch (hw : l.IsWired) {task : WatchTask α ν}
    (ho : Owns l.tasks l.nextTask task.number (.watching task)) : (l.pollWatch task).IsWired := by
  have ht := l.reactor.tracks_pollReadable task.registration
  have hr := l.reactor.resembles_pollReadable task.registration
  unfold EventLoop.pollWatch
  split <;> rename_i reactor hpoll <;> rw [hpoll] at ht hr
  · refine ((hw.track ht hr).drop fun other hother registration hregistered ↦ ?_).rest
    obtain rfl := LoopTask.watching.inj (ho.alone hother)
    obtain ⟨earlier, he, -, -, hlost⟩ := ht.tracked hregistered
    have hgone := Reactor.isLost_of_gone (congrArg Prod.fst hpoll) he
    by_contra hlive
    exact absurd (hlost (Bool.not_eq_true _ ▸ hlive)) (by simp [hgone])
  · exact (hw.track ht hr).rest
  · exact ((hw.track ht hr).log _).run _ fun other hother ↦ Option.some.inj hother ▸ ho

theorem reactor_pollWatch (l : EventLoop α ν) (task : WatchTask α ν) :
    (l.pollWatch task).reactor = (l.reactor.pollReadable task.registration).2 := by
  unfold pollWatch
  split <;> rename_i reactor hpoll <;> exact (congrArg Prod.snd hpoll).symm

theorem queue_pollWatch (l : EventLoop α ν) (task : WatchTask α ν) :
    (l.pollWatch task).queue = l.queue := by
  unfold pollWatch
  split <;> rfl

theorem get?_tasks_pollWatch (l : EventLoop α ν) {task : WatchTask α ν} {other : Nat}
    (hne : other ≠ task.number) : (l.pollWatch task).tasks.get? other = l.tasks.get? other := by
  unfold pollWatch
  split
  · exact (Table.get?_erase _ _ _).trans (if_neg hne)
  · rfl
  · rfl

section look

variable {task : WatchTask α ν} {queue : List Nat}

/-- Looking at the task of a watch leaves what is due of the others. -/
private theorem IsDue.pollWatch_of_ne (hdue : l.IsDue number)
    (ho : Owns l.tasks l.nextTask task.number (.watching task))
    (hq : ∀ k ∈ l.queue, k ≠ task.number → k ∈ queue)
    (hr : ∀ job other, l.running = some (job, some other) → other = task)
    (hne : number ≠ task.registration) : ({ l with queue }.pollWatch task).IsDue number := by
  unfold IsDue
  rw [reactor_pollWatch]
  change number ∈ (l.reactor.pollReadable task.registration).2.signals ∨
    (l.reactor.pollReadable task.registration).2.IsReady number ∧ _
  rw [Reactor.signals_pollReadable, Reactor.isReady_pollReadable_of_ne hne]
  refine hdue.imp_right fun ⟨hready, other, hon, hawake⟩ ↦ ⟨hready, other, hon, .inl ?_⟩
  have hothers : other ≠ task := by
    rintro rfl
    exact hne hon.symm
  rcases hawake with ⟨hother, hqueue⟩ | ⟨job, hrunning⟩
  · have hnumber : other.number ≠ task.number := by
      intro he
      rw [he] at hother
      exact hothers (LoopTask.watching.inj (ho.alone hother))
    exact ⟨(get?_tasks_pollWatch _ hnumber).trans hother,
      (queue_pollWatch _ _).symm ▸ hq _ hqueue hnumber⟩
  · exact absurd (hr job other hrunning) hothers

/-- Looking at the task of a watch calls back, where its registration was ready and has input, or
clears the readiness for an error. -/
private theorem isDue_or_deafens_pollWatch {registration : Registration} {f : File α}
    (hholds : l.reactor.Holds task.registration registration f) (hqueue : f.queue ≠ [])
    (hdue : l.IsDue task.registration) :
    ({ l with queue }.pollWatch task).IsDue task.registration ∨
      Deafens task.registration l ({ l with queue }.pollWatch task) := by
  have hpoll := Reactor.pollReadable_of_holds hholds
  by_cases hready : registration.isReady = true
  · by_cases hfault : f.hasFault = true
    · right
      refine ⟨registration, f, hholds, hqueue, hfault, ?_, ?_⟩
      · exact ⟨registration, hholds.registered, hready⟩
      · rw [reactor_pollWatch]
        change ¬ (l.reactor.pollReadable task.registration).2.IsReady task.registration
        rw [(Reactor.isReady_pollReadable hholds hready).2]
        exact fun h ↦ absurd h.2 (by simp [hfault])
    · rw [if_pos hready, if_pos ⟨hqueue, Bool.not_eq_true _ ▸ hfault⟩] at hpoll
      left
      right
      simp only [pollWatch, hpoll]
      exact ⟨⟨registration, hholds.registered, hready⟩, task, rfl, .inr ⟨_, rfl⟩⟩
  · rw [if_neg hready] at hpoll
    left
    rcases hdue with hs | ⟨⟨registered, hregistered, hisReady⟩, -⟩
    · left
      rw [reactor_pollWatch]
      change _ ∈ (l.reactor.pollReadable task.registration).2.signals
      rw [hpoll]
      exact hs
    · rw [hholds.registered] at hregistered
      exact absurd (Option.some.inj hregistered ▸ hisReady) hready

/-- Looking at the task of a watch leaves a registration alert, or clears its readiness over input
for an error. -/
theorem IsAlert.pollWatch (ha : l.IsAlert number)
    (ho : Owns l.tasks l.nextTask task.number (.watching task))
    (hq : ∀ k ∈ l.queue, k ≠ task.number → k ∈ queue)
    (hr : ∀ job other, l.running = some (job, some other) → other = task) :
    ({ l with queue }.pollWatch task).IsAlert number ∨
      Deafens number l ({ l with queue }.pollWatch task) := by
  have hbefore {registration : Registration} {f : File α}
      (hholds : ({ l with queue }.pollWatch task).reactor.Holds number registration f) :
      ∃ earlier, l.reactor.Holds number earlier f := by
    rw [reactor_pollWatch] at hholds
    obtain ⟨earlier, hearlier, -, -⟩ := (l.reactor.tracks_pollReadable _).holds hholds
    exact ⟨earlier, hearlier⟩
  by_cases hn : number = task.registration
  · subst hn
    by_cases hinput : ∃ registration f, l.reactor.Holds task.registration registration f ∧
      f.queue ≠ []
    · obtain ⟨registration, f, hholds, hqueue⟩ := hinput
      exact (isDue_or_deafens_pollWatch hholds hqueue (ha _ _ hholds hqueue)).imp_left
        fun h _ _ _ _ ↦ h
    · refine .inl fun registration f hholds hqueue ↦ absurd ?_ hinput
      obtain ⟨earlier, hearlier⟩ := hbefore hholds
      exact ⟨earlier, f, hearlier, hqueue⟩
  · refine .inl fun registration f hholds hqueue ↦ ?_
    obtain ⟨earlier, hearlier⟩ := hbefore hholds
    exact (ha earlier f hearlier hqueue).pollWatch_of_ne ho hq hr hn

end look

theorem IsWired.poll (hw : l.IsWired) (number : Nat) : (l.poll number).IsWired := by
  unfold EventLoop.poll
  have hdrop {entry : LoopTask α ν} (ht : l.tasks.get? number = some entry)
      (hnot : ∀ task, entry ≠ .watching task) :
      { l with tasks := l.tasks.erase number }.IsWired :=
    hw.drop fun task htask ↦ absurd (Option.some.inj (ht.symm.trans htask)) (hnot task)
  split
  · exact hw
  · next job ht => exact (hdrop ht nofun).run _ nofun
  · next job ht => exact (hdrop ht nofun).run _ nofun
  · next millis job ht =>
    split
    · exact (hdrop ht nofun).run _ nofun
    · have hasleep : { l with tasks := l.tasks.insert number (.asleep job) }.IsWired := by
        refine hw.retask (fun other entry h ↦ ?_) fun task htask _ ↦ ?_
        · rw [Table.get?_insert] at h
          split at h
          · next ho =>
            obtain rfl := Option.some.inj h
            exact .inr ⟨by simp, _, ho ▸ ht, by simp⟩
          · exact .inl h
        · rw [Table.get?_insert, if_neg, htask]
          intro he
          rw [he, ht] at htask
          cases htask
      exact hasleep.requeue l.queue _
  · next task ht => exact hw.pollWatch (hw.owns_of_get? ht)

/-- Looking at a task leaves a registration alert, or clears its readiness over input for an
error. -/
theorem IsAlert.poll (ha : l.IsAlert number) (hw : l.IsWired) (hrunning : l.running = none)
    (polled : Nat) : ({ l with queue := l.queue.erase polled }.poll polled).IsAlert number ∨
      Deafens number l ({ l with queue := l.queue.erase polled }.poll polled) := by
  have hawake {tasks : Table Nat (LoopTask α ν)} {timers : List (Nat × Nat)}
      {running : Option (Job α ν × Option (WatchTask α ν))}
      (hnot : ∀ task, l.tasks.get? polled ≠ some (.watching task))
      (ht : ∀ other, other ≠ polled → tasks.get? other = l.tasks.get? other)
      (h : l.IsAwake number) :
      { l with queue := l.queue.erase polled, tasks, timers, running }.IsAwake number := by
    obtain ⟨task, hn, ⟨htask, hq⟩ | ⟨job, hjob⟩⟩ := h
    · have hne : task.number ≠ polled := fun he ↦ hnot task (he ▸ htask)
      exact ⟨task, hn, .inl ⟨(ht _ hne).trans htask, (List.mem_erase_of_ne hne).mpr hq⟩⟩
    · rw [hrunning] at hjob
      contradiction
  have herase (other : Nat) (hne : other ≠ polled) :
      (l.tasks.erase polled).get? other = l.tasks.get? other := by
    rw [Table.get?_erase, if_neg hne]
  unfold EventLoop.poll
  split
  · next ht => exact .inl (ha.frame rfl (hawake (by simp [ht]) fun _ _ ↦ rfl))
  · next job ht => exact .inl (ha.frame rfl (hawake (by simp [ht]) herase))
  · next job ht => exact .inl (ha.frame rfl (hawake (by simp [ht]) herase))
  · next millis job ht =>
    split
    · exact .inl (ha.frame rfl (hawake (by simp [ht]) herase))
    · refine .inl (ha.frame rfl (hawake (by simp [ht]) fun other hne ↦ ?_))
      rw [Table.get?_insert, if_neg hne]
  · next task ht =>
    refine ha.pollWatch (hw.owns_of_get? ht) (fun k hk hne ↦ ?_) fun job other h ↦ ?_
    · rw [hw.named ht] at hne
      exact (List.mem_erase_of_ne hne).mpr hk
    · rw [hrunning] at h
      contradiction

/-! ### Whatever happens -/

/-- What runs goes on for the same watch. -/
theorem IsWired.goOn (hw : l.IsWired) {job : Job α ν} {owner : Option (WatchTask α ν)}
    (hrunning : l.running = some (job, owner)) (next : Job α ν) : (l.run next owner).IsWired :=
  hw.run next fun _ ho ↦ hw.owner (ho ▸ hrunning)

theorem IsAlert.goOn (ha : l.IsAlert number) {job : Job α ν} {owner : Option (WatchTask α ν)}
    (hrunning : l.running = some (job, owner)) (next : Job α ν) :
    (l.run next owner).IsAlert number := by
  refine ha.frame rfl fun ⟨task, hn, hawake⟩ ↦ ⟨task, hn, hawake.imp_right fun ⟨_, h⟩ ↦ ?_⟩
  obtain rfl := (Prod.mk.inj (Option.some.inj (hrunning.symm.trans h))).2
  exact ⟨next, rfl⟩

theorem IsWired.wake (hw : l.IsWired) (tasks : List Nat) : (l.wake tasks).IsWired :=
  hw.requeue _ _

/-- All registrations lose their reactor, and tasks that sleep are given up. -/
theorem IsWired.replace (hw : l.IsWired) (p : Nat → Bool) : { l with
    reactor := l.reactor.replace
    tasks := l.tasks.filter fun entry ↦ p entry.1 }.IsWired := by
  have hlost : { l with reactor := l.reactor.replace }.IsWired :=
    hw.track l.reactor.tracks_replace l.reactor.resembles_replace
  refine hlost.retask (fun other entry h ↦ .inl ?_)
    fun task _ ⟨registration, hregistered, hlive⟩ ↦ ?_
  · rw [Table.get?_filter l.tasks p] at h
    split at h
    · exact h
    · contradiction
  · rw [Reactor.get?_registrations_replace] at hregistered
    obtain ⟨earlier, -, rfl⟩ := Option.map_eq_some_iff.mp hregistered
    contradiction

/-- A reactor that went has no registration to be alert for. -/
theorem isAlert_of_replace (hr : l'.reactor = l.reactor.replace) (number : Nat) :
    l'.IsAlert number := by
  rintro registration f ⟨hregistered, hlive, -⟩ _
  rw [hr, Reactor.get?_registrations_replace] at hregistered
  obtain ⟨earlier, -, rfl⟩ := Option.map_eq_some_iff.mp hregistered
  contradiction

/-- A call of the job that runs keeps the tasks and the watches together, and a registration alert,
unless looking at the task of its watch clears its readiness over input for an error. -/
theorem IsWired.call (hw : l.IsWired) (hs : l.IsSound past) {job : Job α ν}
    {owner : Option (WatchTask α ν)} (hrunning : l.running = some (job, owner)) :
    (l.call owner job).IsWired ∧ (l.IsAlert number →
      (l.call owner job).IsAlert number ∨ Deafens number l (l.call owner job)) := by
  have hkeep {l' : EventLoop α ν} (hw' : l'.IsWired) (hrunning' : l'.running = l.running)
      (ha' : l.IsAlert number → l'.IsAlert number) (next : Job α ν) :
      (l'.run next owner).IsWired ∧ (l.IsAlert number →
        (l'.run next owner).IsAlert number ∨ Deafens number l (l'.run next owner)) :=
    ⟨hw'.goOn (hrunning'.trans hrunning) next, fun ha ↦
      .inl ((ha' ha).goOn (hrunning'.trans hrunning) next)⟩
  cases job with
  | done =>
    cases owner with
    | none =>
      refine ⟨hw.rest, fun ha ↦ .inl (ha.frame rfl fun ⟨task, hn, hawake⟩ ↦ ⟨task, hn, ?_⟩)⟩
      refine hawake.imp_right fun ⟨_, h⟩ ↦ ?_
      rw [hrunning] at h
      cases h
    | some task =>
      refine ⟨hw.pollWatch (hw.owner hrunning), fun ha ↦ ?_⟩
      refine ha.pollWatch (hw.owner hrunning) (fun _ hk _ ↦ hk) fun job other h ↦ ?_
      exact (Option.some.inj (Prod.mk.inj (Option.some.inj (hrunning.symm.trans h))).2).symm
  | note note next => exact hkeep (hw.log _) rfl (fun ha ↦ ha.frame rfl id) next
  | isHeld next => exact hkeep hw rfl id _
  | release next =>
    exact hkeep hw.release (running_release l) (fun _ ↦ isAlert_release hs number) next
  | post task next =>
    have hspawn : (l.spawn fun _ ↦ .once task).IsWired := hw.spawn nofun
    exact hkeep hspawn rfl (fun ha ↦ ha.frame rfl fun h ↦ h.spawn hw _) next
  | postDelayed millis task next =>
    have hspawn : (l.spawn fun _ ↦ .delayed millis task).IsWired := hw.spawn nofun
    exact hkeep hspawn rfl (fun ha ↦ ha.frame rfl fun h ↦ h.spawn hw _) next
  | watch descriptor isInside callback next =>
    cases isInside with
    | false => exact hkeep hw rfl id _
    | true =>
      obtain ⟨hwatch, halert⟩ := hw.watch descriptor callback
      exact hkeep hwatch (running_watch l descriptor callback) halert _
  | unwatch descriptor next =>
    exact hkeep (hw.unwatch descriptor) (running_cancel l descriptor)
      (fun ha ↦ (ha.cancel hw descriptor).frame rfl id) next
  | read descriptor limit next =>
    have halarms := Reactor.alarms_take hw.isNumbered descriptor limit
    exact hkeep (hw.alarm halarms) rfl (fun ha ↦ ha.alarm halarms) _
  | write descriptor units next =>
    have halarms := Reactor.alarms_arrive hw.isNumbered descriptor units
    exact hkeep (hw.alarm halarms) rfl (fun ha ↦ ha.alarm halarms) _
  | hangUp descriptor next =>
    have halarms := Reactor.alarms_excite hw.isNumbered descriptor fun f ↦
      { f with isHungUp := true }
    exact hkeep (hw.alarm halarms) rfl (fun ha ↦ ha.alarm halarms) _
  | replaceReactor next =>
    have hreplace := (hw.replace fun number ↦ !(l.timers.map Prod.snd).contains number).requeue
      l.queue []
    exact hkeep (hreplace.wake _) rfl (fun _ ↦ isAlert_of_replace rfl number) next

theorem IsWired.happens (hw : l.IsWired) (hs : l.IsSound past)
    (h : Happens Reactor.Disturbs l made l') (number : Nat) :
    l'.IsWired ∧ (l.IsAlert number → l'.IsAlert number ∨ Deafens number l l') := by
  cases h with
  | call hrunning _ => exact hw.call hs hrunning
  | poll polled hrunning =>
    exact ⟨(hw.requeue (l.queue.erase polled) l.timers).poll polled, fun ha ↦
      ha.poll hw hrunning polled⟩
  | turn _ => exact ⟨hw.turn, fun ha ↦ .inl (ha.turn hw)⟩
  | enter job hrunning =>
    refine ⟨hw.run job nofun, fun ha ↦ .inl (ha.frame rfl fun ⟨task, hn, hawake⟩ ↦ ⟨task, hn, ?_⟩)⟩
    refine hawake.imp_right fun ⟨_, h⟩ ↦ ?_
    rw [hrunning] at h
    contradiction
  | disturb reactor hr =>
    have halarms := hr.alarms hw.isNumbered
    exact ⟨hw.alarm halarms, fun ha ↦ .inl (ha.alarm halarms)⟩
  | tick clock =>
    exact ⟨⟨hw.isNumbered, hw.nodup, hw.given, hw.named, hw.owner, hw.entered, hw.placed,
      hw.attended⟩, fun ha ↦ .inl (ha.frame rfl id)⟩

theorem isWired_fresh {reactor : Reactor α} (hn : reactor.IsNumbered)
    (hr : reactor.registrations = []) : (fresh reactor : EventLoop α ν).IsWired where
  isNumbered := hn
  nodup := List.nodup_nil
  given h := by simp [fresh] at h
  named h := by simp [fresh] at h
  owner h := by simp [fresh] at h
  entered h := by simp [fresh] at h
  placed h := by simp [fresh] at h
  attended h := by simp [fresh, hr] at h

theorem Leads.isWired {reactor : Reactor α} (hn : reactor.IsNumbered)
    (hr : reactor.registrations = []) (h : Leads Reactor.Disturbs (.fresh reactor) past l) :
    l.IsWired := by
  induction h with
  | refl => exact isWired_fresh hn hr
  | next hleads hstep ih =>
    have hs := (hleads.mono fun _ _ ↦ Reactor.Disturbs.resembles).isSound hr
    exact (ih.happens hs hstep 0).1

/-- Whether the readiness of a registration was cleared over input, for an error that was not read,
on the way from `start` to a loop. -/
def WasDeafened (start : EventLoop α ν) (number : Nat) (l : EventLoop α ν) : Prop :=
  ∃ before earlier made later after, Leads Reactor.Disturbs start before earlier ∧
    Happens Reactor.Disturbs earlier made later ∧ Deafens number earlier later ∧
    Leads Reactor.Disturbs later after l

theorem Leads.isAlert_or_wasDeafened {reactor : Reactor α} (hn : reactor.IsNumbered)
    (hr : reactor.registrations = []) (h : Leads Reactor.Disturbs (.fresh reactor) past l)
    (number : Nat) : l.IsAlert number ∨ WasDeafened (.fresh reactor) number l := by
  induction h with
  | refl =>
    refine .inl fun registration f hholds _ ↦ ?_
    have hregistered := hholds.registered
    simp [fresh, hr] at hregistered
  | @next past made l l' hleads hstep ih =>
    rcases ih with ha | ⟨before, earlier, change, later, after, hbefore, hdeaf, hdeafens, hafter⟩
    · have hs := (hleads.mono fun _ _ ↦ Reactor.Disturbs.resembles).isSound hr
      refine (((hleads.isWired hn hr).happens hs hstep number).2 ha).imp_right fun hdeafens ↦ ?_
      exact ⟨_, _, _, _, _, hleads, hstep, hdeafens, .refl⟩
    · exact .inr ⟨_, _, _, _, _, hbefore, hdeaf, hdeafens, hafter.next hstep⟩

/-- What is kept of the input of a registration's file on the way from `start` to a loop. -/
structure KeepsInput (start l : EventLoop α ν) (number : Nat) (registration : Registration)
    (f : File α) : Prop where
  /-- Looking at the task of a registration that is ready finds input exactly if there is some and
  no error hides it. -/
  readable : registration.isReady = true →
    ((l.reactor.pollReadable number).1 = .readable ↔ f.queue ≠ [] ∧ f.hasFault = false)
  /-- Otherwise it clears the readiness. -/
  cleared : registration.isReady = true →
    ((l.reactor.pollReadable number).2.IsReady number ↔ f.queue ≠ [] ∧ f.hasFault = false)
  /-- Once the signals were looked at, a registration that was signalled is ready and its task is to
  run. -/
  signalled : f.queue ≠ [] → number ∈ l.reactor.signals →
    l.turn.reactor.IsReady number ∧ l.turn.IsAwake number
  /-- A callback is due while there is input, unless the readiness was cleared over input for an
  error. -/
  due : f.queue ≠ [] → l.IsDue number ∨ WasDeafened start number l

/-- Along every run, readiness is cleared exactly where a file has no input or an error that was not
read, and a callback is due for a file that has input, unless its readiness was cleared over input
for such an error. -/
theorem keepsInput_of_leads {reactor : Reactor α} (hn : reactor.IsNumbered)
    (hr : reactor.registrations = []) (h : Leads Reactor.Disturbs (.fresh reactor) past l)
    {registration : Registration} {f : File α} (hholds : l.reactor.Holds number registration f) :
    KeepsInput (.fresh reactor) l number registration f where
  readable hready := (Reactor.isReady_pollReadable hholds hready).1
  cleared hready := (Reactor.isReady_pollReadable hholds hready).2
  signalled := (h.isWired hn hr).isReady_turn hholds
  due hq := (h.isAlert_or_wasDeafened hn hr number).imp_left fun ha ↦ ha registration f hholds hq

theorem isNumbered_waitingReactor : waitingReactor.IsNumbered := by
  refine ⟨fun {descriptor file f} hf ↦ ?_, nofun⟩
  have hmem := Table.mem_of_get? hf
  simp only [waitingReactor, Reactor.openFile, Reactor.empty, Table.insert, Table.erase,
    List.filter_nil, List.mem_singleton] at hmem
  obtain ⟨-, rfl, -⟩ := Prod.mk.inj hmem |>.imp_right Prod.mk.inj
  decide

/-- The loop whose callback was replaced keeps the input for the one that replaced it. -/
theorem keepsInput_yieldingLoop :
    waitingReactor.IsNumbered ∧ waitingReactor.registrations = [] ∧
      Leads Reactor.Disturbs (.fresh waitingReactor)
        [.watched 10 notingCallback, .watched 10 yieldingCallback] (yieldingLoop 9) ∧
      (yieldingLoop 9).reactor.Holds 2 ⟨10, 0, true, false⟩ ⟨[1, 2], false, false⟩ ∧
      KeepsInput (.fresh waitingReactor) (yieldingLoop 9) 2 ⟨10, 0, true, false⟩
        ⟨[1, 2], false, false⟩ := by
  have hentered : Leads Reactor.Disturbs (.fresh waitingReactor) [] (yieldingLoop 0) :=
    Leads.refl.next (.enter _ rfl)
  have hleads := hentered.steps 9 (by decide)
  have hholds : (yieldingLoop 9).reactor.Holds 2 ⟨10, 0, true, false⟩ ⟨[1, 2], false, false⟩ :=
    ⟨rfl, rfl, rfl⟩
  exact ⟨isNumbered_waitingReactor, rfl, hleads, hholds,
    keepsInput_of_leads isNumbered_waitingReactor rfl hleads hholds⟩

/-! ### An error over input -/

/-- A loop that watches a file with input, and looks at it while an error is there. The error is
read later, and the input is not. -/
def overrunLoop : EventLoop Nat Nat :=
  let entered := (fresh waitingReactor).run (.watch 10 true notingCallback fun _ ↦ .done) none
  let broken := { entered.steps 3 with reactor := (entered.steps 3).reactor.breakDown 10 }
  { broken.steps 2 with reactor := ((broken.steps 2).reactor.take 10 1).2 }

/-- Input waits, the readiness is cleared, and no callback is due. -/
theorem not_isDue_overrunLoop :
    Leads Reactor.Disturbs (.fresh waitingReactor) [.watched 10 notingCallback] overrunLoop ∧
      overrunLoop.reactor.Holds 1 ⟨10, 0, false, false⟩ ⟨[1, 2], false, false⟩ ∧
      ¬ overrunLoop.IsDue 1 := by
  have hfresh : Leads Reactor.Disturbs (fresh waitingReactor : EventLoop Nat Nat) []
    (.fresh waitingReactor) := .refl
  have hentered := hfresh.next (.enter (.watch 10 true notingCallback fun _ ↦ .done) rfl)
  have hwatched := hentered.steps 3 (by decide)
  have hbroken := hwatched.next (.disturb _ (.brokeDown _ 10))
  have hcleared := hbroken.steps 2 (by decide)
  refine ⟨hcleared.next (.disturb _ (.taken _ 10 1)), ⟨rfl, rfl, rfl⟩, ?_⟩
  rintro (hs | ⟨⟨registration, hregistered, hready⟩, -⟩)
  · exact absurd hs (by decide)
  · have hsame : overrunLoop.reactor.registrations.get? 1 = some ⟨10, 0, false, false⟩ := rfl
    obtain rfl := Option.some.inj (hsame.symm.trans hregistered)
    contradiction

end EventLoop

end WifiNetlink
