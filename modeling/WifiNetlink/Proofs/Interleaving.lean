import WifiNetlink.Loop.Scheduler

/-!
# Interleavings of an event loop

What may happen on an event loop, in any order: the code that runs makes its next call, some task is
looked at, signals and timers are looked at, code is entered from outside, time goes on, and the
system changes its files and what it tells of them. The calls that change what is watched are kept
beside it. Which changes of the system are meant is left open.
-/

namespace WifiNetlink

variable {α ν : Type}

/-! ### Calls that change what is watched -/

/-- A call that changes what is watched. -/
inductive WatchCall (α ν : Type) where
  /-- A descriptor is watched from now on. -/
  | watched (descriptor : Int) (callback : List ν → Int → Job α ν)
  /-- A descriptor is watched no more: by intention, or since it could not be watched anew. -/
  | unwatched (descriptor : Int)
  /-- The loop is dropped. -/
  | released

/-- The callback of the last watch of a descriptor, if no later call has ended it. The latest call
stands first. -/
def WatchCall.current? (descriptor : Int) :
    List (WatchCall α ν) → Option (List ν → Int → Job α ν)
  | [] => none
  | .watched d callback :: past =>
    if d = descriptor then some callback else current? descriptor past
  | .unwatched d :: past => if d = descriptor then none else current? descriptor past
  | .released :: _ => none

/-- Whether the next call of a job is one of the event loop, which has to be there for it. -/
def Job.needsLoop : Job α ν → Bool
  | .release _ | .post _ _ | .postDelayed _ _ _ | .watch _ _ _ _ | .unwatch _ _ => true
  | _ => false

namespace EventLoop

/-- What the next call of a job changes of what is watched. Outside of a running loop a watch is
refused, and nothing changes. -/
def watchCall? (l : EventLoop α ν) : Job α ν → Option (WatchCall α ν)
  | .watch descriptor isInside callback _ =>
    if isInside then
      some (if (l.watch descriptor callback).1 then .watched descriptor callback
        else .unwatched descriptor)
    else none
  | .unwatch descriptor _ => some (.unwatched descriptor)
  | .release _ => some .released
  | _ => none

/-! ### What happens -/

/-- One thing happens on a loop, with the calls that change what is watched. The reactor changes by
itself as `E` says. A task may be looked at whether or not it was woken. -/
inductive Happens (E : Reactor α → Reactor α → Prop) :
    EventLoop α ν → List (WatchCall α ν) → EventLoop α ν → Prop where
  | call {l : EventLoop α ν} {job : Job α ν} {owner : Option (WatchTask α ν)} :
    l.running = some (job, owner) → (job.needsLoop = true → l.isHeld = true) →
      Happens E l (l.watchCall? job).toList (l.call owner job)
  | poll {l : EventLoop α ν} (number : Nat) : l.running = none →
    Happens E l [] ({ l with queue := l.queue.erase number }.poll number)
  | turn {l : EventLoop α ν} : l.running = none → Happens E l [] l.turn
  | enter {l : EventLoop α ν} (job : Job α ν) : l.running = none → Happens E l [] (l.run job none)
  | disturb {l : EventLoop α ν} (reactor : Reactor α) : E l.reactor reactor →
    Happens E l [] { l with reactor }
  | tick {l : EventLoop α ν} (clock : Nat) : Happens E l [] { l with clock }

/-- What happens on a loop leads from `start` to it, with the calls that changed what is watched on
the way, the latest first. -/
inductive Leads (E : Reactor α → Reactor α → Prop) (start : EventLoop α ν) :
    List (WatchCall α ν) → EventLoop α ν → Prop where
  | refl : Leads E start [] start
  | next {past made : List (WatchCall α ν)} {l l' : EventLoop α ν} :
    Leads E start past l → Happens E l made l' → Leads E start (made ++ past) l'

variable {E E' : Reactor α → Reactor α → Prop} {start l l' : EventLoop α ν}
  {past made : List (WatchCall α ν)}

theorem Happens.mono (hE : ∀ r r', E r r' → E' r r') (h : Happens E l made l') :
    Happens E' l made l' := by
  cases h with
  | call hrunning hheld => exact .call hrunning hheld
  | poll number hrunning => exact .poll number hrunning
  | turn hrunning => exact .turn hrunning
  | enter job hrunning => exact .enter job hrunning
  | disturb reactor hr => exact .disturb reactor (hE _ _ hr)
  | tick clock => exact .tick clock

theorem Leads.mono (hE : ∀ r r', E r r' → E' r r') (h : Leads E start past l) :
    Leads E' start past l := by
  induction h with
  | refl => exact .refl
  | next _ hstep ih => exact ih.next (hstep.mono hE)

/-! ### The loop's own steps -/

/-- What the loop's own next step changes of what is watched. -/
def nextCalls (l : EventLoop α ν) : List (WatchCall α ν) :=
  match l.running with
  | some (job, _) => (l.watchCall? job).toList
  | none => []

/-- What a number of the loop's own steps changes of what is watched, the latest change first. -/
def calls : (count : Nat) → EventLoop α ν → List (WatchCall α ν)
  | 0, _ => []
  | count + 1, l => if l.isIdle then [] else calls count l.step ++ l.nextCalls

/-- The own next step of a loop that is held is one of the things that may happen. -/
theorem happens_step (hheld : l.isHeld = true) : Happens E l l.nextCalls l.step := by
  cases hrunning : l.running with
  | some running =>
    obtain ⟨job, owner⟩ := running
    simp only [step, nextCalls, hrunning]
    exact .call hrunning fun _ ↦ hheld
  | none =>
    cases hqueue : l.queue with
    | nil =>
      simp only [step, nextCalls, hrunning, hqueue]
      exact .turn hrunning
    | cons number queue =>
      have hpoll := Happens.poll (E := E) number hrunning
      rw [hqueue, List.erase_cons_head] at hpoll
      simpa only [step, nextCalls, hrunning, hqueue] using hpoll

/-- The own steps of a loop that stays held are a run of it. -/
theorem Leads.steps (count : Nat) (h : Leads E start past l)
    (hheld : ∀ k < count, (l.steps k).isHeld = true) :
    Leads E start (l.calls count ++ past) (l.steps count) := by
  induction count generalizing l past with
  | zero => exact h
  | succ count ih =>
    by_cases hi : l.isIdle = true
    · simpa only [EventLoop.steps, calls, hi, if_true, List.nil_append] using h
    · have hsteps (k : Nat) : l.steps (k + 1) = l.step.steps k := if_neg hi
      have hcalls : l.calls (count + 1) = l.step.calls count ++ l.nextCalls := if_neg hi
      have hstep := ih (h.next (happens_step (hheld 0 (Nat.succ_pos _)))) fun k hk ↦
        (congrArg isHeld (hsteps k)).symm.trans (hheld (k + 1) (Nat.succ_lt_succ hk))
      rwa [← List.append_assoc, ← hcalls, ← hsteps] at hstep

end EventLoop

/-! ### What a reactor's changes leave alone -/

namespace Reactor

variable {r r' r'' : Reactor α}

/-- Whether a reactor has the same registrations of the same descriptors as another, and gives out
later numbers. Files, signals and readiness may differ. -/
structure Resembles (r r' : Reactor α) : Prop where
  nextNumber : r.nextNumber ≤ r'.nextNumber
  descriptors (number : Nat) : (r'.registrations.get? number).map Registration.descriptor =
    (r.registrations.get? number).map Registration.descriptor

namespace Resembles

theorem refl (r : Reactor α) : r.Resembles r := ⟨Nat.le_refl _, fun _ ↦ rfl⟩

theorem trans (h : r.Resembles r') (h' : r'.Resembles r'') : r.Resembles r'' :=
  ⟨Nat.le_trans h.nextNumber h'.nextNumber, fun number ↦ (h'.descriptors number).trans
    (h.descriptors number)⟩

/-- A change that leaves all registrations as they are. -/
theorem of_eq (hn : r.nextNumber ≤ r'.nextNumber) (hr : r'.registrations = r.registrations) :
    r.Resembles r' :=
  ⟨hn, fun _ ↦ by rw [hr]⟩

/-- A registration of the later reactor is one of the earlier. -/
theorem exists_registration (h : r.Resembles r') {number : Nat} {registration : Registration}
    (hr : r'.registrations.get? number = some registration) :
    ∃ earlier, r.registrations.get? number = some earlier ∧
      earlier.descriptor = registration.descriptor := by
  have hd := h.descriptors number
  rw [hr] at hd
  obtain ⟨earlier, he, hdescriptor⟩ := Option.map_eq_some_iff.mp hd.symm
  exact ⟨earlier, he, hdescriptor⟩

end Resembles

theorem registrations_excite (r : Reactor α) (descriptor : Int) (change : File α → File α) :
    (r.excite descriptor change).registrations = r.registrations ∧
      (r.excite descriptor change).nextNumber = r.nextNumber := by
  unfold excite
  split <;> exact ⟨rfl, rfl⟩

theorem registrations_arrive (r : Reactor α) (descriptor : Int) (units : List α) :
    (r.arrive descriptor units).registrations = r.registrations ∧
      (r.arrive descriptor units).nextNumber = r.nextNumber := by
  unfold arrive
  split
  · exact ⟨rfl, rfl⟩
  · exact registrations_excite r descriptor _

theorem registrations_take (r : Reactor α) (descriptor : Int) (limit : Nat) :
    (r.take descriptor limit).2.registrations = r.registrations ∧
      (r.take descriptor limit).2.nextNumber = r.nextNumber := by
  unfold take
  split
  · exact ⟨rfl, rfl⟩
  · split <;> exact ⟨rfl, rfl⟩

/-- What registering a descriptor does, if it is not refused. -/
theorem register_eq_some {descriptor : Int} {number : Nat}
    (h : r.register descriptor = (some number, r')) :
    ∃ file f, r.files.get? descriptor = some (file, f) ∧ number = r.nextNumber ∧
      r' = { r with
        registrations := r.registrations.insert r.nextNumber ⟨descriptor, file, false, false⟩
        signals := if f.events = 0 then r.signals else r.signals ++ [r.nextNumber]
        nextNumber := r.nextNumber + 1 } := by
  unfold register at h
  split at h
  · cases h
  · next file f hf =>
    split at h
    · cases h
      exact ⟨file, f, hf, rfl, rfl⟩
    · cases h

theorem resembles_setReady (r : Reactor α) (number : Nat) (isReady : Bool) :
    r.Resembles (r.setReady number isReady) := by
  unfold setReady
  split
  · exact .refl r
  · next registration hr =>
    refine ⟨Nat.le_refl _, fun other ↦ ?_⟩
    by_cases ho : other = number
    · subst ho
      simp only [Table.get?_insert, if_true, hr, Option.map_some]
    · simp only [Table.get?_insert, ho, if_false]

theorem resembles_foldl_setReady (numbers : List Nat) (isReady : Bool) (r : Reactor α) :
    r.Resembles (numbers.foldl (·.setReady · isReady) r) := by
  induction numbers generalizing r with
  | nil => exact .refl r
  | cons number numbers ih => exact (resembles_setReady r number isReady).trans (ih _)

theorem resembles_harvest (r : Reactor α) : r.Resembles r.harvest.2 := by
  have hcleared : r.Resembles { r with signals := [] } := .of_eq (Nat.le_refl _) rfl
  exact hcleared.trans (resembles_foldl_setReady _ true _)

theorem resembles_pollReadable (r : Reactor α) (number : Nat) :
    r.Resembles (r.pollReadable number).2 := by
  unfold pollReadable
  split
  · exact .refl r
  · split
    · exact .refl r
    · split
      · split
        · exact .refl r
        · exact resembles_setReady r number false
      · exact .refl r

theorem get?_registrations_replace (r : Reactor α) (number : Nat) :
    r.replace.registrations.get? number =
      (r.registrations.get? number).map
        fun registration ↦ { registration with isLost := true } := by
  simp only [replace]
  induction r.registrations with
  | nil => rfl
  | cons entry registrations ih =>
    obtain ⟨key, registration⟩ := entry
    simp only [Table.get?] at ih ⊢
    by_cases hk : number = key
    · simp [hk]
    · simp [List.lookup_cons, beq_false_of_ne hk, ih]

theorem resembles_replace (r : Reactor α) : r.Resembles r.replace :=
  ⟨Nat.le_refl _, fun number ↦ by
    rw [get?_registrations_replace, Option.map_map]
    rfl⟩

end Reactor

end WifiNetlink
