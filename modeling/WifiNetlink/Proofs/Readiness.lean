import WifiNetlink.Proofs.Interleaving

/-!
# Readiness of registrations

What the system does to files is signalled to whoever registered them, as far as there may be input.
Waiting for a registration that is ready clears its readiness exactly if its file has no input or an
error that was not read: an error hides the input that is there. Nothing else clears it.
-/

namespace WifiNetlink

variable {α : Type}

/-! ### The events of a file -/

theorem File.events_ne_zero_of_queue {f : File α} (hq : f.queue ≠ []) : f.events ≠ 0 := by
  obtain ⟨queue, hasFault, isHungUp⟩ := f
  cases queue with
  | nil => contradiction
  | cons unit queue => cases hasFault <;> cases isHungUp <;> simp [events, Poll.inputEvent,
      Poll.errorEvent, Poll.hangUpEvent]

/-- Waiting on a file finds input exactly if there is some and no error hides it. -/
theorem File.isReadable_events (f : File α) :
    (Poll.Answer.reported f.events).isReadable = .ok true ↔ f.queue ≠ [] ∧ f.hasFault = false := by
  obtain ⟨queue, hasFault, isHungUp⟩ := f
  cases queue <;> cases hasFault <;> cases isHungUp <;>
    simp [events, Poll.Answer.isReadable, Poll.inputEvent, Poll.errorEvent, Poll.hangUpEvent,
      Poll.invalidEvent]

namespace Reactor

/-! ### What the system does -/

/-- Whether a registration is there, with its reactor, and its descriptor stands for the file that
it was made for, which is `f`. -/
structure Holds (r : Reactor α) (number : Nat) (registration : Registration) (f : File α) :
    Prop where
  registered : r.registrations.get? number = some registration
  isLive : registration.isLost = false
  isOpen : r.files.get? registration.descriptor = some (registration.file, f)

/-- The system does something to a file. -/
inductive Disturbs : Reactor α → Reactor α → Prop where
  | opened (r : Reactor α) (descriptor : Int) (f : File α) : Disturbs r (r.openFile descriptor f)
  | closed (r : Reactor α) (descriptor : Int) :
    Disturbs r { r with files := r.files.erase descriptor }
  | arrived (r : Reactor α) (descriptor : Int) (units : List α) :
    Disturbs r (r.arrive descriptor units)
  | brokeDown (r : Reactor α) (descriptor : Int) : Disturbs r (r.breakDown descriptor)
  | hungUp (r : Reactor α) (descriptor : Int) : Disturbs r (r.hangUp descriptor)
  | taken (r : Reactor α) (descriptor : Int) (limit : Nat) :
    Disturbs r (r.take descriptor limit).2

/-- Whether the numbers of files and registrations were given out. -/
structure IsNumbered (r : Reactor α) : Prop where
  files {descriptor : Int} {file : Nat} {f : File α} :
    r.files.get? descriptor = some (file, f) → file < r.nextNumber
  registrations {number : Nat} {registration : Registration} :
    r.registrations.get? number = some registration →
      number < r.nextNumber ∧ registration.file < r.nextNumber

/-- Whether a later reactor has the same registrations, and tells of the input of their files: it is
signalled, or was there before. -/
structure Alarms (r r' : Reactor α) : Prop where
  registrations : r'.registrations = r.registrations
  nextNumber : r.nextNumber ≤ r'.nextNumber
  signals {number : Nat} : number ∈ r.signals → number ∈ r'.signals
  told {number : Nat} {registration : Registration} {f' : File α} :
    r'.Holds number registration f' → f'.queue ≠ [] →
      number ∈ r'.signals ∨ ∃ f, r.Holds number registration f ∧ f.queue ≠ []
  isNumbered : r'.IsNumbered

variable {r r' : Reactor α}

theorem mem_listeners {number : Nat} {registration : Registration} {f : File α}
    (h : r.Holds number registration f) : number ∈ r.listeners registration.file := by
  simp only [listeners, List.mem_reverse, List.mem_map, List.mem_filter]
  exact ⟨(number, registration), ⟨Table.mem_of_get? h.registered, by simp [listens, h.isLive]⟩, rfl⟩

/-- A file changes in place, without more input in it. -/
private theorem alarms_insert (hn : r.IsNumbered) {descriptor : Int} {file : Nat} {f f' : File α}
    (hf : r.files.get? descriptor = some (file, f)) (hq : f'.queue ≠ [] → f.queue ≠ []) :
    r.Alarms { r with files := r.files.insert descriptor (file, f') } where
  registrations := rfl
  nextNumber := Nat.le_refl _
  signals h := h
  told {number registration g} hholds hg := by
    obtain ⟨hregistered, hlive, hopen⟩ := hholds
    rw [Table.get?_insert] at hopen
    split at hopen
    · next hd =>
      obtain ⟨rfl, rfl⟩ := Prod.mk.inj (Option.some.inj hopen)
      exact .inr ⟨f, ⟨hregistered, hlive, hd ▸ hf⟩, hq hg⟩
    · exact .inr ⟨g, ⟨hregistered, hlive, hopen⟩, hg⟩
  isNumbered := by
    refine ⟨fun {d k g} hg ↦ ?_, hn.registrations⟩
    rw [Table.get?_insert] at hg
    split at hg
    · obtain ⟨rfl, rfl⟩ := Prod.mk.inj (Option.some.inj hg)
      exact hn.files hf
    · exact hn.files hg

theorem Alarms.resembles (h : r.Alarms r') : r.Resembles r' :=
  .of_eq h.nextNumber h.registrations

theorem alarms_excite (hn : r.IsNumbered) (descriptor : Int) (change : File α → File α) :
    r.Alarms (r.excite descriptor change) := by
  unfold excite
  split
  · exact ⟨rfl, Nat.le_refl _, id, fun hholds hq ↦ .inr ⟨_, hholds, hq⟩, hn⟩
  · next file f hf =>
    refine ⟨rfl, Nat.le_refl _, List.mem_append_left _, fun {number registration g} hholds hg ↦ ?_,
      fun {d k g} hg ↦ ?_, hn.registrations⟩
    · obtain ⟨hregistered, hlive, hopen⟩ := hholds
      rw [Table.get?_insert] at hopen
      split at hopen
      · next hd =>
        obtain ⟨rfl, rfl⟩ := Prod.mk.inj (Option.some.inj hopen)
        have hlisteners := mem_listeners (r := r) ⟨hregistered, hlive, hd ▸ hf⟩
        left
        by_cases hs : number ∈ r.signals
        · exact List.mem_append_left _ hs
        · exact List.mem_append_right _ (List.mem_filter.mpr ⟨hlisteners, by simpa using hs⟩)
      · exact .inr ⟨g, ⟨hregistered, hlive, hopen⟩, hg⟩
    · rw [Table.get?_insert] at hg
      split at hg
      · obtain ⟨rfl, rfl⟩ := Prod.mk.inj (Option.some.inj hg)
        exact hn.files hf
      · exact hn.files hg

theorem alarms_arrive (hn : r.IsNumbered) (descriptor : Int) (units : List α) :
    r.Alarms (r.arrive descriptor units) := by
  unfold arrive
  split
  · exact ⟨rfl, Nat.le_refl _, id, fun hholds hq ↦ .inr ⟨_, hholds, hq⟩, hn⟩
  · exact alarms_excite hn descriptor _

theorem alarms_take (hn : r.IsNumbered) (descriptor : Int) (limit : Nat) :
    r.Alarms (r.take descriptor limit).2 := by
  unfold take
  split
  · exact ⟨rfl, Nat.le_refl _, id, fun hholds hq ↦ .inr ⟨_, hholds, hq⟩, hn⟩
  · next file f hf =>
    split
    · exact alarms_insert hn hf id
    · exact alarms_insert hn hf fun hdrop hq ↦ hdrop (by simp [hq])

/-- Whatever the system does to files, the input of registered ones is told. -/
theorem Disturbs.alarms (h : Disturbs r r') (hn : r.IsNumbered) : r.Alarms r' := by
  cases h with
  | opened descriptor f =>
    refine ⟨rfl, Nat.le_succ _, id, fun {number registration g} hholds hg ↦ ?_,
      fun {d k g} hg ↦ ?_, fun hregistered ↦ (hn.registrations hregistered).imp Nat.lt_succ_of_lt
        Nat.lt_succ_of_lt⟩
    · obtain ⟨hregistered, hlive, hopen⟩ := hholds
      simp only [openFile, Table.get?_insert] at hopen
      split at hopen
      · obtain ⟨hfile, -⟩ := Prod.mk.inj (Option.some.inj hopen)
        exact absurd (hn.registrations hregistered).2 (by omega)
      · exact .inr ⟨g, ⟨hregistered, hlive, hopen⟩, hg⟩
    · simp only [openFile, Table.get?_insert] at hg
      split at hg
      · obtain ⟨rfl, -⟩ := Prod.mk.inj (Option.some.inj hg)
        exact Nat.lt_succ_self _
      · exact Nat.lt_succ_of_lt (hn.files hg)
  | closed descriptor =>
    refine ⟨rfl, Nat.le_refl _, id, fun {number registration g} hholds hg ↦ ?_,
      fun {d k g} hg ↦ ?_, hn.registrations⟩
    · obtain ⟨hregistered, hlive, hopen⟩ := hholds
      rw [Table.get?_erase] at hopen
      split at hopen
      · contradiction
      · exact .inr ⟨g, ⟨hregistered, hlive, hopen⟩, hg⟩
    · rw [Table.get?_erase] at hg
      split at hg
      · contradiction
      · exact hn.files hg
  | arrived descriptor units => exact alarms_arrive hn descriptor units
  | brokeDown descriptor => exact alarms_excite hn descriptor _
  | hungUp descriptor => exact alarms_excite hn descriptor _
  | taken descriptor limit => exact alarms_take hn descriptor limit

theorem Disturbs.resembles (h : Disturbs r r') : r.Resembles r' := by
  cases h with
  | opened descriptor f => exact .of_eq (Nat.le_succ _) rfl
  | closed descriptor => exact .of_eq (Nat.le_refl _) rfl
  | arrived descriptor units =>
    obtain ⟨hregistrations, hnext⟩ := r.registrations_arrive descriptor units
    exact .of_eq (Nat.le_of_eq hnext.symm) hregistrations
  | brokeDown descriptor =>
    obtain ⟨hregistrations, hnext⟩ := r.registrations_excite descriptor _
    exact .of_eq (Nat.le_of_eq hnext.symm) hregistrations
  | hungUp descriptor =>
    obtain ⟨hregistrations, hnext⟩ := r.registrations_excite descriptor _
    exact .of_eq (Nat.le_of_eq hnext.symm) hregistrations
  | taken descriptor limit =>
    obtain ⟨hregistrations, hnext⟩ := r.registrations_take descriptor limit
    exact .of_eq (Nat.le_of_eq hnext.symm) hregistrations

/-! ### What looking at signals and waiting do to readiness -/

/-- Whether a registration is ready. -/
def IsReady (r : Reactor α) (number : Nat) : Prop :=
  ∃ registration, r.registrations.get? number = some registration ∧ registration.isReady = true

/-- Whether a later reactor has the same files, signals no less, and its registrations differ in
readiness only, or are lost. -/
structure Tracks (r r' : Reactor α) : Prop where
  files : r'.files = r.files
  nextNumber : r'.nextNumber = r.nextNumber
  tracked {number : Nat} {registration : Registration} :
    r'.registrations.get? number = some registration → ∃ earlier,
      r.registrations.get? number = some earlier ∧ earlier.descriptor = registration.descriptor ∧
        earlier.file = registration.file ∧ (registration.isLost = false → earlier.isLost = false)

theorem Tracks.refl (r : Reactor α) : r.Tracks r :=
  ⟨rfl, rfl, fun h ↦ ⟨_, h, rfl, rfl, id⟩⟩

theorem Tracks.trans {r'' : Reactor α} (h : r.Tracks r') (h' : r'.Tracks r'') : r.Tracks r'' := by
  refine ⟨h'.files.trans h.files, h'.nextNumber.trans h.nextNumber, fun hregistered ↦ ?_⟩
  obtain ⟨middle, hm, hdm, hfm, hlm⟩ := h'.tracked hregistered
  obtain ⟨earlier, he, hd, hf, hl⟩ := h.tracked hm
  exact ⟨earlier, he, hd.trans hdm, hf.trans hfm, hl ∘ hlm⟩

theorem Tracks.isNumbered (h : r.Tracks r') (hn : r.IsNumbered) : r'.IsNumbered := by
  refine ⟨fun hf ↦ ?_, fun hregistered ↦ ?_⟩
  · rw [h.files] at hf
    exact h.nextNumber ▸ hn.files hf
  · obtain ⟨earlier, he, -, hfile, -⟩ := h.tracked hregistered
    rw [h.nextNumber, ← hfile]
    exact hn.registrations he

/-- What is held was held before. -/
theorem Tracks.holds (h : r.Tracks r') {number : Nat} {registration : Registration} {f : File α}
    (hholds : r'.Holds number registration f) : ∃ earlier, r.Holds number earlier f ∧
      earlier.descriptor = registration.descriptor ∧ earlier.file = registration.file := by
  obtain ⟨earlier, he, hd, hfile, hl⟩ := h.tracked hholds.registered
  refine ⟨earlier, ⟨he, hl hholds.isLive, ?_⟩, hd, hfile⟩
  rw [hd, hfile, ← h.files]
  exact hholds.isOpen

theorem get?_registrations_setReady (r : Reactor α) (number other : Nat) (isReady : Bool) :
    (r.setReady number isReady).registrations.get? other =
      if other = number then
        (r.registrations.get? number).map fun registration ↦ { registration with isReady }
      else r.registrations.get? other := by
  unfold setReady
  split
  · next hnone =>
    split
    · next ho => rw [ho, hnone, Option.map_none]
    · rfl
  · next registration hr =>
    rw [Table.get?_insert, hr, Option.map_some]

theorem tracks_setReady (r : Reactor α) (number : Nat) (isReady : Bool) :
    r.Tracks (r.setReady number isReady) := by
  refine ⟨?_, ?_, fun {other registration} hregistered ↦ ?_⟩
  · unfold setReady
    split <;> rfl
  · unfold setReady
    split <;> rfl
  · rw [get?_registrations_setReady] at hregistered
    split at hregistered
    · next ho =>
      obtain ⟨earlier, he, rfl⟩ := Option.map_eq_some_iff.mp hregistered
      exact ⟨earlier, ho ▸ he, rfl, rfl, id⟩
    · exact ⟨registration, hregistered, rfl, rfl, id⟩

theorem signals_setReady (r : Reactor α) (number : Nat) (isReady : Bool) :
    (r.setReady number isReady).signals = r.signals := by
  unfold setReady
  split <;> rfl

theorem isReady_setReady_of_ne {number other : Nat} (hne : other ≠ number) (isReady : Bool) :
    (r.setReady number isReady).IsReady other ↔ r.IsReady other := by
  simp only [IsReady, get?_registrations_setReady, if_neg hne]

theorem isReady_setReady_true {number : Nat}
    (hr : (r.registrations.get? number).isSome = true) :
    (r.setReady number true).IsReady number := by
  obtain ⟨registration, hregistration⟩ := Option.isSome_iff_exists.mp hr
  exact ⟨_, by rw [get?_registrations_setReady, if_pos rfl, hregistration, Option.map_some], rfl⟩

/-- What is ready stays ready while others become so. -/
theorem IsReady.setReady_true {number other : Nat} (h : r.IsReady other) :
    (r.setReady number true).IsReady other := by
  by_cases ho : other = number
  · subst ho
    obtain ⟨registration, hregistration, -⟩ := h
    exact isReady_setReady_true (by rw [hregistration, Option.isSome_some])
  · exact (isReady_setReady_of_ne ho true).mpr h

theorem tracks_foldl_setReady (numbers : List Nat) (isReady : Bool) (r : Reactor α) :
    r.Tracks (numbers.foldl (·.setReady · isReady) r) := by
  induction numbers generalizing r with
  | nil => exact .refl r
  | cons number numbers ih => exact (tracks_setReady r number isReady).trans (ih _)

theorem IsReady.foldl_setReady_true {number : Nat} (numbers : List Nat) (h : r.IsReady number) :
    (numbers.foldl (·.setReady · true) r).IsReady number := by
  induction numbers generalizing r with
  | nil => exact h
  | cons other numbers ih => exact ih h.setReady_true

theorem isReady_foldl_setReady_true {number : Nat} {numbers : List Nat} (hn : number ∈ numbers)
    (hr : (r.registrations.get? number).isSome = true) :
    (numbers.foldl (·.setReady · true) r).IsReady number := by
  induction numbers generalizing r with
  | nil => contradiction
  | cons other numbers ih =>
    by_cases ho : number = other
    · subst ho
      exact (isReady_setReady_true hr).foldl_setReady_true numbers
    · refine ih (List.mem_of_ne_of_mem ho hn) ?_
      rwa [get?_registrations_setReady, if_neg ho]

theorem tracks_harvest (r : Reactor α) : r.Tracks r.harvest.2 := by
  have hcleared : r.Tracks { r with signals := [] } := ⟨rfl, rfl, fun h ↦ ⟨_, h, rfl, rfl, id⟩⟩
  exact hcleared.trans (tracks_foldl_setReady _ true _)

/-- Looking at the signals makes nothing less ready. -/
theorem IsReady.harvest {number : Nat} (h : r.IsReady number) : r.harvest.2.IsReady number := by
  have hcleared : ({ r with signals := [] } : Reactor α).IsReady number := h
  exact hcleared.foldl_setReady_true _

/-- A registration that is signalled and has input is told and ready after the signals were looked
at. -/
theorem Holds.harvest {number : Nat} {registration : Registration} {f : File α}
    (h : r.Holds number registration f) (hq : f.queue ≠ []) (hs : number ∈ r.signals) :
    number ∈ r.harvest.1 ∧ r.harvest.2.IsReady number := by
  have hmem : number ∈ r.signals.filter r.isEventful := by
    refine List.mem_filter.mpr ⟨hs, ?_⟩
    simp [isEventful, h.registered, h.isOpen, File.events_ne_zero_of_queue hq]
  refine ⟨hmem, isReady_foldl_setReady_true hmem ?_⟩
  exact (congrArg Option.isSome h.registered).trans rfl

/-! ### Waiting for a registration -/

/-- What waiting for a registration that stands for an open file does. -/
theorem pollReadable_of_holds {number : Nat} {registration : Registration} {f : File α}
    (h : r.Holds number registration f) : r.pollReadable number =
      if registration.isReady = true then
        if f.queue ≠ [] ∧ f.hasFault = false then (.readable, r)
        else (.waiting, r.setReady number false)
      else (.waiting, r) := by
  have hevents : r.events registration.descriptor = f.events := by simp [events, h.isOpen]
  simp only [pollReadable, h.registered, h.isLive, hevents, Bool.false_eq_true, if_false]
  split
  · split
    · next hreadable => rw [if_pos ((File.isReadable_events f).mp hreadable)]
    · next hreadable => rw [if_neg fun hf ↦ hreadable ((File.isReadable_events f).mpr hf)]
  · rfl

/-- Waiting for a registration that is ready finds input exactly if there is some and no error hides
it; otherwise it clears the readiness. -/
theorem isReady_pollReadable {number : Nat} {registration : Registration} {f : File α}
    (h : r.Holds number registration f) (hready : registration.isReady = true) :
    ((r.pollReadable number).1 = .readable ↔ f.queue ≠ [] ∧ f.hasFault = false) ∧
      ((r.pollReadable number).2.IsReady number ↔ f.queue ≠ [] ∧ f.hasFault = false) := by
  rw [pollReadable_of_holds h, if_pos hready]
  by_cases hf : f.queue ≠ [] ∧ f.hasFault = false
  · rw [if_pos hf]
    exact ⟨iff_of_true rfl hf, iff_of_true ⟨registration, h.registered, hready⟩ hf⟩
  · rw [if_neg hf]
    refine ⟨iff_of_false nofun hf, iff_of_false ?_ hf⟩
    rintro ⟨cleared, hcleared, hisReady⟩
    rw [get?_registrations_setReady, if_pos rfl, h.registered] at hcleared
    obtain rfl := Option.some.inj hcleared
    contradiction

/-- Waiting for a registration that is gone, or whose reactor is, tells so. -/
theorem isLost_of_gone {number : Nat} (h : (r.pollReadable number).1 = .gone)
    {registration : Registration} (hr : r.registrations.get? number = some registration) :
    registration.isLost = true := by
  simp only [pollReadable, hr] at h
  split at h
  · assumption
  · split at h
    · split at h <;> contradiction
    · contradiction

theorem tracks_replace (r : Reactor α) : r.Tracks r.replace := by
  refine ⟨rfl, rfl, fun {number registration} hregistered ↦ ?_⟩
  rw [get?_registrations_replace] at hregistered
  obtain ⟨earlier, he, rfl⟩ := Option.map_eq_some_iff.mp hregistered
  exact ⟨earlier, he, rfl, rfl, nofun⟩

theorem tracks_pollReadable (r : Reactor α) (number : Nat) :
    r.Tracks (r.pollReadable number).2 := by
  unfold pollReadable
  split
  · exact .refl r
  · split
    · exact .refl r
    · split
      · split
        · exact .refl r
        · exact tracks_setReady r number false
      · exact .refl r

theorem signals_pollReadable (r : Reactor α) (number : Nat) :
    (r.pollReadable number).2.signals = r.signals := by
  unfold pollReadable
  split
  · rfl
  · split
    · rfl
    · split
      · split
        · rfl
        · exact signals_setReady r number false
      · rfl

theorem isReady_pollReadable_of_ne {number other : Nat} (hne : other ≠ number) :
    (r.pollReadable number).2.IsReady other ↔ r.IsReady other := by
  unfold pollReadable
  split
  · rfl
  · split
    · rfl
    · split
      · split
        · rfl
        · exact isReady_setReady_of_ne hne false
      · rfl

end Reactor

end WifiNetlink
