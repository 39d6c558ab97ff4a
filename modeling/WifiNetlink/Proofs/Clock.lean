import WifiNetlink.Proofs.Journal

/-!
# Time in a journal

A journal tells which exchanges are under way and how long each has waited. If each wait is given
what is left of the budget of the exchange that waits, and the clock goes on in waits only and in
none for longer than it may take, the waits of an exchange take its budget at most.
-/

namespace WifiNetlink

variable {ν : Type}

/-- The time of an exchange whose request was sent. -/
structure Meter where
  /-- The first instant that was read after its request was sent. -/
  begun : Nat
  /-- The time that it has waited. -/
  spent : Nat
  /-- The time that exchanges waited which were begun while it went on. -/
  elsewhere : Nat

/-- An exchange under way. -/
structure Wait where
  sequence : UInt32
  /-- Its time, once its request is sent. -/
  meter : Option Meter

namespace Wait

/-- What does not depend on how long it has waited. -/
def key (w : Wait) : UInt32 × Option Nat := (w.sequence, w.meter.map Meter.begun)

/-- The exchange after an instant is read. -/
def read (instant : Nat) (w : Wait) : Wait := { w with meter := w.meter.or (some ⟨instant, 0, 0⟩) }

/-- The exchange after it has waited. -/
def spend (time : Nat) (w : Wait) : Wait :=
  { w with meter := w.meter.map fun t ↦ { t with spent := t.spent + time } }

/-- The exchange after another one inside it has waited. -/
def pass (time : Nat) (w : Wait) : Wait :=
  { w with meter := w.meter.map fun t ↦ { t with elsewhere := t.elsewhere + time } }

@[simp] theorem key_spend (time : Nat) (w : Wait) : (w.spend time).key = w.key := by
  simp [key, spend, Function.comp_def]

@[simp] theorem key_pass (time : Nat) (w : Wait) : (w.pass time).key = w.key := by
  simp [key, pass, Function.comp_def]

/-- Reading an instant changes nothing once the request is sent. -/
theorem read_of_key {instant begun : Nat} {w : Wait} (h : w.key.2 = some begun) :
    w.read instant = w := by
  obtain ⟨sequence, meter⟩ := w
  cases meter with
  | none => contradiction
  | some t => rfl

end Wait

namespace Journal

section took

-- How long the last wait of a journal took.
variable (took : Journal ν → Nat)

/-- The exchanges under way, the one that was begun last first. -/
def waits : Journal ν → List Wait
  | [] => []
  | .exchangeBegan sequence :: earlier => ⟨sequence, none⟩ :: waits earlier
  | .exchangeEnded sequence _ :: earlier =>
    if sequence = 0 then waits earlier else (waits earlier).tail
  | .clockRead instant :: earlier =>
    match waits earlier with
    | [] => []
    | w :: ws => w.read instant :: ws
  | .polled descriptor timeout outcome :: earlier =>
    let time := took (.polled descriptor timeout outcome :: earlier)
    match waits earlier with
    | [] => []
    | w :: ws => w.spend time :: ws.map (Wait.pass time)
  | _ :: earlier => waits earlier

/-- The time that all waits took. -/
def elapsed : Journal ν → Nat
  | [] => 0
  | .polled descriptor timeout outcome :: earlier =>
    took (.polled descriptor timeout outcome :: earlier) + elapsed earlier
  | _ :: earlier => elapsed earlier

/-- Whether the clock went on in waits only before an event, and a wait takes no longer than it
may. -/
def GoesOn (start : Nat) (e : Event ν) (earlier : Journal ν) : Prop :=
  match e with
  | .clockRead instant => instant = start + elapsed took earlier
  | .polled _ timeout _ => took (e :: earlier) ≤ timeout
  | _ => True

instance (start : Nat) (e : Event ν) (earlier : Journal ν) :
    Decidable (GoesOn took start e earlier) :=
  match e with
  | .clockRead _ => inferInstanceAs (Decidable (_ = _))
  | .polled .. => inferInstanceAs (Decidable (_ ≤ _))
  | .opened .. | .openFailed .. | .closed _ | .sent .. | .received .. | .joined .. | .left ..
  | .watched .. | .unwatched _ | .awaited .. | .exchangeBegan _ | .exchangeEnded .. | .registered _
  | .dispatched _ | .replied .. | .scanEnded .. | .scheduleFired .. | .released | .noted _ =>
    .isTrue trivial

/-- Whether the clock goes on in waits only, and in none for longer than the wait may take. -/
def IsSteady (start : Nat) : Journal ν → Prop := Each (GoesOn took start)

instance (start : Nat) (journal : Journal ν) : Decidable (journal.IsSteady took start) :=
  inferInstanceAs (Decidable (Each _ journal))

/-- What precedes each wait: the clock is read, and the wait may take what is left of the budget of
the exchange that was begun last. -/
def IsGranted (budget : Nat) : Journal ν → Prop :=
  Each fun e earlier ↦ ∀ descriptor timeout outcome, e = .polled descriptor timeout outcome →
    ∃ now before w ws begun, earlier = .clockRead now :: before ∧ waits took before = w :: ws ∧
      w.key.2 = some begun ∧ now - begun < budget ∧ timeout = budget - (now - begun)

/-- What precedes each timeout: the clock is read, and nothing is left of the budget of the exchange
that was begun last, which it ends. -/
def IsExpired (budget : Duration) : Journal ν → Prop :=
  Each fun e earlier ↦ ∀ sequence stated, e = .exchangeEnded sequence (.error (.timeout stated)) →
    stated = budget ∧ ∃ now before w ws begun, earlier = .clockRead now :: before ∧
      waits took before = w :: ws ∧ w.key = (sequence, some begun) ∧ budget.nanos ≤ now - begun

/-- Whether the waits of each exchange under way took the budget at most, and all other time since
its request was sent went by in exchanges inside it. -/
def IsThrifty (start budget : Nat) (journal : Journal ν) : Prop :=
  ∀ w ∈ waits took journal, ∀ t, w.meter = some t →
    start + elapsed took journal = t.begun + t.spent + t.elsewhere ∧ t.spent ≤ budget

variable {took} {start budget : Nat}

/-- Reading the clock changes nothing once the request of the last exchange is sent. -/
theorem waits_clockRead {earlier : Journal ν} {w : Wait} {ws : List Wait} {begun : Nat}
    (now : Nat) (hws : waits took earlier = w :: ws) (hw : w.key.2 = some begun) :
    waits took (.clockRead now :: earlier) = w :: ws := by
  simp only [waits, hws, Wait.read_of_key hw]

/-- A wait counts for the exchange that was begun last, and as time elsewhere for the others. -/
theorem waits_polled {earlier : Journal ν} {w : Wait} {ws : List Wait}
    (descriptor timeout : Nat) (outcome : Except SystemFault Bool)
    (hws : waits took earlier = w :: ws) :
    waits took (.polled descriptor timeout outcome :: earlier) =
      w.spend (took (.polled descriptor timeout outcome :: earlier)) ::
        ws.map (Wait.pass (took (.polled descriptor timeout outcome :: earlier))) := by
  simp only [waits, hws]

namespace IsThrifty

private theorem clockRead {earlier : Journal ν} {instant : Nat}
    (hi : instant = start + elapsed took earlier) (hl : earlier.IsThrifty took start budget) :
    IsThrifty took start budget (.clockRead instant :: earlier) := by
  intro w hw t ht
  simp only [waits] at hw
  split at hw
  · contradiction
  · next first ws hws =>
    rcases List.mem_cons.mp hw with rfl | hw
    · rcases hm : first.meter with - | t'
      · -- The request of the exchange was sent just before.
        simp only [Wait.read, hm, Option.none_or, Option.some.injEq] at ht
        subst ht
        exact ⟨by simpa [elapsed] using hi.symm, Nat.zero_le _⟩
      · simp only [Wait.read, hm, Option.some_or, Option.some.injEq] at ht
        subst ht
        exact hl first (hws ▸ List.mem_cons_self) t' hm
    · exact hl w (hws ▸ List.mem_cons_of_mem _ hw) t ht

private theorem polled {before : Journal ν} {now begun descriptor timeout : Nat}
    {outcome : Except SystemFault Bool} {w : Wait} {ws : List Wait}
    (hws : waits took before = w :: ws) (hw : w.key.2 = some begun)
    (hb : now - begun < budget) (htime : timeout = budget - (now - begun))
    (hnow : now = start + elapsed took before)
    (htook : took (.polled descriptor timeout outcome :: .clockRead now :: before) ≤ timeout)
    (hl : IsThrifty took start budget (.clockRead now :: before)) :
    IsThrifty took start budget
      (.polled descriptor timeout outcome :: .clockRead now :: before) := by
  have hwaits := waits_clockRead now hws hw
  have hbefore : elapsed took (.clockRead now :: before) = elapsed took before := rfl
  have helapsed : elapsed took (.polled descriptor timeout outcome :: .clockRead now :: before) =
    took (.polled descriptor timeout outcome :: .clockRead now :: before) +
      elapsed took (.clockRead now :: before) := rfl
  intro w' hw' t ht
  rw [waits_polled descriptor timeout outcome hwaits] at hw'
  rcases List.mem_cons.mp hw' with rfl | hw'
  · obtain ⟨t', ht', rfl⟩ := Option.map_eq_some_iff.mp ht
    obtain ⟨htotal, -⟩ := hl w (hwaits ▸ List.mem_cons_self) t' ht'
    have hbegun : t'.begun = begun := by simpa [Wait.key, ht'] using hw
    -- What it waited so far is a part of the time since its request was sent.
    have hspent : t'.spent ≤ now - begun := by omega
    exact ⟨by simp only; omega, by simp only; omega⟩
  · obtain ⟨other, ho, rfl⟩ := List.mem_map.mp hw'
    obtain ⟨t', ht', rfl⟩ := Option.map_eq_some_iff.mp ht
    obtain ⟨htotal, hspent⟩ := hl other (hwaits ▸ List.mem_cons_of_mem _ ho) t' ht'
    exact ⟨by simp only; omega, hspent⟩

/-- If each wait is given what is left of the budget and the clock goes on in waits only, the waits
of an exchange take its budget at most. -/
theorem of_isGranted {journal : Journal ν} (hg : journal.IsGranted took budget)
    (hs : journal.IsSteady took start) : journal.IsThrifty took start budget := by
  induction journal with
  | nil => exact fun _ hw ↦ absurd hw List.not_mem_nil
  | cons e earlier ih =>
    obtain ⟨hgrant, hg⟩ := hg
    obtain ⟨hsteady, hs⟩ := hs
    have hl := ih hg hs
    cases e with
    | clockRead instant => exact hl.clockRead hsteady
    | polled descriptor timeout outcome =>
      obtain ⟨now, before, w, ws, begun, rfl, hws, hw, hb, htime⟩ := hgrant _ _ _ rfl
      exact polled hws hw hb htime hs.1 hsteady hl
    | exchangeBegan sequence =>
      intro w hw t ht
      rcases List.mem_cons.mp hw with rfl | hw
      · contradiction
      · exact hl w hw t ht
    | exchangeEnded sequence outcome =>
      intro w hw t ht
      simp only [waits] at hw
      split at hw
      · exact hl w hw t ht
      · exact hl w (List.mem_of_mem_tail hw) t ht
    | _ => exact hl

end IsThrifty

end took

end Journal

end WifiNetlink
