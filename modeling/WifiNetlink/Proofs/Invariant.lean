import WifiNetlink.Proofs.Moves

/-!
# Invariants of runs

What holds of a ledger and is kept by each kind of move and of dispatch holds along every run. What
every run keeps comes with it.
-/

namespace WifiNetlink

variable {σ ν : Type} {h : Host σ} {config : Config} {port : UInt32} {m m' : Machine σ ν}

/-- Every step keeps what every run keeps. -/
theorem Ledger.IsSound.step (hs : m.ledger.IsSound) : (m.step h).ledger.IsSound := by
  cases hd : m.due? with
  | none => exact (m.moves_step h hd).preserve (fun hm hl ↦ hl.move hm) hs
  | some p => exact hs.dispatch (m.dispatch_step h hd)

/-- What moves and dispatches keep, every run from a sound ledger keeps. An invariant may use what
the run allows when a message is dispatched. -/
theorem Run.preserve {allowed : Machine σ ν → Prop} {I : Ledger σ ν → Prop}
    (hrun : Run h allowed m m') (hs : m.ledger.IsSound) (hm : I m.ledger)
    (hmove : ∀ {l kind l'}, l.IsSound → Move l kind l' → I l → I l')
    (hdispatch : ∀ {m : Machine σ ν} {p l'}, m.ledger.IsSound → allowed m → m.due? = some p →
      Dispatch p m.ledger l' → I m.ledger → I l') :
    m'.ledger.IsSound ∧ I m'.ledger := by
  induction hrun with
  | refl => exact ⟨hs, hm⟩
  | @step m' _ ha ih =>
    refine ⟨ih.1.step, ?_⟩
    cases hd : m'.due? with
    | none =>
      exact ((m'.moves_step h hd).preserve (I := fun l ↦ l.IsSound ∧ I l)
        (fun hm hl ↦ ⟨hl.1.move hm, hmove hl.1 hm hl.2⟩) ih).2
    | some p => exact hdispatch ih.1 ha hd (m'.dispatch_step h hd) ih.2
  | enter program _ _ ih => exact ih

namespace Reachable

/-- What holds of fresh ledgers and is kept by moves and dispatches holds of every reachable
machine. -/
theorem invariant {I : Ledger σ ν → Prop} (hr : Reachable h config port m)
    (hfresh : ∀ world : σ, I (Machine.fresh config port world).ledger)
    (hmove : ∀ {l kind l'}, l.IsSound → Move l kind l' → I l → I l')
    (hdispatch : ∀ {l p l'}, l.IsSound → Dispatch p l l' → I l → I l') : I m.ledger := by
  obtain ⟨world, hrun⟩ := hr
  exact (hrun.preserve (Machine.isSound_fresh config port world) (hfresh world) hmove
    fun hs _ _ hd hl ↦ hdispatch hs hd hl).2

theorem isSound (hr : Reachable h config port m) : m.ledger.IsSound := by
  obtain ⟨world, hrun⟩ := hr
  exact (hrun.preserve (I := fun _ ↦ True) (Machine.isSound_fresh config port world) trivial
    (fun _ _ _ ↦ trivial) fun _ _ _ _ _ ↦ trivial).1

/-- The settings of a transport stay. -/
theorem config_eq (hr : Reachable h config port m) : m.transport.config = config :=
  hr.invariant (I := fun l ↦ l.config = config) (fun _ ↦ rfl)
    (fun _ hm hl ↦ hm.config_eq.trans hl) fun _ hd hl ↦ hd.config_eq.trans hl

end Reachable

end WifiNetlink
