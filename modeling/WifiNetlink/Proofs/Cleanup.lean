import WifiNetlink.Proofs.Collection
import WifiNetlink.Proofs.Registration

/-!
# What exchanges leave behind

A request that cannot be registered changes no handler. However an exchange ends, its number has no
handler when the call that began it returns, and every other handler that waited then and was not
sent a terminator meanwhile waits still.
-/

namespace WifiNetlink

variable {σ ν : Type}

namespace Reachable

/-- A request that cannot be registered leaves the transport as it was. -/
private theorem transport_register (h : Host σ) (m : Machine σ ν) (request : Packet)
    (react : Journal ν → Packet → Program σ ν) {e : Error}
    (he : (m.register h request react).1 = .error e) :
    (m.register h request react).2.transport = m.transport := by
  unfold Machine.register at he ⊢
  split
  · rfl
  · split
    · rfl
    · next hdump hn =>
      simp only [hdump, hn, if_false, Bool.false_eq_true] at he
      cases hc : m.transport.asyncChannel with
      | none => rfl
      | some descriptor =>
        simp only [Machine.send, hc] at he ⊢
        split
        · next e' m' hsent =>
          obtain ⟨-, rfl⟩ := Prod.mk.inj hsent
          rfl
        · next m' hsent =>
          rw [hsent] at he
          contradiction

/-- A request that cannot be registered changes nothing about the transport. When the call for an
exchange returns whose number had no handler, however the exchange ended, what waits for it goes on,
its number has no handler, and every other handler that was in the table at the call is there,
unless its number was put to use again or was sent a terminator meanwhile. -/
theorem isTidy_of_returns (h : Host σ) (config : Config) (port : UInt32) :
    (∀ (m : Machine σ ν) request react e, (m.register h request react).1 = .error e →
      (m.register h request react).2.transport = m.transport) ∧
    ∀ m₀ m : Machine σ ν, Reachable h config port m₀ → m₀.transport.isHeld = true →
      ∀ sequence waiter, m₀.asks? = some (sequence, waiter) →
      m₀.transport.pending.get? sequence = none → m₀.Returns h m →
      ∃ since, m.journal = since ++ (m₀.step h).journal ∧ (since.opens sequence = false →
        (∃ outcome, waiter.GoesOn outcome m.control) ∧
        m.IsTidy sequence m₀.transport.pending since) := by
  constructor
  · intro m request react e he
    exact transport_register h m request react he
  · intro m₀ m hr hh sequence waiter ha hp hret
    obtain ⟨since, outcome, hj, hsince⟩ := hr.isBack ha hh hret
    refine ⟨since, hj, fun ho ↦ ?_⟩
    exact ⟨⟨outcome, (hsince ho).1.goesOn⟩, (hsince ho).2 hp⟩

end Reachable

/-! ### An exchange during which a handler is called -/

/-- Client code that has registered a handler and is about to begin an exchange. -/
def askingMachine : Machine ScriptedKernel Unit := sharingMachine.step ScriptedKernel.host

/-- The exchange is over: it has read a message for the handler, and its own end. -/
def tidiedMachine : Machine ScriptedKernel Unit :=
  (((((((askingMachine.step ScriptedKernel.host).step ScriptedKernel.host).step
    ScriptedKernel.host).step ScriptedKernel.host).step ScriptedKernel.host).step
    ScriptedKernel.host).step ScriptedKernel.host).step ScriptedKernel.host

/-- The handler waits for more messages after the exchange. -/
theorem isTidy_tidiedMachine :
    tidiedMachine.transport.pending.get? 8 = none ∧ ∃ react,
      askingMachine.transport.pending.get? 7 = some (.client react) ∧
      tidiedMachine.transport.pending.get? 7 = some (.client react) := by
  have hreachable : Reachable ScriptedKernel.host .standard 0 askingMachine :=
    ⟨sharingKernel, .step (.step (.enter _ .refl rfl) trivial) trivial⟩
  have hreturns : askingMachine.Returns ScriptedKernel.host tidiedMachine :=
    Machine.returns_iterate 7 (of_decide_eq_true (by cbv)) (by cbv)
  obtain ⟨since, hj, hsince⟩ := (Reachable.isTidy_of_returns ScriptedKernel.host .standard 0).2
    askingMachine tidiedMachine hreachable (by cbv) 8 (.client fun _ ↦ .done) (by cbv) (by cbv)
    hreturns
  obtain rfl := Journal.eq_take hj
  obtain ⟨-, htidy⟩ := hsince (by cbv)
  refine ⟨htidy.own, fun _ _ ↦ .done, by cbv, ?_⟩
  exact htidy.others 7 _ (by cbv) (by decide) (by cbv) (by cbv)

end WifiNetlink
