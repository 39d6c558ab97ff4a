import WifiNetlink.Proofs.Cleanup
import WifiNetlink.Proofs.Reply
import WifiNetlink.Wifi.Query
import WifiNetlink.Wifi.ScanRequest

/-!
# Refused requests

What each operation of nl80211 makes of a request that is refused. The only reply is then an error
message with a code, and the operation gives the kernel's error of that code. Two do otherwise: it
is no failure to stop a scheduled scan that does not exist, and the results of a scan leave error
messages out, so a refused dump of them is like an empty one.
-/

namespace WifiNetlink

namespace Operation

variable {α : Type}

/-- Whether client code that performs an operation goes on with a result whenever a message is the
only reply to its request: whatever the transport and the system were before, and whatever happened
until the exchange returned. -/
def Yields (op : Operation α) (p : Packet) (result : Except Error α) : Prop :=
  ∀ ⦃σ ν : Type⦄ ⦃h : Host σ⦄ ⦃config : Config⦄ ⦃port : UInt32⦄ ⦃m₀ m : Machine σ ν⦄
    ⦃next : Except Error α → Program σ ν⦄ ⦃family : UInt16⦄ ⦃filled : Packet⦄,
    Reachable h config port m₀ → m₀.transport.isHeld = true →
    m₀.control = .run (.perform op next) → op.refusal = none →
    m₀.transport.familyId = .ok family →
    op.fill (.request family op.command.number m₀.transport.counter.next m₀.transport.port) =
      .ok filled →
    m₀.transport.pending.get? filled.sequence = none → (m₀.step h).Returns h m →
    ∃ since, m.journal = since ++ ((m₀.step h).step h).journal ∧
      (since.opens filled.sequence = false → since.arrived filled.sequence = [p] →
        m.control = .run (next result))

/-- The request of an operation is numbered and filled before it is sent. -/
private theorem step_perform {σ ν : Type} {h : Host σ} {m : Machine σ ν} {op : Operation α}
    {next : Except Error α → Program σ ν} {family : UInt16} {filled : Packet}
    (hh : m.transport.isHeld = true) (hc : m.control = .run (.perform op next))
    (hop : op.refusal = none) (hf : m.transport.familyId = .ok family)
    (hfill : op.fill (.request family op.command.number m.transport.counter.next m.transport.port) =
      .ok filled) :
    m.step h = ({ m with transport := m.transport.advance } : Machine σ ν).run
      (.collect filled fun replies ↦ next (op.conclude family replies)) := by
  rw [Machine.step_eq_call h hc hh]
  simp only [Program.perform, hop, Machine.call, Transport.request, hf, hfill]
  rfl

/-- An acknowledgement is awaited in vain if the only reply is a refusal. -/
private theorem expectAck_of_error {p : Packet} {errno : Int32} (hk : p.kind = .error errno)
    (name : String) : expectAck name [p] = .error (.kernelDuring name errno) :=
  expectAck_cons_of_error hk name []

/-- An exchange whose only reply is a refusal returns it, and the operation reads it. -/
theorem yields_of_error (op : Operation α) {p : Packet} {errno : Int32}
    (hk : p.kind = .error errno) {result : Except Error α}
    (hresult : ∀ family, op.conclude family (.ok [p]) = result) : op.Yields p result := by
  intro σ ν h config port m₀ m next family filled hr hh hc hop hf hfill _ hret
  have hstep := step_perform (h := h) hh hc hop hf hfill
  have hasks : (m₀.step h).asks? = some (filled.sequence,
      .client fun replies ↦ next (op.conclude family replies)) := by
    rw [hstep]
    rfl
  have hheld : (m₀.step h).transport.isHeld = true := by
    rw [hstep]
    exact hh
  obtain ⟨since, outcome, hj, hsince⟩ := hr.step.isBack hasks hheld hret
  refine ⟨since, hj, fun ho harrived ↦ ?_⟩
  have hc := (hsince ho).1
  have hterm : p.isTerminator = true := by
    simp [Packet.isTerminator, hk, PacketKind.isVerdict]
  have hsilent : p.isSilent = false := by
    simp [Packet.isSilent, hk, PacketKind.isSilent]
  have hout : outcome = .ok [p] := by
    rw [hc.eq_ok_iff, harrived]
    simp [Packet.answer, hterm, hsilent]
  rw [← hresult family, ← hout]
  exact hc.goesOn

/-- What the operations of nl80211 make of a request whose only reply is an error message with a
code. The failures carry the opposite of the code. -/
theorem yields_of_refusal {p : Packet} {c : Int32} (hp : p.code? = some c) (hc : c ≠ 0) :
    Query.wiphyIndex.Yields p (.error (.kernelDuring "get wiphy" (saturatingNeg c))) ∧
    (∀ wiphy, (Query.interface wiphy).Yields p
      (.error (.kernelDuring "get interface" (saturatingNeg c)))) ∧
    (∀ wiphy, (Query.wiphyInfo wiphy).Yields p
      (.error (.kernelDuring "get wiphy info" (saturatingNeg c)))) ∧
    (∀ ifindex mac, (Query.station ifindex mac).Yields p
      (.error (.kernelDuring "get station" (saturatingNeg c)))) ∧
    (∀ ifindex names values randomMac,
      (ScanRequest.trigger ifindex names values randomMac).Yields p
        (.error (.kernelDuring "trigger scan" (saturatingNeg c)))) ∧
    (∀ schedule, (ScanRequest.start schedule).Yields p
      (.error (.kernelDuring "start scheduled scan" (saturatingNeg c)))) ∧
    (∀ ifindex, (ScanRequest.stop ifindex).Yields p
      (if saturatingNeg c = Errno.noent then .ok ()
        else .error (.kernelDuring "stop scheduled scan" (saturatingNeg c)))) ∧
    ∀ ifindex, (ScanRequest.results ifindex).Yields p (.ok []) := by
  have hk := Packet.kind_of_code? hp hc
  refine ⟨?_, ?_, ?_, ?_, ?_, ?_, ?_, ?_⟩
  · apply yields_of_error _ hk
    intro family
    simp only [conclude, Query.wiphyIndex, Query.wiphyIndexOf, List.mapM_cons,
      checkReply_of_error hk]
    rfl
  · intro wiphy
    apply yields_of_error _ hk
    intro family
    simp only [conclude, Query.interface, Query.firstInterface, checkReply_of_error hk]
    rfl
  · intro wiphy
    apply yields_of_error _ hk
    intro family
    simp only [conclude, Query.wiphyInfo, List.foldlM_cons, Query.WiphyDraft.pushReply,
      checkReply_of_error hk]
    rfl
  · intro ifindex mac
    apply yields_of_error _ hk
    intro family
    simp only [conclude, Query.station, Query.stationOf, checkReply_of_error hk]
    rfl
  · intro ifindex names values randomMac
    apply yields_of_error _ hk
    intro family
    exact expectAck_of_error hk "trigger scan"
  · intro schedule
    apply yields_of_error _ hk
    intro family
    exact expectAck_of_error hk "start scheduled scan"
  · intro ifindex
    apply yields_of_error _ hk
    intro family
    simp [conclude, ScanRequest.stop, expectAck_of_error hk, Error.errno?]
  · intro ifindex
    apply yields_of_error _ hk
    intro family
    simp [conclude, ScanRequest.results, ScanRequest.resultOf?, hk]

end Operation

/-! ### A scan of an interface that is down -/

/-- An error message to the second request: the network is down. -/
def Packet.denial : Packet := ⟨errorType, 0, 2, 0, [156, 255, 255, 255]⟩

/-- Client code that performs an operation and notes whether it succeeded. -/
def Program.trial {α σ : Type} (op : Operation α) : Program σ Bool :=
  .perform op fun outcome ↦ .note outcome.isOk .done

/-- A started transport whose client code is about to perform an operation, which is refused. -/
def trialMachine {α : Type} (op : Operation α) : Machine ScriptedKernel Bool :=
  ((Machine.fresh .standard 0 (describingKernel
    [⟨.ok none, [.datagram Packet.denial.toBytes], []⟩])).run (.start fun _ ↦ .trial op)).steps
      ScriptedKernel.host 5

/-- The exchange of the operation has returned. -/
def deniedMachine {α : Type} (op : Operation α) : Machine ScriptedKernel Bool :=
  ((((((trialMachine op).step ScriptedKernel.host).step ScriptedKernel.host).step
    ScriptedKernel.host).step ScriptedKernel.host).step ScriptedKernel.host).step
    ScriptedKernel.host

/-- What happened since the operation began its exchange. -/
def deniedJournal {α : Type} (op : Operation α) : Journal Bool :=
  (deniedMachine op).journal.take ((deniedMachine op).journal.length -
    (((trialMachine op).step ScriptedKernel.host).step ScriptedKernel.host).journal.length)

/-- Client code goes on with the result of an operation. -/
private theorem control_deniedMachine {α : Type} {op : Operation α} {result : Except Error α}
    {filled : Packet} (hy : op.Yields Packet.denial result)
    (hc : (trialMachine op).control = .run (.trial op)) (hh : (trialMachine op).transport.isHeld)
    (hop : op.refusal = none) (hf : (trialMachine op).transport.familyId = .ok 28)
    (hfill : op.fill (.request 28 op.command.number (trialMachine op).transport.counter.next
      (trialMachine op).transport.port) = .ok filled)
    (hp : (trialMachine op).transport.pending.get? filled.sequence = none)
    (hret : ((trialMachine op).step ScriptedKernel.host).Returns ScriptedKernel.host
      (deniedMachine op))
    (ho : (deniedJournal op).opens filled.sequence = false)
    (ha : (deniedJournal op).arrived filled.sequence = [.denial]) :
    (deniedMachine op).control = .run (.note result.isOk .done) := by
  have hr : Reachable ScriptedKernel.host .standard 0 (trialMachine op) :=
    (Reachable.start ScriptedKernel.host _ _ _ _).steps 5
  obtain ⟨since, hj, hsince⟩ := hy hr hh hc hop hf hfill hp hret
  obtain rfl := Journal.eq_take hj
  exact hsince ho ha

/-- A refused query for a wiphy fails. -/
theorem Operation.wiphyInfo_of_denial :
    Packet.denial.code? = some (-100) ∧ (-100 : Int32) ≠ 0 ∧
      (Query.wiphyInfo 0).Yields .denial (.error (.kernelDuring "get wiphy info" 100)) ∧
      (deniedMachine (Query.wiphyInfo 0)).control = .run (.note false .done) := by
  have hcode : Packet.denial.code? = some (-100) := by decide
  have hyields := (Operation.yields_of_refusal hcode (by decide)).2.2.1 0
  refine ⟨hcode, by decide, hyields, ?_⟩
  exact control_deniedMachine hyields (by cbv) (by cbv) (by cbv) (by cbv) (by cbv) (by cbv)
    (Machine.returns_iterate 4 (of_decide_eq_true (by cbv)) (by cbv)) (by cbv) (by cbv)

/-- A refused dump of scan results is no failure. -/
theorem Operation.results_of_denial :
    Packet.denial.code? = some (-100) ∧ ¬ ∃ e : Error, e.errno? = some (saturatingNeg (-100)) ∧
      (ScanRequest.results 5).Yields .denial (.error e) := by
  refine ⟨by decide, ?_⟩
  rintro ⟨e, -, hyields⟩
  have hclaimed := control_deniedMachine hyields (by cbv) (by cbv) (by cbv) (by cbv) (by cbv)
    (by cbv) (Machine.returns_iterate 4 (of_decide_eq_true (by cbv)) (by cbv)) (by cbv) (by cbv)
  have hdone : (deniedMachine (ScanRequest.results 5)).control = .run (.note true .done) := by cbv
  rw [hdone] at hclaimed
  injection hclaimed with hprogram
  injection hprogram with hnote
  contradiction

end WifiNetlink
