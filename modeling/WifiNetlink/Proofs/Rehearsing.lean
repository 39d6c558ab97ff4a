import WifiNetlink.Wifi.Query
import WifiNetlink.Wifi.Rehearsal
import WifiNetlink.Wifi.ScanRequest

/-!
# Rehearsed operations

An operation that is rehearsed is refused, cannot fill its request, or sends it. Once the request
is sent the result is what the operation makes of the replies. Queries and the request to stop a
schedule can always be sent.
-/

namespace WifiNetlink

namespace Rehearsal

variable {α : Type} {op : Operation α} {r : Rehearsal} {family : UInt16}

theorem sent_exchange (r : Rehearsal) (request : Packet) :
    (r.exchange request).2.sent = request :: r.sent := by
  unfold exchange
  split <;> rfl

/-- What is refused without a request is not sent. -/
theorem perform_of_refusal {e : Error} (hr : op.refusal = some e) :
    r.perform op = (.error e, r) := by
  simp only [perform, Operation.prepare, hr]

/-- A request that cannot be filled takes a number and is not sent. -/
theorem perform_of_unfilled {e : Error} (hf : r.family = some family) (hr : op.refusal = none)
    (hfill : op.fill (.request family op.command.number r.counter.next 0) = .error e) :
    r.perform op = (.error e, { r with counter := r.counter.advance }) := by
  simp only [perform, Operation.prepare, hr, hf, hfill, Except.map]

/-- A request that is filled is sent once. -/
theorem sent_perform_of_filled {p : Packet} (hf : r.family = some family) (hr : op.refusal = none)
    (hfill : op.fill (.request family op.command.number r.counter.next 0) = .ok p) :
    (r.perform op).2.sent = p :: r.sent := by
  simp only [perform, Operation.prepare, hr, hf, hfill, Except.map]
  exact sent_exchange _ p

/-- A rehearsal that answers the next request with some replies. -/
def replying (r : Rehearsal) (replies : List Packet) : Rehearsal :=
  { r with script := .ok replies :: r.script }

/-- The result is what is made of the replies, if the request can be made. -/
theorem perform_replying {request : Packet} (hop : op.refusal = none) (hr : r.family = some family)
    (hfill : op.fill (.request family op.command.number r.counter.next 0) = .ok request)
    (replies : List Packet) :
    ((r.replying replies).perform op).1 = op.conclude family (.ok replies) := by
  have hprepare : op.prepare (r.replying replies).family (r.replying replies).counter 0 =
      (.ok (family, request), r.counter.advance) := by
    simp only [Operation.prepare, replying, hop, hr, hfill, Except.map]
  rw [perform, hprepare]
  rfl

/-- Whether an operation sends a request. -/
def Sends (r : Rehearsal) (op : Operation α) : Prop :=
  ∃ request, (r.perform op).2.sent = request :: r.sent

/-- Once the request is sent the result is what is made of the replies. -/
theorem perform_of_sends (h : r.Sends op) (hr : r.family = some family) (replies : List Packet) :
    ((r.replying replies).perform op).1 = op.conclude family (.ok replies) := by
  obtain ⟨request, hsent⟩ := h
  cases hop : op.refusal with
  | some e =>
    rw [perform_of_refusal hop] at hsent
    exact absurd hsent.symm (List.cons_ne_self request r.sent)
  | none =>
    cases hfill : op.fill (.request family op.command.number r.counter.next 0) with
    | error e =>
      rw [perform_of_unfilled hr hop hfill] at hsent
      exact absurd hsent.symm (List.cons_ne_self request r.sent)
    | ok p => exact perform_replying hop hr hfill replies

end Rehearsal

/-! ### Requests that can always be made -/

variable {r : Rehearsal} {family : UInt16}

namespace Query

theorem perform_wiphyIndex (hr : r.family = some family) (replies : List Packet) :
    ((r.replying replies).perform wiphyIndex).1 =
      wiphyIndex.conclude family (.ok replies) := by
  apply Rehearsal.perform_replying rfl hr
  rfl

theorem perform_interface (hr : r.family = some family) (wiphy : UInt32)
    (replies : List Packet) :
    ((r.replying replies).perform (interface wiphy)).1 =
      (interface wiphy).conclude family (.ok replies) := by
  apply Rehearsal.perform_replying rfl hr
  rfl

theorem perform_wiphyInfo (hr : r.family = some family) (wiphy : UInt32)
    (replies : List Packet) :
    ((r.replying replies).perform (wiphyInfo wiphy)).1 =
      (wiphyInfo wiphy).conclude family (.ok replies) := by
  apply Rehearsal.perform_replying rfl hr
  rfl

theorem perform_station (hr : r.family = some family) (ifindex : UInt32) (mac : MacAddress)
    (replies : List Packet) :
    ((r.replying replies).perform (station ifindex mac)).1 =
      (station ifindex mac).conclude family (.ok replies) := by
  have hfits : mac.octets.length ≤ maxPayload := by
    rw [mac.length_octets]
    decide
  have hmac : Attribute.encode WifiAttribute.mac mac.octets =
      .ok ⟨WifiAttribute.mac, mac.octets, hfits⟩ := dif_pos hfits
  apply Rehearsal.perform_replying rfl hr
  change (Attribute.encode WifiAttribute.mac mac.octets).map _ = _
  rw [hmac]
  rfl

end Query

namespace ScanRequest

theorem perform_stop (hr : r.family = some family) (ifindex : UInt32) (replies : List Packet) :
    ((r.replying replies).perform (stop ifindex)).1 =
      (stop ifindex).conclude family (.ok replies) := by
  apply Rehearsal.perform_replying rfl hr
  rfl

theorem perform_results (hr : r.family = some family) (ifindex : UInt32)
    (replies : List Packet) :
    ((r.replying replies).perform (results ifindex)).1 =
      (results ifindex).conclude family (.ok replies) := by
  apply Rehearsal.perform_replying rfl hr
  rfl

end ScanRequest

end WifiNetlink
