import WifiNetlink.Proofs.Invariant
import WifiNetlink.Proofs.Waning

/-!
# The channel that a family was asked for on

A transport knows a family only from an exchange, and an exchange goes on only if its request was
sent. Main statement: a transport that knows a family has its synchronous channel for as long as a
handle of the transport is left.
-/

namespace WifiNetlink

variable {σ ν : Type}

namespace Frame

theorem isCollecting_of_keeps_eq_false {frame : Frame σ ν} (hk : frame.keeps = false) :
    frame.isCollecting = false := by
  cases frame <;> simp_all [keeps, isCollecting]

/-- A reply is gathered in the exchanges that there are. -/
theorem any_isCollecting_map_gather (number : Nat) (p : Packet) (stack : List (Frame σ ν)) :
    (stack.map (gather number p)).any isCollecting = stack.any isCollecting := by
  have hframe : isCollecting ∘ gather number p = isCollecting (σ := σ) (ν := ν) := by
    funext frame
    cases frame <;> rfl
  rw [List.any_map, hframe]

end Frame

namespace Ledger

variable {l l' : Ledger σ ν}

/-- Whether a transport knows a family or waits in an exchange. -/
def HasAsked (l : Ledger σ ν) : Prop :=
  l.families ≠ [] ∨ l.stack.any Frame.isCollecting = true

/-- Whether a transport that asked has its synchronous channel for as long as it is there. -/
def IsPlugged (l : Ledger σ ν) : Prop :=
  l.HasAsked → l.isAlive = true → l.syncChannel.isSome = true

/-- A move leaves a transport that asked with its channel: an exchange begins only if there is one,
and what ends was begun before. -/
theorem IsPlugged.move {kind : MoveKind} (hp : l.IsPlugged) (hm : Move l kind l') :
    l'.IsPlugged := by
  -- What has the families, and exchanges on the stack, of a ledger that asked, has asked.
  have hkept {stack : List (Frame σ ν)}
      (hs : stack.any Frame.isCollecting = true → l.stack.any Frame.isCollecting = true)
      (hasked : l.families ≠ [] ∨ stack.any Frame.isCollecting = true) : l.HasAsked :=
    hasked.imp id hs
  have hpopped {frame : Frame σ ν} {stack : List (Frame σ ν)} (hs : l.stack = frame :: stack)
      (hs' : stack.any Frame.isCollecting = true) : l.stack.any Frame.isCollecting = true := by
    rw [hs, List.any_cons, hs', Bool.or_true]
  cases hm with
  | renewSync descriptor => exact fun _ _ ↦ rfl
  | begin sequence waiter begun descriptor count message hn hh hc =>
    exact fun _ _ ↦ Option.isSome_iff_exists.mpr ⟨descriptor, hc⟩
  | push frame hk =>
    refine fun hasked ↦ hp (hkept (fun hs ↦ ?_) hasked)
    simpa [withStack, Frame.isCollecting_of_keeps_eq_false hk] using hs
  | pop frame stack hf hs => exact fun hasked ↦ hp (hkept (hpopped hs) hasked)
  | settle sequence handler again stack hs => exact fun hasked ↦ hp (hkept (hpopped hs) hasked)
  | timeout x stack now hs | fail x stack e hs | finish x stack hs =>
    exact fun _ ↦ hp (.inr (by rw [hs]; rfl))
  | takeDown hh hk hw => exact fun _ ha ↦ absurd ha Bool.false_ne_true
  | _ => exact hp

/-- A dispatch leaves the exchanges and the channel there are. -/
theorem IsPlugged.dispatch {p : Packet} (hp : l.IsPlugged) (hd : Dispatch p l l') :
    l'.IsPlugged := by
  have hstack : l'.stack.any Frame.isCollecting = l.stack.any Frame.isCollecting := by
    cases hd with
    | gather rest stack number hs =>
      rw [hs]
      exact Frame.any_isCollecting_map_gather number p stack
    | pass rest stack hs | notify rest stack number e hs | close rest stack handler hs
    | call rest stack react hs =>
      rw [hs]
      rfl
  have hasked (ha : l'.HasAsked) : l.HasAsked := by
    rwa [HasAsked, hd.families_eq, hstack] at ha
  have hrest : l'.isAlive = l.isAlive ∧ l'.syncChannel = l.syncChannel := by
    cases hd <;> exact ⟨rfl, rfl⟩
  intro ha halive
  rw [hrest.1] at halive
  rw [hrest.2]
  exact hp (hasked ha) halive

end Ledger

namespace Reachable

variable {h : Host σ} {config : Config} {port : UInt32} {m : Machine σ ν}

theorem isPlugged (hr : Reachable h config port m) : m.ledger.IsPlugged :=
  hr.invariant (I := Ledger.IsPlugged) (fun _ hasked ↦ absurd rfl (hasked.resolve_right nofun))
    (fun _ hm hl ↦ hl.move hm) fun _ hd hl ↦ hl.dispatch hd

/-- A transport that is held and knows its family has its synchronous channel. -/
theorem exists_syncChannel (hr : Reachable h config port m) (hh : m.transport.isHeld = true)
    {family : UInt16} (hf : m.transport.familyId = .ok family) :
    ∃ channel, m.transport.syncChannel = some channel := by
  have hasked : m.ledger.HasAsked := by
    refine .inl fun hnone ↦ ?_
    have hfamilies : m.transport.families = [] := hnone
    simp [Transport.familyId, Transport.family?, hfamilies, Table.get?] at hf
  exact Option.isSome_iff_exists.mp (hr.isPlugged hasked (hr.isSound.isAlive_of_isHeld hh))

end Reachable

end WifiNetlink
