import WifiNetlink.Proofs.Merging
import WifiNetlink.Wifi.ScanRequest

/-!
# Sifting a scan dump

A dump of scan results is a row of messages from outside. A message is an entry if it comes from the
family, its first interface index is the one asked for, and a network can be read from it; any other
message is passed over. Main statement: the results are the networks of the entries, in order, and
messages that are passed over may stand anywhere among them without changing the results.
-/

namespace WifiNetlink

namespace ScanRequest

/-- Whether a message is an entry of a dump about an interface, and tells of a network. -/
structure IsEntry (family : UInt16) (ifindex : UInt32) (p : Packet) (network : ScanResult) :
    Prop where
  kind_ne (errno : Int32) : p.kind ≠ .error errno
  type_eq : p.type = family
  index : ∃ payload, p.First WifiAttribute.ifindex payload ∧ Payload.ofPayload payload = .ok ifindex
  result_eq : ScanResult.ofPacket p = .ok network

/-- The messages of a dump about an interface that are passed over. -/
inductive IsPassedOver (family : UInt16) (ifindex : UInt32) (p : Packet) : Prop
  | refusal (errno : Int32) (h : p.kind = .error errno)
  | ack (h : p.kind = .ack)
  | foreign (h : p.type ≠ family)
  | unindexed (h : p.Lacks WifiAttribute.ifindex)
  | undecodable (payload : Bytes) (e : Error) (h : p.First WifiAttribute.ifindex payload)
    (he : (Payload.ofPayload payload : Except Error UInt32) = .error e)
  | other (payload : Bytes) (index : UInt32) (h : p.First WifiAttribute.ifindex payload)
    (hi : Payload.ofPayload payload = .ok index) (hne : index ≠ ifindex)
  | wrongCommand (h : p.command ≠ Command.newScanResults.number)
  | malformed (e : Error) (h : ScanResult.ofPacket p = .error e)

/-- Networks are those of the entries among messages, in order, the others passed over. -/
inductive Sifts (family : UInt16) (ifindex : UInt32) : List Packet → List ScanResult → Prop
  | nil : Sifts family ifindex [] []
  | entry {p : Packet} {network : ScanResult} {replies : List Packet} {networks : List ScanResult} :
    IsEntry family ifindex p network → Sifts family ifindex replies networks →
      Sifts family ifindex (p :: replies) (network :: networks)
  | passedOver {p : Packet} {replies : List Packet} {networks : List ScanResult} :
    IsPassedOver family ifindex p → Sifts family ifindex replies networks →
      Sifts family ifindex (p :: replies) networks

/-- Messages with some of a sort inserted anywhere among them. -/
inductive Interspersed (extra : Packet → Prop) : List Packet → List Packet → Prop
  | nil : Interspersed extra [] []
  | keep {p : Packet} {replies more : List Packet} :
    Interspersed extra replies more → Interspersed extra (p :: replies) (p :: more)
  | insert {p : Packet} {replies more : List Packet} :
    extra p → Interspersed extra replies more → Interspersed extra replies (p :: more)

variable {family : UInt16} {ifindex : UInt32} {p : Packet} {network : ScanResult}

theorem resultOf?_of_isEntry (h : IsEntry family ifindex p network) :
    resultOf? family ifindex p = some network := by
  unfold resultOf?
  split
  · next errno hk => exact absurd hk (h.kind_ne errno)
  · rw [if_pos ⟨h.type_eq, Packet.value?_eq_some_iff.mpr h.index⟩, h.result_eq]
    rfl

/-- What is found in a message is found by the checks of an entry. -/
theorem isEntry_of_resultOf? (h : resultOf? family ifindex p = some network) :
    IsEntry family ifindex p network := by
  unfold resultOf? at h
  split at h
  · contradiction
  · next hkind =>
    split at h
    · next hchecks =>
      exact ⟨hkind, hchecks.1, Packet.value?_eq_some_iff.mp hchecks.2, toOption_eq_some_iff.mp h⟩
    · contradiction

/-- A message that is passed over is no entry. -/
theorem IsPassedOver.not_isEntry (h : IsPassedOver family ifindex p) :
    ¬ IsEntry family ifindex p network := by
  intro hentry
  obtain ⟨payload, hfirst, hvalue⟩ := hentry.index
  have hattribute := Packet.attribute?_eq_some_iff.mpr hfirst
  -- Only one payload comes first.
  have hunique {other : Bytes} (hother : p.First WifiAttribute.ifindex other) : other = payload :=
    Option.some.inj ((Packet.attribute?_eq_some_iff.mpr hother).symm.trans hattribute)
  cases h with
  | refusal errno hk => exact hentry.kind_ne errno hk
  | ack hk =>
    have htype : p.type < leastFamilyType := by
      rw [Packet.type_eq_of_kind_eq_ack hk]
      decide
    rw [Packet.attribute?_eq_none_iff.mpr (Packet.lacks_of_type_lt htype)] at hattribute
    contradiction
  | foreign ht => exact ht hentry.type_eq
  | unindexed hlacks =>
    rw [Packet.attribute?_eq_none_iff.mpr hlacks] at hattribute
    contradiction
  | undecodable other e hother he =>
    rw [hunique hother, hvalue] at he
    contradiction
  | other other index hother hi hne =>
    rw [hunique hother, hvalue] at hi
    exact hne (Except.ok.inj hi).symm
  | wrongCommand hc =>
    have hresult := hentry.result_eq
    rw [ScanResult.ofPacket, if_pos hc] at hresult
    contradiction
  | malformed e he =>
    rw [hentry.result_eq] at he
    contradiction

/-- A message that no check passes over is an entry. -/
theorem isPassedOver_or_isEntry (family : UInt16) (ifindex : UInt32) (p : Packet) :
    IsPassedOver family ifindex p ∨ ∃ network, IsEntry family ifindex p network := by
  by_cases hkind : ∃ errno, p.kind = .error errno
  · obtain ⟨errno, hk⟩ := hkind
    exact .inl (.refusal errno hk)
  by_cases htype : p.type = family
  swap
  · exact .inl (.foreign htype)
  cases hattribute : p.attribute? WifiAttribute.ifindex with
  | none => exact .inl (.unindexed (Packet.attribute?_eq_none_iff.mp hattribute))
  | some payload =>
    have hfirst := Packet.attribute?_eq_some_iff.mp hattribute
    cases hvalue : (Payload.ofPayload payload : Except Error UInt32) with
    | error e => exact .inl (.undecodable payload e hfirst hvalue)
    | ok index =>
      by_cases hindex : index = ifindex
      swap
      · exact .inl (.other payload index hfirst hvalue hindex)
      cases hresult : ScanResult.ofPacket p with
      | error e => exact .inl (.malformed e hresult)
      | ok network =>
        rw [hindex] at hvalue
        exact .inr ⟨network, fun errno hk ↦ hkind ⟨errno, hk⟩, htype, ⟨payload, hfirst, hvalue⟩,
          hresult⟩

theorem resultOf?_of_isPassedOver (h : IsPassedOver family ifindex p) :
    resultOf? family ifindex p = none := by
  apply Option.eq_none_iff_forall_ne_some.mpr
  intro network hfound
  exact h.not_isEntry (isEntry_of_resultOf? hfound)

theorem isPassedOver_of_resultOf? (h : resultOf? family ifindex p = none) :
    IsPassedOver family ifindex p := by
  rcases isPassedOver_or_isEntry family ifindex p with hp | ⟨network, hp⟩
  · exact hp
  · rw [resultOf?_of_isEntry hp] at h
    contradiction

/-- The networks of the entries are what is found message by message. -/
theorem Sifts.filterMap_eq {replies : List Packet} {networks : List ScanResult}
    (h : Sifts family ifindex replies networks) :
    replies.filterMap (resultOf? family ifindex) = networks := by
  induction h with
  | nil => rfl
  | entry hp _ ih => rw [List.filterMap_cons_some (resultOf?_of_isEntry hp), ih]
  | passedOver hp _ ih => rw [List.filterMap_cons_none (resultOf?_of_isPassedOver hp), ih]

/-- Any messages can be sifted. -/
theorem sifts_filterMap (family : UInt16) (ifindex : UInt32) (replies : List Packet) :
    Sifts family ifindex replies (replies.filterMap (resultOf? family ifindex)) := by
  induction replies with
  | nil => exact .nil
  | cons p replies ih =>
    rcases isPassedOver_or_isEntry family ifindex p with hp | ⟨network, hp⟩
    · rw [List.filterMap_cons_none (resultOf?_of_isPassedOver hp)]
      exact .passedOver hp ih
    · rw [List.filterMap_cons_some (resultOf?_of_isEntry hp)]
      exact .entry hp ih

/-- What is passed over may be inserted anywhere. -/
theorem Sifts.interspersed {replies more : List Packet} {networks : List ScanResult}
    (h : Sifts family ifindex replies networks)
    (hm : Interspersed (IsPassedOver family ifindex) replies more) :
    Sifts family ifindex more networks := by
  induction hm generalizing networks with
  | nil => exact h
  | keep _ ih =>
    cases h with
    | entry hp hrest => exact .entry hp (ih hrest)
    | passedOver hp hrest => exact .passedOver hp (ih hrest)
  | insert hp _ ih => exact .passedOver hp (ih h)

theorem conclude_results {replies : List Packet} {networks : List ScanResult}
    (hs : Sifts family ifindex replies networks) (hne : replies ≠ []) :
    (results ifindex).conclude family (.ok replies) = .ok networks := by
  rw [← hs.filterMap_eq]
  cases replies with
  | nil => contradiction
  | cons p replies => rfl

/-- The results of a dump that is not empty are the networks of its entries, in order. Messages
that are passed over, inserted anywhere, change nothing. An empty dump is a failure. -/
theorem results_of_replies {r : Rehearsal} (hr : r.family = some family) (ifindex : UInt32) :
    (∀ replies ≠ [],
      (∃ networks, Sifts family ifindex replies networks) ∧
      ∀ networks, ((r.replying replies).perform (results ifindex)).1 = .ok networks ↔
        Sifts family ifindex replies networks) ∧
    (∀ replies more networks, Sifts family ifindex replies networks →
      Interspersed (IsPassedOver family ifindex) replies more → more ≠ [] →
        ((r.replying more).perform (results ifindex)).1 = .ok networks) ∧
    ((r.replying []).perform (results ifindex)).1 = .error .emptyResponse := by
  refine ⟨?_, ?_, ?_⟩
  · intro replies hne
    have hsifts := sifts_filterMap family ifindex replies
    refine ⟨⟨_, hsifts⟩, ?_⟩
    intro networks
    rw [perform_results hr]
    constructor
    · intro hresult
      rw [conclude_results hsifts hne] at hresult
      rwa [← Except.ok.inj hresult]
    · intro hs
      exact conclude_results hs hne
  · intro replies more networks hs hm hne
    rw [perform_results hr]
    exact conclude_results (hs.interspersed hm) hne
  · rw [perform_results hr]
    rfl

/-! ### A dump with messages that are passed over -/

/-- What a dump tells of a network: its address, its frequency, its name, its clock and its
signal. -/
def bssOf (name : UInt8) (frequency : UInt32) : List Attribute :=
  [⟨BssAttribute.bssid, [2, 0, 0, 0, 0, name], by simp [maxPayload]⟩,
    Query.word BssAttribute.frequency frequency,
    ⟨BssAttribute.informationElements, [0, 1, name], by simp [maxPayload]⟩,
    ⟨BssAttribute.tsf, [7, 0, 0, 0, 0, 0, 0, 0], by decide⟩,
    ⟨BssAttribute.signalMbm, [0, 0, 0, 0], by decide⟩]

/-- The network that is read from it. -/
def networkOf (name : UInt8) (frequency : UInt32) : ScanResult :=
  ⟨[name], ⟨[2, 0, 0, 0, 0, name], rfl⟩, [0, 1, name], frequency, 0, 7, 0, false⟩

/-- A message with attributes. -/
def message (type : UInt16) (command : Command) (as : List Attribute) : Packet :=
  ⟨type, multiFlag, 1, 0, (CommandHeader.ofCommand command.number 1).toBytes ++ Region.row as⟩

/-- A container that tells of a network. -/
def bssAttribute (children : List Attribute) (fits : (Region.row children).length ≤ maxPayload) :
    Attribute :=
  Query.container WifiAttribute.bss children fits

/-- Entries about interface 3 for networks of two names. -/
def entries : List Packet :=
  [message 28 .newScanResults [Query.word WifiAttribute.ifindex 3,
      bssAttribute (bssOf 65 2412) (by decide)],
    message 28 .newScanResults [bssAttribute (bssOf 66 5180) (by decide),
      Query.word WifiAttribute.ifindex 3]]

/-- The entries after, between and before messages of each sort that is passed over. -/
def mixedDump : List Packet :=
  [⟨errorType, 0, 1, 0, [156, 255, 255, 255]⟩, entries[0],
    ⟨errorType, 0, 1, 0, [0, 0, 0, 0]⟩,
    message 29 .newScanResults [Query.word WifiAttribute.ifindex 3,
      bssAttribute (bssOf 67 2412) (by decide)],
    message 28 .newScanResults [bssAttribute (bssOf 67 2412) (by decide)],
    message 28 .newScanResults [⟨WifiAttribute.ifindex, [3, 0], by decide⟩,
      Query.word WifiAttribute.ifindex 3, bssAttribute (bssOf 67 2412) (by decide)],
    entries[1],
    message 28 .newScanResults [Query.word WifiAttribute.ifindex 4,
      bssAttribute (bssOf 67 2412) (by decide)],
    message 28 .triggerScan [Query.word WifiAttribute.ifindex 3,
      bssAttribute (bssOf 67 2412) (by decide)],
    message 28 .newScanResults [Query.word WifiAttribute.ifindex 3,
      bssAttribute (bssOf 67 2412).tail (by decide)]]

private theorem sifts_entries :
    Sifts 28 3 entries [networkOf 65 2412, networkOf 66 5180] := by
  apply Sifts.entry
  · apply isEntry_of_resultOf?
    decide +kernel
  apply Sifts.entry
  · apply isEntry_of_resultOf?
    decide +kernel
  exact .nil

private theorem interspersed_mixedDump :
    Interspersed (IsPassedOver 28 3) entries mixedDump := by
  apply Interspersed.insert (.refusal 100 (by decide))
  apply Interspersed.keep
  apply Interspersed.insert (.ack (by decide))
  apply Interspersed.insert (.foreign (by decide))
  apply Interspersed.insert (isPassedOver_of_resultOf? (by decide +kernel))
  apply Interspersed.insert (isPassedOver_of_resultOf? (by decide +kernel))
  apply Interspersed.keep
  apply Interspersed.insert (isPassedOver_of_resultOf? (by decide +kernel))
  apply Interspersed.insert (.wrongCommand (by decide))
  apply Interspersed.insert (.malformed (.missingAttribute "NL80211_BSS_BSSID") (by decide +kernel))
  exact .nil

/-- Both networks are found, whatever else is in the dump. -/
theorem results_of_mixedDump :
    (((⟨some 28, .fresh, [], []⟩ : Rehearsal).replying mixedDump).perform (results 3)).1 =
      .ok [networkOf 65 2412, networkOf 66 5180] :=
  (results_of_replies rfl 3).2.1 entries mixedDump _ sifts_entries interspersed_mixedDump nofun

end ScanRequest

end WifiNetlink
