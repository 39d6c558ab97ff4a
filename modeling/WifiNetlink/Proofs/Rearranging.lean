import Mathlib.Data.List.Forall2
import Mathlib.Data.List.Nodup
import WifiNetlink.Proofs.Merging
import WifiNetlink.Proofs.NetworkName

/-!
# Containers in another order

What is read of a container of a network or of a station, if its attributes are of kinds that differ
from each other. They are those that a walk over the container meets, whether or not the last one of
the row was padded. Main statement: neither their order nor further attributes of kinds that are not
read matter, also not in the container of rates inside that of a station, and there is a result
exactly if the attributes tell one.
-/

namespace WifiNetlink

namespace Region

variable {α : Type} {as bs : List Item} {data : Bytes} {kind : UInt16} {payload : Bytes}
  {reads : List UInt16}

/-- Whether there is an attribute of that kind and payload. -/
def Holds (as : List Item) (kind : UInt16) (payload : Bytes) : Prop := ⟨kind, payload⟩ ∈ as

/-- Whether the kinds of attributes differ from each other. -/
def IsDistinct (as : List Item) : Prop := (as.map Item.kind).Nodup

instance (as : List Item) : Decidable (IsDistinct as) :=
  inferInstanceAs (Decidable (as.map Item.kind).Nodup)

/-- Whether attributes come of others by a change of order and more attributes of kinds that are not
read. -/
def Rearranges (reads : List UInt16) (as bs : List Item) : Prop :=
  ∃ more, (∀ a ∈ more, a.kind ∉ reads) ∧ bs.Perm (as ++ more)

/-- Whether there is at most one attribute of a kind. -/
def HasAtMostOne (as : List Item) (kind : UInt16) : Prop :=
  ∀ payload other, Holds as kind payload → Holds as kind other → payload = other

theorem IsDistinct.hasAtMostOne (h : IsDistinct as) (kind : UInt16) : HasAtMostOne as kind := by
  intro payload other hpayload hother
  exact (Item.mk.inj (List.inj_on_of_nodup_map h hpayload hother rfl)).2

/-- The payload of the first attribute of a kind. -/
def payload? (as : List Item) (kind : UInt16) : Option Bytes :=
  (as.find? fun a ↦ a.kind == kind).map Item.payload

theorem find?_eq_payload? (data : Bytes) (kind : UInt16) :
    find? data kind = payload? (items data) kind := rfl

/-- If there is at most one attribute of a kind, it is the first one. -/
theorem payload?_eq_some_iff (h : HasAtMostOne as kind) :
    payload? as kind = some payload ↔ Holds as kind payload := by
  rw [payload?, Option.map_eq_some_iff]
  have hholds {a : Item} (hfound : (as.find? fun a ↦ a.kind == kind) = some a) :
      Holds as kind a.payload := by
    have hkind := List.find?_some hfound
    rw [beq_iff_eq] at hkind
    exact hkind ▸ List.mem_of_find?_eq_some hfound
  constructor
  · rintro ⟨a, hfound, rfl⟩
    exact hholds hfound
  · intro hmem
    cases hfound : as.find? fun a ↦ a.kind == kind with
    | none =>
      have hne := List.find?_eq_none.mp hfound _ hmem
      rw [beq_self_eq_true] at hne
      contradiction
    | some a => exact ⟨a, rfl, h _ _ (hholds hfound) hmem⟩

theorem find?_eq_some_iff (h : HasAtMostOne (items data) kind) :
    find? data kind = some payload ↔ Holds (items data) kind payload :=
  payload?_eq_some_iff h

theorem value?_eq_some_iff [Payload α] [Payload.IsExact α] {value : α}
    (h : HasAtMostOne (items data) kind) :
    value? α data kind = some value ↔ Holds (items data) kind (toPayload value) := by
  rw [value?, Option.bind_eq_some_iff]
  simp only [toOption_eq_some_iff, Payload.IsExact.ofPayload_eq_ok_iff, exists_eq_right]
  exact find?_eq_some_iff h

/-- A value that may be left out is zero unless a payload of its width is there. -/
theorem getD_value?_eq_iff [Payload α] [Payload.IsExact α] {value zero : α}
    (h : HasAtMostOne (items data) kind) : (value? α data kind).getD zero = value ↔
      Holds (items data) kind (toPayload value) ∨
        (∀ v : α, ¬ Holds (items data) kind (toPayload v)) ∧ value = zero := by
  rw [Option.getD_eq_iff, Option.eq_none_iff_forall_ne_some, @eq_comm _ zero]
  simp only [ne_eq, value?_eq_some_iff h]

/-! ### Rearranged attributes -/

theorem Rearranges.holds_iff (h : Rearranges reads as bs) (hk : kind ∈ reads) :
    Holds bs kind payload ↔ Holds as kind payload := by
  obtain ⟨more, hmore, hperm⟩ := h
  have hnot : (⟨kind, payload⟩ : Item) ∉ more := fun hmem ↦ hmore _ hmem hk
  rw [Holds, hperm.mem_iff, List.mem_append, or_iff_left hnot, Holds]

theorem Rearranges.hasAtMostOne (h : Rearranges reads as bs) (hk : kind ∈ reads)
    (ho : HasAtMostOne as kind) : HasAtMostOne bs kind := by
  intro payload other hpayload hother
  exact ho payload other ((h.holds_iff hk).mp hpayload) ((h.holds_iff hk).mp hother)

/-- What is read is found also among the rearranged attributes. -/
theorem Rearranges.payload?_eq (h : Rearranges reads as bs) (hd : IsDistinct as)
    (hk : kind ∈ reads) : payload? bs kind = payload? as kind := by
  have has := hd.hasAtMostOne kind
  apply Option.ext
  intro payload
  rw [payload?_eq_some_iff (h.hasAtMostOne hk has), payload?_eq_some_iff has]
  exact h.holds_iff hk

end Region

open Region

theorem Station.require_eq_ok_iff {α : Type} [Payload α] {region : Bytes} {kind : UInt16}
    {name : String} {value : α} :
    Station.require α region kind name = .ok value ↔ value? α region kind = some value := by
  unfold Station.require
  cases value? α region kind <;> simp

/-! ### Networks -/

namespace ScanResult

variable {bss : Bytes} {result : ScanResult}

/-- The kinds that are read of a container of a network. -/
def readKinds : List UInt16 :=
  [BssAttribute.bssid, BssAttribute.frequency, BssAttribute.informationElements, BssAttribute.tsf,
    BssAttribute.signalMbm, BssAttribute.capability, BssAttribute.status]

/-- Whether attributes tell of a network. Without capabilities of two bytes these are zero. -/
structure IsToldBy (result : ScanResult) (as : List Item) : Prop where
  bssid : Holds as BssAttribute.bssid result.bssid.octets
  frequency : Holds as BssAttribute.frequency (toPayload result.frequency)
  elements : Holds as BssAttribute.informationElements result.elements
  ssid : Element.Names result.elements result.ssid
  tsf : Holds as BssAttribute.tsf (toPayload result.tsf)
  signalMbm : Holds as BssAttribute.signalMbm (toPayload result.signalMbm)
  capability : Holds as BssAttribute.capability (toPayload result.capability) ∨
    (∀ c : UInt16, ¬ Holds as BssAttribute.capability (toPayload c)) ∧ result.capability = 0
  associated : result.associated = true ↔
    Holds as BssAttribute.status (toPayload BssAttribute.associated)

/-- What is read of a container is what is found of some kinds. -/
theorem ofRegion_congr {other : Bytes}
    (h : ∀ kind ∈ readKinds, find? bss kind = find? other kind) :
    ofRegion bss = ofRegion other := by
  simp only [ofRegion, requireBytes, Station.require, value?]
  rw [h BssAttribute.bssid (by decide), h BssAttribute.frequency (by decide),
    h BssAttribute.informationElements (by decide), h BssAttribute.tsf (by decide),
    h BssAttribute.signalMbm (by decide), h BssAttribute.capability (by decide),
    h BssAttribute.status (by decide)]

theorem requireBytes_eq_ok_iff {payload : Bytes} {kind : UInt16} {name : String} :
    requireBytes bss kind name = .ok payload ↔ find? bss kind = some payload := by
  unfold requireBytes
  cases find? bss kind <;> simp

theorem ofRegion_eq_ok_iff (hd : IsDistinct (items bss)) :
    ofRegion bss = .ok result ↔ result.IsToldBy (items bss) := by
  have hone := hd.hasAtMostOne
  simp only [ofRegion, bind_eq_ok_iff, requireBytes_eq_ok_iff, Station.require_eq_ok_iff,
    MacAddress.ofBytes_eq_ok_iff, Element.ssid_eq_ok_iff, find?_eq_some_iff (hone _),
    value?_eq_some_iff (hone _)]
  constructor
  · rintro ⟨_, hbssid, bssid, rfl, frequency, hfrequency, elements, helements, ssid, hssid, tsf,
      htsf, signalMbm, hsignalMbm, hresult⟩
    obtain rfl := Except.ok.inj hresult
    refine ⟨hbssid, hfrequency, helements, hssid, htsf, hsignalMbm, ?_, ?_⟩
    · exact (getD_value?_eq_iff (hone _)).mp rfl
    · exact beq_iff_eq.trans (value?_eq_some_iff (hone _))
  · intro h
    refine ⟨_, h.bssid, _, rfl, _, h.frequency, _, h.elements, _, h.ssid, _, h.tsf, _, h.signalMbm,
      ?_⟩
    have hassociated : (value? UInt32 bss BssAttribute.status ==
        some BssAttribute.associated) = result.associated := by
      rw [Bool.eq_iff_iff, h.associated, beq_iff_eq, value?_eq_some_iff (hone _)]
    rw [(getD_value?_eq_iff (hone _)).mpr h.capability, hassociated]
    rfl

/-- A network is read of the container in a message with the command for it. -/
theorem ofPacket_of_first {p : Packet} (h : p.First WifiAttribute.bss bss) :
    ofPacket p =
      if p.command ≠ Command.newScanResults.number then
        .error (.unexpectedCommand Command.newScanResults.number p.command)
      else ofRegion bss := by
  rw [ofPacket, Packet.attribute?_eq_some_iff.mpr h]

theorem ofPacket_eq_ok_iff {p : Packet} (hd : IsDistinct (items bss))
    (h : p.First WifiAttribute.bss bss) : ofPacket p = .ok result ↔
      p.command = Command.newScanResults.number ∧ result.IsToldBy (items bss) := by
  rw [ofPacket_of_first h, ← ofRegion_eq_ok_iff hd]
  by_cases hc : p.command = Command.newScanResults.number
  · simp [hc]
  · simp [hc]

end ScanResult

/-! ### Stations -/

namespace Station

variable {as kept : List Item} {info other rates : Bytes} {s : Station} {kind : UInt16}

/-- The kinds that are read of a container of a station. -/
def readKinds : List UInt16 :=
  [StationAttribute.signal, StationAttribute.txBitrate, StationAttribute.txPackets,
    StationAttribute.txFailed]

/-- The kinds that are read of a container of rates. -/
def rateKinds : List UInt16 := [RateAttribute.bitrate, RateAttribute.bitrate32]

/-- Whether two attributes are the same or both containers of rates, the one rearranged from the
other. -/
inductive Resembles : Item → Item → Prop where
  | same (a : Item) : Resembles a a
  | rates {rates others : Bytes} (hd : IsDistinct (items rates))
    (h : Rearranges rateKinds (items rates) (items others)) :
    Resembles ⟨StationAttribute.txBitrate, rates⟩ ⟨StationAttribute.txBitrate, others⟩

/-- Whether attributes of a station come of others by rearranging the rates in them and then the
attributes. -/
def Reorders (as bs : List Item) : Prop :=
  ∃ kept, List.Forall₂ Resembles as kept ∧ Rearranges readKinds kept bs

/-- Whether rates tell this one: that of four bytes, and only without one that of two bytes. -/
def TellsRate (rates : List Item) (rate : UInt32) : Prop :=
  Holds rates RateAttribute.bitrate32 (toPayload rate) ∨
    (∀ n : UInt32, ¬ Holds rates RateAttribute.bitrate32 (toPayload n)) ∧
      ∃ n : UInt16, Holds rates RateAttribute.bitrate (toPayload n) ∧ n.toUInt32 = rate

/-- Whether attributes tell the counters of a station. -/
structure IsToldBy (s : Station) (as : List Item) : Prop where
  txPackets : Holds as StationAttribute.txPackets (toPayload s.txPackets)
  txFailed : Holds as StationAttribute.txFailed (toPayload s.txFailed)
  rssi : Holds as StationAttribute.signal (toPayload s.rssi)
  txBitrate : ∃ rates, Holds as StationAttribute.txBitrate rates ∧ IsDistinct (items rates) ∧
    TellsRate (items rates) s.txBitrate

/-- Whether the kinds of the attributes of a station, and those in its container of rates, differ
from each other. -/
structure IsDistinctDeep (as : List Item) : Prop where
  isDistinct : IsDistinct as
  rates (payload : Bytes) (h : Holds as StationAttribute.txBitrate payload) :
    IsDistinct (items payload)

/-- What is read of a container is what is found of some kinds, in it and in that of the rates. -/
theorem ofRegion_congr
    (h : ∀ kind ∈ readKinds, kind ≠ StationAttribute.txBitrate →
      find? info kind = find? other kind)
    (hrates : Option.Rel (fun rates others ↦ ∀ kind ∈ rateKinds,
      find? rates kind = find? others kind)
      (find? info StationAttribute.txBitrate) (find? other StationAttribute.txBitrate)) :
    ofRegion info = ofRegion other := by
  simp only [ofRegion, require, value?]
  rw [h StationAttribute.txPackets (by decide) (by decide),
    h StationAttribute.txFailed (by decide) (by decide),
    h StationAttribute.signal (by decide) (by decide)]
  generalize find? info StationAttribute.txBitrate = rates,
    find? other StationAttribute.txBitrate = others at hrates ⊢
  cases hrates with
  | none => rfl
  | some hrates =>
    simp only [bitrate?, value?]
    rw [hrates RateAttribute.bitrate32 (by decide), hrates RateAttribute.bitrate (by decide)]

theorem Resembles.kind_eq {a b : Item} (h : Resembles a b) : a.kind = b.kind := by
  cases h <;> rfl

theorem isDistinct_of_resembles (h : List.Forall₂ Resembles as kept) (hd : IsDistinct as) :
    IsDistinct kept := by
  have hkinds : as.map Item.kind = kept.map Item.kind := by
    induction h with
    | nil => rfl
    | cons hab _ ih => rw [List.map_cons, List.map_cons, hab.kind_eq, ih hd.of_cons]
  rwa [IsDistinct, ← hkinds]

/-- Attributes of other kinds than that of rates stay as they are. -/
theorem payload?_of_resembles (h : List.Forall₂ Resembles as kept)
    (hk : kind ≠ StationAttribute.txBitrate) : payload? as kind = payload? kept kind := by
  unfold payload?
  induction h with
  | nil => rfl
  | @cons a b as kept hab _ ih =>
    rw [List.find?_cons, List.find?_cons, hab.kind_eq]
    cases hb : b.kind == kind with
    | false => exact ih
    | true =>
      cases hab with
      | same => rfl
      | rates => exact absurd (eq_of_beq hb).symm hk

theorem rel_rates_of_resembles (h : List.Forall₂ Resembles as kept) :
    Option.Rel (fun rates others ↦ ∀ kind ∈ rateKinds, find? rates kind = find? others kind)
      (payload? as StationAttribute.txBitrate) (payload? kept StationAttribute.txBitrate) := by
  unfold payload?
  induction h with
  | nil => exact .none
  | @cons a b as kept hab _ ih =>
    rw [List.find?_cons, List.find?_cons, hab.kind_eq]
    cases b.kind == StationAttribute.txBitrate with
    | false => exact ih
    | true =>
      apply Option.Rel.some
      intro kind hkind
      cases hab with
      | same => rfl
      | rates hd h => exact (h.payload?_eq hd hkind).symm

/-- The order means nothing, in the container or in that of the rates. -/
theorem ofRegion_of_reorders (hd : IsDistinct (items info))
    (h : Reorders (items info) (items other)) : ofRegion info = ofRegion other := by
  obtain ⟨kept, hkept, hbs⟩ := h
  have hd := isDistinct_of_resembles hkept hd
  apply ofRegion_congr
  · intro kind hread hk
    rw [find?_eq_payload?, find?_eq_payload?, payload?_of_resembles hkept hk,
      hbs.payload?_eq hd hread]
  · rw [find?_eq_payload?, find?_eq_payload?, hbs.payload?_eq hd (by decide)]
    exact rel_rates_of_resembles hkept

theorem bitrate?_eq_some_iff {rate : UInt32} (hd : IsDistinct (items rates)) :
    bitrate? rates = some rate ↔ TellsRate (items rates) rate := by
  have hone := hd.hasAtMostOne
  rw [bitrate?, Option.or_eq_some_iff, Option.map_eq_some_iff,
    Option.eq_none_iff_forall_ne_some]
  simp only [ne_eq, value?_eq_some_iff (hone _)]
  rfl

theorem ofRegion_eq_ok_iff (h : IsDistinctDeep (items info)) :
    ofRegion info = .ok s ↔ s.IsToldBy (items info) := by
  have hone := h.isDistinct.hasAtMostOne
  simp only [ofRegion, bind_eq_ok_iff, require_eq_ok_iff, value?_eq_some_iff (hone _)]
  constructor
  · rintro ⟨txPackets, htxPackets, txFailed, htxFailed, rssi, hrssi, hresult⟩
    split at hresult
    · contradiction
    · next rates hrates =>
      split at hresult
      · contradiction
      · next rate hrate =>
        obtain rfl := Except.ok.inj hresult
        have hrates := (find?_eq_some_iff (hone _)).mp hrates
        have hd := h.rates rates hrates
        exact ⟨htxPackets, htxFailed, hrssi, rates, hrates, hd, (bitrate?_eq_some_iff hd).mp hrate⟩
  · rintro ⟨htxPackets, htxFailed, hrssi, rates, hrates, hd, hrate⟩
    refine ⟨_, htxPackets, _, htxFailed, _, hrssi, ?_⟩
    rw [(find?_eq_some_iff (hone _)).mpr hrates]
    simp only [(bitrate?_eq_some_iff hd).mpr hrate]
    rfl

end Station

namespace Query

open Operation

variable {family : UInt16} {p q : Packet} {info : Bytes}

/-- The counters are read of the container in a reply that passes the checks. -/
theorem stationOf_of_first (h : p.First WifiAttribute.stationInfo info) :
    stationOf family p =
      (checkReply family .newStation "get station" p).bind fun _ ↦ Station.ofRegion info := by
  rw [stationOf, Packet.attribute?_eq_some_iff.mpr h]
  rfl

/-- The checks ask for the type and the command of a message with attributes. -/
theorem checkReply_congr {payload other : Bytes} {kind : UInt16} (hp : p.First kind payload)
    (hq : q.First kind other) (htype : p.type = q.type) (hcommand : p.command = q.command)
    (command : Command) (operation : String) :
    checkReply family command operation p = checkReply family command operation q := by
  rw [checkReply_of_kind_ne (Packet.kind_ne_error hp.leastFamilyType_le),
    checkReply_of_kind_ne (Packet.kind_ne_error hq.leastFamilyType_le), htype, hcommand]

theorem stationOf_eq_ok_iff {s : Station} (hd : Station.IsDistinctDeep (items info))
    (h : p.First WifiAttribute.stationInfo info) :
    stationOf family p = .ok s ↔ IsReply family .newStation p ∧ s.IsToldBy (items info) := by
  rw [stationOf_of_first h, ← Station.ofRegion_eq_ok_iff hd,
    ← checkReply_eq_ok_iff "get station"]
  cases checkReply family .newStation "get station" p with
  | error e => simp [Except.bind]
  | ok _ => simp [Except.bind]

end Query

/-! ### Messages with containers -/

/-- How messages are read in which such a container tells of a network. -/
structure ScanResult.IsReadOf (bss : Bytes) : Prop where
  rearranged {p q : Packet} {other : Bytes} (h : Rearranges readKinds (items bss) (items other))
    (hp : p.First WifiAttribute.bss bss) (hq : q.First WifiAttribute.bss other)
    (hcommand : p.command = q.command) : ofPacket p = ofPacket q
  ok_iff {p : Packet} (hp : p.First WifiAttribute.bss bss) (result : ScanResult) :
    ofPacket p = .ok result ↔
      p.command = Command.newScanResults.number ∧ result.IsToldBy (items bss)

/-- How replies are read in which such a container tells of a station. -/
structure Station.IsReadOf (r : Rehearsal) (family : UInt16) (info : Bytes) : Prop where
  rearranged {p q : Packet} {other : Bytes} (h : Reorders (items info) (items other))
    (hp : p.First WifiAttribute.stationInfo info)
    (hq : q.First WifiAttribute.stationInfo other) (htype : p.type = q.type)
    (hcommand : p.command = q.command) (rest others : List Packet) (ifindex : UInt32)
    (mac : MacAddress) : ((r.replying (p :: rest)).perform (Query.station ifindex mac)).1 =
      ((r.replying (q :: others)).perform (Query.station ifindex mac)).1
  ok_iff {p : Packet} (hp : p.First WifiAttribute.stationInfo info) (rest : List Packet)
    (ifindex : UInt32) (mac : MacAddress) (s : Station) :
    ((r.replying (p :: rest)).perform (Query.station ifindex mac)).1 = .ok s ↔
      Operation.IsReply family .newStation p ∧ s.IsToldBy (items info)

/-- Containers are read by kind: in another order and among kinds that are not read the attributes
give the same result, and this is no failure exactly if they tell a network or a station. -/
theorem containers_areReadByKind {r : Rehearsal} {family : UInt16} (hr : r.family = some family) :
    (∀ bss, IsDistinct (items bss) → ScanResult.IsReadOf bss) ∧
    ∀ info, Station.IsDistinctDeep (items info) → Station.IsReadOf r family info := by
  have hread (p : Packet) (rest : List Packet) (ifindex : UInt32) (mac : MacAddress) :
      ((r.replying (p :: rest)).perform (Query.station ifindex mac)).1 =
        Query.stationOf family p := Query.perform_station hr ifindex mac (p :: rest)
  constructor
  · intro bss hd
    constructor
    · intro p q other h hp hq hcommand
      have hregion : ScanResult.ofRegion bss = ScanResult.ofRegion other := by
        apply ScanResult.ofRegion_congr
        intro kind hkind
        exact (h.payload?_eq hd hkind).symm
      rw [ScanResult.ofPacket_of_first hp, ScanResult.ofPacket_of_first hq, hcommand, hregion]
    · intro p hp result
      exact ScanResult.ofPacket_eq_ok_iff hd hp
  · intro info hd
    constructor
    · intro p q other h hp hq htype hcommand rest others ifindex mac
      rw [hread, hread, Query.stationOf_of_first hp, Query.stationOf_of_first hq,
        Query.checkReply_congr hp hq htype hcommand,
        Station.ofRegion_of_reorders hd.isDistinct h]
    · intro p hp rest ifindex mac s
      rw [hread]
      exact Query.stationOf_eq_ok_iff hd hp

/-! ### Two containers in two orders -/

/-- What tells of a network. -/
def networkRow : List Attribute :=
  [⟨BssAttribute.bssid, [2, 0, 0, 0, 0, 1], by decide⟩, Query.word BssAttribute.frequency 2412,
    ⟨BssAttribute.informationElements, [0, 1, 65], by decide⟩,
    ⟨BssAttribute.tsf, [9, 0, 0, 0, 0, 0, 0, 0], by decide⟩, Query.word BssAttribute.signalMbm 0]

/-- A rate in four bytes and one in two. -/
def ratePair : List Attribute :=
  [Query.word RateAttribute.bitrate32 70000, ⟨RateAttribute.bitrate, [255, 255], by decide⟩]

/-- What tells of a station. -/
def stationRow (rates : Bytes) (fits : rates.length ≤ maxPayload) : List Attribute :=
  [⟨StationAttribute.signal, [226], by decide⟩,
    ⟨StationAttribute.txBitrate ||| nestedFlag, rates, fits⟩,
    Query.word StationAttribute.txPackets 8, Query.word StationAttribute.txFailed 1]

/-- The attributes in reverse order behind one of a kind that is not read. -/
def reversed (as : List Attribute) : List Attribute :=
  ⟨100, [1, 2, 3], by decide⟩ :: as.reverse

/-- A message with a container. -/
def containerMessage (command : Command) (type : UInt16) (as : List Attribute)
    (fits : (row as).length ≤ maxPayload) : Packet :=
  ⟨28, multiFlag, 1, 0, (CommandHeader.ofCommand command.number 1).toBytes ++
    row [Query.container type as fits]⟩

/-- A message about the network, its attributes in reverse order. -/
def networkMessage : Packet :=
  containerMessage .newScanResults WifiAttribute.bss (reversed networkRow) (by decide)

/-- A message about the station, its rates padded as a kernel does it. -/
def paddedMessage : Packet :=
  containerMessage .newStation WifiAttribute.stationInfo
    (stationRow (row ratePair).padded (by decide +kernel)) (by decide +kernel)

/-- A message about the station, its attributes and its rates in reverse order. -/
def stationMessage : Packet :=
  containerMessage .newStation WifiAttribute.stationInfo
    (reversed (stationRow (row (reversed ratePair)) (by decide))) (by decide)

section

variable (command : Command) {type : UInt16} {as : List Attribute}
  (fits : (row as).length ≤ maxPayload)

private theorem hasRow_containerMessage : (containerMessage command type as fits).HasRow
    (.ofCommand command.number 1) [Query.container type as fits] := rfl

private theorem command_containerMessage :
    (containerMessage command type as fits).command = command.number :=
  (hasRow_containerMessage command fits).command_eq (show leastFamilyType ≤ 28 by decide)

private theorem first_containerMessage (hkind : kindOf (type ||| nestedFlag) = type) :
    (containerMessage command type as fits).First type (row as) := by
  refine ⟨[], [], ?_, List.forall_mem_nil _⟩
  rw [Packet.attributes, (hasRow_containerMessage command fits).region_eq
    (show leastFamilyType ≤ 28 by decide), items_row, List.map_singleton, Attribute.item,
    Attribute.kind, Query.container, hkind, List.nil_append]

end

private theorem rearranges_reversed {reads : List UInt16} (h : kindOf 100 ∉ reads)
    (as : List Attribute) :
    Rearranges reads (as.map Attribute.item) ((reversed as).map Attribute.item) := by
  refine ⟨[⟨kindOf 100, [1, 2, 3]⟩], List.forall_mem_singleton.mpr h, ?_⟩
  rw [reversed, List.map_cons]
  exact (((List.reverse_perm as).map Attribute.item).cons _).trans
    (List.perm_append_singleton _ _).symm

private theorem isDistinctDeep_stationRow :
    Station.IsDistinctDeep
      (items (row (stationRow (row ratePair).padded (by decide +kernel)))) := by
  rw [items_row]
  have hd : IsDistinct ((stationRow (row ratePair).padded (by decide +kernel)).map
    Attribute.item) := by decide
  refine ⟨hd, fun payload h ↦ ?_⟩
  have hrates : payload = (row ratePair).padded :=
    hd.hasAtMostOne _ _ _ h (List.mem_cons_of_mem _ List.mem_cons_self)
  rw [hrates, items_padded_row]
  decide

private theorem reorders_stationRow : Station.Reorders
    (items (row (stationRow (row ratePair).padded (by decide +kernel))))
    (items (row (reversed (stationRow (row (reversed ratePair)) (by decide))))) := by
  rw [items_row, items_row]
  refine ⟨_, ?_, rearranges_reversed (by decide) _⟩
  have hd : IsDistinct (items (row ratePair).padded) := by
    rw [items_padded_row]
    decide
  have hrates : Rearranges Station.rateKinds (items (row ratePair).padded)
      (items (row (reversed ratePair))) := by
    rw [items_padded_row, items_row]
    exact rearranges_reversed (by decide) ratePair
  exact .cons (.same _) (.cons (.rates hd hrates) (.cons (.same _) (.cons (.same _) .nil)))

/-- In reverse order the attributes tell the same network and the same station, and rates that are
padded the same rate. -/
theorem readAlike_reversed :
    ScanResult.ofPacket networkMessage =
      .ok ⟨[65], ⟨[2, 0, 0, 0, 0, 1], rfl⟩, [0, 1, 65], 2412, 0, 9, 0, false⟩ ∧
    (((⟨some 28, .fresh, [], []⟩ : Rehearsal).replying [stationMessage]).perform
      (Query.station 3 .zero)).1 = .ok ⟨8, 1, 70000, -30⟩ ∧
    (((⟨some 28, .fresh, [], []⟩ : Rehearsal).replying [paddedMessage]).perform
      (Query.station 3 .zero)).1 = .ok ⟨8, 1, 70000, -30⟩ := by
  obtain ⟨hnetwork, hstation⟩ := containers_areReadByKind (r := ⟨some 28, .fresh, [], []⟩) rfl
  constructor
  · have hd : IsDistinct (items (row networkRow)) := by
      rw [items_row]
      decide
    have hrearranged : Rearranges ScanResult.readKinds (items (row networkRow))
        (items (row (reversed networkRow))) := by
      rw [items_row, items_row]
      exact rearranges_reversed (by decide) networkRow
    have halike := (hnetwork (row networkRow) hd).rearranged hrearranged
      (first_containerMessage .newScanResults (by decide) (by decide))
      (show networkMessage.First _ _ from first_containerMessage _ _ (by decide))
      ((command_containerMessage _ _).trans (command_containerMessage _ _).symm)
    rw [← halike]
    decide +kernel
  · have hcommand : paddedMessage.command = stationMessage.command :=
      (command_containerMessage _ _).trans (command_containerMessage _ _).symm
    have hpadded : paddedMessage.First WifiAttribute.stationInfo _ :=
      first_containerMessage .newStation (by decide +kernel) (by decide)
    have halike := (hstation _ isDistinctDeep_stationRow).rearranged reorders_stationRow hpadded
      (show stationMessage.First _ _ from first_containerMessage _ _ (by decide)) rfl hcommand
    have hread : (((⟨some 28, .fresh, [], []⟩ : Rehearsal).replying [paddedMessage]).perform
      (Query.station 3 .zero)).1 = .ok ⟨8, 1, 70000, -30⟩ := by decide +kernel
    exact ⟨(halike [] [] 3 .zero).symm.trans hread, hread⟩

end WifiNetlink
