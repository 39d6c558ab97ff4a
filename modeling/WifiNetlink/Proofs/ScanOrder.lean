import WifiNetlink.Proofs.Building
import WifiNetlink.Proofs.Capacity

/-!
# What a request for a scan carries

A scan is ordered once or on a schedule. The order fits a request if every name fits an attribute,
every container has room for its children, and the interval has no more milliseconds than four bytes
can count. Main statement: a request is filled exactly for an order that fits, and then it carries
the order and nothing else.
-/

namespace WifiNetlink

namespace ScanRequest

/-! ### Containers of an order -/

/-- Whether names fit a container. -/
def NamesFit (names : List Bytes) : Prop :=
  (∀ name ∈ names, name.length ≤ maxPayload) ∧
    Attribute.containerLength (names.map fun name ↦ 4 + name.length) ≤ 65535

/-- Whether frequencies fit a container. -/
def FrequenciesFit (values : List UInt32) : Prop :=
  Attribute.containerLength (values.map fun _ ↦ 8) ≤ 65535

/-- The bytes of a match set, which holds a name and a signal level. -/
def setLength (name : Bytes) : Nat := Attribute.containerLength [4 + name.length, 8]

/-- Whether the match sets of names fit a container. -/
def SetsFit (names : List Bytes) : Prop :=
  (∀ name ∈ names, name.length ≤ maxPayload ∧ setLength name ≤ 65535) ∧
    Attribute.containerLength (names.map setLength) ≤ 65535

instance : DecidablePred NamesFit := fun _ ↦ inferInstanceAs (Decidable (_ ∧ _))

instance : DecidablePred FrequenciesFit := fun _ ↦ inferInstanceAs (Decidable (_ ≤ _))

instance : DecidablePred SetsFit := fun _ ↦ inferInstanceAs (Decidable (_ ∧ _))

/-- The name and the signal level in a match set, if it has these two and nothing else. -/
def matchSet? (region : Bytes) : Option (Bytes × Int32) :=
  if Region.isTruncated region ∨
      (Region.items region).map Item.kind ≠ [MatchAttribute.ssid, MatchAttribute.rssi] then none
  else
    (Region.find? region MatchAttribute.ssid).bind fun name ↦
      (Region.value? Int32 region MatchAttribute.rssi).map fun threshold ↦ (name, threshold)

/-- The bytes of the children of a match set. -/
def matchPayload (threshold : Int32) (name : Bytes) : Bytes :=
  (AttributeHeader.toBytes ⟨UInt16.ofNat (4 + name.length), MatchAttribute.ssid⟩ ++ name).padded ++
    (AttributeHeader.toBytes ⟨8, MatchAttribute.rssi⟩ ++ Payload.toPayload threshold)

theorem length_toPayload_i32 (v : Int32) : (Payload.toPayload v).length = 4 :=
  Bytes.length_ofNat 4 v.toUInt32.toNat

theorem length_toPayload_u32 (v : UInt32) : (Payload.toPayload v).length = 4 :=
  Bytes.length_ofNat 4 v.toNat

theorem length_matchPayload (threshold : Int32) (name : Bytes) :
    4 + (matchPayload threshold name).length = setLength name := by
  simp only [matchPayload, setLength, Attribute.containerLength, Attribute.lengthAfter,
    List.foldl_cons, List.foldl_nil, List.length_append, Bytes.length_padded,
    AttributeHeader.toBytes, Bytes.length_ofNat, length_toPayload_i32, align4]
  omega

/-- A match set is what the bytes of its children say. -/
theorem matchPayload_eq_row (threshold : Int32) {a b : Attribute}
    (hatype : a.type = MatchAttribute.ssid) (hbtype : b.type = MatchAttribute.rssi)
    (hb : b.payload = Payload.toPayload threshold) :
    matchPayload threshold a.payload = Region.row [a, b] := by
  have hlength : b.length = 8 := by
    rw [Attribute.length, hb, length_toPayload_i32]
  rw [Region.row, Region.row, Attribute.toBytes, Attribute.toBytes, Attribute.header,
    Attribute.header, hatype, hbtype, hb, hlength]
  rfl

theorem matchSet?_matchPayload (threshold : Int32) {name : Bytes} (h : name.length ≤ maxPayload) :
    matchSet? (matchPayload threshold name) = some (name, threshold) := by
  let ssid : Attribute := ⟨MatchAttribute.ssid, name, h⟩
  let rssi : Attribute := ⟨MatchAttribute.rssi, Payload.toPayload threshold,
    Nat.le_trans (Nat.le_of_eq (length_toPayload_i32 threshold)) (by decide)⟩
  have hrow : matchPayload threshold name = Region.row [ssid, rssi] :=
    matchPayload_eq_row threshold (a := ssid) (b := rssi) rfl rfl rfl
  have hitems : Region.items (matchPayload threshold name) =
      [⟨MatchAttribute.ssid, name⟩, ⟨MatchAttribute.rssi, Payload.toPayload threshold⟩] := by
    have hssid : kindOf MatchAttribute.ssid = MatchAttribute.ssid := by decide
    have hrssi : kindOf MatchAttribute.rssi = MatchAttribute.rssi := by decide
    rw [hrow, Region.items_row]
    simp only [ssid, rssi, List.map_cons, List.map_nil, Attribute.item, Attribute.kind, hssid,
      hrssi]
  have hwhole : Region.isTruncated (matchPayload threshold name) = false := by
    rw [hrow, Region.isTruncated_row]
  have hname : Region.find? (matchPayload threshold name) MatchAttribute.ssid = some name := by
    rw [Region.find?, hitems]
    rfl
  have hlevel : Region.find? (matchPayload threshold name) MatchAttribute.rssi =
      some (Payload.toPayload threshold) := by
    rw [Region.find?, hitems]
    rfl
  rw [matchSet?, hwhole, hitems, hname, Region.value?, hlevel, Option.bind_some, Option.bind_some,
    Payload.ofPayload_toPayload_i32]
  rfl

/-! ### Making the containers -/

theorem checks_ssids (names : List Bytes) :
    Checks (NamesFit names)
      (fun a ↦ a.type = WifiAttribute.scanSsids ||| nestedFlag ∧ IsNumbered false names a.payload)
      (ssids names) := by
  have hmade := checks_indexed false (fun type name ↦ Attribute.checks_ofPayload type name)
    WifiAttribute.scanSsids names
  rwa [List.map_id'] at hmade

/-- A value is refused if its payload does not fit an attribute. -/
theorem checks_encode {α : Type} [Payload α] (type : UInt16) (value : α) :
    Checks ((Payload.toPayload value).length ≤ maxPayload)
      (fun a ↦ a.type = type ∧ a.payload = Payload.toPayload value)
      (Attribute.encode type value) :=
  Attribute.checks_ofPayload type (Payload.toPayload value)

theorem checks_frequencies (values : List UInt32) :
    Checks (FrequenciesFit values)
      (fun a ↦ a.type = WifiAttribute.scanFrequencies ||| nestedFlag ∧
        IsNumbered false (values.map Payload.toPayload) a.payload)
      (frequencies values) := by
  have hmade := checks_indexed false (fun type (value : UInt32) ↦ checks_encode type value)
    WifiAttribute.scanFrequencies values
  refine hmade.congr ?_
  simp only [length_toPayload_u32]
  exact and_iff_right fun _ _ ↦ by decide

theorem checks_matchSet (threshold : Int32) (type : UInt16) (name : Bytes) :
    Checks (name.length ≤ maxPayload ∧ setLength name ≤ 65535)
      (fun a ↦ a.type = flagged true type ∧ a.payload = matchPayload threshold name)
      (matchSet threshold type name) := by
  refine (Attribute.checks_ofPayload MatchAttribute.ssid name).bind fun ssid hssid ↦ ?_
  have hname : ssid.length = 4 + name.length := by rw [Attribute.length, hssid.2]
  have hfirst := (Attribute.holds_nested type).checks_addChild ssid
  refine (hfirst.bind (q := setLength name ≤ 65535) fun set hset ↦ ?_).congr ?_
  · have hlevel : (Payload.toPayload threshold).length ≤ maxPayload :=
      Nat.le_trans (Nat.le_of_eq (length_toPayload_i32 threshold)) (by decide)
    have hsecond := checks_encode MatchAttribute.rssi threshold
    refine (hsecond.bind (q := setLength name ≤ 65535) fun rssi hrssi ↦ ?_).congr
      (and_iff_right hlevel)
    have hlength : rssi.length = 8 := by rw [Attribute.length, hrssi.2, length_toPayload_i32]
    have hboth := hset.1.checks_addChild rssi
    rw [hset.2, hname, hlength] at hboth
    refine hboth.imp fun _ a ha ↦ ⟨ha.1.type_eq, ?_⟩
    rw [ha.1.payload_eq, ← hssid.2]
    exact (matchPayload_eq_row threshold hssid.1 hrssi.1 hrssi.2).symm
  · -- a set that has room for both has room for the first
    have hroom : setLength name = align4 (align4 4 + (4 + name.length)) + 8 := rfl
    have := le_align4 (align4 4 + (4 + name.length))
    have hnested : (Attribute.nested type).length = 4 := rfl
    rw [hname, hnested]
    exact and_iff_right_of_imp fun _ ↦ by omega

theorem checks_matchSets (threshold : Int32) (names : List Bytes) :
    Checks (SetsFit names)
      (fun a ↦ a.type = WifiAttribute.schedScanMatch ||| nestedFlag ∧
        IsNumbered true (names.map (matchPayload threshold)) a.payload)
      (matchSets threshold names) := by
  have hmade := checks_indexed true (checks_matchSet threshold) WifiAttribute.schedScanMatch names
  simp only [length_matchPayload] at hmade
  exact hmade

end ScanRequest

/-- A walk gives the kind of a container without its flag. -/
theorem Attribute.item_of_nested {a : Attribute} {kind : UInt16}
    (htype : a.type = kind ||| nestedFlag) (hkind : kindOf (kind ||| nestedFlag) = kind) :
    a.item = ⟨kind, a.payload⟩ := by
  rw [Attribute.item, Attribute.kind, htype, hkind]

namespace Packet

/-- A request that is to be acknowledged, with some attributes in order. -/
structure IsFilled (family : UInt16) (command : UInt8) (sequence port : UInt32)
    (items : List Item) (p : Packet) : Prop where
  type_eq : p.type = family
  flags_eq : p.flags = requestFlag ||| ackFlag
  sequence_eq : p.sequence = sequence
  port_eq : p.port = port
  hasRow : ∃ as, p.HasRow (.ofCommand command requestVersion) as ∧ as.map Attribute.item = items

theorem isFilled_request (family : UInt16) (command : UInt8) (sequence port : UInt32) :
    ((request family command sequence port).addFlags ackFlag).IsFilled family command sequence port
      [] :=
  ⟨rfl, rfl, rfl, rfl, [], (List.append_nil _).symm, rfl⟩

namespace IsFilled

variable {family : UInt16} {command : UInt8} {sequence port : UInt32} {items : List Item}
  {p : Packet}

theorem addAttribute (hp : p.IsFilled family command sequence port items) {a : Attribute}
    {item : Item} (ha : a.item = item) :
    (p.addAttribute a).IsFilled family command sequence port (items ++ [item]) := by
  obtain ⟨as, hrow, hitems⟩ := hp.hasRow
  refine ⟨hp.type_eq, hp.flags_eq, hp.sequence_eq, hp.port_eq, as ++ [a], hrow.addAttribute a, ?_⟩
  rw [List.map_append, hitems, List.map_singleton, ha]

theorem checks_addValue (hp : p.IsFilled family command sequence port items) (type : UInt16)
    (hkind : kindOf type = type) (value : UInt32) :
    Checks True (fun q ↦ q.IsFilled family command sequence port
      (items ++ [⟨type, Payload.toPayload value⟩])) (p.addValue type value) := by
  have hfits : (Payload.toPayload value).length ≤ maxPayload :=
    Nat.le_trans (Nat.le_of_eq (ScanRequest.length_toPayload_u32 value)) (by decide)
  refine ((ScanRequest.checks_encode type value).congr (iff_of_true hfits trivial)).map ?_
  rintro a ⟨htype, hpayload⟩
  refine hp.addAttribute ?_
  rw [Attribute.item, Attribute.kind, htype, hpayload, hkind]

/-- The attributes of a filled request are those it has been filled with. -/
theorem attributes_eq (hp : p.IsFilled family command sequence port items)
    (hf : leastFamilyType ≤ family) : p.attributes = items ∧ Region.isTruncated p.region = false ∧
      p.command = command := by
  obtain ⟨as, hrow, hitems⟩ := hp.hasRow
  have htype : leastFamilyType ≤ p.type := by rwa [hp.type_eq]
  rw [attributes, hrow.region_eq htype, Region.items_row, Region.isTruncated_row,
    hrow.command_eq htype]
  exact ⟨hitems, rfl, rfl⟩

end IsFilled

end Packet

namespace ScanRequest

/-- The attributes that are left out unless they are wanted: the frequencies in a region, and the
flag for a random address. -/
def optionalItems (values : List UInt32) (randomMac : Bool) (region : Bytes) : List Item :=
  (if values.isEmpty then [] else [⟨WifiAttribute.scanFrequencies, region⟩]) ++
    if randomMac then [⟨WifiAttribute.scanFlags, Payload.toPayload randomAddressScanFlag⟩] else []

section Filling

variable {family : UInt16} {command : UInt8} {sequence port : UInt32} {items : List Item}
  {p : Packet}

theorem checks_addFrequencies (hp : p.IsFilled family command sequence port items)
    (values : List UInt32) :
    Checks (FrequenciesFit values)
      (fun q ↦ ∃ region, (values ≠ [] → IsNumbered false (values.map Payload.toPayload) region) ∧
        q.IsFilled family command sequence port (items ++ optionalItems values false region))
      (addFrequencies values p) := by
  cases values with
  | nil =>
    have hp' : p.IsFilled family command sequence port (items ++ []) := by rwa [List.append_nil]
    exact (Checks.pure ⟨[], fun h ↦ absurd rfl h, hp'⟩).congr
      (iff_of_true trivial (by change (4 : Nat) ≤ 65535; decide))
  | cons value values =>
    refine (checks_frequencies (value :: values)).map ?_
    rintro a ⟨htype, hregion⟩
    exact ⟨a.payload, fun _ ↦ hregion, hp.addAttribute (Attribute.item_of_nested htype (by decide))⟩

theorem checks_addRandomMac (values : List UInt32) (randomMac : Bool) (region : Bytes)
    (hp : p.IsFilled family command sequence port (items ++ optionalItems values false region)) :
    Checks True
      (fun q ↦ q.IsFilled family command sequence port
        (items ++ optionalItems values randomMac region))
      (addRandomMac randomMac p) := by
  cases randomMac with
  | false => exact Checks.pure hp
  | true =>
    have hadd := hp.checks_addValue WifiAttribute.scanFlags (by decide) randomAddressScanFlag
    refine hadd.imp fun _ q hq ↦ ?_
    rw [List.append_assoc] at hq
    simpa [optionalItems] using hq

/-- What is left out unless it is wanted comes last. -/
theorem checks_addOptional (hp : p.IsFilled family command sequence port items)
    (values : List UInt32) (randomMac : Bool) :
    Checks (FrequenciesFit values)
      (fun q ↦ ∃ region, (values ≠ [] → IsNumbered false (values.map Payload.toPayload) region) ∧
        q.IsFilled family command sequence port (items ++ optionalItems values randomMac region))
      (addFrequencies values p >>= addRandomMac randomMac) := by
  refine ((checks_addFrequencies hp values).bind (q := True) ?_).congr (and_iff_left trivial)
  rintro q ⟨region, hregion, hq⟩
  exact (checks_addRandomMac values randomMac region hq).imp fun _ r hr ↦ ⟨region, hregion, hr⟩

end Filling

end ScanRequest

/-- A scan that is asked for. -/
inductive ScanOrder where
  | once (ifindex : UInt32) (ssids : List Bytes) (frequencies : List UInt32) (randomMac : Bool)
  | scheduled (schedule : ScanRequest.Schedule)
deriving DecidableEq

namespace ScanOrder

open ScanRequest

/-- The operation that asks for a scan. -/
def operation : ScanOrder → Operation Unit
  | once ifindex ssids frequencies randomMac => trigger ifindex ssids frequencies randomMac
  | scheduled s => start s

def ifindex : ScanOrder → UInt32
  | once ifindex .. => ifindex
  | scheduled s => s.ifindex

/-- The names to scan for. -/
def ssids : ScanOrder → List Bytes
  | once _ ssids .. => ssids
  | scheduled s => s.ssids

def frequencies : ScanOrder → List UInt32
  | once _ _ frequencies _ => frequencies
  | scheduled s => s.frequencies

def randomMac : ScanOrder → Bool
  | once _ _ _ randomMac => randomMac
  | scheduled s => s.randomMac

/-- What a scan on a schedule is to do beyond a scan. -/
def schedule? : ScanOrder → Option Schedule
  | once .. => none
  | scheduled s => some s

/-- Whether the containers of an order have room for what is in them. -/
def HasRoom (order : ScanOrder) : Prop :=
  NamesFit order.ssids ∧ FrequenciesFit order.frequencies ∧
    ∀ s ∈ order.schedule?, SetsFit s.matchSsids

/-- Whether an order fits a request. -/
def Fits (order : ScanOrder) : Prop :=
  (∀ s ∈ order.schedule?, s.interval.millis < UInt32.size) ∧ order.HasRoom

instance (order : ScanOrder) : Decidable order.HasRoom :=
  inferInstanceAs (Decidable (_ ∧ _ ∧ ∀ s ∈ order.schedule?, SetsFit s.matchSsids))

instance (order : ScanOrder) : Decidable order.Fits :=
  inferInstanceAs (Decidable ((∀ s ∈ order.schedule?, s.interval.millis < UInt32.size) ∧ _))

/-- The containers of a request. -/
structure Containers where
  ssids : Bytes
  sets : Bytes
  frequencies : Bytes

/-- The attributes of a request for an order. -/
def items (order : ScanOrder) (c : Containers) : List Item :=
  (match order with
    | once ifindex .. =>
      [⟨WifiAttribute.ifindex, Payload.toPayload ifindex⟩, ⟨WifiAttribute.scanSsids, c.ssids⟩]
    | scheduled s =>
      [⟨WifiAttribute.ifindex, Payload.toPayload s.ifindex⟩,
        ⟨WifiAttribute.schedScanInterval, Payload.toPayload (UInt32.ofNat s.interval.millis)⟩,
        ⟨WifiAttribute.scanSsids, c.ssids⟩, ⟨WifiAttribute.schedScanMatch, c.sets⟩]) ++
    optionalItems order.frequencies order.randomMac c.frequencies

/-- Whether containers hold the lists of an order. -/
structure IsHeldIn (order : ScanOrder) (c : Containers) : Prop where
  ssids : IsNumbered false order.ssids c.ssids
  frequencies (h : order.frequencies ≠ []) :
    IsNumbered false (order.frequencies.map Payload.toPayload) c.frequencies
  sets (s : Schedule) (hs : s ∈ order.schedule?) :
    IsNumbered true (s.matchSsids.map (matchPayload s.threshold)) c.sets

/-- A request is filled for an order if its containers have room. -/
theorem checks_fill (order : ScanOrder) (family : UInt16) (sequence port : UInt32) :
    Checks order.HasRoom
      (fun p ↦ ∃ c, order.IsHeldIn c ∧
        p.IsFilled family order.operation.command.number sequence port (order.items c))
      (order.operation.fill
        (.request family order.operation.command.number sequence port)) := by
  have hempty := Packet.isFilled_request family order.operation.command.number sequence port
  cases order with
  | once ifindex names values randomMac =>
    have hindex := hempty.checks_addValue WifiAttribute.ifindex (by decide) ifindex
    refine (hindex.bind (q := NamesFit names ∧ FrequenciesFit values) fun p hp ↦ ?_).congr ?_
    · refine (checks_ssids names).bind ?_
      rintro a ⟨htype, hnames⟩
      have hfilled := hp.addAttribute (Attribute.item_of_nested htype (by decide))
      refine (checks_addOptional hfilled values randomMac).imp ?_
      rintro - q ⟨region, hregion, hq⟩
      exact ⟨⟨a.payload, [], region⟩, ⟨hnames, hregion, fun _ hs ↦ nomatch hs⟩, hq⟩
    · simp [HasRoom, schedule?, ScanOrder.ssids, ScanOrder.frequencies]
  | scheduled s =>
    have hindex := hempty.checks_addValue WifiAttribute.ifindex (by decide) s.ifindex
    refine (hindex.bind (q := NamesFit s.ssids ∧ SetsFit s.matchSsids ∧
      FrequenciesFit s.frequencies) fun p hp ↦ ?_).congr ?_
    · have hinterval := hp.checks_addValue WifiAttribute.schedScanInterval (by decide)
        (UInt32.ofNat s.interval.millis)
      refine (hinterval.bind (q := NamesFit s.ssids ∧ SetsFit s.matchSsids ∧
        FrequenciesFit s.frequencies) fun p hp ↦ ?_).congr (and_iff_right trivial)
      refine (checks_ssids s.ssids).bind ?_
      rintro a ⟨hatype, hnames⟩
      refine (checks_matchSets s.threshold s.matchSsids).bind ?_
      rintro b ⟨hbtype, hsets⟩
      have hfilled := (hp.addAttribute (Attribute.item_of_nested hatype (by decide))).addAttribute
        (Attribute.item_of_nested hbtype (by decide))
      refine (checks_addOptional hfilled s.frequencies s.randomMac).imp ?_
      rintro - q ⟨region, hregion, hq⟩
      refine ⟨⟨a.payload, b.payload, region⟩, ⟨hnames, hregion, ?_⟩, hq⟩
      rintro _ ⟨⟩
      exact hsets
    · simp [HasRoom, schedule?, ScanOrder.ssids, ScanOrder.frequencies, and_comm]

/-! ### Reading the order back -/

/-- The kinds of the attributes of a request for an order. -/
def kinds (order : ScanOrder) : List UInt16 :=
  (match order with
    | once .. => [WifiAttribute.ifindex, WifiAttribute.scanSsids]
    | scheduled _ =>
      [WifiAttribute.ifindex, WifiAttribute.schedScanInterval, WifiAttribute.scanSsids,
        WifiAttribute.schedScanMatch]) ++
    (if order.frequencies.isEmpty then [] else [WifiAttribute.scanFrequencies]) ++
    if order.randomMac then [WifiAttribute.scanFlags] else []

/-- Whether a packet carries what a scan on a schedule is to do beyond a scan. -/
structure CarriesSchedule (s : Schedule) (p : Packet) : Prop where
  interval_eq : ∃ millis, p.value? UInt32 WifiAttribute.schedScanInterval = some millis ∧
    millis.toNat = s.interval.nanos / 1000000
  sets_eq : ∃ region payloads, p.attribute? WifiAttribute.schedScanMatch = some region ∧
    IsNumbered true payloads region ∧
    payloads.map matchSet? = s.matchSsids.map fun name ↦ some (name, s.threshold)

/-- Whether a packet carries an order and nothing else: it reads back from its bytes, has only the
attributes of the order, and these have its values. -/
structure IsCarriedBy (order : ScanOrder) (p : Packet) : Prop where
  parse_append (rest : Bytes) : Packet.parse (p.toBytes ++ rest) = .ok p
  command_eq : p.command = order.operation.command.number
  flags_eq : p.flags = requestFlag ||| ackFlag
  isTruncated : Region.isTruncated p.region = false
  kinds_eq : p.attributes.map Item.kind = order.kinds
  ifindex_eq : p.value? UInt32 WifiAttribute.ifindex = some order.ifindex
  ssids_eq : ∃ region, p.attribute? WifiAttribute.scanSsids = some region ∧
    IsNumbered false order.ssids region ∧ ScanNotification.nestedSsids region = order.ssids
  frequencies_eq_none_iff :
    p.attribute? WifiAttribute.scanFrequencies = none ↔ order.frequencies = []
  frequencies_eq {region : Bytes}
    (h : p.attribute? WifiAttribute.scanFrequencies = some region) :
    IsNumbered false (order.frequencies.map Payload.toPayload) region ∧
      ScanNotification.nestedFrequencies region = order.frequencies
  scanFlags_eq : p.value? UInt32 WifiAttribute.scanFlags =
    if order.randomMac then some randomAddressScanFlag else none
  schedule (s : Schedule) (hs : s ∈ order.schedule?) : CarriesSchedule s p

section Lookup

variable {order : ScanOrder} {c : Containers} {p : Packet}

theorem kinds_items (order : ScanOrder) (c : Containers) :
    (order.items c).map Item.kind = order.kinds := by
  cases order with
  | once ifindex names values randomMac =>
    cases values <;> cases randomMac <;> rfl
  | scheduled s =>
    obtain ⟨_, _, _, randomMac, _, _, values⟩ := s
    cases values <;> cases randomMac <;> rfl

theorem length_kinds_le (order : ScanOrder) : order.kinds.length ≤ 6 := by
  have hoptional (p : Prop) [Decidable p] (kind : UInt16) :
      (if p then [] else [kind]).length ≤ 1 ∧ (if p then [kind] else []).length ≤ 1 := by
    split <;> simp
  have hfrequencies := (hoptional order.frequencies.isEmpty WifiAttribute.scanFrequencies).1
  have hflags := (hoptional order.randomMac WifiAttribute.scanFlags).2
  unfold kinds
  rw [List.length_append, List.length_append]
  split
  · rw [List.length_cons, List.length_singleton]
    omega
  · rw [List.length_cons, List.length_cons, List.length_cons, List.length_singleton]
    omega

/-- The attributes that a request always has. -/
theorem attribute?_of_items (hp : p.attributes = order.items c) :
    p.attribute? WifiAttribute.ifindex = some (Payload.toPayload order.ifindex) ∧
      p.attribute? WifiAttribute.scanSsids = some c.ssids := by
  change (p.attributes.find? _).map _ = _ ∧ (p.attributes.find? _).map _ = _
  rw [hp]
  cases order with
  | once ifindex names values randomMac => exact ⟨rfl, rfl⟩
  | scheduled s => exact ⟨rfl, rfl⟩

/-- The attributes that a request has if they are wanted. -/
theorem attribute?_of_optionalItems (hp : p.attributes = order.items c) :
    p.attribute? WifiAttribute.scanFrequencies =
        (if order.frequencies.isEmpty then none else some c.frequencies) ∧
      p.attribute? WifiAttribute.scanFlags =
        if order.randomMac then some (Payload.toPayload randomAddressScanFlag) else none := by
  change (p.attributes.find? _).map _ = _ ∧ (p.attributes.find? _).map _ = _
  rw [hp]
  cases order with
  | once ifindex names values randomMac =>
    cases values <;> cases randomMac <;> exact ⟨rfl, rfl⟩
  | scheduled s =>
    obtain ⟨_, _, _, randomMac, _, _, values⟩ := s
    cases values <;> cases randomMac <;> exact ⟨rfl, rfl⟩

/-- The attributes that only a request for a scan on a schedule has. -/
theorem attribute?_of_schedule {s : Schedule} (hs : s ∈ order.schedule?)
    (hp : p.attributes = order.items c) :
    p.attribute? WifiAttribute.schedScanInterval =
        some (Payload.toPayload (UInt32.ofNat s.interval.millis)) ∧
      p.attribute? WifiAttribute.schedScanMatch = some c.sets := by
  change (p.attributes.find? _).map _ = _ ∧ (p.attributes.find? _).map _ = _
  rw [hp]
  cases order with
  | once ifindex names values randomMac => exact nomatch hs
  | scheduled t =>
    obtain rfl := Option.some.inj hs
    exact ⟨rfl, rfl⟩

/-- A value is read from the payload of its attribute. -/
private theorem value?_of_attribute? {kind : UInt16} {v : UInt32}
    (h : p.attribute? kind = some (Payload.toPayload v)) : p.value? UInt32 kind = some v := by
  change (p.attribute? kind).bind _ = some v
  rw [h, Option.bind_some, Payload.ofPayload_toPayload_u32]
  rfl

theorem nestedFrequencies_of_isNumbered {values : List UInt32} {region : Bytes}
    (h : IsNumbered false (values.map Payload.toPayload) region) :
    ScanNotification.nestedFrequencies region = values := by
  have hread := congrArg (List.filterMap fun payload ↦
    (Payload.ofPayload payload : Except Error UInt32).toOption) h.payloads_eq
  have hsome : ((fun payload ↦ (Payload.ofPayload payload : Except Error UInt32).toOption) ∘
      Payload.toPayload) = some := by
    funext v
    rw [Function.comp_apply, Payload.ofPayload_toPayload_u32]
    rfl
  rw [List.filterMap_map, List.filterMap_map, hsome, List.filterMap_some] at hread
  exact hread

end Lookup

/-- A request that is filled for an order carries it. -/
theorem isCarriedBy_of_isFilled {order : ScanOrder} {c : Containers} {p : Packet} {family : UInt16}
    {sequence port : UInt32} (hf : leastFamilyType ≤ family) (horder : order.Fits)
    (hc : order.IsHeldIn c)
    (hp : p.IsFilled family order.operation.command.number sequence port (order.items c)) :
    order.IsCarriedBy p := by
  obtain ⟨hitems, hwhole, hcommand⟩ := hp.attributes_eq hf
  constructor
  case parse_append =>
    intro rest
    obtain ⟨as, hrow, has⟩ := hp.hasRow
    have hcount : as.length ≤ 6 := by
      have hlength := congrArg List.length has
      rw [List.length_map, ← List.length_map Item.kind, kinds_items] at hlength
      exact hlength ▸ order.length_kinds_le
    have hsize : p.length < UInt32.size := by
      have hleast := Region.length_row_le as
      rw [Packet.length, hrow, List.length_append, CommandHeader.length_toBytes]
      change _ < 4294967296
      omega
    exact Packet.parse_eq_ok_iff.mpr ⟨hsize, List.prefix_append _ rest⟩
  case command_eq => exact hcommand
  case flags_eq => exact hp.flags_eq
  case isTruncated => exact hwhole
  case kinds_eq => rw [hitems, kinds_items]
  case ifindex_eq => exact value?_of_attribute? (attribute?_of_items hitems).1
  case ssids_eq => exact ⟨c.ssids, (attribute?_of_items hitems).2, hc.ssids, hc.ssids.payloads_eq⟩
  case frequencies_eq_none_iff =>
    rw [(attribute?_of_optionalItems hitems).1]
    cases order.frequencies with
    | nil => exact iff_of_true rfl rfl
    | cons value values =>
      exact iff_of_false (Option.some_ne_none c.frequencies) (List.cons_ne_nil value values)
  case frequencies_eq =>
    intro region h
    rw [(attribute?_of_optionalItems hitems).1] at h
    split at h
    · contradiction
    · next hsome =>
      obtain rfl := Option.some.inj h
      have hnumbered := hc.frequencies fun hnil ↦ hsome (List.isEmpty_iff.mpr hnil)
      exact ⟨hnumbered, nestedFrequencies_of_isNumbered hnumbered⟩
  case scanFlags_eq =>
    have hflags := (attribute?_of_optionalItems hitems).2
    split
    · next hmac =>
      rw [if_pos hmac] at hflags
      exact value?_of_attribute? hflags
    · next hmac =>
      rw [if_neg hmac] at hflags
      change (p.attribute? WifiAttribute.scanFlags).bind _ = none
      rw [hflags, Option.bind_none]
  case schedule =>
    intro s hs
    obtain ⟨hinterval, hsets⟩ := attribute?_of_schedule hs hitems
    constructor
    case interval_eq =>
      refine ⟨_, value?_of_attribute? hinterval, ?_⟩
      rw [UInt32.toNat_ofNat']
      exact Nat.mod_eq_of_lt (horder.1 s hs)
    case sets_eq =>
      refine ⟨c.sets, _, hsets, hc.sets s hs, ?_⟩
      rw [List.map_map]
      exact List.map_congr_left fun name hname ↦
        matchSet?_matchPayload s.threshold ((horder.2.2.2 s hs).1 name hname).1

end ScanOrder

end WifiNetlink
