import WifiNetlink.Text.Decimal
import WifiNetlink.Wifi.Element
import WifiNetlink.Wifi.Wiphy

/-!
# Scan results and notifications

What a scan finds, one network at a time, and what the kernel multicasts when a scan ends.
-/

namespace WifiNetlink

/-- A network found by a scan. -/
structure ScanResult where
  /-- The network name, empty for a hidden network. -/
  ssid : Bytes
  bssid : MacAddress
  /-- The information elements as received. -/
  elements : Bytes
  /-- The frequency in MHz. -/
  frequency : UInt32
  /-- The signal level in hundredths of a dBm. -/
  signalMbm : Int32
  /-- The network's clock in microseconds. -/
  tsf : UInt64
  capability : UInt16
  /-- Whether the interface is associated with the network. -/
  associated : Bool
deriving DecidableEq

namespace ScanResult

/-- The network name as text. -/
def ssidText (r : ScanResult) : String := Utf8.decodeLossy r.ssid

/-- A result as JSON, without its information elements. -/
def toJson (r : ScanResult) : Json :=
  .obj [("ssid", .str r.ssidText), ("bssid", r.bssid.toJson), ("frequency", .nat r.frequency.toNat),
    ("signal_mbm", .int r.signalMbm.toInt), ("tsf", .nat r.tsf.toNat),
    ("capability", .nat r.capability.toNat), ("associated", .bool r.associated)]

/-- A result on one line: address, frequency, signal level in dBm, a star if associated, name. -/
def line (r : ScanResult) : String :=
  r.bssid.text ++ " " ++ Decimal.padStart 5 (toString r.frequency) ++ " MHz " ++
    Decimal.padStart 6 (Decimal.roundedText 2 1 r.signalMbm.toInt) ++ " dBm" ++
    (if r.associated then " *" else "  ") ++ " " ++ r.ssidText

/-- The payload of a child, which has to be there. -/
def requireBytes (region : Bytes) (kind : UInt16) (name : String) : Except Error Bytes :=
  match Region.find? region kind with
  | some payload => .ok payload
  | none => .error (.missingAttribute name)

/-- The network in a container of a scan dump. Capabilities and association may be left out. -/
def ofRegion (bss : Bytes) : Except Error ScanResult := do
  let address ← requireBytes bss BssAttribute.bssid "NL80211_BSS_BSSID"
  let bssid ← MacAddress.ofBytes address
  let frequency ← Station.require UInt32 bss BssAttribute.frequency "NL80211_BSS_FREQUENCY"
  let elements ←
    requireBytes bss BssAttribute.informationElements "NL80211_BSS_INFORMATION_ELEMENTS"
  let ssid ← Element.ssid elements
  let tsf ← Station.require UInt64 bss BssAttribute.tsf "NL80211_BSS_TSF"
  let signalMbm ← Station.require Int32 bss BssAttribute.signalMbm "NL80211_BSS_SIGNAL_MBM"
  let capability := (Region.value? UInt16 bss BssAttribute.capability).getD 0
  let associated :=
    Region.value? UInt32 bss BssAttribute.status == some BssAttribute.associated
  return ⟨ssid, bssid, elements, frequency, signalMbm, tsf, capability, associated⟩

/-- The network in one message of a scan dump. -/
def ofPacket (p : Packet) : Except Error ScanResult :=
  if p.command ≠ Command.newScanResults.number then
    .error (.unexpectedCommand Command.newScanResults.number p.command)
  else
    match p.attribute? WifiAttribute.bss with
    | none => .error (.missingAttribute "NL80211_ATTR_BSS")
    | some bss => ofRegion bss

end ScanResult

/-- The end of a scan. -/
structure ScanNotification where
  ifindex : UInt32
  /-- Whether the scan was broken off. -/
  aborted : Bool
  /-- The names that were scanned for. -/
  ssids : List Bytes
  /-- The frequencies that were scanned, in MHz. -/
  frequencies : List UInt32
deriving Repr, DecidableEq

namespace ScanNotification

/-- The members of a notification. -/
def members (n : ScanNotification) : List (String × Json) :=
  [("ifindex", .nat n.ifindex.toNat), ("aborted", .bool n.aborted),
    ("ssids", .arr (n.ssids.map fun ssid ↦ .str (Utf8.decodeLossy ssid))),
    ("frequencies", .arr (n.frequencies.map fun f ↦ .nat f.toNat))]

/-- A notification as JSON. -/
def toJson (n : ScanNotification) : Json := .obj n.members

/-- The network names in a container, in order. -/
def nestedSsids (region : Bytes) : List Bytes := (Region.items region).map Item.payload

/-- The frequencies in a container, in order, payloads of another width left out. -/
def nestedFrequencies (region : Bytes) : List UInt32 :=
  (Region.items region).filterMap fun item ↦
    (Payload.ofPayload item.payload : Except Error UInt32).toOption

/-- The notification in a message, if it names an interface. -/
def ofPacket? (p : Packet) : Option ScanNotification :=
  (p.value? UInt32 WifiAttribute.ifindex).map fun ifindex ↦
    { ifindex
      aborted := p.command == Command.scanAborted.number
      ssids := ((p.attribute? WifiAttribute.scanSsids).map nestedSsids).getD []
      frequencies := ((p.attribute? WifiAttribute.scanFrequencies).map nestedFrequencies).getD [] }

end ScanNotification

end WifiNetlink
