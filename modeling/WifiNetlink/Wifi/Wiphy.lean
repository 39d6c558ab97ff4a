import WifiNetlink.Wifi.Command
import WifiNetlink.Wifi.MacAddress
import WifiNetlink.Wire.Packet

/-!
# Wiphys, interfaces and stations

What the kernel tells of a wireless device: the channels it can use, its scan limits and features,
the network interface on it, and the counters of a station it talks to.
-/

namespace WifiNetlink

/-- A network interface. -/
structure Interface where
  name : String
  index : UInt32
  mac : MacAddress
deriving DecidableEq

/-- An interface as JSON. -/
def Interface.toJson (i : Interface) : Json :=
  .obj [("name", .str i.name), ("index", .nat i.index.toNat), ("mac", i.mac.toJson)]

/-- The channels of a wiphy by band, in MHz. -/
structure Bands where
  band2g : List UInt32
  band5g : List UInt32
  /-- Channels shared with radar. -/
  bandDfs : List UInt32
deriving Repr, DecidableEq

namespace Bands

/-- No channel. -/
def empty : Bands := ⟨[], [], []⟩

/-- Whether a frequency lies in the 2.4 GHz band. -/
def isIn2g (frequency : UInt32) : Bool := 2400 ≤ frequency && frequency ≤ 2500

/-- The channels with one more. The 2.4 GHz band goes by frequency alone; above and below it a
channel with a radar state goes to the radar list. -/
def insert (b : Bands) (frequency : UInt32) (hasDfsState : Bool) : Bands :=
  if isIn2g frequency then { b with band2g := b.band2g ++ [frequency] }
  else if hasDfsState then { b with bandDfs := b.bandDfs ++ [frequency] }
  else { b with band5g := b.band5g ++ [frequency] }

/-- The channels as JSON. -/
def toJson (b : Bands) : Json :=
  let list (fs : List UInt32) : Json := .arr (fs.map fun f ↦ .nat f.toNat)
  .obj [("band_2g", list b.band2g), ("band_5g", list b.band5g), ("band_dfs", list b.bandDfs)]

/-- The channels with that of one channel entry, unless it has no frequency or is disabled. -/
def pushChannel (b : Bands) (channel : Bytes) : Bands :=
  match Region.value? UInt32 channel ChannelAttribute.frequency with
  | none => b
  | some frequency =>
    if (Region.find? channel ChannelAttribute.disabled).isSome then b
    else b.insert frequency (Region.find? channel ChannelAttribute.dfsState).isSome

/-- The channels with those of one band entry. -/
def pushBand (b : Bands) (band : Bytes) : Bands :=
  match Region.find? band BandAttribute.frequencies with
  | none => b
  | some channels => (Region.items channels).foldl (fun b item ↦ b.pushChannel item.payload) b

/-- The channels with those of a list of bands. -/
def pushBands (b : Bands) (bands : Bytes) : Bands :=
  (Region.items bands).foldl (fun b item ↦ b.pushBand item.payload) b

end Bands

/-- How much a wiphy can scan for at once. -/
structure ScanLimits where
  maxNumScanSsids : UInt8
  maxNumSchedScanSsids : UInt8
  maxMatchSets : UInt8
deriving Repr, DecidableEq

/-- The scan limits as JSON. -/
def ScanLimits.toJson (l : ScanLimits) : Json :=
  .obj [("max_num_scan_ssids", .nat l.maxNumScanSsids.toNat),
    ("max_num_sched_scan_ssids", .nat l.maxNumSchedScanSsids.toNat),
    ("max_match_sets", .nat l.maxMatchSets.toNat)]

/-- What a wiphy can do about its address in scans. -/
structure WiphyFeatures where
  randomMacScan : Bool
  randomMacSchedScan : Bool
deriving Repr, DecidableEq

namespace WiphyFeatures

/-- The features in a set of flags. -/
def ofFlags (flags : UInt32) : WiphyFeatures :=
  ⟨flags &&& randomMacScanFeature != 0, flags &&& randomMacSchedScanFeature != 0⟩

/-- The features as JSON. -/
def toJson (f : WiphyFeatures) : Json :=
  .obj [("supports_random_mac_oneshot_scan", .bool f.randomMacScan),
    ("supports_random_mac_sched_scan", .bool f.randomMacSchedScan)]

end WiphyFeatures

/-- What is known of a wiphy. -/
structure WiphyInfo where
  bands : Bands
  limits : ScanLimits
  features : WiphyFeatures
deriving Repr, DecidableEq

namespace WiphyInfo

/-- Nothing is known. -/
def empty : WiphyInfo := ⟨.empty, ⟨0, 0, 0⟩, ⟨false, false⟩⟩

/-- A wiphy as JSON. -/
def toJson (w : WiphyInfo) : Json :=
  .obj [("bands", w.bands.toJson), ("scan_capabilities", w.limits.toJson),
    ("features", w.features.toJson)]

end WiphyInfo

/-- Counters of a station. -/
structure Station where
  txPackets : UInt32
  txFailed : UInt32
  /-- The send rate in units of 100 kbit/s. -/
  txBitrate : UInt32
  /-- The signal level in dBm. -/
  rssi : Int8
deriving Repr, DecidableEq

namespace Station

/-- A station as JSON. -/
def toJson (s : Station) : Json :=
  .obj [("station_tx_packets", .nat s.txPackets.toNat),
    ("station_tx_failed", .nat s.txFailed.toNat),
    ("station_tx_bitrate", .nat s.txBitrate.toNat), ("current_rssi", .int s.rssi.toInt)]

/-- The value of a child, which has to be there. -/
def require (α : Type) [Payload α] (region : Bytes) (kind : UInt16) (name : String) :
    Except Error α :=
  match Region.value? α region kind with
  | some value => .ok value
  | none => .error (.missingAttribute name)

/-- The send rate in a rate container. The number of four bytes counts if there is one. -/
def bitrate? (rate : Bytes) : Option UInt32 :=
  (Region.value? UInt32 rate RateAttribute.bitrate32).or
    ((Region.value? UInt16 rate RateAttribute.bitrate).map UInt16.toUInt32)

/-- The counters in a station container. -/
def ofRegion (info : Bytes) : Except Error Station := do
  let txPackets ← require UInt32 info StationAttribute.txPackets "NL80211_STA_INFO_TX_PACKETS"
  let txFailed ← require UInt32 info StationAttribute.txFailed "NL80211_STA_INFO_TX_FAILED"
  let rssi ← require Int8 info StationAttribute.signal "NL80211_STA_INFO_SIGNAL"
  match Region.find? info StationAttribute.txBitrate with
  | none => throw (.missingAttribute "NL80211_STA_INFO_TX_BITRATE")
  | some rate =>
    match bitrate? rate with
    | none => throw (.missingAttribute "NL80211_RATE_INFO_BITRATE")
    | some txBitrate => return ⟨txPackets, txFailed, txBitrate, rssi⟩

end Station

end WifiNetlink
