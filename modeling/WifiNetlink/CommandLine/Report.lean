import WifiNetlink.Text.Decimal
import WifiNetlink.Wifi.Notice
import WifiNetlink.Wifi.Wiphy

/-!
# Reports

How results are printed for a reader, one report for each kind of result, and the same results as
JSON.
-/

namespace WifiNetlink.CommandLine

/-- Something to print. -/
structure Report where
  /-- For a reader, each line ended. -/
  text : String
  json : Json

namespace Report

/-- Lines, each ended. -/
def lines (ls : List String) : String := String.join (ls.map (· ++ "\n"))

/-- Numbers with blanks between them. -/
def numbers (ns : List UInt32) : String := " ".intercalate (ns.map toString)

/-- The index of a wiphy. -/
def wiphy (index : UInt32) : Report where
  text := lines ["phy#" ++ toString index]
  json := .obj [("wiphy", .nat index.toNat)]

/-- An interface. -/
def interface (i : Interface) : Report where
  text := lines [i.name ++ ": ifindex " ++ toString i.index ++ " addr " ++ i.mac.text]
  json := i.toJson

/-- What a wiphy can do. -/
def info (index : UInt32) (w : WiphyInfo) : Report where
  text := lines ["phy#" ++ toString index,
    "  2.4 GHz: " ++ numbers w.bands.band2g,
    "  5 GHz:   " ++ numbers w.bands.band5g,
    "  DFS:     " ++ numbers w.bands.bandDfs,
    "  max scan ssids " ++ toString w.limits.maxNumScanSsids ++ " sched scan ssids " ++
      toString w.limits.maxNumSchedScanSsids ++ " match sets " ++ toString w.limits.maxMatchSets,
    "  random mac: scan " ++ toString w.features.randomMacScan ++ " sched scan " ++
      toString w.features.randomMacSchedScan]
  json := w.toJson

/-- The counters of a station. -/
def station (mac : MacAddress) (s : Station) : Report where
  text := lines ["Station " ++ mac.text,
    "  tx packets: " ++ toString s.txPackets,
    "  tx failed:  " ++ toString s.txFailed,
    "  tx bitrate: " ++ Decimal.roundedText 1 1 s.txBitrate.toNat ++ " MBit/s",
    "  signal:     " ++ toString s.rssi.toInt ++ " dBm"]
  json := s.toJson

/-- The networks that a scan found. -/
def networks (rs : List ScanResult) : Report where
  text := lines (rs.map ScanResult.line)
  json := .arr (rs.map ScanResult.toJson)

/-- The lines about a scan that ended: what it scanned, where it is told. -/
def scanLines (n : ScanNotification) : List String :=
  ("scan " ++ (if n.aborted then "aborted" else "done") ++ " on ifindex " ++ toString n.ifindex) ::
    (if n.frequencies.isEmpty then [] else ["  freqs: " ++ numbers n.frequencies]) ++
    n.ssids.map fun ssid ↦ "  ssid: \"" ++ Utf8.decodeLossy ssid ++ "\""

/-- What was announced. -/
def notice : Notice → Report
  | .scan n => ⟨lines (scanLines n), .obj (("event", .str "scan") :: n.members)⟩
  | .schedule ifindex =>
    ⟨lines ["scheduled scan results on ifindex " ++ toString ifindex],
      .obj [("event", .str "sched_scan"), ("ifindex", .nat ifindex.toNat)]⟩

end Report

end WifiNetlink.CommandLine
