/-!
# Commands and attribute kinds of nl80211

The numbers of the nl80211 family that this library speaks of: commands, attribute kinds at the top
of a message and inside each container, and flag bits.
-/

namespace WifiNetlink

/-- The commands of nl80211 in use here. -/
inductive Command where
  | unspec
  | getWiphy
  | newWiphy
  | getInterface
  | newInterface
  | getStation
  | newStation
  | getScan
  | triggerScan
  | newScanResults
  | scanAborted
  | startSchedScan
  | stopSchedScan
  | schedScanResults
  | schedScanStopped
deriving Repr, DecidableEq

namespace Command

/-- All commands in the order of their numbers. -/
def all : List Command :=
  [unspec, getWiphy, newWiphy, getInterface, newInterface, getStation, newStation, getScan,
    triggerScan, newScanResults, scanAborted, startSchedScan, stopSchedScan, schedScanResults,
    schedScanStopped]

/-- The number of a command. -/
def number : Command → UInt8
  | unspec => 0
  | getWiphy => 1
  | newWiphy => 3
  | getInterface => 5
  | newInterface => 7
  | getStation => 17
  | newStation => 19
  | getScan => 32
  | triggerScan => 33
  | newScanResults => 34
  | scanAborted => 35
  | startSchedScan => 75
  | stopSchedScan => 76
  | schedScanResults => 77
  | schedScanStopped => 78

/-- The command of a number. -/
def ofNumber? (n : UInt8) : Option Command := all.find? fun c ↦ c.number == n

/-- The name of a command. -/
def name : Command → String
  | unspec => "Unspec"
  | getWiphy => "GetWiphy"
  | newWiphy => "NewWiphy"
  | getInterface => "GetInterface"
  | newInterface => "NewInterface"
  | getStation => "GetStation"
  | newStation => "NewStation"
  | getScan => "GetScan"
  | triggerScan => "TriggerScan"
  | newScanResults => "NewScanResults"
  | scanAborted => "ScanAborted"
  | startSchedScan => "StartSchedScan"
  | stopSchedScan => "StopSchedScan"
  | schedScanResults => "SchedScanResults"
  | schedScanStopped => "SchedScanStopped"

@[simp] theorem ofNumber?_number (c : Command) : ofNumber? c.number = some c := by
  cases c <;> decide

end Command

/-! ### Attributes of a message -/

namespace WifiAttribute

def wiphy : UInt16 := 1
def ifindex : UInt16 := 3
def ifname : UInt16 := 4
def mac : UInt16 := 6
def stationInfo : UInt16 := 21
def wiphyBands : UInt16 := 22
def maxNumScanSsids : UInt16 := 43
def scanFrequencies : UInt16 := 44
def scanSsids : UInt16 := 45
def bss : UInt16 := 47
def schedScanInterval : UInt16 := 119
def maxNumSchedScanSsids : UInt16 := 123
def schedScanMatch : UInt16 := 132
def maxMatchSets : UInt16 := 133
def featureFlags : UInt16 := 143
def scanFlags : UInt16 := 158
def splitWiphyDump : UInt16 := 174

end WifiAttribute

/-! ### Attributes of a band -/

namespace BandAttribute

def frequencies : UInt16 := 1

end BandAttribute

/-! ### Attributes of a channel -/

namespace ChannelAttribute

def frequency : UInt16 := 1
def disabled : UInt16 := 2
def dfsState : UInt16 := 7

end ChannelAttribute

/-! ### Attributes of a scanned network -/

namespace BssAttribute

def bssid : UInt16 := 1
def frequency : UInt16 := 2
def tsf : UInt16 := 3
def capability : UInt16 := 5
def informationElements : UInt16 := 6
def signalMbm : UInt16 := 7
def status : UInt16 := 9

/-- The value of `status` for the network the interface is associated with. -/
def associated : UInt32 := 1

end BssAttribute

/-! ### Attributes of a station -/

namespace StationAttribute

def signal : UInt16 := 7
def txBitrate : UInt16 := 8
def txPackets : UInt16 := 10
def txFailed : UInt16 := 12

end StationAttribute

/-! ### Attributes of a rate -/

namespace RateAttribute

/-- The rate in two bytes, which holds no very high one. -/
def bitrate : UInt16 := 1

/-- The rate in four bytes. -/
def bitrate32 : UInt16 := 5

end RateAttribute

/-! ### Attributes of a match set -/

namespace MatchAttribute

def ssid : UInt16 := 1
def rssi : UInt16 := 2

end MatchAttribute

/-- The feature flag of one-shot scans with a random address. -/
def randomMacScanFeature : UInt32 := 0x20000000

/-- The feature flag of scheduled scans with a random address. -/
def randomMacSchedScanFeature : UInt32 := 0x40000000

/-- The scan flag for a random address. -/
def randomAddressScanFlag : UInt32 := 8

/-- A device that is reported as a station interface but can never be used as one. -/
def p2pDeviceName : String := "p2p0"

end WifiNetlink
