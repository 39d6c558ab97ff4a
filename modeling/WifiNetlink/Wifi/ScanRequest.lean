import WifiNetlink.Wifi.Operation

/-!
# Requests for scans

Starting a scan once or on a schedule, stopping the schedule, and asking for the results.
-/

namespace WifiNetlink.ScanRequest

open Operation

/-- A container whose children are typed by their position. -/
def indexed {α : Type} (type : UInt16) (child : UInt16 → α → Except Error Attribute)
    (items : List α) : Except Error Attribute :=
  items.zipIdx.foldlM
    (fun container (item, i) ↦ do container.addChild (← child (UInt16.ofNat i) item))
    (.nested type)

/-- The network names to scan for. -/
def ssids (names : List Bytes) : Except Error Attribute :=
  indexed WifiAttribute.scanSsids Attribute.ofPayload names

/-- The frequencies to scan. -/
def frequencies (values : List UInt32) : Except Error Attribute :=
  indexed WifiAttribute.scanFrequencies Attribute.encode values

/-- One set to match: a name and the least signal level. -/
def matchSet (threshold : Int32) (type : UInt16) (name : Bytes) : Except Error Attribute := do
  let ssid ← Attribute.ofPayload MatchAttribute.ssid name
  let set ← (Attribute.nested type).addChild ssid
  let rssi ← Attribute.encode MatchAttribute.rssi threshold
  set.addChild rssi

/-- The sets to match. -/
def matchSets (threshold : Int32) (names : List Bytes) : Except Error Attribute :=
  indexed WifiAttribute.schedScanMatch (matchSet threshold) names

/-- The request with the frequencies to scan, if there are any. -/
def addFrequencies (values : List UInt32) (p : Packet) : Except Error Packet :=
  if values.isEmpty then .ok p else (frequencies values).map p.addAttribute

/-- The request with the flag for a random address, if one is wanted. -/
def addRandomMac (randomMac : Bool) (p : Packet) : Except Error Packet :=
  if randomMac then p.addValue WifiAttribute.scanFlags randomAddressScanFlag else .ok p

/-- Scan once. Without names the scan is passive; an empty name asks every network. Without
frequencies every channel is scanned. -/
def trigger (ifindex : UInt32) (names : List Bytes) (values : List UInt32) (randomMac : Bool) :
    Operation Unit where
  refusal := none
  command := .triggerScan
  fill p := do
    let p ← (p.addFlags ackFlag).addValue WifiAttribute.ifindex ifindex
    let p := p.addAttribute (← ssids names)
    let p ← addFrequencies values p
    addRandomMac randomMac p
  read _ replies := expectAck "trigger scan" replies

/-- What a scheduled scan looks for and how often. -/
structure Schedule where
  ifindex : UInt32
  interval : Duration
  /-- The least signal level in dBm of a network to report. -/
  threshold : Int32
  randomMac : Bool
  /-- The names to scan for. -/
  ssids : List Bytes
  /-- The names to report. -/
  matchSsids : List Bytes
  frequencies : List UInt32
deriving DecidableEq

/-- Scan again and again, and report only networks that match. -/
def start (s : Schedule) : Operation Unit where
  refusal :=
    if s.interval.millis < UInt32.size then none
    else some (.invalidAttribute (.intervalTooLong s.interval))
  command := .startSchedScan
  fill p := do
    let p ← (p.addFlags ackFlag).addValue WifiAttribute.ifindex s.ifindex
    let p ← p.addValue WifiAttribute.schedScanInterval (UInt32.ofNat s.interval.millis)
    let p := p.addAttribute (← ssids s.ssids)
    let p := p.addAttribute (← matchSets s.threshold s.matchSsids)
    let p ← addFrequencies s.frequencies p
    addRandomMac s.randomMac p
  read _ replies := expectAck "start scheduled scan" replies

/-- Stop the scheduled scan of an interface. It is no error if there is none. -/
def stop (ifindex : UInt32) : Operation Unit where
  refusal := none
  command := .stopSchedScan
  fill p := (p.addFlags ackFlag).addValue WifiAttribute.ifindex ifindex
  read _ replies :=
    match expectAck "stop scheduled scan" replies with
    | .ok () => .ok ()
    | .error e => if e.errno? = some Errno.noent then .ok () else .error e

/-- The network in a reply of a scan dump, if the reply is one about the interface. -/
def resultOf? (family : UInt16) (ifindex : UInt32) (p : Packet) : Option ScanResult :=
  match p.kind with
  | .error _ => none
  | _ =>
    if p.type = family ∧ p.value? UInt32 WifiAttribute.ifindex = some ifindex then
      (ScanResult.ofPacket p).toOption
    else none

/-- The networks that the last scan of an interface found. Replies that are no such network are
passed over. -/
def results (ifindex : UInt32) : Operation (List ScanResult) where
  refusal := none
  command := .getScan
  fill p := (p.addFlags dumpFlags).addValue WifiAttribute.ifindex ifindex
  read family replies := .ok (replies.filterMap (resultOf? family ifindex))

end WifiNetlink.ScanRequest
