import WifiNetlink.Wifi.Scan

/-!
# Notices

What a message without a request announces: the end of a scan, or results of a scheduled scan.
-/

namespace WifiNetlink

/-- An announcement of the nl80211 family about one interface. -/
inductive Notice where
  | scan (notification : ScanNotification)
  | schedule (ifindex : UInt32)
deriving Repr, DecidableEq

namespace Notice

/-- What a message announces, if it comes from the family, has one of three commands and names an
interface. -/
def ofPacket? (family : UInt16) (p : Packet) : Option Notice :=
  if p.type ≠ family then none
  else if p.command = Command.newScanResults.number ∨ p.command = Command.scanAborted.number then
    (ScanNotification.ofPacket? p).map scan
  else if p.command = Command.schedScanResults.number then
    (p.value? UInt32 WifiAttribute.ifindex).map schedule
  else none

end Notice

end WifiNetlink
