import WifiNetlink.Wifi.Operation

/-!
# Queries for wiphys, interfaces and stations

Each query names what its replies have to be and which of them decides. A refused request is an
error of the query, never an empty result.
-/

namespace WifiNetlink.Query

open Operation

/-! ### The wiphy -/

/-- The index in one reply of a wiphy dump. -/
def wiphyIndexOf (family : UInt16) (p : Packet) : Except Error UInt32 := do
  checkReply family .newWiphy "get wiphy" p
  match p.value? UInt32 WifiAttribute.wiphy with
  | some index => return index
  | none => throw (.missingAttribute "NL80211_ATTR_WIPHY")

/-- The index of the last wiphy of a dump in which every reply has one. -/
def wiphyIndex : Operation UInt32 where
  refusal := none
  command := .getWiphy
  fill p := .ok (p.addFlags dumpFlags)
  read family replies := do
    let indices ← replies.mapM (wiphyIndexOf family)
    match indices.getLast? with
    | some index => return index
    | none => throw .emptyResponse

/-! ### The interface -/

/-- The interface in a reply, if it has a name that can be used and an index. Without an address of
six bytes its address is zero. -/
def usableInterface? (p : Packet) : Option Interface := do
  let name ← p.value? String WifiAttribute.ifname
  if name = p2pDeviceName then none
  let index ← p.value? UInt32 WifiAttribute.ifindex
  let mac := (p.attribute? WifiAttribute.mac).bind fun bytes ↦ (MacAddress.ofBytes bytes).toOption
  return ⟨name, index, mac.getD .zero⟩

/-- The first usable interface, every reply up to it being one of the dump. -/
def firstInterface (family : UInt16) : List Packet → Except Error (Option Interface)
  | [] => .ok none
  | p :: rest =>
    match checkReply family .newInterface "get interface" p with
    | .error e => .error e
    | .ok () =>
      match usableInterface? p with
      | some interface => .ok (some interface)
      | none => firstInterface family rest

/-- The first usable interface of a wiphy. -/
def interface (wiphy : UInt32) : Operation Interface where
  refusal := none
  command := .getInterface
  fill p := (p.addFlags dumpFlags).addValue WifiAttribute.wiphy wiphy
  read family replies := do
    match ← firstInterface family replies with
    | some interface => return interface
    | none => throw (.noUsableInterface wiphy)

/-! ### Bands, limits and features -/

/-- What is gathered of a wiphy. -/
structure WiphyDraft where
  info : WiphyInfo
  /-- Whether the scan limits were told. -/
  hasLimits : Bool
  /-- Whether a reply was about the wiphy. -/
  isMatched : Bool
deriving Repr, DecidableEq

/-- The value of a property. -/
def property (α : Type) [Payload α] (name : String) (payload : Bytes) : Except Error α :=
  match (Payload.ofPayload payload : Except Error α) with
  | .ok value => .ok value
  | .error _ => .error (.invalidAttribute (.propertySize name payload.length))

/-- The draft after one more attribute of a fragment. -/
def WiphyDraft.push (d : WiphyDraft) (item : Item) : Except Error WiphyDraft := do
  let info := d.info
  if item.kind = WifiAttribute.wiphyBands then
    return { d with info := { info with bands := info.bands.pushBands item.payload } }
  else if item.kind = WifiAttribute.maxNumScanSsids then
    let n ← property UInt8 "max scan ssids" item.payload
    return { d with
      info := { info with limits := { info.limits with maxNumScanSsids := n } }
      hasLimits := true }
  else if item.kind = WifiAttribute.maxNumSchedScanSsids then
    let n ← property UInt8 "max sched scan ssids" item.payload
    return { d with info := { info with limits := { info.limits with maxNumSchedScanSsids := n } } }
  else if item.kind = WifiAttribute.maxMatchSets then
    let n ← property UInt8 "max match sets" item.payload
    return { d with info := { info with limits := { info.limits with maxMatchSets := n } } }
  else if item.kind = WifiAttribute.featureFlags then
    let flags ← property UInt32 "feature flags" item.payload
    return { d with info := { info with features := .ofFlags flags } }
  else return d

/-- The draft after one more reply; a fragment about another wiphy adds nothing. -/
def WiphyDraft.pushReply (family : UInt16) (wiphy : UInt32) (d : WiphyDraft) (p : Packet) :
    Except Error WiphyDraft := do
  checkReply family .newWiphy "get wiphy info" p
  if p.value? UInt32 WifiAttribute.wiphy = some wiphy then
    p.attributes.foldlM WiphyDraft.push { d with isMatched := true }
  else return d

/-- The wiphy of a complete draft. -/
def WiphyDraft.finish (d : WiphyDraft) : Except Error WiphyInfo :=
  if !d.isMatched then .error .emptyResponse
  else if !d.hasLimits then .error (.missingAttribute "NL80211_ATTR_MAX_NUM_SCAN_SSIDS")
  else .ok d.info

/-- Bands, limits and features of a wiphy, merged from all fragments of a split dump. -/
def wiphyInfo (wiphy : UInt32) : Operation WiphyInfo where
  refusal := none
  command := .getWiphy
  fill p := do
    let p ← (p.addFlags dumpFlags).addValue WifiAttribute.wiphy wiphy
    return p.addAttribute (.flag WifiAttribute.splitWiphyDump)
  read family replies := do
    let draft ← replies.foldlM (WiphyDraft.pushReply family wiphy) ⟨.empty, false, false⟩
    draft.finish

/-! ### The station -/

/-- The counters in the first reply. -/
def stationOf (family : UInt16) (p : Packet) : Except Error Station := do
  checkReply family .newStation "get station" p
  match p.attribute? WifiAttribute.stationInfo with
  | none => throw (.missingAttribute "NL80211_ATTR_STA_INFO")
  | some info => Station.ofRegion info

/-- The counters of the station with that address. -/
def station (ifindex : UInt32) (mac : MacAddress) : Operation Station where
  refusal := none
  command := .getStation
  fill p := do
    let p ← p.addValue WifiAttribute.ifindex ifindex
    p.addValue WifiAttribute.mac mac.octets
  read family
    | [] => .error .emptyResponse
    | p :: _ => stationOf family p

end WifiNetlink.Query
