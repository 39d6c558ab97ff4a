import WifiNetlink.Duration
import WifiNetlink.Json.Basic
import WifiNetlink.Json.Reader

/-!
# Settings of the transport

The family to talk to, the time one exchange may take, the size of receive buffers and the multicast
groups to join, with their defaults, their JSON text and the reading of such a text.
-/

namespace WifiNetlink

/-- Settings of a transport. -/
structure Config where
  /-- The family to look up at the start. -/
  familyName : String
  /-- The time one exchange may take, however often it is woken up. -/
  syncTimeout : Duration
  /-- The size of receive buffers; longer datagrams are cut. -/
  receiveBufferSize : Nat
  /-- The multicast groups to join at the start. -/
  multicastGroups : List String
deriving Repr, DecidableEq

namespace Config

/-- The settings if nothing is said. -/
def standard : Config := ⟨"nl80211", .ofMillis 300, 8192, ["scan"]⟩

/-- A duration as seconds and nanoseconds. -/
def durationJson (d : Duration) : Json :=
  .obj [("secs", .nat d.seconds), ("nanos", .nat d.subsecond)]

/-- The settings as JSON. -/
def toJson (c : Config) : Json :=
  .obj [("family_name", .str c.familyName), ("sync_timeout", durationJson c.syncTimeout),
    ("recv_buffer_size", .nat c.receiveBufferSize),
    ("multicast_groups", .arr (c.multicastGroups.map .str))]

/-- A text. -/
def textOf? : Document → Option String
  | .text value => value
  | _ => none

/-- A whole number below a bound. -/
def naturalOf? (bound : Nat) : Document → Option Nat
  | .natural n => if n < bound then some n else none
  | _ => none

/-- The duration of so many seconds and nanoseconds, if its seconds fit eight bytes. -/
def durationOfParts? (seconds nanos : Document) : Option Duration := do
  let seconds ← naturalOf? UInt64.size seconds
  let nanos ← naturalOf? UInt32.size nanos
  if seconds + nanos / 1000000000 < UInt64.size then return .ofParts seconds nanos else none

/-- A duration: its seconds and its nanoseconds, by name or in this order, and nothing else. -/
def durationOf? : Document → Option Duration
  | .array [seconds, nanos] => durationOfParts? seconds nanos
  | .object [(some "secs", seconds), (some "nanos", nanos)] => durationOfParts? seconds nanos
  | .object [(some "nanos", nanos), (some "secs", seconds)] => durationOfParts? seconds nanos
  | _ => none

/-- A list of texts. -/
def textsOf? : Document → Option (List String)
  | .array items => items.mapM textOf?
  | _ => none

/-- The fields in the order of their values in an array. -/
def fieldNames : List String :=
  ["family_name", "sync_timeout", "recv_buffer_size", "multicast_groups"]

/-- The settings after one field is read. A field of another name is passed over. -/
def readField? (c : Config) (name : String) (value : Document) : Option Config :=
  if name = "family_name" then do
    return { c with familyName := ← textOf? value }
  else if name = "sync_timeout" then do
    return { c with syncTimeout := ← durationOf? value }
  else if name = "recv_buffer_size" then do
    return { c with receiveBufferSize := ← naturalOf? UInt64.size value }
  else if name = "multicast_groups" then do
    return { c with multicastGroups := ← textsOf? value }
  else some c

/-- The settings of the members of an object. A field is not repeated, and one that is left out
keeps its default. -/
def ofMembers? (members : List (Option String × Document)) : Option Config := do
  let named ← members.mapM fun (name, value) ↦ name.map fun name ↦ (name, value)
  let known := (named.map Prod.fst).filter fieldNames.contains
  if known.eraseDups.length = known.length then
    named.foldlM (fun c (name, value) ↦ c.readField? name value) standard
  else none

/-- The settings of the values of an array, in the order of the fields; those left out at the end
keep their defaults. -/
def ofItems? (items : List Document) : Option Config :=
  if items.length ≤ fieldNames.length then
    (fieldNames.zip items).foldlM (fun c (name, value) ↦ c.readField? name value) standard
  else none

/-- The settings of a JSON text, if it is one of settings. -/
def ofJson? (text : String) : Option Config := do
  match ← Document.parse? text with
  | .object members => ofMembers? members
  | .array items => ofItems? items
  | _ => none

end Config

end WifiNetlink
