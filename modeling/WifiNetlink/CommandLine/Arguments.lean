import WifiNetlink.Wifi.MacAddress

/-!
# Arguments of the command line

Options may stand before and after the name of a command; those before it are only the ones that all
commands share. Of two values for one option, the one after the command's name counts, but at one
place an option that is not a list is given once. What does not fit this grammar is refused as a
whole.
-/

namespace WifiNetlink.CommandLine

/-- How an option is written. -/
structure OptionForm where
  /-- Its name after two dashes. -/
  name : String
  /-- Its letter after one dash. -/
  letter : Option Char
  takesValue : Bool
  /-- Whether it may be given more than once at a place. -/
  isList : Bool
deriving Repr, DecidableEq

/-- An option without a value. -/
def switch (name : String) (letter : Option Char) : OptionForm := ⟨name, letter, false, false⟩

/-- An option with a value. -/
def setting (name : String) : OptionForm := ⟨name, none, true, false⟩

/-- An option whose values are gathered in a list. -/
def listing (name : String) : OptionForm := ⟨name, none, true, true⟩

/-- The options of all commands. -/
def sharedOptions : List OptionForm :=
  [switch "json" 'j', switch "pretty" 'p', switch "verbose" 'v', setting "timeout-ms",
    setting "family"]

/-- An option as it was given, with its value if it takes one. -/
structure Given where
  name : String
  value : String
deriving Repr, DecidableEq

/-- Whether an argument is one or more options. A dash alone is none. -/
def isOption (argument : String) : Bool :=
  match argument.toList with
  | '-' :: _ :: _ => true
  | _ => false

/-- The option of a name. -/
def findName (forms : List OptionForm) (name : String) : Option OptionForm :=
  forms.find? fun form ↦ form.name == name

/-- The switch of a letter. -/
def findLetter (forms : List OptionForm) (letter : Char) : Option OptionForm :=
  forms.find? fun form ↦ form.letter == some letter && !form.takesValue

/-- The name of a long option, and the value after an equals sign if there is one. -/
def splitLong (text : List Char) : String × Option String :=
  match text.dropWhile (· != '=') with
  | [] => (String.ofList text, none)
  | _ :: value => (String.ofList (text.takeWhile (· != '=')), some (String.ofList value))

/-- The options at the start of the arguments, and the arguments from the first that is none. -/
def readOptions (forms : List OptionForm) :
    List String → Option (List Given × List String)
  | [] => some ([], [])
  | argument :: rest =>
    match argument.toList with
    | ['-', '-'] => some ([], argument :: rest)
    | '-' :: '-' :: long =>
      match splitLong long with
      | (name, value) =>
        match findName forms name, value, rest with
        | none, _, _ => none
        | some form, some value, rest =>
          if form.takesValue then
            (readOptions forms rest).map fun (given, rest) ↦ (⟨name, value⟩ :: given, rest)
          else none
        | some form, none, next :: rest =>
          if form.takesValue then
            if isOption next then none
            else (readOptions forms rest).map fun (given, rest) ↦ (⟨name, next⟩ :: given, rest)
          else
            (readOptions forms (next :: rest)).map fun (given, rest) ↦
              (⟨name, ""⟩ :: given, rest)
        | some form, none, [] => if form.takesValue then none else some ([⟨name, ""⟩], [])
    | '-' :: letter :: letters => do
      let forms' ← (letter :: letters).mapM (findLetter forms)
      let (given, rest) ← readOptions forms rest
      return (forms'.map (fun form ↦ ⟨form.name, ""⟩) ++ given, rest)
    | _ => some ([], argument :: rest)

/-- Whether no option but those that are lists is given twice. -/
def isSingle (forms : List OptionForm) (given : List Given) : Bool :=
  forms.all fun form ↦ form.isList || (given.filter (·.name == form.name)).length ≤ 1

/-- The digits of a number, after a plus sign if there is one. -/
def unsigned? (text : List Char) : Option Nat :=
  let digits := match text with
    | '+' :: digits => digits
    | _ => text
  if digits.isEmpty || !digits.all Char.isDigit then none
  else some (digits.foldl (fun n c ↦ n * 10 + (c.toNat - '0'.toNat)) 0)

/-- A number of 64 bits. -/
def count? (text : String) : Option Nat := do
  let n ← unsigned? text.toList
  if n < UInt64.size then some n else none

/-- A number of 32 bits. Zero may have a minus sign. -/
def index? (text : String) : Option UInt32 := do
  let n ← match text.toList with
    | '-' :: digits => do
      if digits.head? == some '+' then none
      let n ← unsigned? digits
      if n = 0 then some 0 else none
    | digits => unsigned? digits
  if n < UInt32.size then some (UInt32.ofNat n) else none

/-- What a scan is to do. -/
structure ScanOrder where
  ifindex : Option UInt32
  ssids : List String
  frequencies : List UInt32
  randomMac : Bool
  /-- Whether to wait for the scan and print what it finds. -/
  isAwaited : Bool
  /-- The longest wait in seconds. -/
  waitSeconds : Nat
deriving Repr, DecidableEq

/-- What to do. An interface or wiphy that is not named is asked for. -/
inductive Command where
  | wiphy
  | interface (wiphy : Option UInt32)
  | info (wiphy : Option UInt32)
  | station (ifindex : Option UInt32) (mac : MacAddress)
  | scan (order : ScanOrder)
  | results (ifindex : Option UInt32)
  | monitor (ifindex : Option UInt32) (fetchesResults : Bool)
deriving DecidableEq

/-- The arguments of a run. -/
structure Invocation where
  /-- Whether to print JSON. -/
  isJson : Bool
  /-- Whether to print JSON on many lines. -/
  isPretty : Bool
  isVerbose : Bool
  /-- The time for one request, in milliseconds. -/
  timeoutMillis : Nat
  family : String
  command : Command
deriving DecidableEq

/-- The options as given, those that count first. -/
structure Reading where
  given : List Given

namespace Reading

/-- Whether an option is given. -/
def has (r : Reading) (name : String) : Bool := r.given.any (·.name == name)

/-- The values of an option. -/
def values (r : Reading) (name : String) : List String :=
  (r.given.filter (·.name == name)).map Given.value

/-- The value of an option as read by `read?`, if it is given. -/
def value? {α : Type} (r : Reading) (name : String) (read? : String → Option α) :
    Option (Option α) :=
  match r.values name with
  | [] => some none
  | value :: _ => (read? value).map some

end Reading

/-- The options of each command beside the shared ones, and the command that they make. -/
structure CommandForm where
  names : List String
  options : List OptionForm
  make? : Reading → Option Command

/-- All commands. -/
def commandForms : List CommandForm :=
  [{ names := ["phy"], options := [], make? := fun _ ↦ some .wiphy },
    { names := ["iface"], options := [setting "wiphy"]
      make? := fun r ↦ do return .interface (← r.value? "wiphy" index?) },
    { names := ["info"], options := [setting "wiphy"]
      make? := fun r ↦ do return .info (← r.value? "wiphy" index?) },
    { names := ["station", "sta"], options := [setting "ifindex", setting "mac"]
      make? := fun r ↦ do
        let mac ← r.value? "mac" fun text ↦ (MacAddress.parse text).toOption
        return .station (← r.value? "ifindex" index?) (← mac) },
    { names := ["scan"]
      options := [setting "ifindex", listing "ssid", listing "freq", switch "random-mac" none,
        switch "wait" 'w', setting "wait-secs"]
      make? := fun r ↦ do
        return .scan {
          ifindex := ← r.value? "ifindex" index?
          ssids := r.values "ssid"
          frequencies := ← (r.values "freq").mapM index?
          randomMac := r.has "random-mac"
          isAwaited := r.has "wait"
          waitSeconds := (← r.value? "wait-secs" count?).getD 15 } },
    { names := ["results", "res"], options := [setting "ifindex"]
      make? := fun r ↦ do return .results (← r.value? "ifindex" index?) },
    { names := ["monitor", "m", "mon"], options := [setting "ifindex", switch "results" 'r']
      make? := fun r ↦ do return .monitor (← r.value? "ifindex" index?) (r.has "results") }]

/-- The options before the name of a command, and the arguments from that name on. -/
def readBefore? (arguments : List String) : Option (List Given × List String) := do
  let (before, rest) ← readOptions sharedOptions arguments
  if !isSingle sharedOptions before then none
  let _ ← (Reading.mk before).value? "timeout-ms" count?
  return (before, rest)

/-- What a session is to do, if the arguments fit the grammar. -/
def Invocation.read? (arguments : List String) : Option Invocation := do
  let (before, rest) ← readBefore? arguments
  let name :: rest := rest | none
  let form ← commandForms.find? fun form ↦ form.names.contains name
  let forms := form.options ++ sharedOptions
  let (after, rest) ← readOptions forms rest
  if rest ≠ [] ∧ rest ≠ ["--"] then none
  if !isSingle forms after then none
  let reading : Reading := ⟨after ++ before⟩
  return {
    isJson := reading.has "json"
    isPretty := reading.has "pretty"
    isVerbose := reading.has "verbose"
    timeoutMillis := (← reading.value? "timeout-ms" count?).getD 300
    family := (← reading.value? "family" some).getD "nl80211"
    command := ← form.make? reading }

/-- Whether an argument asks for the version, by name or by a letter among others. -/
def asksVersion (argument : String) : Bool :=
  match argument.toList with
  | '-' :: '-' :: _ => argument == "--version"
  | '-' :: letters => letters.contains 'V'
  | _ => false

/-- The letters before the one that asks for the version, as an argument of their own. -/
def lettersBefore (argument : String) : List String :=
  match argument.toList with
  | '-' :: '-' :: _ => []
  | '-' :: letters =>
    match letters.takeWhile (· != 'V') with
    | [] => []
    | letters => [String.ofList ('-' :: letters)]
  | _ => []

/-- Whether the arguments ask for the version. What comes after does not matter, but before it there
are only options of all commands. -/
def isVersionAsked (arguments : List String) : Bool :=
  let before := arguments.takeWhile (!asksVersion ·)
  match arguments.drop before.length with
  | [] => false
  | argument :: _ =>
    match readBefore? (before ++ lettersBefore argument) with
    | some (_, []) => true
    | _ => false

/-- What the arguments ask for. -/
inductive Request where
  /-- The name and the version of the program. -/
  | version
  | session (i : Invocation)
deriving DecidableEq

/-- What the arguments ask for, if they fit the grammar. -/
def parse? (arguments : List String) : Option Request :=
  if isVersionAsked arguments then some .version
  else (Invocation.read? arguments).map .session

end WifiNetlink.CommandLine
