import WifiNetlink.CommandLine.Arguments
import WifiNetlink.CommandLine.Report
import WifiNetlink.Transport.Step
import WifiNetlink.Wifi.Query
import WifiNetlink.Wifi.ScanRequest

/-!
# Sessions

What each command does, as client code of a transport: which operations it performs in which order,
what it prints and announces, and which failure ends it. A command that waits for scans to end
listens before it asks for anything.
-/

namespace WifiNetlink.CommandLine

/-- What a session leaves in the journal. -/
inductive Remark where
  /-- Text on the standard output. -/
  | printed (text : String)
  /-- A line on the standard error output. -/
  | announced (line : String)
  /-- The session failed, with a line on the standard error output. -/
  | failed (line : String)
  | heard (notice : Notice)

/-- Code of a session. -/
abbrev Script (σ : Type) := Program σ Remark

namespace Script

variable {σ α : Type}

/-- End with a failure. -/
def fail (cause : String) : Script σ := .note (.failed ("Error: " ++ cause)) .done

/-- Perform an operation, and go on with its result. -/
def attempt (op : Operation α) (next : α → Script σ) : Script σ :=
  .perform op fun
    | .error e => fail e.chainMessage
    | .ok a => next a

/-- Print a report. -/
def print (i : Invocation) (r : Report) (next : Script σ) : Script σ :=
  let text :=
    if i.isJson then (if i.isPretty then r.json.pretty else r.json.compact) ++ "\n" else r.text
  .note (.printed text) next

/-- Use a wiphy, or the one that the kernel tells. -/
def resolveWiphy (wiphy : Option UInt32) (next : UInt32 → Script σ) : Script σ :=
  match wiphy with
  | some wiphy => next wiphy
  | none => attempt Query.wiphyIndex next

/-- Use an interface, or the one of the wiphy that the kernel tells. -/
def resolveInterface (ifindex : Option UInt32) (next : UInt32 → Script σ) : Script σ :=
  match ifindex with
  | some ifindex => next ifindex
  | none =>
    attempt Query.wiphyIndex fun wiphy ↦
      attempt (Query.interface wiphy) fun interface ↦ next interface.index

/-- Note what is announced about an interface. -/
def hear (_ : Journal Remark) (n : ScanNotification) : Script σ := .note (.heard (.scan n)) .done

/-- Note that a scheduled scan of an interface has results. -/
def hearSchedule (_ : Journal Remark) (ifindex : UInt32) : Script σ :=
  .note (.heard (.schedule ifindex)) .done

/-- What was announced, the earliest first. -/
def heard (journal : Journal Remark) : List Notice :=
  journal.notes.reverse.filterMap fun
    | .heard notice => some notice
    | _ => none

/-- The ends of scans that were announced, the earliest first. -/
def scansHeard (journal : Journal Remark) : List ScanNotification :=
  (heard journal).filterMap fun
    | .scan n => some n
    | .schedule _ => none

/-- The scheduled scans with results that were announced, the earliest first. -/
def schedulesHeard (journal : Journal Remark) : List UInt32 :=
  (heard journal).filterMap fun
    | .scan _ => none
    | .schedule ifindex => some ifindex

/-- Print the networks that the last scan of an interface found. -/
def printResults (i : Invocation) (ifindex : UInt32) (next : Script σ) : Script σ :=
  attempt (ScanRequest.results ifindex) fun networks ↦ print i (.networks networks) next

/-- Wait for a scan that was triggered, then print what it found. -/
def awaitScan (i : Invocation) (ifindex : UInt32) (waitSeconds : Nat) : Script σ :=
  .await (fun journal ↦ !(scansHeard journal).isEmpty) (some (Duration.ofSeconds waitSeconds).nanos)
    fun journal ↦
      .unsubscribeScan ifindex
        (match scansHeard journal with
        | [] => fail ("no scan result after " ++ toString waitSeconds ++ "s")
        | n :: _ =>
          if n.aborted then fail ("scan aborted on ifindex " ++ toString ifindex)
          else printResults i ifindex .done)

/-- Trigger a scan. -/
def scan (i : Invocation) (order : ScanOrder) : Script σ :=
  resolveInterface order.ifindex fun ifindex ↦
    let ssids := if order.ssids.isEmpty then [[]] else order.ssids.map Utf8.encode
    let trigger := ScanRequest.trigger ifindex ssids order.frequencies order.randomMac
    if order.isAwaited then
      .subscribeScan ifindex hear
        (.perform trigger fun
          | .error e => .unsubscribeScan ifindex (fail e.chainMessage)
          | .ok () => awaitScan i ifindex order.waitSeconds)
    else
      attempt trigger fun _ ↦
        .note (.announced ("Scan started on ifindex " ++ toString ifindex)) .done

/-- Print what is announced until the session is interrupted. Of what was announced, so many scans
and scheduled scans are printed already. -/
def monitorOn (i : Invocation) (ifindex : UInt32) (fetchesResults : Bool) :
    (rounds scans schedules : Nat) → Script σ
  | 0, _, _ => .done
  | rounds + 1, scans, schedules =>
    .await
      (fun journal ↦
        scans < (scansHeard journal).length || schedules < (schedulesHeard journal).length)
      none fun journal ↦
        match (scansHeard journal)[scans]?, (schedulesHeard journal)[schedules]? with
        | some n, _ =>
          let next := monitorOn i ifindex fetchesResults rounds (scans + 1) schedules
          print i (.notice (.scan n))
            (if fetchesResults && !n.aborted then printResults i n.ifindex next else next)
        | none, some ifindex' =>
          print i (.notice (.schedule ifindex'))
            (monitorOn i ifindex fetchesResults rounds scans (schedules + 1))
        | none, none => .unsubscribeScan ifindex (.unsubscribeSchedule ifindex .done)

/-- Print what is announced about an interface, at most so many times. -/
def monitor (i : Invocation) (ifindex : Option UInt32) (fetchesResults : Bool) (rounds : Nat) :
    Script σ :=
  resolveInterface ifindex fun ifindex ↦
    .subscribeScan ifindex hear
      (.subscribeSchedule ifindex hearSchedule
        (.note (.announced
            ("Monitoring scans on ifindex " ++ toString ifindex ++ " (Ctrl+C to stop)..."))
          (monitorOn i ifindex fetchesResults rounds 0 0)))

/-- What a command does. -/
def ofCommand (i : Invocation) (rounds : Nat) : Script σ :=
  match i.command with
  | .wiphy => attempt Query.wiphyIndex fun wiphy ↦ print i (.wiphy wiphy) .done
  | .interface wiphy =>
    resolveWiphy wiphy fun wiphy ↦
      attempt (Query.interface wiphy) fun interface ↦ print i (.interface interface) .done
  | .info wiphy =>
    resolveWiphy wiphy fun wiphy ↦
      attempt (Query.wiphyInfo wiphy) fun info ↦ print i (.info wiphy info) .done
  | .station ifindex mac =>
    resolveInterface ifindex fun ifindex ↦
      attempt (Query.station ifindex mac) fun station ↦ print i (.station mac station) .done
  | .scan order => scan i order
  | .results ifindex =>
    resolveInterface ifindex fun ifindex ↦ printResults i ifindex .done
  | .monitor ifindex fetchesResults => monitor i ifindex fetchesResults rounds

/-- A whole session: start the transport, then do what the command says. -/
def session (i : Invocation) (rounds : Nat) : Script σ :=
  .start fun
    | .error e => fail e.chainMessage
    | .ok () => ofCommand i rounds

end Script

/-- The settings of the transport for an invocation. -/
def Invocation.config (i : Invocation) : Config :=
  { Config.standard with familyName := i.family, syncTimeout := .ofMillis i.timeoutMillis }

/-- Run a session in a system; `count` bounds its steps and the notices that it prints. -/
def Invocation.run {σ : Type} (i : Invocation) (h : Host σ) (port : UInt32) (world : σ)
    (count : Nat) : Machine σ Remark :=
  ((Machine.fresh i.config port world).run (Script.session i count)).steps h count

/-- What a session prints. -/
def output (journal : Journal Remark) : String :=
  String.join (journal.notes.reverse.filterMap fun
    | .printed text => some text
    | _ => none)

/-- The exit status of a session. -/
def status (journal : Journal Remark) : Nat :=
  if journal.notes.any fun
    | .failed _ => true
    | _ => false
  then 1 else 0

/-- The exit status of arguments that are refused. -/
def refusedStatus : Nat := 2

/-- The name and the version of the program, on a line. -/
def versionText : String := "wifictl 0.3.0\n"

end WifiNetlink.CommandLine
