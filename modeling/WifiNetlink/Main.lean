import WifiNetlink.CommandLine.Session
import WifiNetlink.Kernel.Control

/-!
# The program

Runs a session over the kernel that knows only the control family, and writes what the session
prints and announces in the order of its journal.
-/

open WifiNetlink WifiNetlink.CommandLine

/-- More steps than a session takes. -/
def stepLimit : Nat := 1 <<< 60

/-- Write one remark of a session. -/
def writeRemark : Remark → IO Unit
  | .printed text => IO.print text
  | .announced line | .failed line => IO.eprintln line
  | .heard _ => pure ()

/-- Run the command line. -/
def main (arguments : List String) : IO UInt32 := do
  match parse? arguments with
  | none =>
    IO.eprintln "Error: the arguments are not those of a command"
    return UInt32.ofNat refusedStatus
  | some .version =>
    IO.print versionText
    return 0
  | some (.session i) =>
    let journal := (i.run ControlKernel.host 1 .standard stepLimit).journal
    for remark in journal.notes.reverse do
      writeRemark remark
    return UInt32.ofNat (status journal)
