import WifiNetlink.Loop.Scheduler
import WifiNetlink.Kernel.Scripted
import WifiNetlink.Main
import WifiNetlink.Wifi.Rehearsal
import WifiNetlink.Proofs.Answer
import WifiNetlink.Proofs.Journal
import WifiNetlink.Proofs.Run
import WifiNetlink.Proofs.Ledger
import WifiNetlink.Proofs.Moves
import WifiNetlink.Proofs.Invariant
import WifiNetlink.Proofs.Traffic
import WifiNetlink.Proofs.Registration
import WifiNetlink.Proofs.Boundary
import WifiNetlink.Proofs.Returning
import WifiNetlink.Proofs.Collection
import WifiNetlink.Proofs.Release
import WifiNetlink.Proofs.Budget
import WifiNetlink.Proofs.Course
import WifiNetlink.Proofs.Cleanup
import WifiNetlink.Proofs.Refusal
import WifiNetlink.Proofs.Routing
import WifiNetlink.Proofs.Wiring
import WifiNetlink.Proofs.Lifecycle
import WifiNetlink.Proofs.Starting
import WifiNetlink.Proofs.Datagram
import WifiNetlink.Proofs.Row
import WifiNetlink.Proofs.Tree
import WifiNetlink.Proofs.Building
import WifiNetlink.Proofs.Merging
import WifiNetlink.Proofs.Cut
import WifiNetlink.Proofs.Utf8
import WifiNetlink.Proofs.Capacity
import WifiNetlink.Proofs.Decoding
import WifiNetlink.Proofs.Asked
import WifiNetlink.Proofs.Ordering
import WifiNetlink.Proofs.Description
import WifiNetlink.Proofs.Growing
import WifiNetlink.Proofs.Sifting
import WifiNetlink.Proofs.Lookups
import WifiNetlink.Proofs.Discovery
import WifiNetlink.Proofs.NetworkName
import WifiNetlink.Proofs.Deciding
import WifiNetlink.Proofs.Acknowledgement
import WifiNetlink.Proofs.Rearranging
import WifiNetlink.Proofs.Spelling
import WifiNetlink.Proofs.Awakening
import WifiNetlink.Proofs.AwaitedScan
import WifiNetlink.Proofs.ErrorNumber
import WifiNetlink.Proofs.Numbering
import WifiNetlink.Proofs.Rounding
