import SnapshotStore.KeyMap.Lemmas
import SnapshotStore.Main
import SnapshotStore.Session
import SnapshotStore.Workbench
import SnapshotStore.Proofs.Binary64.Grid
import SnapshotStore.Proofs.Binary64.Rounding
import SnapshotStore.Proofs.Decimal.Shortest
import SnapshotStore.Proofs.Json.Reread
import SnapshotStore.Proofs.Decimal.Digits
import SnapshotStore.Proofs.Json.Numeral
import SnapshotStore.Proofs.Json.Literal
import SnapshotStore.Proofs.Json.Spelled
import SnapshotStore.Proofs.Json.Sequence
import SnapshotStore.Proofs.Json.Members
import SnapshotStore.Proofs.Json.Refused
import SnapshotStore.Proofs.Json.Value
import SnapshotStore.Proofs.Snapshot.Storable
import SnapshotStore.Proofs.Snapshot.Language
import SnapshotStore.Proofs.Snapshot.RoundTrip
import SnapshotStore.Proofs.Disk.Path
import SnapshotStore.Proofs.Disk.Walk
import SnapshotStore.Proofs.Disk.Sibling
import SnapshotStore.Proofs.Disk.Runs
import SnapshotStore.Proofs.Snapshot.Replace
import SnapshotStore.Proofs.Disk.Directories
import SnapshotStore.Proofs.Store.Opening
import SnapshotStore.Proofs.Snapshot.Refused
import SnapshotStore.Proofs.Store.Writing
import SnapshotStore.Proofs.Store.Operation
import SnapshotStore.Proofs.Store.Reachable
import SnapshotStore.Proofs.Store.Shared
import SnapshotStore.Proofs.Number.Order
import SnapshotStore.Proofs.Number.Arithmetic
import SnapshotStore.Proofs.Ledger.Transfers
import SnapshotStore.Proofs.Ledger.Balances
import SnapshotStore.Proofs.Store.Counting
import SnapshotStore.Proofs.Store.Keeping
import SnapshotStore.Proofs.CommandLine.Lines
import SnapshotStore.Proofs.CommandLine.Batch
import SnapshotStore.Proofs.Session.Operation
import SnapshotStore.Proofs.Session.Cooldown
import SnapshotStore.Proofs.Disk.Neighbours
import SnapshotStore.Proofs.Store.Footprint
import SnapshotStore.Proofs.Store.Apart
import SnapshotStore.Proofs.Manager.Sharing
import SnapshotStore.Proofs.Manager.Regular
import SnapshotStore.Proofs.Autosave.Pass
import SnapshotStore.Proofs.Autosave.Running
import SnapshotStore.Proofs.Autosave.Undisturbed
import SnapshotStore.Proofs.Autosave.Account
import SnapshotStore.Proofs.Autosave.Leaving
import SnapshotStore.Proofs.Autosave.Lifetime
import SnapshotStore.Proofs.Store.Enumeration
import SnapshotStore.Proofs.Number.Value
import SnapshotStore.Proofs.Ranking.Top
import SnapshotStore.Proofs.Ledger.Refusal
import SnapshotStore.Proofs.Number.Rounding
import SnapshotStore.Proofs.Ledger.Debits
import SnapshotStore.Proofs.Ledger.Direction
import SnapshotStore.Proofs.Store.Aside
import SnapshotStore.Proofs.Command.Cut
import SnapshotStore.Proofs.Command.Grammar
import SnapshotStore.Proofs.Command.Line
import SnapshotStore.Proofs.CommandLine.OneShot
import SnapshotStore.Proofs.Session.Apart
import SnapshotStore.Proofs.Session.Idle
import SnapshotStore.Proofs.Manager.Saving
import SnapshotStore.Proofs.Ledger.Apart
import SnapshotStore.Proofs.Store.Publishing
import SnapshotStore.Proofs.Value.Literal
import SnapshotStore.Proofs.Command.Failing
import SnapshotStore.Text.Blank
