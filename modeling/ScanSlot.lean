import ScanSlot.Wire.Event
import ScanSlot.Wire.Snapshot
import ScanSlot.Peer.Reentrant
import ScanSlot.Session.Basic
import ScanSlot.Proofs.Registry.Matching
import ScanSlot.Proofs.Station.Conversation
import ScanSlot.Proofs.Station.Links
import ScanSlot.Proofs.Worker.Schedule
import ScanSlot.Proofs.Worker.Shutdown
import ScanSlot.Proofs.World.Accounts
import ScanSlot.Proofs.World.Vigil
import ScanSlot.Proofs.Ensemble.Hooks
import ScanSlot.Proofs.Ensemble.Covering
import ScanSlot.Proofs.Station.Lifecycle
import ScanSlot.Proofs.Station.Failures
import ScanSlot.Proofs.Station.Refusals
import ScanSlot.Proofs.Wire.RoundTrip
import ScanSlot.Proofs.Station.Backlog
import ScanSlot.Proofs.Station.Cycles
import ScanSlot.Proofs.World.Attempts
import ScanSlot.Proofs.Peer.Lifecycle
import ScanSlot.Proofs.Channel
import ScanSlot.Proofs.Wire.Arrangement
import ScanSlot.Proofs.Wire.Overlong
import ScanSlot.Proofs.Registry.Writing
import ScanSlot.Proofs.Station.Views
import ScanSlot.Proofs.Station.Targets
