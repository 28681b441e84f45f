import Patchbay.Main
import Patchbay.Registry
import Patchbay.Ron.Form
import Patchbay.Timer
import Patchbay.Proofs.Event.Mailbox
import Patchbay.Proofs.Value.Canonical
import Patchbay.Proofs.Graph.Nodes
import Patchbay.Proofs.Graph.Transition
import Patchbay.Proofs.Graph.Integrity
import Patchbay.Proofs.Graph.TickOrder
import Patchbay.Proofs.Graph.OutputChange
import Patchbay.Proofs.Graph.Settling
import Patchbay.Proofs.Inspector.View
import Patchbay.Proofs.Inspector.Freshness
import Patchbay.Proofs.Graph.Announcement
import Patchbay.Proofs.Event.Delivery
import Patchbay.Proofs.Event.Replay
import Patchbay.Proofs.Pointer.Click
import Patchbay.Proofs.Geometry.Opposite
import Patchbay.Proofs.Graph.Hits
import Patchbay.Proofs.Pointer.Report
import Patchbay.Proofs.Pointer.Drag
import Patchbay.Proofs.Graph.Reordering
import Patchbay.Proofs.Pointer.InputClick
import Patchbay.Proofs.Graph.Isolation
import Patchbay.Proofs.Graph.Cosmetics
import Patchbay.Proofs.Scene.Picking
import Patchbay.Proofs.Scene.Agreement
import Patchbay.Proofs.Graph.Refusal
import Patchbay.Proofs.Graph.Rewiring
import Patchbay.Proofs.Event.FanOut
import Patchbay.Proofs.Timer.Turns
import Patchbay.Proofs.Binary.Rounding
import Patchbay.Proofs.Decimal.Shortest
import Patchbay.Proofs.Decimal.Text
import Patchbay.Proofs.Ron.RoundTrip
import Patchbay.Proofs.Config.File
import Patchbay.Proofs.Value.Standard
import Patchbay.Proofs.Inspector.Sync
import Patchbay.Proofs.Graph.Removal
import Patchbay.Proofs.Graph.Undo
import Patchbay.Proofs.Graph.Course
import Patchbay.Proofs.Evaluation.Pulse
import Patchbay.Proofs.Evaluation.Cycle
import Patchbay.Proofs.Evaluation.Range
import Patchbay.Proofs.Demo.Logging
import Patchbay.Proofs.Value.Display
import Patchbay.Proofs.Value.Order
import Patchbay.Proofs.Graph.Clearance
import Patchbay.Proofs.Registry.Contents
