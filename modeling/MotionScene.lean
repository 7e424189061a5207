import MotionScene.Plane.Transform
import MotionScene.Color
import MotionScene.Identifier
import MotionScene.Curve.Edit
import MotionScene.Owner.Defaults
import MotionScene.Scene.Slot
import MotionScene.Document.Snapshot
import MotionScene.Main
import MotionScene.Clock
import MotionScene.Settings.Stored
import MotionScene.Digest.Content
import MotionScene.Json.Parser
import MotionScene.Json.Record
import MotionScene.Proofs.Scene.Climbing
import MotionScene.Proofs.Scene.Ownership
import MotionScene.Proofs.Scene.Registering
import MotionScene.Proofs.Scene.Walking
import MotionScene.Proofs.Scene.Content
import MotionScene.Proofs.Scene.WellFormed
import MotionScene.Proofs.Scene.Listing
import MotionScene.Proofs.Command.Lawful
import MotionScene.Proofs.Command.Assignment
import MotionScene.Proofs.Command.Animation
import MotionScene.Proofs.Command.KeyframeShift
import MotionScene.Proofs.Command.PathChange
import MotionScene.Proofs.Command.Reparenting
import MotionScene.Proofs.Owner.Making
import MotionScene.Proofs.Command.Addition
import MotionScene.Proofs.Command.Redirection
import MotionScene.Proofs.Command.Removal
import MotionScene.Proofs.Command.Renumbering
import MotionScene.Proofs.Command.Copying
import MotionScene.Proofs.Command.Conversion
import MotionScene.Proofs.Command.Edit
import MotionScene.Proofs.Command.Entry
import MotionScene.Proofs.Document.Opening
import MotionScene.Proofs.Document.Restoring
import MotionScene.Proofs.Command.Replaying
import MotionScene.Proofs.Editor.Running
import MotionScene.Proofs.Editor.References
import MotionScene.Proofs.Scene.Tree
import MotionScene.Proofs.Scene.DepthFirst
import MotionScene.Proofs.Command.Clearing
import MotionScene.Proofs.Command.Erasure
import MotionScene.Proofs.Command.Dangling
import MotionScene.Proofs.Command.Duplication
import MotionScene.Proofs.Command.Rearrangement
import MotionScene.Proofs.Command.Retiming
import MotionScene.Proofs.Command.Turning
import MotionScene.Proofs.Command.Exchange
import MotionScene.Proofs.Scene.Numbering
import MotionScene.Proofs.Command.Numbering
import MotionScene.Proofs.Command.Issuing
import MotionScene.Proofs.Command.NewOwners
import MotionScene.Proofs.Command.Filing
import MotionScene.Proofs.Editor.Numbering
import MotionScene.Proofs.Json.Reading
import MotionScene.Proofs.Document.Slots
import MotionScene.Proofs.Identifier
import MotionScene.Proofs.Document.Storing
import MotionScene.Proofs.Number.Exact
import MotionScene.Proofs.Number.Shortest
import MotionScene.Proofs.Number.Written
import MotionScene.Proofs.Json.Printing
import MotionScene.Proofs.Document.Distinct
import MotionScene.Proofs.Document.Fingerprint
import MotionScene.Proofs.Number.Whole
import MotionScene.Proofs.Track.Evaluation
import MotionScene.Proofs.Track.Contents
import MotionScene.Proofs.History.Grouping
import MotionScene.Proofs.History.Bookkeeping
import MotionScene.Proofs.Curve.Positions
import MotionScene.Proofs.Curve.Subdivision
import MotionScene.Proofs.Curve.Halving
import MotionScene.Proofs.Number.Opposite
import MotionScene.Proofs.Curve.Modes
import MotionScene.Proofs.Clock
import MotionScene.Proofs.Color
import MotionScene.Proofs.Number.Order
import MotionScene.Proofs.Property.Constraining
import MotionScene.Proofs.Json.Finiteness
import MotionScene.Proofs.Command.Confinement
import MotionScene.Proofs.Scene.Ending
import MotionScene.Proofs.Scene.Covering
import MotionScene.Proofs.Value.Plain
