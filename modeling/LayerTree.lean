import LayerTree.Scalar.Rational
import LayerTree.Json.Reader
import LayerTree.Json.Printer
import LayerTree.Failure
import LayerTree.Record
import LayerTree.Record.Inherit
import LayerTree.ResourceUrl
import LayerTree.Geometry
import LayerTree.Transform
import LayerTree.Color
import LayerTree.Color.Reader
import LayerTree.Outline
import LayerTree.Outline.Arc
import LayerTree.Outline.Reader
import LayerTree.Outline.ArcLength
import LayerTree.Layout.Box
import LayerTree.Layer
import LayerTree.Outline.Shape
import LayerTree.Animation.Directive
import LayerTree.Host
import LayerTree.Animation.OfDescriptor
import LayerTree.Element
import LayerTree.Expansion
import LayerTree.Element.Build
import LayerTree.Playback.Control
import LayerTree.Playback.Run
import LayerTree.Playback.History
import LayerTree.Delegate.Table
import LayerTree.Resources
import LayerTree.Snapshot
import LayerTree.Text.Height
import LayerTree.Media.Bmp
import LayerTree.Media.Files
import LayerTree.Media.Tree
import LayerTree.CommandLine.Arguments
import LayerTree.CommandLine.Help
import LayerTree.CommandLine.Run
import LayerTree.Main
import LayerTree.Proofs.Element.Bodies
import LayerTree.Proofs.Element.Loaded
import LayerTree.Proofs.Element.Pruned
import LayerTree.Proofs.Layout.Exact
import LayerTree.Proofs.Layout.Cover
import LayerTree.Proofs.Animation.Unscaled
import LayerTree.Proofs.Element.Assembled
import LayerTree.Proofs.Element.Places
import LayerTree.Proofs.Element.Cut
import LayerTree.Proofs.Element.Mirrored
import LayerTree.Proofs.Element.Rescaled
import LayerTree.Proofs.Element.Broken
import LayerTree.Proofs.Element.Opened
import LayerTree.Proofs.Element.Layered
import LayerTree.Proofs.Scalar.Double
import LayerTree.Proofs.Scalar.Rational
import LayerTree.Proofs.Color.Premultiplied
import LayerTree.Proofs.Animation.Compiled
import LayerTree.Proofs.Animation.Tracks
import LayerTree.Proofs.Animation.Sampled
import LayerTree.Proofs.Animation.Typed
import LayerTree.Proofs.Element.Premultiplied
import LayerTree.Proofs.Playback.Bodywise
import LayerTree.Proofs.Playback.Operations
import LayerTree.Proofs.Playback.SeekRun
import LayerTree.Proofs.Playback.SeekProtocol
import LayerTree.Proofs.Playback.Remains
import LayerTree.Proofs.Playback.Standing
import LayerTree.Proofs.Playback.LatestOffset
import LayerTree.Proofs.Playback.Drained
import LayerTree.Proofs.Playback.Teardown
import LayerTree.Proofs.Playback.PlayButtons
import LayerTree.Proofs.Playback.Sprites
import LayerTree.Proofs.Playback.Undisturbed
import LayerTree.Proofs.Playback.VideoStep
import LayerTree.Proofs.Playback.Notifications
import LayerTree.Proofs.Playback.Transport
import LayerTree.Proofs.Resources.Collected
import LayerTree.Proofs.Expansion.Siblings
import LayerTree.Proofs.Resources.Tags
import LayerTree.Proofs.Element.Handed
import LayerTree.Proofs.ResourceUrl.Segments
import LayerTree.Proofs.ResourceUrl.Origin
import LayerTree.Proofs.Record.Weight
import LayerTree.Proofs.Record.Merging
import LayerTree.Proofs.Record.Lists
import LayerTree.Proofs.Record.Distinct
import LayerTree.Proofs.Record.Fieldwise
import LayerTree.Proofs.Expansion.Descent
import LayerTree.Proofs.Expansion.Termination
import LayerTree.Proofs.Layout.Sized
import LayerTree.Proofs.Animation.Interpolated
import LayerTree.Proofs.Animation.Timeline
import LayerTree.Proofs.Animation.Guarded
import LayerTree.Proofs.Animation.TransformParts
import LayerTree.Proofs.Animation.Between
import LayerTree.Proofs.Scalar.Whole
import LayerTree.Proofs.Layout.Tiled
import LayerTree.Proofs.Animation.Shifted
import LayerTree.Proofs.Playback.SpriteSteps
import LayerTree.Proofs.ResourceUrl.Suffix
import LayerTree.Proofs.ResourceUrl.Normalized
import LayerTree.Proofs.Animation.Paced
import LayerTree.Proofs.Color.Written
import LayerTree.Proofs.Text.Height
