import DisplayList.Listing.Assembly
import DisplayList.Listing.Writer
import DisplayList.Svg.Export
import DisplayList.OpTable.Reading
import DisplayList.OpTable.Table
import DisplayList.Surface.Canvas
import DisplayList.Replay.Transcript
import DisplayList.Proofs.Record.Damage
import DisplayList.Proofs.Replay.Outcome
import DisplayList.Proofs.Listing.RoundTrip
import DisplayList.Proofs.Recorder.Reads
import DisplayList.Proofs.Recorder.Cache
import DisplayList.Proofs.Surface.Color
import DisplayList.Proofs.Surface.Source
import DisplayList.Proofs.Surface.Stack
import DisplayList.Proofs.Surface.Path
import DisplayList.Proofs.Svg.Targets
import DisplayList.Proofs.OpTable.Expansion
import DisplayList.Proofs.Geometry.Emptiness
import DisplayList.Proofs.OpTable.Names
import DisplayList.Proofs.Recorder.Drawing
import DisplayList.Proofs.Svg.PathData
import DisplayList.Proofs.Svg.Sweep
import DisplayList.Proofs.Svg.Turn
import DisplayList.Proofs.Surface.Refusal
import DisplayList.Proofs.Listing.LineByLine
import DisplayList.Proofs.Listing.Codec
import DisplayList.Proofs.Svg.Places
import DisplayList.Proofs.OpTable.Accessors
import DisplayList.Proofs.Svg.Tokens
