import Mosaic.Cascade.Plain
import Mosaic.Cover.Tiling
import Mosaic.Format.Host
import Mosaic.Format.Report
import Mosaic.Format.Settings
import Mosaic.Journal.Line
import Mosaic.Layout.Operation
import Mosaic.Proofs.Cascade.Cover
import Mosaic.Proofs.Cascade.Depth
import Mosaic.Proofs.Cascade.Floor
import Mosaic.Proofs.Cascade.Limit
import Mosaic.Proofs.Cascade.Optimal
import Mosaic.Proofs.Cascade.Symmetry
import Mosaic.Proofs.Cover.Least
import Mosaic.Proofs.Cover.Shortage
import Mosaic.Proofs.Edge.Closest
import Mosaic.Proofs.Format.Logged
import Mosaic.Proofs.Format.Settings
import Mosaic.Proofs.Layout.Again
import Mosaic.Proofs.Layout.Answered
import Mosaic.Proofs.Layout.Break
import Mosaic.Proofs.Layout.Classic
import Mosaic.Proofs.Layout.Corner
import Mosaic.Proofs.Layout.Counted
import Mosaic.Proofs.Layout.Extent
import Mosaic.Proofs.Layout.Growth
import Mosaic.Proofs.Layout.Held
import Mosaic.Proofs.Layout.Inside
import Mosaic.Proofs.Layout.Lifecycle
import Mosaic.Proofs.Layout.Marked
import Mosaic.Proofs.Layout.Minimums
import Mosaic.Proofs.Layout.Moderate
import Mosaic.Proofs.Layout.Named
import Mosaic.Proofs.Layout.Noise
import Mosaic.Proofs.Layout.Offered
import Mosaic.Proofs.Layout.Piecewise
import Mosaic.Proofs.Layout.Ranged
import Mosaic.Proofs.Layout.Regrow
import Mosaic.Proofs.Layout.Restore
import Mosaic.Proofs.Layout.Restretch
import Mosaic.Proofs.Layout.Rewind
import Mosaic.Proofs.Layout.Tolerance
import Mosaic.Proofs.Layout.Undersized
import Mosaic.Proofs.Layout.Unhindered
import Mosaic.Proofs.Snapshot.Bytes
import Mosaic.Proofs.Snapshot.Change
import Mosaic.Proofs.Snapshot.Fingerprint
