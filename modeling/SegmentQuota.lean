import SegmentQuota.Bar
import SegmentQuota.Command.Arguments
import SegmentQuota.Command.Run
import SegmentQuota.Main
import SegmentQuota.Proofs.Admission
import SegmentQuota.Proofs.Agreement
import SegmentQuota.Proofs.Batches
import SegmentQuota.Proofs.Failures
import SegmentQuota.Proofs.Inclusion
import SegmentQuota.Proofs.Lattice
import SegmentQuota.Proofs.Loading
import SegmentQuota.Proofs.Offers
import SegmentQuota.Proofs.Parts
import SegmentQuota.Proofs.Reachable
import SegmentQuota.Proofs.Runs
import SegmentQuota.Proofs.Shading
import SegmentQuota.Proofs.Symmetry
import SegmentQuota.Proofs.Union
import SegmentQuota.Proofs.Verdict


