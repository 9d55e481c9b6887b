import TwoTier.Proofs.Arithmetic
import TwoTier.Proofs.Chunks.Preservation
import TwoTier.Proofs.Counting
import TwoTier.Proofs.Dispatch.Reload
import TwoTier.Proofs.Dispatch.Statistics
import TwoTier.Proofs.Dispatch.WriteBack
import TwoTier.Proofs.Eligibility.Nesting
import TwoTier.Proofs.Forms.Generation
import TwoTier.Proofs.Hoisting.Motion
import TwoTier.Proofs.IntegerCode
import TwoTier.Proofs.Lanes.Packed
import TwoTier.Proofs.Names.Resolution
import TwoTier.Proofs.Ranges
import TwoTier.Proofs.Soundness.Eligible
import TwoTier.Proofs.Surface.Arguments
import TwoTier.Proofs.Token.Indentation
import TwoTier.Proofs.Token.Quoting
import TwoTier.Settings.Document
