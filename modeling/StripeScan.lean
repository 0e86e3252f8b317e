import StripeScan.MemoryFile.Matching
import StripeScan.MemoryFile.Samples
import StripeScan.MemoryFile.Scanning
import StripeScan.Scan.Tampering
import StripeScan.Value.Binary64.Hex
import StripeScan.Proofs.Logic.Flat
import StripeScan.Proofs.Logic.Groups
import StripeScan.Proofs.Logic.Text
import StripeScan.Proofs.MemoryFile.Accounting
import StripeScan.Proofs.MemoryFile.Exact
import StripeScan.Proofs.MemoryFile.Projection
import StripeScan.Proofs.MemoryFile.RowGroups
import StripeScan.Proofs.Predicate.Failing
import StripeScan.Proofs.Scan.Addressing
import StripeScan.Proofs.Scan.Failure
import StripeScan.Proofs.Scan.Noninterference
import StripeScan.Proofs.Scan.Requests
import StripeScan.Proofs.Scan.Standing
import StripeScan.Proofs.SearchArgument.Coarsening
import StripeScan.Proofs.SearchArgument.Fetching
import StripeScan.Proofs.SearchArgument.Table
import StripeScan.Proofs.Statistics.Expansion
import StripeScan.Proofs.Statistics.Membership
import StripeScan.Proofs.Value.DecimalOrder
import StripeScan.Proofs.Value.DecimalText
