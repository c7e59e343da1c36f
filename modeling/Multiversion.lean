import Multiversion.Main
import Multiversion.Proofs.Source.Recognition
import Multiversion.Proofs.Source.Munch
import Multiversion.Proofs.Block.Step
import Multiversion.Proofs.Source.Scan
import Multiversion.Proofs.Layout.Tree
import Multiversion.Proofs.Layout.Meaning
import Multiversion.Proofs.Layout.Open
import Multiversion.Proofs.Layout.Acceptance
import Multiversion.Proofs.Source.Rewriting
import Multiversion.Proofs.Source.Canonical
import Multiversion.Proofs.Layout.Muting
import Multiversion.Proofs.Disk.Listing
import Multiversion.Proofs.Disk.Removal
import Multiversion.Proofs.Run.Accounting
import Multiversion.Proofs.Run.Clean
import Multiversion.Proofs.Run.Order
import Multiversion.Proofs.Block.History
import Multiversion.Proofs.Source.Remapping
import Multiversion.Proofs.Config.Definition
import Multiversion.Proofs.Run.Success
import Multiversion.Proofs.Program.Status
import Multiversion.Proofs.Source.Convergence
import Multiversion.Proofs.Source.Commenting
import Multiversion.Proofs.Run.Surfacing
import Multiversion.Proofs.Disk.Confinement
import Multiversion.Proofs.Run.Confinement
import Multiversion.Proofs.Condition.Alternatives
import Multiversion.Proofs.Condition.Token
import Multiversion.Proofs.Source.Restyling
import Multiversion.Proofs.Config.Escape
import Multiversion.Proofs.SourceFile.Atomicity
import Multiversion.Proofs.SourceFile.Alignment
