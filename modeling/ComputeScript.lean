import ComputeScript.Files.Disk
import ComputeScript.Main
import ComputeScript.Proofs.BinOp
import ComputeScript.Proofs.Build.Failures
import ComputeScript.Proofs.Build.Machine
import ComputeScript.Proofs.Build.Unneeded
import ComputeScript.Proofs.Command
import ComputeScript.Proofs.Compile.Destinations
import ComputeScript.Proofs.Compile.Dispatch
import ComputeScript.Proofs.Compile.Failures
import ComputeScript.Proofs.Compile.Levels
import ComputeScript.Proofs.Compile.Listing
import ComputeScript.Proofs.Eliminate.Search
import ComputeScript.Proofs.Expand.Clashes
import ComputeScript.Proofs.Expand.Faults
import ComputeScript.Proofs.Files.Order
import ComputeScript.Proofs.Fold.Modules
import ComputeScript.Proofs.Fold.NormalForm
import ComputeScript.Proofs.Launch.Wrapper
import ComputeScript.Proofs.Library.Helpers
import ComputeScript.Proofs.Library.Loading
import ComputeScript.Proofs.Link.Counting
import ComputeScript.Proofs.Module.RoundTrip
import ComputeScript.Proofs.Object.Contents
import ComputeScript.Proofs.Object.Renaming
import ComputeScript.Proofs.Outcomes
import ComputeScript.Proofs.Token.Layout
import ComputeScript.Proofs.Validity.Compiled
