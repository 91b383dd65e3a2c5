import ClassView.Bytes.Request
import ClassView.Listing.Basic
import ClassView.Resolved.Datum
import ClassView.CommandLine
import ClassView.Main
import ClassView.Proofs.Instruction.Decoding
import ClassView.Proofs.ClassFile.RoundTrip
import ClassView.Proofs.Descriptor.Grammar
import ClassView.Proofs.Pool.LookUp
import ClassView.Proofs.Pool.Filling
import ClassView.Proofs.Stability
import ClassView.Proofs.ClassFile.Extension
import ClassView.Proofs.Attribute.Framing
import ClassView.Proofs.Listing.Agreement
import ClassView.Proofs.Pool.References
import ClassView.Proofs.Listing.Detail
import ClassView.Proofs.Attribute.Inert
import ClassView.Proofs.Pool.Faults
import ClassView.Proofs.Listing.Descriptors
import ClassView.Proofs.Listing.LineBreaks
import ClassView.Proofs.Instruction.Truncation
import ClassView.Proofs.Instruction.Relocation
import ClassView.Proofs.ClassFile.Causes
import ClassView.Proofs.Instruction.Iteration
import ClassView.Proofs.Listing.Targets
import ClassView.Proofs.Resolved.Completeness
import ClassView.Proofs.Pool.Texts
import ClassView.Proofs.Descriptor.DisplayName
import ClassView.Proofs.Listing.Parameters
import ClassView.Proofs.Pool.Combined
import ClassView.Proofs.Text.Escapes
import ClassView.Proofs.Bytes.Session
import ClassView.Proofs.Text.Slices
import ClassView.Proofs.Descriptor.Scan
import ClassView.Proofs.Listing.Floats
