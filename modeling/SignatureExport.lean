import SignatureExport.Command.FileTree
import SignatureExport.Command.Run
import SignatureExport.Main
import SignatureExport.Proofs.Command.Agreement
import SignatureExport.Proofs.Command.DefaultOutput
import SignatureExport.Proofs.Command.InputKept
import SignatureExport.Proofs.Command.LineBytes
import SignatureExport.Proofs.Export.FirstWrite
import SignatureExport.Proofs.Export.LineIsolation
import SignatureExport.Proofs.Export.RecordReading
import SignatureExport.Proofs.Format.HeaderLines
import SignatureExport.Proofs.Format.HeaderReading
import SignatureExport.Proofs.Format.RowReading
import SignatureExport.Proofs.Signature.AddedModifiers
import SignatureExport.Proofs.Signature.AnchorPlaces
import SignatureExport.Proofs.Signature.ArgumentSeparation
import SignatureExport.Proofs.Signature.Grammar
import SignatureExport.Proofs.Signature.GroupScan
import SignatureExport.Proofs.Signature.Layout
import SignatureExport.Proofs.Signature.LeadingThunk
import SignatureExport.Proofs.Signature.LongestClass
import SignatureExport.Proofs.Signature.Reread
import SignatureExport.Proofs.Signature.ThunkNormalForm
import SignatureExport.Proofs.Signature.TrailingGroup
import SignatureExport.Proofs.Signature.WellFormed
