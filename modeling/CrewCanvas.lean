import CrewCanvas.Editor
import CrewCanvas.Graph.Summary
import CrewCanvas.Settings.Read
import CrewCanvas.Proofs.WalkAgreement
import CrewCanvas.Proofs.LegalEdges
import CrewCanvas.Proofs.SaveAndLoad
import CrewCanvas.Proofs.RecordText
import CrewCanvas.Proofs.CrossReferences
import CrewCanvas.Proofs.RerouteClaims
import CrewCanvas.Proofs.EdgeInputs
import CrewCanvas.Proofs.DrawnLines
import CrewCanvas.Proofs.StoreHistory
import CrewCanvas.Proofs.EdgeIds
import CrewCanvas.Proofs.DepthFirst
import CrewCanvas.Proofs.StoreTraffic
import CrewCanvas.Proofs.RecordValidity
import CrewCanvas.Proofs.TaskFeeders
import CrewCanvas.Proofs.FreeNames
import CrewCanvas.Proofs.LinesApart
import CrewCanvas.Proofs.AddedNode
import CrewCanvas.Proofs.GivenIds
import CrewCanvas.Proofs.VoidOperations
import CrewCanvas.Proofs.ReloadedIds
import CrewCanvas.Proofs.Growth
import CrewCanvas.Proofs.SameStructure
import CrewCanvas.Proofs.Contraction
import CrewCanvas.Proofs.RemovedNode
import CrewCanvas.Proofs.UnassignedTasks
import CrewCanvas.Proofs.PathComments
import CrewCanvas.Proofs.LineCount
import CrewCanvas.Proofs.ToolTokens
import CrewCanvas.Proofs.ToolImports
