import ErDiagram.Main
import ErDiagram.Proofs.Grammar
import ErDiagram.Proofs.Grammar.Reading
import ErDiagram.Proofs.Grammar.Acceptance
import ErDiagram.Proofs.Scanning
import ErDiagram.Proofs.Scanning.Yields
import ErDiagram.Proofs.CanonicalText
import ErDiagram.Proofs.ColumnOrder
import ErDiagram.Proofs.MarkupReading
import ErDiagram.Proofs.Lists
import ErDiagram.Proofs.DrawingTree
import ErDiagram.Proofs.AcceptedNames
import ErDiagram.Proofs.SceneGeometry
import ErDiagram.Proofs.CanvasRun
import ErDiagram.Proofs.ReferenceConnectors
import ErDiagram.Proofs.Grammar.Automaton
import ErDiagram.Proofs.Grammar.Faults
import ErDiagram.Proofs.Scanning.Lines
import ErDiagram.Proofs.Scanning.Failure
import ErDiagram.Proofs.Scanning.Segmentation
import ErDiagram.Proofs.Scanning.EscapedBreaks
import ErDiagram.Proofs.SourceLines
import ErDiagram.Proofs.Scanning.TypeTexts
import ErDiagram.Proofs.AcceptedSchemas
import ErDiagram.Proofs.DiagramRun
import ErDiagram.Proofs.DragRun
import ErDiagram.Proofs.MoveReplay
import ErDiagram.Proofs.FrontEnds
import ErDiagram.Proofs.Grammar.Violations
import ErDiagram.Proofs.Scanning.Continuation
import ErDiagram.Proofs.UnclosedTables
import ErDiagram.Proofs.XmlCharacters
import ErDiagram.Proofs.LegalDrawings
import ErDiagram.Proofs.Scanning.TypesAhead
import ErDiagram.Proofs.VerbatimTypes
import ErDiagram.Proofs.Grammar.Relocation
import ErDiagram.Proofs.Scanning.Respacing
import ErDiagram.Proofs.CommentsAndReturns
import ErDiagram.Proofs.JoinedSources
import ErDiagram.Proofs.FileStores
import ErDiagram.Proofs.CommandRun
import ErDiagram.Proofs.ColumnOrder.Indices
import ErDiagram.Proofs.ColumnOrder.Stability
import ErDiagram.Proofs.ElementIds
import ErDiagram.Proofs.Doubles.Rounding
import ErDiagram.Proofs.Doubles
import ErDiagram.Proofs.ConnectorClearance
import ErDiagram.Proofs.ExactNumbers
import ErDiagram.Proofs.TableBoxes
import ErDiagram.Proofs.SideBySide
import ErDiagram.Proofs.ViewBox
