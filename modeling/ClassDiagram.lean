import ClassDiagram.Main
import ClassDiagram.Proofs.Draft.Written.ReadBack
import ClassDiagram.Proofs.Tree.Canonical
import ClassDiagram.Proofs.Attached
import ClassDiagram.Proofs.Transparent
import ClassDiagram.Proofs.Located
import ClassDiagram.Proofs.Settings.Styles
import ClassDiagram.Proofs.StandingDirectives
import ClassDiagram.Proofs.Draft.Final
import ClassDiagram.Proofs.Command.AllOrNothing
import ClassDiagram.Proofs.Export
import ClassDiagram.Proofs.Tree.Mentions
import ClassDiagram.Proofs.Draft.Widened.CarriageReturns
import ClassDiagram.Proofs.Draft.Offences
import ClassDiagram.Proofs.Draft.Exits
import ClassDiagram.Proofs.Draft.Joined
import ClassDiagram.Proofs.Draft.Boxed
import ClassDiagram.Proofs.Draft.FirstArrow
import ClassDiagram.Proofs.Draft.Shape
import ClassDiagram.Proofs.Draft.Headers
import ClassDiagram.Proofs.Draft.Exchange
import ClassDiagram.Proofs.Source.Positions
import ClassDiagram.Proofs.Source.Sorted
import ClassDiagram.Proofs.LineEnds
import ClassDiagram.Proofs.Settings.Overlay
import ClassDiagram.Proofs.Settings.Fields
import ClassDiagram.Proofs.Style.Composition
import ClassDiagram.Proofs.EmptySource
import ClassDiagram.Proofs.Settings.Measures
import ClassDiagram.Proofs.Draft.Headway
