import StatementOutline.Outline.Locate
import StatementOutline.Proofs.Outline.Halting
import StatementOutline.Proofs.Outline.Leaf
import StatementOutline.Proofs.Outline.Location
import StatementOutline.Proofs.Outline.RangeIndependence
import StatementOutline.Proofs.Outline.Restriction
import StatementOutline.Proofs.Outline.Stack
import StatementOutline.Proofs.Outline.Transparency
import StatementOutline.Proofs.Session.Disposal
import StatementOutline.Proofs.Session.Interchange
import StatementOutline.Proofs.Session.Interruption
import StatementOutline.Proofs.Session.Run
import StatementOutline.Proofs.Session.UnitIndependence
import StatementOutline.Session.Step
import StatementOutline.Settings.Files
import StatementOutline.Proofs.Outline.TableAgreement
import StatementOutline.Proofs.Outline.Numbering
import StatementOutline.Proofs.Session.StatementText
import StatementOutline.Proofs.Offset.Words
import StatementOutline.Proofs.Outline.Collapse
import StatementOutline.Proofs.Outline.Visits
import StatementOutline.Proofs.SyntaxTree.NamedRows
import StatementOutline.Proofs.SyntaxTree.Descendants
import StatementOutline.Proofs.Session.BuildLog
import StatementOutline.Proofs.Outline.Print
import StatementOutline.Proofs.Session.Dump
import StatementOutline.Proofs.Toml.Scalar
import StatementOutline.Proofs.Toml.Section
import StatementOutline.Proofs.Settings.ProjectFile
