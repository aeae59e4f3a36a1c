import OutlineServer.Text.Lines
import OutlineServer.Json.Reader
import OutlineServer.Json.Writer
import OutlineServer.Outline.Scan
import OutlineServer.Token.Legend
import OutlineServer.Token.Strategy
import OutlineServer.Workspace.Basic
import OutlineServer.Audit.Log
import OutlineServer.Config.Basic
import OutlineServer.Server.Basic
import OutlineServer.CommandLine.Parse
import OutlineServer.Config.Surroundings
import OutlineServer.CommandLine.Start
import OutlineServer.Main
import OutlineServer.Proofs.Outline.ClosedForm
import OutlineServer.Proofs.Outline.Tree
import OutlineServer.Proofs.Outline.Order
import OutlineServer.Proofs.Outline.WellFormed
import OutlineServer.Proofs.Source.Names
import OutlineServer.Proofs.Source.Keywords
import OutlineServer.Proofs.Token.Agreement
import OutlineServer.Proofs.Server.Calls
import OutlineServer.Proofs.Json.Printable
import OutlineServer.Proofs.Server.AuditTrail
import OutlineServer.Proofs.Server.History
import OutlineServer.Proofs.Server.Failures
import OutlineServer.Proofs.Token.Layout
import OutlineServer.Proofs.Token.Stream
import OutlineServer.Proofs.Server.Confidentiality
import OutlineServer.Proofs.Json.Numbers
import OutlineServer.Proofs.Json.ReadBack
import OutlineServer.Proofs.Json.Joined
import OutlineServer.Proofs.Audit.Records
import OutlineServer.Proofs.Server.LogReadBack
import OutlineServer.Proofs.Server.Routes
import OutlineServer.Proofs.Server.ResponseSize
import OutlineServer.Proofs.Server.InternalErrors
import OutlineServer.Proofs.Text.LineBreaks
import OutlineServer.Proofs.Server.RequestIds
import OutlineServer.Proofs.Config.Merge
import OutlineServer.Proofs.Json.Canonical
import OutlineServer.Proofs.Token.Characters
import OutlineServer.Proofs.Server.ToolErrors
import OutlineServer.Proofs.Server.UnicodeAnswers
import OutlineServer.Proofs.Server.Output
import OutlineServer.Proofs.Outline.Composition
import OutlineServer.Proofs.Source.Leftmost
import OutlineServer.Proofs.Source.ConstantGrammar
import OutlineServer.Proofs.Source.Pattern
import OutlineServer.Proofs.Source.ConstantPattern
import OutlineServer.Proofs.Source.SwallowedConstants
import OutlineServer.Proofs.Outline.ConstantDetail
import OutlineServer.Proofs.Source.DeclarationGrammar
import OutlineServer.Proofs.Source.DeclarationPattern
import OutlineServer.Proofs.Token.Annotations
import OutlineServer.Proofs.Token.DeclaredWords
import OutlineServer.Proofs.Token.SortedStream
import OutlineServer.Proofs.Outline.CompletedNames
import OutlineServer.Proofs.Token.GrowingLegend
import OutlineServer.Proofs.Outline.SilentLines
import OutlineServer.Proofs.Workspace.Operations
import OutlineServer.Proofs.Audit.Calendar
import OutlineServer.Proofs.Audit.Timestamps
import OutlineServer.Proofs.Audit.Since
import OutlineServer.Proofs.Server.LogSince
import OutlineServer.Proofs.Audit.TextSummary
import OutlineServer.Proofs.Config.Paths
import OutlineServer.Proofs.Config.Snapshot
import OutlineServer.Proofs.CommandLine.WholeNumbers
import OutlineServer.Proofs.CommandLine.Assignments
import OutlineServer.Proofs.CommandLine.DataDirectory
import OutlineServer.Proofs.Token.ModifierMasks
import OutlineServer.Proofs.Audit.LineCounts
