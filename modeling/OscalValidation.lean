import OscalValidation.CommandLine.Arguments
import OscalValidation.CommandLine.Host
import OscalValidation.CommandLine.Invocation
import OscalValidation.CommandLine.Places
import OscalValidation.CommandLine.Run
import OscalValidation.Console.Markup
import OscalValidation.Console.Plain
import OscalValidation.Conversion.Artifact
import OscalValidation.Conversion.Bundled
import OscalValidation.Conversion.Convert
import OscalValidation.Conversion.Fault
import OscalValidation.Conversion.Registry
import OscalValidation.Conversion.Rules
import OscalValidation.Decimal.Arithmetic
import OscalValidation.Decimal.Binary64
import OscalValidation.Decimal.Power
import OscalValidation.Decimal.Shortest
import OscalValidation.Document.Representation
import OscalValidation.Document.Type
import OscalValidation.Files.Path
import OscalValidation.Files.Source
import OscalValidation.Files.Tree
import OscalValidation.Json.Basic
import OscalValidation.Json.Bytes
import OscalValidation.Json.Place
import OscalValidation.Json.Printer
import OscalValidation.Json.Reader
import OscalValidation.Main
import OscalValidation.Proofs.Attempts
import OscalValidation.Proofs.CommandLine.Reports
import OscalValidation.Proofs.CommandLine.Statuses
import OscalValidation.Proofs.Console.Markup
import OscalValidation.Proofs.Conversion.Acceptance
import OscalValidation.Proofs.Conversion.Attributes
import OscalValidation.Proofs.Conversion.Convertible
import OscalValidation.Proofs.Conversion.Counting
import OscalValidation.Proofs.Conversion.Documents
import OscalValidation.Proofs.Conversion.Faithful
import OscalValidation.Proofs.Conversion.Identifiers
import OscalValidation.Proofs.Conversion.Including
import OscalValidation.Proofs.Conversion.Long
import OscalValidation.Proofs.Conversion.MemberOrder
import OscalValidation.Proofs.Conversion.Merging
import OscalValidation.Proofs.Conversion.Names
import OscalValidation.Proofs.Conversion.Representation
import OscalValidation.Proofs.Conversion.Skeleton
import OscalValidation.Proofs.Conversion.Spots
import OscalValidation.Proofs.Conversion.Tables
import OscalValidation.Proofs.Decimal.Standard
import OscalValidation.Proofs.Document.Beginning
import OscalValidation.Proofs.Document.Detection
import OscalValidation.Proofs.Document.Encoded
import OscalValidation.Proofs.Files.Changes
import OscalValidation.Proofs.Files.Entries
import OscalValidation.Proofs.Files.Operations
import OscalValidation.Proofs.Gateway.Attended
import OscalValidation.Proofs.Gateway.Calls
import OscalValidation.Proofs.Gateway.Cancellation
import OscalValidation.Proofs.Gateway.FailedLoads
import OscalValidation.Proofs.Gateway.Fairness
import OscalValidation.Proofs.Gateway.Invariant
import OscalValidation.Proofs.Gateway.Loading
import OscalValidation.Proofs.Gateway.Moves
import OscalValidation.Proofs.Gateway.Preloading
import OscalValidation.Proofs.Gateway.Projection
import OscalValidation.Proofs.Gateway.Queue
import OscalValidation.Proofs.Gateway.Settling
import OscalValidation.Proofs.Gateway.SharedLoads
import OscalValidation.Proofs.Gateway.Steady
import OscalValidation.Proofs.Gateway.Traffic
import OscalValidation.Proofs.Json.Distinct
import OscalValidation.Proofs.Json.Equality
import OscalValidation.Proofs.Json.MemberOrder
import OscalValidation.Proofs.Json.Reading
import OscalValidation.Proofs.Json.RoundTrip
import OscalValidation.Proofs.Lists
import OscalValidation.Proofs.Rules.Location
import OscalValidation.Proofs.Rules.Paths
import OscalValidation.Proofs.Rules.Reports
import OscalValidation.Proofs.Schema.Demands
import OscalValidation.Proofs.Schema.MemberOrder
import OscalValidation.Proofs.Site.Matching
import OscalValidation.Proofs.Site.Routes
import OscalValidation.Proofs.Summaries.Agreement
import OscalValidation.Proofs.Summaries.AllOrNothing
import OscalValidation.Proofs.Summaries.Catalog
import OscalValidation.Proofs.Summaries.Entries
import OscalValidation.Proofs.Summaries.Fragments
import OscalValidation.Proofs.Summaries.Generation
import OscalValidation.Proofs.Summaries.Outputs
import OscalValidation.Proofs.Summaries.Phases
import OscalValidation.Proofs.Summaries.Properties
import OscalValidation.Proofs.Summaries.Repository
import OscalValidation.Proofs.Summaries.Scenarios
import OscalValidation.Proofs.Summaries.Values
import OscalValidation.Proofs.Text.Decoding
import OscalValidation.Proofs.Text.Paragraphs
import OscalValidation.Proofs.Text.Patterns
import OscalValidation.Proofs.Text.RoundTrip
import OscalValidation.Proofs.Text.Spacing
import OscalValidation.Proofs.Validation.Consecutive
import OscalValidation.Proofs.Validation.DeclaredType
import OscalValidation.Proofs.Validation.Detection
import OscalValidation.Proofs.Validation.Display
import OscalValidation.Proofs.Validation.Encoded
import OscalValidation.Proofs.Validation.Independence
import OscalValidation.Proofs.Validation.Interleaving
import OscalValidation.Proofs.Validation.Lines
import OscalValidation.Proofs.Validation.Preparing
import OscalValidation.Proofs.Validation.Verdicts
import OscalValidation.Proofs.XPath.Naming
import OscalValidation.Proofs.XPath.Paths
import OscalValidation.Proofs.XPath.Selection
import OscalValidation.Proofs.Xml.Namespaces
import OscalValidation.Proofs.Xml.Reading
import OscalValidation.Proofs.Xml.Texts
import OscalValidation.Rules.Artifact
import OscalValidation.Rules.Dataset
import OscalValidation.Rules.Engine
import OscalValidation.Rules.Gateway
import OscalValidation.Rules.Location
import OscalValidation.Rules.Outcome
import OscalValidation.Rules.Schematron.Basic
import OscalValidation.Rules.Schematron.Grammar
import OscalValidation.Rules.Schematron.Judge
import OscalValidation.Rules.Stylesheet
import OscalValidation.Rules.Stylesheet.Reader
import OscalValidation.Rules.Stylesheet.Run
import OscalValidation.Rules.Svrl
import OscalValidation.Schema.Basic
import OscalValidation.Schema.Check
import OscalValidation.Schema.WellFormed
import OscalValidation.Session.Basic
import OscalValidation.Session.Configuration
import OscalValidation.Site.Pattern
import OscalValidation.Site.Route
import OscalValidation.Summaries.Catalog
import OscalValidation.Summaries.Generation
import OscalValidation.Summaries.Repository
import OscalValidation.Summaries.Scenario
import OscalValidation.Summaries.Schematron
import OscalValidation.Summaries.View
import OscalValidation.Summaries.Writer
import OscalValidation.Text.Blank
import OscalValidation.Text.Caseless
import OscalValidation.Text.Encoding
import OscalValidation.Text.LowerCase
import OscalValidation.Text.Paragraph
import OscalValidation.Text.Pattern
import OscalValidation.Text.Pattern.Reader
import OscalValidation.Text.Printable
import OscalValidation.Text.Quoted
import OscalValidation.Text.Ranges
import OscalValidation.Text.Singular
import OscalValidation.Text.Template
import OscalValidation.Text.WordCharacter
import OscalValidation.Validation.Display
import OscalValidation.Validation.Policy
import OscalValidation.Validation.Preparation
import OscalValidation.Validation.Result
import OscalValidation.Validation.Service
import OscalValidation.XPath.Eval
import OscalValidation.XPath.Focus
import OscalValidation.XPath.Query
import OscalValidation.XPath.Reader
import OscalValidation.XPath.Syntax
import OscalValidation.Xml.Char
import OscalValidation.Xml.Fragment
import OscalValidation.Xml.Printer
import OscalValidation.Xml.Prolog
import OscalValidation.Xml.Reader
import OscalValidation.Xml.Scanner
import OscalValidation.Xml.Tree
import OscalValidation.Xml.Uri
import OscalValidation.Xml.Writable
