import LeadDesk.Audit
import LeadDesk.Catalog.Bundled
import LeadDesk.Catalog.Document
import LeadDesk.Catalog.Seed
import LeadDesk.Condition.Basic
import LeadDesk.Condition.Expression
import LeadDesk.Condition.Guard
import LeadDesk.Condition.Token
import LeadDesk.Desk.Action
import LeadDesk.Desk.Archive
import LeadDesk.Desk.Outside
import LeadDesk.Desk.Settings
import LeadDesk.Dispatch.Basic
import LeadDesk.Dispatch.Monitor
import LeadDesk.Enrichment.Provider
import LeadDesk.Enrichment.Registry
import LeadDesk.Execution.Branch
import LeadDesk.Execution.Progress
import LeadDesk.Execution.Run
import LeadDesk.Execution.Step
import LeadDesk.Failure
import LeadDesk.Intake
import LeadDesk.Json.Basic
import LeadDesk.Json.Printer
import LeadDesk.Json.Reader
import LeadDesk.Main
import LeadDesk.Model.Client
import LeadDesk.Model.Reply
import LeadDesk.Number.Double
import LeadDesk.Number.Power
import LeadDesk.Number.Reader
import LeadDesk.Number.Rounded
import LeadDesk.Number.Shortest
import LeadDesk.Operation
import LeadDesk.Service.Answer
import LeadDesk.Service.Route
import LeadDesk.Store.Basic
import LeadDesk.Store.Column
import LeadDesk.Store.Companies
import LeadDesk.Store.Contacts
import LeadDesk.Store.Events
import LeadDesk.Store.Row
import LeadDesk.Store.Runs
import LeadDesk.Store.Tables
import LeadDesk.Store.TeamSettings
import LeadDesk.Store.Workflows
import LeadDesk.Template.Basic
import LeadDesk.Template.Operand
import LeadDesk.Template.Path
import LeadDesk.Terminal.Command
import LeadDesk.Terminal.Execution
import LeadDesk.Terminal.Line
import LeadDesk.Terminal.Markup
import LeadDesk.Terminal.Option
import LeadDesk.Terminal.Screen
import LeadDesk.Text.Blank
import LeadDesk.Text.Case
import LeadDesk.Text.Digit
import LeadDesk.Text.Letter
import LeadDesk.Text.Percent
import LeadDesk.Text.Printable
import LeadDesk.Text.Quoted
import LeadDesk.Text.Ranges
import LeadDesk.Time.Calendar
import LeadDesk.Time.Reader
import LeadDesk.Time.Timestamp
import LeadDesk.Tool.Announcement
import LeadDesk.Tool.Contacts
import LeadDesk.Tool.Definition
import LeadDesk.Tool.Email
import LeadDesk.Tool.Input
import LeadDesk.Tool.Notify
import LeadDesk.Tool.Registry
import LeadDesk.Tool.Sales
import LeadDesk.Tool.Sandbox
import LeadDesk.Tool.Signature
import LeadDesk.Validation.Basic
import LeadDesk.Validation.Moment
import LeadDesk.Validation.Scalar
import LeadDesk.Workflow.Basic
import LeadDesk.Workflow.BranchAction
import LeadDesk.Workflow.Event
import LeadDesk.Workflow.Record
import LeadDesk.Proofs.Conduct
import LeadDesk.Proofs.Tools
import LeadDesk.Proofs.Steps
import LeadDesk.Proofs.Records
import LeadDesk.Proofs.Growth
import LeadDesk.Proofs.Story
import LeadDesk.Proofs.Account
import LeadDesk.Proofs.AuditTrail
import LeadDesk.Proofs.Endings
import LeadDesk.Proofs.LastWriter
import LeadDesk.Proofs.Errands
import LeadDesk.Proofs.OpenRuns
import LeadDesk.Proofs.Firings
import LeadDesk.Proofs.Sessions
import LeadDesk.Proofs.Words
import LeadDesk.Proofs.Grammar
import LeadDesk.Proofs.Reading
import LeadDesk.Proofs.Meaning
import LeadDesk.Proofs.Matching
import LeadDesk.Proofs.Backlog
import LeadDesk.Proofs.Emissions
import LeadDesk.Proofs.Nesting
import LeadDesk.Proofs.Acceptance
import LeadDesk.Proofs.Lexing
import LeadDesk.Proofs.Skipping
import LeadDesk.Proofs.Faults
import LeadDesk.Proofs.Tidying
import LeadDesk.Proofs.Quoting
import LeadDesk.Proofs.Placeholders
import LeadDesk.Proofs.CleanInput
import LeadDesk.Proofs.Escapes
import LeadDesk.Proofs.Contacts
import LeadDesk.Proofs.Turns
import LeadDesk.Proofs.Calls
import LeadDesk.Proofs.Routing
import LeadDesk.Proofs.Permanence
import LeadDesk.Proofs.Polling
import LeadDesk.Proofs.SavedWorkflows
import LeadDesk.Proofs.LastSave
import LeadDesk.Proofs.Reseeding
import LeadDesk.Proofs.BranchEffects
import LeadDesk.Proofs.Descriptors
import LeadDesk.Proofs.Inheritance
import LeadDesk.Proofs.Impartial
import LeadDesk.Proofs.Moments
import LeadDesk.Proofs.Entrances
import LeadDesk.Proofs.Comparing
import LeadDesk.Proofs.FirstBranch
import LeadDesk.Proofs.NumericTests
import LeadDesk.Proofs.QuotedTexts
import LeadDesk.Proofs.Sides
import LeadDesk.Proofs.Resolvers
import LeadDesk.Proofs.Numerals
import LeadDesk.Proofs.Literals
import LeadDesk.Proofs.Fallbacks
import LeadDesk.Proofs.Missteps
import LeadDesk.Proofs.Delays
import LeadDesk.Proofs.LetterCase
import LeadDesk.Proofs.TextSearch
import LeadDesk.Proofs.EmailSearch
import LeadDesk.Proofs.StoredEvents
import LeadDesk.Proofs.TriggerBodies
import LeadDesk.Proofs.Rows
import LeadDesk.Proofs.ContactRows
import LeadDesk.Proofs.ContactAccess
import LeadDesk.Proofs.ContactUpdates
import LeadDesk.Proofs.Merging
import LeadDesk.Proofs.Forms
import LeadDesk.Proofs.AbsentContacts
import LeadDesk.Proofs.JsonText
import LeadDesk.Proofs.Fences
import LeadDesk.Proofs.Reports
import LeadDesk.Proofs.Backoff
import LeadDesk.Proofs.SettingRows
import LeadDesk.Proofs.TeamSettings
import LeadDesk.Proofs.Paths
import LeadDesk.Proofs.Places
import LeadDesk.Proofs.Oblivious
import LeadDesk.Proofs.Observers
import LeadDesk.Proofs.ByHand
