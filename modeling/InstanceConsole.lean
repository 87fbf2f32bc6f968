import InstanceConsole.Main
import InstanceConsole.Proofs.Calendar.DateText
import InstanceConsole.Proofs.Calendar.TimestampText
import InstanceConsole.Proofs.Json.Literals
import InstanceConsole.Proofs.Json.ReadBack
import InstanceConsole.Proofs.Json.Record
import InstanceConsole.Proofs.Json.Fields
import InstanceConsole.Proofs.Text.Blank
import InstanceConsole.Proofs.Text.Numeral
import InstanceConsole.Proofs.Text.Utf8
import InstanceConsole.Proofs.Web.FormEncoding
import InstanceConsole.Proofs.Filter.WireForm
import InstanceConsole.Proofs.Filter.QueryRoundTrip
import InstanceConsole.Proofs.Filter.Acceptance
import InstanceConsole.Proofs.Filter.Documents
import InstanceConsole.Proofs.Page.FilterSync
import InstanceConsole.Proofs.Selection.List
import InstanceConsole.Proofs.Selection.Counts
import InstanceConsole.Proofs.Selection.Documents
import InstanceConsole.Proofs.Selection.Payload
import InstanceConsole.Proofs.Page.Steps
import InstanceConsole.Proofs.Page.Extension
import InstanceConsole.Proofs.Page.Commits
import InstanceConsole.Proofs.Page.StoreMirror
import InstanceConsole.Proofs.Page.CountRequests
import InstanceConsole.Proofs.Page.Edits
import InstanceConsole.Proofs.Page.SelectionFetches
import InstanceConsole.Proofs.Page.Picks
import InstanceConsole.Proofs.Selection.Ids
import InstanceConsole.Proofs.Page.Sittings
import InstanceConsole.Proofs.Page.Session
import InstanceConsole.Proofs.Page.FilterChanges
import InstanceConsole.Proofs.Store.FileTree
import InstanceConsole.Proofs.Store.StateDocument
import InstanceConsole.Proofs.Store.Refinement
import InstanceConsole.Proofs.Store.PartialDocuments
import InstanceConsole.Proofs.Store.WholeUpdates
import InstanceConsole.Proofs.Store.DocumentTexts
import InstanceConsole.Proofs.Page.Errors
import InstanceConsole.Proofs.CommandLine.Calls
import InstanceConsole.Proofs.Page.OpenSelection
import InstanceConsole.Proofs.Filter.WirePatch
import InstanceConsole.Proofs.Selection.Toggles
import InstanceConsole.Proofs.CommandLine.NamedInstances
import InstanceConsole.Proofs.Web.UrlPaths
import InstanceConsole.Proofs.Client.ResourceUrls
import InstanceConsole.Proofs.Filter.PatchesInTurn
import InstanceConsole.Proofs.Page.RepeatedChanges
import InstanceConsole.Proofs.Filter.OtherParameters
import InstanceConsole.Proofs.Selection.PickHistories
import InstanceConsole.Proofs.Calendar.Order
import InstanceConsole.Proofs.Filter.DateCriteria
import InstanceConsole.Proofs.Text.Utf8Order
import InstanceConsole.Proofs.Page.Activities
import InstanceConsole.Proofs.Page.QueuedUpdates
import InstanceConsole.Proofs.Page.IndependentCompletions
import InstanceConsole.Proofs.Page.Presentation
