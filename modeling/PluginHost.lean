import PluginHost.Arguments
import PluginHost.Arguments.Reader
import PluginHost.Attempt
import PluginHost.ByName
import PluginHost.Check
import PluginHost.Command
import PluginHost.CommandTree
import PluginHost.Complaint
import PluginHost.Composition
import PluginHost.Decimal
import PluginHost.Environment
import PluginHost.Failure
import PluginHost.Files
import PluginHost.Finding
import PluginHost.Host
import PluginHost.Inspection
import PluginHost.Inventory
import PluginHost.Issue
import PluginHost.Json
import PluginHost.Json.Printer
import PluginHost.Json.Reader
import PluginHost.Json.Record
import PluginHost.Loader
import PluginHost.Locator
import PluginHost.Machine
import PluginHost.Main
import PluginHost.Manager
import PluginHost.Manifest
import PluginHost.PackageManager
import PluginHost.PackageManager.Npm
import PluginHost.PackageManager.Shelf
import PluginHost.Path
import PluginHost.Program
import PluginHost.Proofs.Acceptance
import PluginHost.Proofs.Adoption
import PluginHost.Proofs.Agreement
import PluginHost.Proofs.Alone
import PluginHost.Proofs.Alternatives
import PluginHost.Proofs.Asking
import PluginHost.Proofs.Assigning
import PluginHost.Proofs.Blanks
import PluginHost.Proofs.ByteOrder
import PluginHost.Proofs.Changing
import PluginHost.Proofs.Clashing
import PluginHost.Proofs.Contribution
import PluginHost.Proofs.Decision
import PluginHost.Proofs.Description
import PluginHost.Proofs.Diagnostics
import PluginHost.Proofs.EntryText
import PluginHost.Proofs.Freshness
import PluginHost.Proofs.Handing
import PluginHost.Proofs.Holding
import PluginHost.Proofs.Independence
import PluginHost.Proofs.Installing
import PluginHost.Proofs.InventoryText
import PluginHost.Proofs.JsonRemoval
import PluginHost.Proofs.JsonText
import PluginHost.Proofs.Lasting
import PluginHost.Proofs.LiteralText
import PluginHost.Proofs.Locating
import PluginHost.Proofs.LocatorText
import PluginHost.Proofs.Lookup
import PluginHost.Proofs.MissingFields
import PluginHost.Proofs.NodeText
import PluginHost.Proofs.Operators
import PluginHost.Proofs.OutlineText
import PluginHost.Proofs.Ownership
import PluginHost.Proofs.PackageNames
import PluginHost.Proofs.Pass
import PluginHost.Proofs.Peers
import PluginHost.Proofs.PrintedText
import PluginHost.Proofs.ProfileFlaws
import PluginHost.Proofs.RangeBounds
import PluginHost.Proofs.RangeGrammar
import PluginHost.Proofs.RangeNotation
import PluginHost.Proofs.RangeReading
import PluginHost.Proofs.Reaching
import PluginHost.Proofs.Recording
import PluginHost.Proofs.Reporting
import PluginHost.Proofs.Requests
import PluginHost.Proofs.RequirementPieces
import PluginHost.Proofs.RequirementText
import PluginHost.Proofs.Respelling
import PluginHost.Proofs.Saving
import PluginHost.Proofs.ScalarText
import PluginHost.Proofs.Session
import PluginHost.Proofs.SettingsFile
import PluginHost.Proofs.SettingsText
import PluginHost.Proofs.Sharing
import PluginHost.Proofs.Showing
import PluginHost.Proofs.Sparing
import PluginHost.Proofs.Spellings
import PluginHost.Proofs.Storing
import PluginHost.Proofs.TokenText
import PluginHost.Proofs.Tracking
import PluginHost.Proofs.Updating
import PluginHost.Proofs.Verdicts
import PluginHost.Proofs.VersionText
import PluginHost.Proofs.Words
import PluginHost.Redirect
import PluginHost.Report
import PluginHost.Settings
import PluginHost.Settings.Document
import PluginHost.Settings.Store
import PluginHost.Settings.Value
import PluginHost.Store
import PluginHost.Text.Blank
import PluginHost.Text.Digits
import PluginHost.Text.Fold
import PluginHost.Text.Printable
import PluginHost.Text.Quoted
import PluginHost.Text.Split
import PluginHost.Text.Utf8
import PluginHost.Url
import PluginHost.Url.Address
import PluginHost.Url.CodedNames
import PluginHost.Url.Domain
import PluginHost.Url.Escape
import PluginHost.Url.Path
import PluginHost.Url.Reader
import PluginHost.Version
import PluginHost.Version.Range
import PluginHost.Version.Reader
import PluginHost.Version.Requirement
import PluginHost.Yaml.Node
import PluginHost.Yaml.Node.Reader
import PluginHost.Yaml.Plain
import PluginHost.Yaml.Printer
import PluginHost.Yaml.Scalar
import PluginHost.Yaml.Text
import PluginHost.Yaml.Token
import PluginHost.Yaml.Token.Reader
