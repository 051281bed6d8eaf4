import FileTags.Main
import FileTags.Proofs.Index.Run
import FileTags.Proofs.Index.Commuting
import FileTags.Proofs.Index.Reading
import FileTags.Proofs.Query.Completion
import FileTags.Proofs.Query.Nesting
import FileTags.Proofs.Query.Printing
import FileTags.Proofs.Query.Quoting
import FileTags.Proofs.Query.Spelling
import FileTags.Proofs.Attributes
import FileTags.Proofs.Database.Search
import FileTags.Proofs.Database.Results
import FileTags.Proofs.Database.Finding
import FileTags.Proofs.Database.Undoing
import FileTags.Proofs.Database.Cleanup
import FileTags.Proofs.Database.Calls
import FileTags.Proofs.Database.Policy
import FileTags.Proofs.Database.Moving
import FileTags.Proofs.Database.Knowing
import FileTags.Proofs.Disk.Trees
import FileTags.Proofs.Disk.Walking
import FileTags.Proofs.Disk.Leading
import FileTags.Proofs.Disk.Reaching
import FileTags.Proofs.Disk.Resolving
import FileTags.Proofs.Disk.Renaming
import FileTags.Proofs.Database.Presence
import FileTags.Proofs.Database.Saving
import FileTags.Proofs.Command.Renaming
import FileTags.Proofs.Template.Plain
import FileTags.Proofs.Format.Overflow
import FileTags.Proofs.Command.Templates
import FileTags.Proofs.Toml.Strings
import FileTags.Proofs.Toml.Values
import FileTags.Proofs.Toml.Lines
import FileTags.Proofs.Toml.Tables
import FileTags.Proofs.Disk.Growing
import FileTags.Proofs.Disk.Nulls
import FileTags.Proofs.Disk.Sound
import FileTags.Proofs.Config.Documents
import FileTags.Proofs.Config.Files
import FileTags.Proofs.Database.Creating
import FileTags.Proofs.Json.Strings
import FileTags.Proofs.Json.Values
import FileTags.Proofs.Json.Reports
import FileTags.Proofs.Report.Plain
import FileTags.Proofs.Database.Journal
import FileTags.Proofs.Database.Opening
import FileTags.Proofs.Command.Reading
import FileTags.Proofs.Command.Searching
import FileTags.Proofs.Command.Tagging
import FileTags.Proofs.Selection.Walks
import FileTags.Proofs.Selection.Selecting
import FileTags.Proofs.Query.Polarity
import FileTags.Proofs.Database.Growing
import FileTags.Proofs.Template.Filling
import FileTags.Proofs.Number.Padding
import FileTags.Proofs.Format.ZeroPadding
import FileTags.Proofs.Template.Numbers
import FileTags.Proofs.Report.Descriptive
import FileTags.Proofs.Config.Shapes
import FileTags.Proofs.Disk.Removed
import FileTags.Proofs.Disk.Entries
import FileTags.Proofs.Disk.Heading
import FileTags.Proofs.Database.Founding
import FileTags.Proofs.Database.Locating
import FileTags.Proofs.Tags
import FileTags.Proofs.Index.Keys
import FileTags.Proofs.Disk.Telling
import FileTags.Proofs.Database.Keeping
import FileTags.Proofs.Command.Faults
