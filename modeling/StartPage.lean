import StartPage.Main
import StartPage.Proofs.Json.RoundTrip
import StartPage.Proofs.MessagePack.RoundTrip
import StartPage.Proofs.Migration.Acceptance
import StartPage.Proofs.Migration.Arrangement
import StartPage.Proofs.Migration.CurrentShape
import StartPage.Proofs.Migration.Stamp
import StartPage.Proofs.Store.Durability
import StartPage.Proofs.Store.Loading
import StartPage.Proofs.Store.QuietWindow
import StartPage.Proofs.Store.Restart
import StartPage.Proofs.Migration.Redating
import StartPage.Proofs.Json.Nesting
import StartPage.Proofs.MessagePack.Shortest
import StartPage.Proofs.Store.Calm
import StartPage.Proofs.Store.Restoring
import StartPage.Proofs.Store.Barrier
import StartPage.Proofs.Store.Notices
import StartPage.Proofs.Store.Chronicle
import StartPage.Proofs.Store.Reopening
import StartPage.Proofs.Settings.Patching
import StartPage.Proofs.Storage.Answers
import StartPage.Proofs.Store.Announced
import StartPage.Proofs.Listeners.Telling
import StartPage.Proofs.CommandLine.Jobs
import StartPage.Proofs.CommandLine.Migrating
import StartPage.Proofs.CommandLine.Showing
import StartPage.Proofs.Migration.Foreground
import StartPage.Proofs.Listeners.Quiet
import StartPage.Proofs.Store.Privacy
import StartPage.Proofs.Migration.Settling
import StartPage.Proofs.Migration.MissingOrder
import StartPage.Proofs.Truncation
import StartPage.Proofs.Store.Counters
import StartPage.Proofs.Store.Draining
import StartPage.Proofs.Migration.Inert
import StartPage.Proofs.Listeners.Standing
import StartPage.Proofs.CommandLine.Assigning
import StartPage.Proofs.Documents
import StartPage.Proofs.Settings.Overlaying
import StartPage.Proofs.Settings.Listing
import StartPage.Proofs.Storage.Naming
import StartPage.Proofs.Store.Foreign
import StartPage.Proofs.Environment
