import VmFleet.Main
import VmFleet.Jobs.Script
import VmFleet.Schema.File
import VmFleet.Text.Duration
import VmFleet.Proofs.Tasks.Confinement
import VmFleet.Proofs.Tasks.Overlap
import VmFleet.Proofs.Jobs.Turns
import VmFleet.Proofs.Jobs.Shutdown
import VmFleet.Proofs.Delegation.Handover
import VmFleet.Proofs.Jobs.Timetable
import VmFleet.Proofs.Config.Reloads
import VmFleet.Proofs.Config.Trailing
import VmFleet.Proofs.Central.Following
import VmFleet.Proofs.Delegation.Replies
import VmFleet.Proofs.Tasks.Snapshots
import VmFleet.Proofs.Tasks.Writebacks
import VmFleet.Proofs.Schema.Halfway
import VmFleet.Proofs.Store.Reopening
import VmFleet.Proofs.Central.Provisioning
import VmFleet.Proofs.Jobs.Calls
import VmFleet.Proofs.Tasks.Identities
import VmFleet.Proofs.Central.Deadlines
import VmFleet.Proofs.Delegation.Custody
import VmFleet.Proofs.Delegation.Slots
import VmFleet.Proofs.Delegation.Depot
import VmFleet.Proofs.Delegation.Completion
import VmFleet.Proofs.Tasks.Privacy
import VmFleet.Proofs.Tasks.Logins
import VmFleet.Proofs.Tasks.Administrators
import VmFleet.Proofs.Central.Ranges
import VmFleet.Proofs.Store.Frames
import VmFleet.Proofs.Jobs.Cancelled
import VmFleet.Proofs.Central.Verdicts
import VmFleet.Proofs.Jobs.Upkeep
import VmFleet.Proofs.Json.Forms
import VmFleet.Proofs.Central.RoundTrips
import VmFleet.Proofs.Schema.Fresh
import VmFleet.Proofs.Text.Durations
import VmFleet.Proofs.Central.Callers
