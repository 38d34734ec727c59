import RealmDirectory.AdminLogin
import RealmDirectory.Hub.Mailbox
import RealmDirectory.Main
import RealmDirectory.Message.Listing
import RealmDirectory.Message.LogArchive
import RealmDirectory.Payload.Field
import RealmDirectory.Server
import RealmDirectory.Proofs.LogRing.History
import RealmDirectory.Proofs.Frame.Chunk
import RealmDirectory.Proofs.Connection.Intake
import RealmDirectory.Proofs.Hub.Operation
import RealmDirectory.Proofs.Hub.Vacancy
import RealmDirectory.Proofs.Hub.Seating
import RealmDirectory.Proofs.Hub.Relay
import RealmDirectory.Proofs.Hub.Interleaving
import RealmDirectory.Proofs.Hub.Stamps
import RealmDirectory.Proofs.Hub.Order
import RealmDirectory.Proofs.Harvest.Arrears
import RealmDirectory.Proofs.Harvest.Round
import RealmDirectory.Proofs.Harvest.Account
import RealmDirectory.Proofs.Harvest.Delivery
import RealmDirectory.Proofs.Harvest.Backlog
import RealmDirectory.Proofs.Harvest.Outcome
import RealmDirectory.Proofs.Session.Roster
import RealmDirectory.Proofs.Session.Tenure
import RealmDirectory.Proofs.Message.Announced
import RealmDirectory.Proofs.Replica.Frames
import RealmDirectory.Proofs.Replica.Mirror
import RealmDirectory.Proofs.Payload.Accepts
import RealmDirectory.Proofs.Message.Canonical
import RealmDirectory.Proofs.Message.Relisted
import RealmDirectory.Proofs.Message.Batch
import RealmDirectory.Proofs.Message.Archive
import RealmDirectory.Proofs.Hub.Alike
import RealmDirectory.Proofs.Session.Undisturbed
import RealmDirectory.Proofs.Session.Apart
import RealmDirectory.Proofs.Session.Records
import RealmDirectory.Proofs.Session.OneShot
import RealmDirectory.Proofs.Replica.Sendable
import RealmDirectory.Proofs.Replica.Portrait
import RealmDirectory.Proofs.Hub.Admission
import RealmDirectory.Proofs.Connection.Progress
import RealmDirectory.Proofs.Connection.Watch
import RealmDirectory.Proofs.Connection.Deadline
import RealmDirectory.Proofs.Connection.Heartbeat
import RealmDirectory.Proofs.Connection.Tidy
import RealmDirectory.Proofs.Server.Step
import RealmDirectory.Proofs.Server.Books
import RealmDirectory.Proofs.Payload.Terminated
import RealmDirectory.Proofs.Message.Truncated
import RealmDirectory.Proofs.Settings.Port
