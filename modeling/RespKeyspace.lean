import RespKeyspace.Feeds
import RespKeyspace.Main
import RespKeyspace.Service
import RespKeyspace.Proofs.Reader.Decoded
import RespKeyspace.Proofs.Reader.Arrival
import RespKeyspace.Proofs.Feeding.Outboxes
import RespKeyspace.Proofs.Feeding.Registry
import RespKeyspace.Proofs.Feeding.Effects
import RespKeyspace.Proofs.Feeding.WriteLog
import RespKeyspace.Proofs.Session.Course
import RespKeyspace.Proofs.Link.Announcement
import RespKeyspace.Proofs.Link.Greetings
import RespKeyspace.Proofs.Link.Following
import RespKeyspace.Proofs.Session.Grounded
import RespKeyspace.Proofs.Link.Upstream
import RespKeyspace.Proofs.Link.Replication
import RespKeyspace.Proofs.Reader.Numeral
import RespKeyspace.Proofs.Reader.Spelling
import RespKeyspace.Proofs.Link.Accounting
import RespKeyspace.Proofs.Reader.Domain
import RespKeyspace.Proofs.Reader.Shortest
import RespKeyspace.Proofs.Link.Position
import RespKeyspace.Proofs.Link.Dialogue
import RespKeyspace.Proofs.Link.Feedback
import RespKeyspace.Proofs.Link.Lifetime
import RespKeyspace.Proofs.Link.Loop
import RespKeyspace.Proofs.Reader.Grammar
import RespKeyspace.Proofs.Serving.Attending
import RespKeyspace.Proofs.Serving.Independent
import RespKeyspace.Proofs.Serving.Turns
import RespKeyspace.Proofs.Serving.Unnoticed
import RespKeyspace.Proofs.Session.Events
import RespKeyspace.Proofs.Session.Pieces
import RespKeyspace.Proofs.Session.Routing
import RespKeyspace.Proofs.Session.Framing
import RespKeyspace.Proofs.Session.Subscribers
import RespKeyspace.Proofs.Session.Recall
import RespKeyspace.Proofs.Session.BreakingOff
import RespKeyspace.Proofs.Serving.Refused
import RespKeyspace.Proofs.Link.Undisturbed
import RespKeyspace.Proofs.Serving.Overlapping
import RespKeyspace.Proofs.Reader.Snapshots
import RespKeyspace.Proofs.Reader.Limits
import RespKeyspace.Proofs.Reader.Calls
import RespKeyspace.Proofs.Keeping.Expiry
import RespKeyspace.Proofs.Reader.Words
import RespKeyspace.Proofs.Session.Unfinished
import RespKeyspace.Proofs.Serving.Keywords
import RespKeyspace.Proofs.Link.Adoption
import RespKeyspace.Proofs.Starting.CommandLine
import RespKeyspace.Proofs.Reader.Positions
import RespKeyspace.Proofs.Reader.Progress
import RespKeyspace.Proofs.Serving.Report
import RespKeyspace.Proofs.Text.Capitals
import RespKeyspace.Proofs.Link.Reception
import RespKeyspace.Proofs.Feeding.Steps
import RespKeyspace.Proofs.Link.Acknowledged
import RespKeyspace.Proofs.Serving.Moves
import RespKeyspace.Proofs.Reader.Unfinished
import RespKeyspace.Proofs.Link.Transfers
import RespKeyspace.Proofs.Serving.Merging
import RespKeyspace.Proofs.Starting.Arguments
