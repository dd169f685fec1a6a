import SnapshotAudit.Address
import SnapshotAudit.Assignment
import SnapshotAudit.Catalog
import SnapshotAudit.Check.Deadlines
import SnapshotAudit.Check.Run
import SnapshotAudit.Checksum
import SnapshotAudit.Cluster.Checks
import SnapshotAudit.Cluster.Dispatching
import SnapshotAudit.Cluster.Jobs
import SnapshotAudit.Cluster.Journal
import SnapshotAudit.Cluster.Naming
import SnapshotAudit.Cluster.Network
import SnapshotAudit.Cluster.Nodes
import SnapshotAudit.Cluster.Schedule
import SnapshotAudit.Cluster.Servers
import SnapshotAudit.Cluster.Services
import SnapshotAudit.Cluster.State
import SnapshotAudit.CommandLine
import SnapshotAudit.Dispatch
import SnapshotAudit.Endian
import SnapshotAudit.Failure
import SnapshotAudit.FileTree.Basic
import SnapshotAudit.FileTree.Branch
import SnapshotAudit.FileTree.Edit
import SnapshotAudit.FileTree.Path
import SnapshotAudit.Inspection
import SnapshotAudit.Job.Call
import SnapshotAudit.Job.LocalCall
import SnapshotAudit.Job.Session
import SnapshotAudit.Layout.PartitionFile
import SnapshotAudit.Layout.Snapshot
import SnapshotAudit.Main
import SnapshotAudit.Membership
import SnapshotAudit.Ordered.Map
import SnapshotAudit.Ordered.Set
import SnapshotAudit.Page.Basic
import SnapshotAudit.Page.Image
import SnapshotAudit.PartitionFile
import SnapshotAudit.Pool
import SnapshotAudit.Proofs.Assignment
import SnapshotAudit.Proofs.Assignment.Changes
import SnapshotAudit.Proofs.Assignment.Identity
import SnapshotAudit.Proofs.Assignment.Ranking
import SnapshotAudit.Proofs.Assignment.Requests
import SnapshotAudit.Proofs.Assignment.Weights
import SnapshotAudit.Proofs.Catalog
import SnapshotAudit.Proofs.Check.Completeness
import SnapshotAudit.Proofs.Check.Completion
import SnapshotAudit.Proofs.Check.Conducting
import SnapshotAudit.Proofs.Check.Countdown
import SnapshotAudit.Proofs.Check.Course
import SnapshotAudit.Proofs.Check.Crew
import SnapshotAudit.Proofs.Check.Crowding
import SnapshotAudit.Proofs.Check.Deadlines
import SnapshotAudit.Proofs.Check.Decisions
import SnapshotAudit.Proofs.Check.Notices
import SnapshotAudit.Proofs.Check.Schedules
import SnapshotAudit.Proofs.Check.Soundness
import SnapshotAudit.Proofs.Check.Steps
import SnapshotAudit.Proofs.Check.Threads
import SnapshotAudit.Proofs.Check.Timekeeping
import SnapshotAudit.Proofs.Check.Timers
import SnapshotAudit.Proofs.Check.Turns
import SnapshotAudit.Proofs.Checksum
import SnapshotAudit.Proofs.Cluster.Answering
import SnapshotAudit.Proofs.Cluster.Checks
import SnapshotAudit.Proofs.Cluster.Frames
import SnapshotAudit.Proofs.Cluster.Listening
import SnapshotAudit.Proofs.Cluster.Silence
import SnapshotAudit.Proofs.CommandLine
import SnapshotAudit.Proofs.Corruption
import SnapshotAudit.Proofs.Endian
import SnapshotAudit.Proofs.FileTree.Changes
import SnapshotAudit.Proofs.FileTree.Listings
import SnapshotAudit.Proofs.FileTree.Paths
import SnapshotAudit.Proofs.FileTree.Sights
import SnapshotAudit.Proofs.FileTree.Upkeep
import SnapshotAudit.Proofs.Inspection
import SnapshotAudit.Proofs.Inspection.Classification
import SnapshotAudit.Proofs.Inspection.Sizes
import SnapshotAudit.Proofs.Inspection.Stages
import SnapshotAudit.Proofs.Job.Answered
import SnapshotAudit.Proofs.Job.Answering
import SnapshotAudit.Proofs.Job.Delivery
import SnapshotAudit.Proofs.Job.Dialogue
import SnapshotAudit.Proofs.Job.Dispatch
import SnapshotAudit.Proofs.Job.Exchange
import SnapshotAudit.Proofs.Job.LocalErrand
import SnapshotAudit.Proofs.Job.NetworkErrand
import SnapshotAudit.Proofs.Job.Reading
import SnapshotAudit.Proofs.Job.Settling
import SnapshotAudit.Proofs.Job.Transcript
import SnapshotAudit.Proofs.Layout.Inspection
import SnapshotAudit.Proofs.Layout.Names
import SnapshotAudit.Proofs.Layout.Pages
import SnapshotAudit.Proofs.Layout.Snapshot
import SnapshotAudit.Proofs.Layout.Verdict
import SnapshotAudit.Proofs.Lists
import SnapshotAudit.Proofs.Membership.Datagrams
import SnapshotAudit.Proofs.Membership.Heard
import SnapshotAudit.Proofs.Membership.Peaks
import SnapshotAudit.Proofs.Membership.Receiving
import SnapshotAudit.Proofs.Membership.Restarts
import SnapshotAudit.Proofs.Ordered.Map
import SnapshotAudit.Proofs.Page.Writes
import SnapshotAudit.Proofs.PartitionFile
import SnapshotAudit.Proofs.PartitionFile.Audits
import SnapshotAudit.Proofs.PartitionFile.Damage
import SnapshotAudit.Proofs.PartitionFile.Scans
import SnapshotAudit.Proofs.Progress
import SnapshotAudit.Proofs.Service.Answers
import SnapshotAudit.Proofs.Service.Bookkeeping
import SnapshotAudit.Proofs.Service.Books
import SnapshotAudit.Proofs.Service.Moves
import SnapshotAudit.Proofs.Service.Overtaking
import SnapshotAudit.Proofs.Service.Serving
import SnapshotAudit.Proofs.Service.Sharing
import SnapshotAudit.Proofs.Service.Steps
import SnapshotAudit.Proofs.Service.Waiting
import SnapshotAudit.Proofs.Verdict.Aggregation
import SnapshotAudit.Proofs.Verdict.Exactness
import SnapshotAudit.Proofs.Wire.Accepting
import SnapshotAudit.Proofs.Wire.Canonical
import SnapshotAudit.Proofs.Wire.Framing
import SnapshotAudit.Proofs.Wire.Reading
import SnapshotAudit.Proofs.Wire.RoundTrip
import SnapshotAudit.Proofs.Wire.Sizes
import SnapshotAudit.Service
import SnapshotAudit.Snapshot.Descriptor
import SnapshotAudit.Snapshot.Outcome
import SnapshotAudit.Text
import SnapshotAudit.Verdict.Aggregation
import SnapshotAudit.Verdict.Basic
import SnapshotAudit.Verdict.Report
import SnapshotAudit.Wire.Frame
import SnapshotAudit.Wire.Message
import SnapshotAudit.Wire.Metafile
import SnapshotAudit.Wire.Primitive
