import AiStudio.Runtime.Grants
import AiStudio.Runtime.Parking
import AiStudio.Runtime.Exclusivity
import AiStudio.Runtime.Ownership
import AiStudio.Gateway.Endpoints
import AiStudio.Runtime.Revocation
import AiStudio.Runtime.Footprint
import AiStudio.Runtime.Legality
import AiStudio.Runtime.Crash
import AiStudio.Runtime.Rows
import AiStudio.Runtime.Prerequisites
import AiStudio.Runtime.Window
import AiStudio.Runtime.Ladder
import AiStudio.Runtime.Nudges
import AiStudio.Runtime.Requests
import AiStudio.Runtime.Pushback
import AiStudio.Spokesman.Masking
import AiStudio.Spokesman.Ops
import AiStudio.Spokesman.Stakeholder
import AiStudio.Spokesman.Notifications
import AiStudio.Spokesman.Delivery
import AiStudio.Spokesman.Digest
import AiStudio.Runtime.Adoption
import AiStudio.Runtime.Raises
import AiStudio.Runtime.Fallback
import AiStudio.Runtime.Reservations
import AiStudio.Runtime.Dag
import AiStudio.Runtime.Memory
import AiStudio.Runtime.Timeline
import AiStudio.Spokesman.Cascade
import AiStudio.Runtime.Rerun
import AiStudio.Runtime.Drain
import AiStudio.Gateway.Requests
import AiStudio.Runtime.Failures
import AiStudio.Gateway.Isolation
import AiStudio.Spokesman.Handoffs
import AiStudio.Spokesman.Lifecycle
import AiStudio.Data.Lines
import AiStudio.Data.TokenBucket
import AiStudio.Gateway.Limits
import AiStudio.Runtime.Experiments
import AiStudio.Runtime.Retention
import AiStudio.Runtime.ExperimentStart
import AiStudio.Runtime.Ingest
import AiStudio.Runtime.Rotation
import AiStudio.Data.Conninfo
import AiStudio.Data.FileTree
import AiStudio.Data.Number
import AiStudio.Data.Shell
import AiStudio.Data.Url
import AiStudio.Gateway.Tokens
import AiStudio.Runtime.Adaptive
import AiStudio.Runtime.Artifacts
import AiStudio.Runtime.Consensus
import AiStudio.Runtime.DbGuard
import AiStudio.Runtime.Fixes
import AiStudio.Runtime.Reconnect
import AiStudio.Runtime.Sandbox
import AiStudio.Runtime.SortClause
import AiStudio.Runtime.Sourcing
import AiStudio.Runtime.Acyclic
import AiStudio.Runtime.Confidence
import AiStudio.Runtime.Review
import AiStudio.Runtime.Search
import AiStudio.Spokesman.Memory
import AiStudio.Spokesman.Verbal
import AiStudio.Runtime.Spending
import AiStudio.Gateway.Noninterference
import AiStudio.Runtime.StuckSignals
import AiStudio.Gateway.Minting
import AiStudio.Runtime.Migrations
