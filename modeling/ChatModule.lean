import ChatModule.Lib.Basic
import ChatModule.Lib.Machine
import ChatModule.Lib.Keyed
import ChatModule.Lib.Recency
import ChatModule.Lib.Waits
import ChatModule.Lib.Grouped
import ChatModule.Lib.Directory
import ChatModule.Lib.Regex
import ChatModule.Lib.Dict
import ChatModule.Lib.Words
import ChatModule.Utf8
import ChatModule.MessageStore
import ChatModule.Persistence
import ChatModule.Contract
import ChatModule.Module
import ChatModule.Actions.Delivery
import ChatModule.Actions.Lifecycle
import ChatModule.Inbound
import ChatModule.Forwarding
import ChatModule.Actions.Conversations
import ChatModule.Sections
import ChatModule.Shown
import ChatModule.Consumer
import ChatModule.Sequential
import ChatModule.Holding
import ChatModule.Opening
import ChatModule.Following
import ChatModule.Archive
import ChatModule.Refinement
import ChatModule.Restart
import ChatModule.Durability
import ChatModule.Atomicity
import ChatModule.Interleaved
import ChatModule.Deletion
import ChatModule.History
import ChatModule.Announced
import ChatModule.Reader
import ChatModule.Listed
import ChatModule.Seeding
import ChatModule.Creating
import ChatModule.Serial
import ChatModule.Provenance
import ChatModule.OldestFirst
import ChatModule.Overlap
import ChatModule.Deliveries
import ChatModule.Handshake
import ChatModule.Sessions
import ChatModule.StatusCopy
import ChatModule.Bootstraps
import ChatModule.Retry
import ChatModule.Adoption
import ChatModule.Subscribing
import ChatModule.Bridge
import ChatModule.Locks
import ChatModule.Deadlock
import ChatModule.Logging.Names
import ChatModule.Logging.Pruning
import ChatModule.Logging.RunLog
import ChatModule.Logging.Rotation
import ChatModule.Logging.Lines
import ChatModule.Logging.Created
import ChatModule.Logging.Retention
import ChatModule.Docs.Lexer
import ChatModule.Docs.Parser
import ChatModule.Docs.Declarations
import ChatModule.Docs.Rendering
import ChatModule.Docs.Reference
import ChatModule.Docs.Signature
import ChatModule.Docs.Grammar
import ChatModule.Docs.Domain
import ChatModule.Docs.Layout
