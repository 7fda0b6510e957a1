import Qcp.Bare
import Qcp.Variant
import Qcp.Layers
import Qcp.Decimal
import Qcp.PortRange
import Qcp.Compat
import Qcp.Config
import Qcp.ClientMsg
import Qcp.Negotiate
import Qcp.NegotiateTable
import Qcp.ClientVersions
import Qcp.ServerMsg
import Qcp.ServerVersions
import Qcp.ControlMsg
import Qcp.Socket
import Qcp.Transport
import Qcp.Exchange
import Qcp.Endpoint
import Qcp.Agreement
import Qcp.Posix
import Qcp.SessionMsg
import Qcp.Host
import Qcp.RecursiveGet
import Qcp.Proc
import Qcp.Tasks
import Qcp.Ends
import Qcp.Frame
import Qcp.Runs
import Qcp.Wire
import Qcp.FileExt
import Qcp.Session
import Qcp.Transfer
import Qcp.Requests
import Qcp.Containment
import Qcp.Integrity
import Qcp.Completion
import Qcp.Channel
import Qcp.Opening
import Qcp.Levels
import Qcp.Announced
import Qcp.Brief
import Qcp.Reply
import Qcp.Assembled
import Qcp.Windows
import Qcp.Responses
import Qcp.Avoids
import Qcp.Destination
import Qcp.Dirwalk
import Qcp.Jobspecs
import Qcp.Merging
import Qcp.Mirror
import Qcp.Phases
import Qcp.Robust
import Qcp.Closedown
import Qcp.Extensions
import Qcp.Feed
import Qcp.Framed
import Qcp.Listing
import Qcp.Inserted
import Qcp.Unknown
import Qcp.Crashes
import Qcp.OneHost
import Qcp.Quoting
import Qcp.Keywords
import Qcp.HostMatch
import Qcp.SingleFile
import Qcp.AllOrNothing
import Qcp.Modes
import Qcp.Sections
import Qcp.ConfigFile
import Qcp.MatchLines
import Qcp.Ports
import Qcp.Filespecs
import Qcp.Checked
import Qcp.Statistics
import Qcp.Utters
import Qcp.Statuses
import Qcp.Profiles
import Qcp.Precedence
import Qcp.Presented
import Qcp.Preserve
import Qcp.Footprint
import Qcp.Crowd
import Qcp.Spends
import Qcp.Sessions
import Qcp.Overlap
import Qcp.Delivery
import Qcp.Client
import Qcp.Report
import Qcp.Aliases
import Qcp.Connection
import Qcp.Listings
import Qcp.Trees
import Qcp.Calm
import Qcp.Unhindered
import Qcp.Fulfilled
