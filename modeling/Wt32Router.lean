import Wt32Router.Lib.Runs
import Wt32Router.Lib.Slots
import Wt32Router.Lib.Bytes
import Wt32Router.Lib.Ascii
import Wt32Router.Dhcp.Exclusive
import Wt32Router.Dhcp.Reservation
import Wt32Router.Dhcp.FlashSync
import Wt32Router.Dhcp.Confirmed
import Wt32Router.Dhcp.Generations
import Wt32Router.Dhcp.Reports
import Wt32Router.Track.Clients
import Wt32Router.Track.Bridge
import Wt32Router.Track.Sniffed
import Wt32Router.Dhcp.WellFormed
import Wt32Router.Wan.Retry
import Wt32Router.Wan.Tracking
import Wt32Router.Wan.Publish
import Wt32Router.Wan.Snapshot
import Wt32Router.Reset.Floor
import Wt32Router.Reset.History
import Wt32Router.Logs.Accounting
import Wt32Router.Track.Keepers
import Wt32Router.Wan.Policy
import Wt32Router.Dhcp.Ranges
import Wt32Router.Dhcp.RoundTrip
import Wt32Router.Dhcp.Offered
import Wt32Router.Web.LogChain
import Wt32Router.Web.Stored
import Wt32Router.Dhcp.OwnAddress
import Wt32Router.Dhcp.Refusals
import Wt32Router.Dhcp.Deviation
import Wt32Router.Dhcp.Inherited
import Wt32Router.Reset.Loading
import Wt32Router.Track.Ports
import Wt32Router.Track.Quarantine
import Wt32Router.Track.Frames
import Wt32Router.Wan.Refused
import Wt32Router.Web.Saving
import Wt32Router.Web.JsonEscapes
import Wt32Router.Web.JsonKeys
import Wt32Router.Web.Auth
import Wt32Router.Web.Download
import Wt32Router.Logs.Assembly
import Wt32Router.Logs.Serial
import Wt32Router.Reset.Bracket
import Wt32Router.Reset.Cuts
import Wt32Router.Clock.Sync
import Wt32Router.Dhcp.Options
import Wt32Router.Logs.Prefix
import Wt32Router.Web.Base64
import Wt32Router.Logs.Datagram
import Wt32Router.Track.History
import Wt32Router.Web.ClientHistory
import Wt32Router.Web.RecvBody
import Wt32Router.Rail.Boots
import Wt32Router.Web.AuthLog
import Wt32Router.Logs.Settle
import Wt32Router.Clock.Dating
import Wt32Router.Clock.Claims
import Wt32Router.Clock.Client
import Wt32Router.Web.Csrf
import Wt32Router.Web.Ota
import Wt32Router.Logs.Reload
import Wt32Router.Web.LeasesJson
import Wt32Router.Web.Resets
import Wt32Router.Web.ResetsPage
import Wt32Router.Reset.Console
import Wt32Router.Sys.Monitor
import Wt32Router.Track.Traffic
import Wt32Router.Web.Savers
