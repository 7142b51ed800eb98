import ChannelWire.Foundation.LinkedQueue
import ChannelWire.Foundation.Transition
import ChannelWire.Protocol.Readers
import ChannelWire.Protocol.Strings
import ChannelWire.Core.QueueInvariant
import ChannelWire.Core.ChannelInvariant
import ChannelWire.Core.NameInvariant
import ChannelWire.Core.OutputStream
import ChannelWire.Core.InputStream
import ChannelWire.Core.ChannelLog
import ChannelWire.Core.Answers
import ChannelWire.Core.Replies
import ChannelWire.Core.Renaming
import ChannelWire.Core.Confinement
import ChannelWire.Core.Outputs
import ChannelWire.Core.Secrecy
import ChannelWire.Gateway.Decoding
import ChannelWire.Gateway.Framing
import ChannelWire.Gateway.Pairing
import ChannelWire.Gateway.Identity
import ChannelWire.Gateway.Memberships
import ChannelWire.Core.Echoes
import ChannelWire.Gateway.Rows
import ChannelWire.Gateway.Texts
import ChannelWire.Gateway.TextStorage
import ChannelWire.Gateway.History
import ChannelWire.Core.Deliveries
import ChannelWire.Foundation.Base64
import ChannelWire.Gateway.Operations
import ChannelWire.Gateway.Accounts
import ChannelWire.Core.Slots
import ChannelWire.Core.PollRound
import ChannelWire.Core.Malformed
import ChannelWire.Core.Relays
import ChannelWire.Gateway.Fidelity
import ChannelWire.Gateway.Codecs
import ChannelWire.Gateway.Registrations
import ChannelWire.Core.ActiveChannel
import ChannelWire.Frontend.Dashboard
import ChannelWire.Frontend.ActiveChannelRef
import ChannelWire.Frontend.Requests
import ChannelWire.Foundation.Coroutine
import ChannelWire.Gateway.Releases
import ChannelWire.Core.Visitor
import ChannelWire.Gateway.Queries
import ChannelWire.Foundation.LastEntries
import ChannelWire.Foundation.Regex
import ChannelWire.Gateway.Pages
import ChannelWire.Gateway.Constraints
import ChannelWire.Gateway.Names
import ChannelWire.Foundation.Numeral
import ChannelWire.Core.Limits
import ChannelWire.Foundation.Words
import ChannelWire.Frontend.Forms
import ChannelWire.Gateway.Inputs
import ChannelWire.Core.Notices
import ChannelWire.Gateway.Lists
import ChannelWire.Frontend.Readiness
import ChannelWire.Frontend.Sockets
import ChannelWire.Gateway.Acknowledgements
import ChannelWire.Gateway.DmStorage
import ChannelWire.Core.Service
import ChannelWire.Foundation.ChatService
import ChannelWire.Core.Counters
import ChannelWire.Gateway.CoreStats
import ChannelWire.Gateway.Shown
import ChannelWire.Frontend.Screen
import ChannelWire.Gateway.ActiveUsers
import ChannelWire.Gateway.Tokens
import ChannelWire.Foundation.Base64Url
import ChannelWire.Foundation.StrictJson
import ChannelWire.Frontend.StoredSession
import ChannelWire.Core.Refusals
import ChannelWire.Core.Progress
import ChannelWire.Terminal.Commands
import ChannelWire.Terminal.Lines
import ChannelWire.Gateway.PairedRows
