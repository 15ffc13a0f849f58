import SecureTransfer.Library.Effects
import SecureTransfer.Library.Octets
import SecureTransfer.Library.BlockMode
import SecureTransfer.Library.FileTree
import SecureTransfer.Library.Keyed
import SecureTransfer.Library.Runs
import SecureTransfer.Library.Sessions
import SecureTransfer.Library.Triples
import SecureTransfer.Library.Degrading
import SecureTransfer.Server.State
import SecureTransfer.Server.Connection
import SecureTransfer.Server.Sql
import SecureTransfer.Server.Cksum
import SecureTransfer.Server.Functions
import SecureTransfer.Server.Request
import SecureTransfer.Server.Main
import SecureTransfer.Server.Loop
import SecureTransfer.Client.Cksum
import SecureTransfer.Service.Serve
import SecureTransfer.Service.Invariant
import SecureTransfer.Service.Refinement
import SecureTransfer.Service.Receive
import SecureTransfer.Service.Updates
import SecureTransfer.Service.Replies
import SecureTransfer.Service.Runs
import SecureTransfer.Client.Request
import SecureTransfer.Client.Functions
import SecureTransfer.Client.Main
import SecureTransfer.Service.Wire
import SecureTransfer.Service.Books
import SecureTransfer.Service.Flags
import SecureTransfer.Service.KeyExchange
import SecureTransfer.Service.Identity
import SecureTransfer.Service.Accounts
import SecureTransfer.Service.Reconnection
import SecureTransfer.Service.Delivery
import SecureTransfer.Service.Registry
import SecureTransfer.Client.Echo
import SecureTransfer.Client.Packets
import SecureTransfer.Service.Emissions
import SecureTransfer.Service.Survival
import SecureTransfer.Service.EndToEnd
import SecureTransfer.Service.Upload
import SecureTransfer.Service.Belongings
import SecureTransfer.Service.Plain
import SecureTransfer.Client.Codec
import SecureTransfer.Client.Files
import SecureTransfer.Client.Retries
import SecureTransfer.Service.Stream
import SecureTransfer.Service.Return
import SecureTransfer.Service.Backing
import SecureTransfer.Service.Checksum
import SecureTransfer.Client.Sizes
import SecureTransfer.Service.Rejected
import SecureTransfer.Service.Verified
import SecureTransfer.Service.Faults
import SecureTransfer.Service.Attempts
import SecureTransfer.Service.Estate
import SecureTransfer.Service.Interference
import SecureTransfer.Service.Segments
import SecureTransfer.Service.Sequences
import SecureTransfer.Service.Folders
import SecureTransfer.Service.Blocking
import SecureTransfer.Service.Answers
import SecureTransfer.Service.Visits
import SecureTransfer.Service.Sending
import SecureTransfer.Service.FirstVisit
import SecureTransfer.Service.LaterVisit
import SecureTransfer.Service.Network
import SecureTransfer.Service.Garbled
import SecureTransfer.Service.Ledger
import SecureTransfer.Service.Damage
import SecureTransfer.Service.Durability
import SecureTransfer.Service.Degraded
