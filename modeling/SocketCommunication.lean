import SocketCommunication.Lib.Command
import SocketCommunication.Lib.Run
import SocketCommunication.Lib.Places
import SocketCommunication.Lib.Lending
import SocketCommunication.Lib.Segments
import SocketCommunication.Lib.Lines
import SocketCommunication.Matching.RoomRuns
import SocketCommunication.Matching.RoomSafety
import SocketCommunication.Matching.RoomStatuses
import SocketCommunication.Matching.Departures
import SocketCommunication.Matching.Connections
import SocketCommunication.Matching.Accounts
import SocketCommunication.Matching.RoundTrip
import SocketCommunication.Matching.AccountRules
import SocketCommunication.Matching.Serialisability
import SocketCommunication.Matching.Nicknames
import SocketCommunication.Matching.RoomCreation
import SocketCommunication.Matching.Credentials
import SocketCommunication.Matching.FailedLogins
import SocketCommunication.Matching.LoginFootprint
import SocketCommunication.Matching.OneAnswer
import SocketCommunication.Matching.Memberships
import SocketCommunication.Matching.Exceptions
import SocketCommunication.Matching.Lobby
import SocketCommunication.Matching.Names
import SocketCommunication.Matching.Addresses
import SocketCommunication.Matching.Mirrors
import SocketCommunication.Matching.Writes
import SocketCommunication.Matching.Segments
import SocketCommunication.Matching.History
import SocketCommunication.Matching.Isolation
import SocketCommunication.Matching.Timers
import SocketCommunication.Matching.RoomList
import SocketCommunication.Matching.LostConnections
import SocketCommunication.GameSocket.AuthApi
import SocketCommunication.GameSocket.Session
import SocketCommunication.GameSocket.ContentLength
import SocketCommunication.GameSocket.Pool
import SocketCommunication.GameSocket.HandOut
import SocketCommunication.GameSocket.Server
import SocketCommunication.GameSocket.Ledger
import SocketCommunication.ChatServer.Lifetime
import SocketCommunication.ChatServer.Delivery
import SocketCommunication.ChatServer.Wire
import SocketCommunication.ChatServer.Order
import SocketCommunication.ChatServer.Client
import SocketCommunication.Practice.AsyncTCPClient
import SocketCommunication.Practice.ActiveSessions
import SocketCommunication.Practice.CancelGuards
import SocketCommunication.Practice.SocketShutdown
import SocketCommunication.Practice.IterativeSyncTCPServer
