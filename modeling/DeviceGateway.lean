import DeviceGateway.Broadcast
import DeviceGateway.Bytes
import DeviceGateway.Call.Context
import DeviceGateway.Call.Handler
import DeviceGateway.Call.Inbox
import DeviceGateway.Call.Outbox
import DeviceGateway.Call.Pool
import DeviceGateway.Call.Probe
import DeviceGateway.Call.Task
import DeviceGateway.Checksum
import DeviceGateway.Checksum.Blake3
import DeviceGateway.Client.Answer
import DeviceGateway.Client.Basic
import DeviceGateway.Client.Exchange
import DeviceGateway.CommandLine
import DeviceGateway.Config.Basic
import DeviceGateway.Config.Reading
import DeviceGateway.Config.Text
import DeviceGateway.Deadline
import DeviceGateway.Decimal.Shortest
import DeviceGateway.Duration
import DeviceGateway.Error
import DeviceGateway.FileSystem.Copy
import DeviceGateway.FileSystem.Directories
import DeviceGateway.FileSystem.Disk
import DeviceGateway.FileSystem.Fault
import DeviceGateway.FileSystem.Files
import DeviceGateway.FileSystem.Path
import DeviceGateway.Frame.Basic
import DeviceGateway.Frame.Codec
import DeviceGateway.Frame.Header
import DeviceGateway.Gateway.Catalogue
import DeviceGateway.Gateway.Files
import DeviceGateway.Gateway.Handlers
import DeviceGateway.Gateway.Lifecycle
import DeviceGateway.Install.Installer
import DeviceGateway.Install.Memory
import DeviceGateway.Install.Staging
import DeviceGateway.Job
import DeviceGateway.Json.Basic
import DeviceGateway.Json.Parse
import DeviceGateway.Limiter
import DeviceGateway.Limiter.FixedWindow
import DeviceGateway.Limiter.TokenBucket
import DeviceGateway.Loopback.ClientSession
import DeviceGateway.Loopback.Network
import DeviceGateway.Loopback.PushSession
import DeviceGateway.Loopback.ServerSession
import DeviceGateway.Loopback.Visit
import DeviceGateway.Main
import DeviceGateway.Provider
import DeviceGateway.Registry
import DeviceGateway.Screen.Capture
import DeviceGateway.Screen.Encoder
import DeviceGateway.Screen.Jpeg
import DeviceGateway.Screen.Pipeline
import DeviceGateway.Screen.RawFrame
import DeviceGateway.Screen.TestPattern
import DeviceGateway.Server.Connection
import DeviceGateway.Text.Blank
import DeviceGateway.Text.Printable
import DeviceGateway.Text.Quoted
import DeviceGateway.Text.Utf8
import DeviceGateway.Toml.Document
import DeviceGateway.Toml.Scalar
import DeviceGateway.Toml.Text
import DeviceGateway.Toml.Value
import DeviceGateway.Transfer.Format
import DeviceGateway.Transfer.Framer
import DeviceGateway.Transfer.Receiver
import DeviceGateway.Upload.Session
import DeviceGateway.Wire.Layout
import DeviceGateway.Wire.Payload
import DeviceGateway.Proofs.Frame.HeaderFields
import DeviceGateway.Proofs.Frame.Reading
import DeviceGateway.Proofs.Frame.Stream
import DeviceGateway.Proofs.FileSystem.Places
import DeviceGateway.Proofs.FileSystem.Sight
import DeviceGateway.Proofs.FileSystem.Newcomers
import DeviceGateway.Proofs.Call.Abandoning
import DeviceGateway.Proofs.Call.Course
import DeviceGateway.Proofs.Call.Leading
import DeviceGateway.Proofs.Call.Polling
import DeviceGateway.Proofs.Call.PoolNumbers
import DeviceGateway.Proofs.Call.PoolSteps
import DeviceGateway.Proofs.Client.Departure
import DeviceGateway.Proofs.Gateway.Accepting
import DeviceGateway.Proofs.Gateway.Unfinished
import DeviceGateway.Proofs.Gateway.Withdrawal
import DeviceGateway.Proofs.Upload.Receiving
import DeviceGateway.Proofs.Upload.Rivals
import DeviceGateway.Proofs.Upload.Saving
import DeviceGateway.Proofs.Limiter.Bursts
import DeviceGateway.Proofs.Link.RoundTrip
import DeviceGateway.Proofs.Server.CallEnds
import DeviceGateway.Proofs.Server.Cancellation
import DeviceGateway.Proofs.Server.DuplicateCalls
import DeviceGateway.Proofs.Server.Joining
import DeviceGateway.Proofs.Server.LostConnection
import DeviceGateway.Proofs.Server.Teardown
import DeviceGateway.Proofs.Wire.PrefixCodes
import DeviceGateway.Proofs.FileSystem.Elsewhere
import DeviceGateway.Proofs.Upload.Destination
import DeviceGateway.Proofs.Call.Hearing
import DeviceGateway.Proofs.Server.Attending
import DeviceGateway.Proofs.Upload.Settlement
import DeviceGateway.Proofs.FileSystem.Lexical
import DeviceGateway.Proofs.FileSystem.Provided
import DeviceGateway.Proofs.Install.Interleaving
import DeviceGateway.Proofs.Transfer.Reassembly
import DeviceGateway.Proofs.Client.Downloads
import DeviceGateway.Proofs.Client.Routing
import DeviceGateway.Proofs.Server.Responses
import DeviceGateway.Proofs.Broadcast.Delivery
import DeviceGateway.Proofs.Server.ReusedNumbers
import DeviceGateway.Proofs.Client.HeadOfLine
import DeviceGateway.Proofs.Gateway.MediaStore
import DeviceGateway.Proofs.Broadcast.QueueDepth
import DeviceGateway.Proofs.Screen.Substream
import DeviceGateway.Proofs.Limiter.Solvency
import DeviceGateway.Proofs.Call.Tracking
import DeviceGateway.Proofs.Gateway.Shapes
import DeviceGateway.Proofs.Gateway.Failures
import DeviceGateway.Proofs.Limiter.Fractions
import DeviceGateway.Proofs.Limiter.Windows
import DeviceGateway.Proofs.Transfer.Framing
import DeviceGateway.Proofs.Transfer.Grammar
import DeviceGateway.Proofs.FileSystem.Confinement
import DeviceGateway.Proofs.Client.Openings
import DeviceGateway.Proofs.Client.Uploads
import DeviceGateway.Proofs.Server.ReadyAnswers
import DeviceGateway.Proofs.Gateway.TextReplies
import DeviceGateway.Proofs.Install.Children
import DeviceGateway.Proofs.Text.ByteOrder
import DeviceGateway.Proofs.Gateway.Listings
import DeviceGateway.Proofs.FileSystem.Contents
import DeviceGateway.Proofs.Gateway.TextLogs
import DeviceGateway.Proofs.FileSystem.Above
import DeviceGateway.Proofs.FileSystem.Growth
import DeviceGateway.Proofs.FileSystem.Grafting
import DeviceGateway.Proofs.Gateway.Copying
import DeviceGateway.Proofs.Screen.Conversion
import DeviceGateway.Proofs.Screen.Sweep
import DeviceGateway.Proofs.Registry.FirstWins
import DeviceGateway.Proofs.Upload.Lifecycle
