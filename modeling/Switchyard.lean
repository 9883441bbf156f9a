import Switchyard.Text.Percent
import Switchyard.Text.Offset
import Switchyard.Text.Outline
import Switchyard.Http.Headers
import Switchyard.Http.Status
import Switchyard.Http.MediaType
import Switchyard.Http.Address
import Switchyard.Http.Uri
import Switchyard.Json.Reader
import Switchyard.Router
import Switchyard.Pool.Custody
import Switchyard.Settings
import Switchyard.Group
import Switchyard.Context
import Switchyard.Flow
import Switchyard.Machine
import Switchyard.Server
import Switchyard.Script
import Switchyard.Proofs.Chain.Runs
import Switchyard.Proofs.Chain.Onion
import Switchyard.Proofs.Chain.Thread
import Switchyard.Proofs.Chain.Confined
import Switchyard.Proofs.Chain.Turns
import Switchyard.Proofs.Chain.Attributed
import Switchyard.Proofs.Chain.Logged
import Switchyard.Proofs.Chain.Order
import Switchyard.Proofs.Chain.Stack
import Switchyard.Proofs.Chain.Halt
import Switchyard.Proofs.Pool.Fresh
import Switchyard.Proofs.Path.Segments
import Switchyard.Proofs.Path.Views
import Switchyard.Proofs.Router.Scan
import Switchyard.Proofs.Server.Flight
import Switchyard.Proofs.Server.Traffic
import Switchyard.Proofs.Router.Ledger
import Switchyard.Proofs.Router.Fit
import Switchyard.Proofs.Router.Allowed
import Switchyard.Proofs.Router.Captures
import Switchyard.Proofs.Router.Clean
import Switchyard.Proofs.Server.Dispatch
import Switchyard.Proofs.Server.Refusal
import Switchyard.Proofs.Chain.Stop
import Switchyard.Proofs.Response.Written
import Switchyard.Proofs.Response.Payload
import Switchyard.Proofs.Server.Answers
import Switchyard.Proofs.Chain.Guard
import Switchyard.Proofs.Chain.Alone
import Switchyard.Proofs.Server.Recovery
import Switchyard.Proofs.Path.Join
import Switchyard.Proofs.Server.Directory
import Switchyard.Proofs.Server.Addressed
import Switchyard.Proofs.Server.Buffer
import Switchyard.Proofs.Server.Reports
import Switchyard.Proofs.Server.Logged
import Switchyard.Proofs.Assets.Contained
import Switchyard.Proofs.Assets.Tree
import Switchyard.Proofs.Server.Served
import Switchyard.Proofs.Router.Reverse
import Switchyard.Proofs.Router.Reorder
import Switchyard.Proofs.Chain.Mirror
import Switchyard.Proofs.Router.HeadByGet
import Switchyard.Proofs.Server.HeadByGet
import Switchyard.Proofs.Server.History
import Switchyard.Proofs.Server.Groups
import Switchyard.Proofs.Server.GroupPaths
import Switchyard.Proofs.Router.Recorded
import Switchyard.Proofs.Router.OwnPath
import Switchyard.Proofs.Router.Flags
import Switchyard.Proofs.Router.Registered
import Switchyard.Proofs.Pattern.Grammar
import Switchyard.Proofs.Server.Room
import Switchyard.Proofs.Server.Registered
import Switchyard.Proofs.Pool.Loans
import Switchyard.Proofs.Response.Envelope
import Switchyard.Proofs.Chain.Finite
import Switchyard.Proofs.Path.Bounds
import Switchyard.Proofs.Router.Bounds
