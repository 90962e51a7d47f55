import Fleet.Account.Basic
import Fleet.Account.Project
import Fleet.Account.Submission
import Fleet.Broadcast
import Fleet.Cloud.Client
import Fleet.Cloud.Listing
import Fleet.Cloud.Network
import Fleet.Cloud.Operation
import Fleet.Cloud.Rehearsal
import Fleet.Cloud.Resource
import Fleet.Cloud.Token
import Fleet.Cloud.World
import Fleet.CommandLine.Arguments
import Fleet.CommandLine.Commands
import Fleet.CommandLine.Logging
import Fleet.CommandLine.Options
import Fleet.Decimal.Nearest
import Fleet.Decimal.Numeral
import Fleet.Decimal.Shortest
import Fleet.Failure
import Fleet.Fault
import Fleet.Install.Script
import Fleet.Install.Snapshot
import Fleet.Install.State
import Fleet.Instance.Direct
import Fleet.Instance.Info
import Fleet.Instance.Name
import Fleet.Json.Access
import Fleet.Json.Basic
import Fleet.Json.Literal
import Fleet.Json.Reader
import Fleet.Json.Writer
import Fleet.Main
import Fleet.Proofs.Account.Creation
import Fleet.Proofs.Account.Listings
import Fleet.Proofs.Account.Names
import Fleet.Proofs.Account.Projects
import Fleet.Proofs.Account.Submission
import Fleet.Proofs.Account.Teardown
import Fleet.Proofs.Broadcast
import Fleet.Proofs.Cloud.Bodies
import Fleet.Proofs.Cloud.Dealings
import Fleet.Proofs.Cloud.Errands
import Fleet.Proofs.Cloud.Exchanges
import Fleet.Proofs.Cloud.Listing
import Fleet.Proofs.Cloud.Operations
import Fleet.Proofs.Cloud.Outcomes
import Fleet.Proofs.Cloud.Pages
import Fleet.Proofs.Cloud.Rejection
import Fleet.Proofs.Cloud.Repetition
import Fleet.Proofs.Cloud.Requests
import Fleet.Proofs.Cloud.Routing
import Fleet.Proofs.Cloud.Waiting
import Fleet.Proofs.CommandLine.Creation
import Fleet.Proofs.CommandLine.Deletion
import Fleet.Proofs.CommandLine.Teardown
import Fleet.Proofs.Effects
import Fleet.Proofs.Install.Archive
import Fleet.Proofs.Install.Attributes
import Fleet.Proofs.Install.Fingerprints
import Fleet.Proofs.Install.Reading
import Fleet.Proofs.Instance.Descriptions
import Fleet.Proofs.Instance.Retrying
import Fleet.Proofs.Journal
import Fleet.Proofs.Json
import Fleet.Proofs.Server.Acts
import Fleet.Proofs.Server.Addresses
import Fleet.Proofs.Server.Cancellation
import Fleet.Proofs.Server.Changes
import Fleet.Proofs.Server.Course
import Fleet.Proofs.Server.Deletion
import Fleet.Proofs.Server.Endpoint
import Fleet.Proofs.Server.Entries
import Fleet.Proofs.Server.Exchanges
import Fleet.Proofs.Server.Fetching
import Fleet.Proofs.Server.Following
import Fleet.Proofs.Server.Independence
import Fleet.Proofs.Server.Joining
import Fleet.Proofs.Server.Listening
import Fleet.Proofs.Server.Phases
import Fleet.Proofs.Server.Polling
import Fleet.Proofs.Server.Promotion
import Fleet.Proofs.Server.Removal
import Fleet.Proofs.Server.Repetition
import Fleet.Proofs.Server.Settlement
import Fleet.Proofs.Server.Setup
import Fleet.Proofs.Server.Stages
import Fleet.Proofs.Server.StateMachine
import Fleet.Proofs.Server.Surroundings
import Fleet.Proofs.Server.Uncreated
import Fleet.Proofs.Server.Waiting
import Fleet.Proofs.Text.Base64
import Fleet.Proofs.Text.WrittenForms
import Fleet.Proofs.Tokens
import Fleet.Proofs.Uniformity
import Fleet.Proofs.Zone
import Fleet.Seconds
import Fleet.Server.Basic
import Fleet.Server.Progress
import Fleet.Server.Provisioning
import Fleet.Server.Teardown
import Fleet.Text.Base64
import Fleet.Text.Digit
import Fleet.Text.Printable
import Fleet.Text.Quoted
import Fleet.Text.Segment
import Fleet.Text.Shell
import Fleet.Zone
