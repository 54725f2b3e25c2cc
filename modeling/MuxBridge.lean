import MuxBridge.Config.Loading
import MuxBridge.Schema.Message
import MuxBridge.Script.Run
import MuxBridge.Proofs.Crowd.Basic
import MuxBridge.Proofs.Crowd.Move
import MuxBridge.Proofs.Crowd.Line
import MuxBridge.Proofs.Crowd.Handover
import MuxBridge.Proofs.Crowd.Runs
import MuxBridge.Proofs.Crowd.Agreement
import MuxBridge.Proofs.Crowd.Contention
import MuxBridge.Proofs.Crowd.Progress
import MuxBridge.Proofs.Crowd.Retry
import MuxBridge.Proofs.Coding.Strings
import MuxBridge.Proofs.Coding.Values
import MuxBridge.Proofs.Coding.Messages
import MuxBridge.Proofs.Coding.RoundTrip
import MuxBridge.Proofs.Deadlines.Alone
import MuxBridge.Proofs.Deadlines.Fits
import MuxBridge.Proofs.Deadlines.Stack
import MuxBridge.Proofs.Service.Accounts
import MuxBridge.Proofs.Service.Replies
import MuxBridge.Proofs.Service.Tenancy
import MuxBridge.Proofs.Service.Discovery
import MuxBridge.Proofs.Schemas.Validation
import MuxBridge.Proofs.Schemas.Admission
import MuxBridge.Proofs.Schemas.Messages
import MuxBridge.Proofs.Yaml.Words
import MuxBridge.Proofs.Yaml.Spacing
import MuxBridge.Proofs.Yaml.Gaps
import MuxBridge.Proofs.Yaml.Tokens
import MuxBridge.Proofs.Yaml.Tree
import MuxBridge.Proofs.Yaml.Laid
import MuxBridge.Proofs.Yaml.Lines
import MuxBridge.Proofs.Yaml.Braces
import MuxBridge.Proofs.Yaml.Nodes
import MuxBridge.Proofs.Yaml.Sections
import MuxBridge.Proofs.Yaml.Partial
import MuxBridge.Proofs.Yaml.Configs
import MuxBridge.Proofs.Service.Failures
import MuxBridge.Proofs.Schemas.Grammar
import MuxBridge.Proofs.Crowd.Expiry
import MuxBridge.Proofs.Crowd.Punctual
import MuxBridge.Proofs.Crowd.Reports
import MuxBridge.Proofs.Service.Windows
import MuxBridge.Proofs.Exchange.Queue
import MuxBridge.Proofs.Batch.Independence
