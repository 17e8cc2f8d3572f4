import NetconfClient.Main
import NetconfClient.Session.Console
import NetconfClient.Proofs.Framing.RoundTrip
import NetconfClient.Proofs.Session.Correlation
import NetconfClient.Proofs.Session.Settlement
import NetconfClient.Proofs.Dispatch.Requests
import NetconfClient.Proofs.Session.Agreement
import NetconfClient.Proofs.Session.Opening
import NetconfClient.Proofs.Session.Output
import NetconfClient.Proofs.Framing.Grammar
import NetconfClient.Proofs.Framing.Finality
import NetconfClient.Proofs.Framing.Bounds
import NetconfClient.Proofs.Markup.Tree
import NetconfClient.Proofs.Message.Extraction
import NetconfClient.Proofs.Markup.AttributeList
import NetconfClient.Proofs.Message.RootTag
import NetconfClient.Proofs.Text.Dictionary
import NetconfClient.Proofs.Message.Envelope
import NetconfClient.Proofs.Ssh.Calls
import NetconfClient.Proofs.Ssh.Connect
import NetconfClient.Proofs.Ssh.Shutdown
import NetconfClient.Proofs.Dispatch.Notifications
import NetconfClient.Proofs.Message.Announcement
import NetconfClient.Proofs.Capability.Rereading
import NetconfClient.Proofs.Message.Comments
import NetconfClient.Proofs.Message.AttributeOrder
import NetconfClient.Proofs.Capability.ShortForm
import NetconfClient.Proofs.Capability.Canonical
import NetconfClient.Proofs.Host.Address
import NetconfClient.Proofs.Host.Lookup
import NetconfClient.Proofs.Command.Subscription
import NetconfClient.Proofs.Command.Operations
import NetconfClient.Proofs.Framing.Resumption
import NetconfClient.Proofs.Markup.Blanks
import NetconfClient.Proofs.Message.Recognition
