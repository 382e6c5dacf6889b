import Titlan.Android.ChatBody
import Titlan.Android.SyncService
import Titlan.Client.Dialing
import Titlan.Client.Keepalive
import Titlan.Client.Lifecycle
import Titlan.Client.Routing
import Titlan.Codec.Bundle
import Titlan.Codec.Control
import Titlan.Codec.MailboxId
import Titlan.Codec.Minting
import Titlan.Codec.Offer
import Titlan.Codec.Padding
import Titlan.Identity.FreshIds
import Titlan.Identity.Trust
import Titlan.Engine.HelloRing
import Titlan.Relay.Accounting
import Titlan.Relay.Admission
import Titlan.Relay.Blindness
import Titlan.Relay.Capacity
import Titlan.Relay.Counting
import Titlan.Relay.Delivery
import Titlan.Relay.Oracle
import Titlan.Relay.Sweep
import Titlan.Session.Serializability
import Titlan.Device.Windows
import Titlan.Device.Bytes
import Titlan.Device.Crash
import Titlan.Device.Entering
import Titlan.Device.Persistence
import Titlan.Device.Refused
import Titlan.Device.Unsendable
import Titlan.Outbox.Ordered
import Titlan.Pairing.Agreement
import Titlan.World.Convergence
import Titlan.World.Restarting
