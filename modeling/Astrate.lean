import Astrate.InterfaceSchema.Visits
import Astrate.Engine.Previous
import Astrate.Broker.Convergence
import Astrate.Broker.OfflineAcl
import Astrate.Broker.InflightOrder
import Astrate.Broker.Lifecycle
import Astrate.Auth.RelativePath
import Astrate.Auth.TokenCache
import Astrate.Channels.Rooms
import Astrate.Channels.Delivery
import Astrate.Broker.Intake
import Astrate.Engine.Notifications
import Astrate.Engine.Refusals
import Astrate.Flow.Router
import Astrate.FlowApi.Start
import Astrate.FlowApi.Fatal
import Astrate.Engine.Hint
import Astrate.Pairing.Limit
import Astrate.Pairing.Verify
import Astrate.Realm.Interfaces
import Astrate.AppEngine.Atomicity
import Astrate.AppEngine.Listing
import Astrate.Engine.DeviceCache
import Astrate.Engine.VirtualDevice
import Astrate.Payload.Integers
import Astrate.Flow.Templates
