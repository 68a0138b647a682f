import SMAgent.Adhoc.Delivery
import SMAgent.Checks.ErrorCount
import SMAgent.Checks.Validity
import SMAgent.Feature.Collection
import SMAgent.K6.Processor
import SMAgent.K6.Resolution
import SMAgent.Model.GlobalIds
import SMAgent.Multihttp.Assertions
import SMAgent.Multihttp.Bodies
import SMAgent.Multihttp.Injection
import SMAgent.Pb.HostGrammar
import SMAgent.Prober.HttpHeaders
import SMAgent.Prober.SinglePass
import SMAgent.Prober.ToJavaScript
import SMAgent.Pusher.Accounting
import SMAgent.Pusher.Budget
import SMAgent.Pusher.Limits
import SMAgent.Pusher.ShortBuffers
import SMAgent.Pusher.Slots
import SMAgent.Pusher.Stranded
import SMAgent.Pusher.Wakeup
import SMAgent.Scraper.Ordering
import SMAgent.Scraper.Outputs
import SMAgent.Scraper.Republish
import SMAgent.Scraper.Reserved
import SMAgent.Scraper.Select
import SMAgent.Secrets.Isolation
import SMAgent.Telemetry.Exactness
import SMAgent.Telemetry.Telemeter
import SMAgent.Tenants.Mixing
import SMAgent.Tenants.Monotone
import SMAgent.TestApi.Integrity
import SMAgent.TestApi.Reconnect
