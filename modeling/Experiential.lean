import Experiential.Gateway.ExactCost
import Experiential.Gateway.UsageEvents
import Experiential.Gateway.RequestRate
import Experiential.Gateway.PreVerify
import Experiential.Gateway.Deadlines
import Experiential.Gateway.Operations
import Experiential.Gateway.SpendAlerts
import Experiential.Billing.ExpiryRuns
import Experiential.Replay.Bodies
import Experiential.Telemetry.Fencing
import Experiential.Telemetry.Erasure
import Experiential.Catalog.PublishedRuns
import Experiential.Catalog.Merges
import Experiential.Catalog.WaterfallRuns
import Experiential.Catalog.ProviderPolicy
import Experiential.Identity.Convergence
import Experiential.Identity.Provisioning
import Experiential.Identity.NoLockout
import Experiential.Identity.ScimLifecycle
import Experiential.Broadcast.Failures
import Experiential.Gateway.QuotaMessages
import Experiential.Gateway.KeyRotation
import Experiential.Gateway.DailyRollup
import Experiential.Gateway.PromoChoice
import Experiential.Gateway.BudgetMeter
import Experiential.Gateway.ExecutorRuns
import Experiential.Gateway.RequestLog
import Experiential.Gateway.UsageAggregates
import Experiential.Billing.RechargeInvariant
import Experiential.Identity.Admins
import Experiential.Edge.Gate
import Experiential.Admin.Authority
import Experiential.Admin.Provenance
import Experiential.Admin.Seal
import Experiential.Spend.InboxProof
import Experiential.Acquisition.OutboundHosts
import Experiential.Teams.Roster
import Experiential.Providers.Health
import Experiential.Control.Reuse
import Experiential.Control.TtlCache
import Experiential.Wire.CostRewriting
import Experiential.Wire.TranslationAgreement
import Experiential.Sessions.ScanOrder
import Experiential.Sessions.BadLines
import Experiential.Wire.RequestTranslation
import Experiential.Gateway.PromoAdmin
import Experiential.Gateway.LeaseBounds
import Experiential.Web.Redirects
import Experiential.Web.EmailCooldown
import Experiential.Transport.StorageCleanup
import Experiential.Gateway.Tenants
import Experiential.Acquisition.StoredRecords
