import IdentityService.Idempotency.Expiry
import IdentityService.Idempotency.HotAnswers
import IdentityService.Idempotency.Heartbeat
import IdentityService.Idempotency.EntryProtocol
import IdentityService.Idempotency.StorageKey
import IdentityService.Idempotency.Fingerprint
import IdentityService.Idempotency.DecimalFingerprint
import IdentityService.Auth.SessionRefinement
import IdentityService.Auth.Runs
import IdentityService.Auth.Disable
import IdentityService.Auth.Reuse
import IdentityService.Auth.Revocation
import IdentityService.Auth.Lineage
import IdentityService.Auth.Replicas
import IdentityService.Auth.ReplayProtector
import IdentityService.Auth.AccessToken
import IdentityService.Registration.Idempotent
import IdentityService.Registration.ProfileFirst
import IdentityService.Registration.AttemptWindow
import IdentityService.Registration.RetryAfter
import IdentityService.Registration.Reconciliation
import IdentityService.Outbox.Order
import IdentityService.Outbox.Delivery
import IdentityService.Outbox.KeyFifo
import IdentityService.Fencing
import IdentityService.Budget
import IdentityService.Resilience.BreakerPeriods
import IdentityService.Http.Framing
import IdentityService.Http.Contract
import IdentityService.Logging
import IdentityService.Announcement
import IdentityService.Registration.BornOut
