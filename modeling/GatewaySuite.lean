import GatewaySuite.Guardrail.Choices
import GatewaySuite.Guardrail.Coverage
import GatewaySuite.Guardrail.Bounds
import GatewaySuite.Guardrail.Statistics
import GatewaySuite.Guardrail.Metadata
import GatewaySuite.Guardrail.Endpoint
import GatewaySuite.Guardrail.Grouping
import GatewaySuite.Guardrail.Residue
import GatewaySuite.Guardrail.Exact
import GatewaySuite.Guardrail.Luhn
import GatewaySuite.Gateway.Mediation
import GatewaySuite.Gateway.Transparency
import GatewaySuite.Gateway.Callable
import GatewaySuite.Limiter.Window
import GatewaySuite.Router.Faults
import GatewaySuite.Router.Recovery
import GatewaySuite.Limiter.Tenants
import GatewaySuite.Limiter.Eviction
import GatewaySuite.Limiter.Retry
import GatewaySuite.Limiter.Statements
import GatewaySuite.Billing.Idempotency
import GatewaySuite.Billing.Ledger
import GatewaySuite.Router.App
import GatewaySuite.Router.Reports
import GatewaySuite.Router.Budget
import GatewaySuite.Gateway.Bearer
import GatewaySuite.Gateway.Correlation
import GatewaySuite.Billing.Session
import GatewaySuite.Billing.Isolation
import GatewaySuite.Stdio.Guard
import GatewaySuite.Router.Disclosure
import GatewaySuite.Router.Liveness
import GatewaySuite.Router.Outage
import GatewaySuite.Router.Deadline
import GatewaySuite.Lib.Run
