import SinkAudit.Main
import SinkAudit.Proofs.Ancestry
import SinkAudit.Proofs.Binding
import SinkAudit.Proofs.Completion
import SinkAudit.Proofs.Computed
import SinkAudit.Proofs.CookieAccess
import SinkAudit.Proofs.CookieFlags
import SinkAudit.Proofs.Evaluation
import SinkAudit.Proofs.Exemption
import SinkAudit.Proofs.Extension
import SinkAudit.Proofs.Ignore
import SinkAudit.Proofs.Literal
import SinkAudit.Proofs.Locality
import SinkAudit.Proofs.Reload
import SinkAudit.Proofs.Sanitizer
import SinkAudit.Proofs.Sarif
import SinkAudit.Proofs.Severity
import SinkAudit.Proofs.SourceOrder
import SinkAudit.Proofs.Table
import SinkAudit.Proofs.Target
import SinkAudit.Proofs.WellFormed
import SinkAudit.Proofs.Wrapping
import SinkAudit.Proofs.Layers
import SinkAudit.Proofs.ValidOptions
import SinkAudit.Proofs.Delivery
import SinkAudit.Proofs.ArgumentList
import SinkAudit.Proofs.ExitCode
import SinkAudit.Proofs.Emissions
import SinkAudit.Proofs.Rendering
