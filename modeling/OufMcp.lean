import OufMcp.Cursor.Binding
import OufMcp.Cursor.Continuation
import OufMcp.Cursor.Isolation
import OufMcp.Cursor.OwnerDocument
import OufMcp.Cursor.SourceScope
import OufMcp.HostFiles.Fetch
import OufMcp.HostFiles.Handoff
import OufMcp.HttpClient.TokenSource
import OufMcp.Ledger.Acknowledgement
import OufMcp.Ledger.Ceilings
import OufMcp.Ledger.Coherence
import OufMcp.Ledger.Compensation
import OufMcp.Ledger.Conservation
import OufMcp.Ledger.Idempotency
import OufMcp.Ledger.IngressRuns
import OufMcp.Ledger.LeaseRuns
import OufMcp.Ledger.Lifecycle
import OufMcp.Ledger.Mirror
import OufMcp.Ledger.Stall
import OufMcp.Operational.Priority
import OufMcp.Operational.UniqueJson
import OufMcp.Policy.Evaluation
import OufMcp.Policy.Rollback
