import ImapSession.Main
import ImapSession.Session.Request
import ImapSession.Proofs.Delivery
import ImapSession.Proofs.Announcing
import ImapSession.Proofs.Framing
import ImapSession.Proofs.Accounting
import ImapSession.Proofs.Outcomes
import ImapSession.Proofs.Stand
import ImapSession.Proofs.Attempt
import ImapSession.Proofs.Connecting
import ImapSession.Proofs.Reached
import ImapSession.Proofs.Script
import ImapSession.Proofs.Completion
import ImapSession.Proofs.Proving
import ImapSession.Proofs.Reporting
import ImapSession.Proofs.Losing
import ImapSession.Proofs.Locality
import ImapSession.Proofs.Secured
import ImapSession.Proofs.Decoding
import ImapSession.Proofs.Drafting
import ImapSession.Proofs.Lockstep
import ImapSession.Proofs.Acceptance
import ImapSession.Proofs.Disabling
import ImapSession.Proofs.Afresh
import ImapSession.Proofs.Rebinding
import ImapSession.Proofs.Isolation
import ImapSession.Proofs.Numbering
import ImapSession.Proofs.Redaction
import ImapSession.Proofs.Wording
import ImapSession.Proofs.Covering
import ImapSession.Proofs.Phrasing
import ImapSession.Proofs.Collecting
import ImapSession.Proofs.Mending
import ImapSession.Proofs.Retracing
import ImapSession.Proofs.Rejecting
import ImapSession.Proofs.Resuming
import ImapSession.Proofs.Counting
import ImapSession.Proofs.Advertising
import ImapSession.Proofs.Tabling
import ImapSession.Proofs.Tolerating
import ImapSession.Proofs.Agreeing
