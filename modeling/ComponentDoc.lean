import ComponentDoc.Main
import ComponentDoc.Schema.Enforce
import ComponentDoc.Proofs.Place
import ComponentDoc.Proofs.Linting
import ComponentDoc.Proofs.Extraction
import ComponentDoc.Proofs.Flattening
import ComponentDoc.Proofs.Addressing
import ComponentDoc.Proofs.Outcome
import ComponentDoc.Proofs.Documented
import ComponentDoc.Proofs.KeyRewriting
import ComponentDoc.Proofs.Redaction
import ComponentDoc.Proofs.Noninterference
import ComponentDoc.Proofs.Retention
import ComponentDoc.Proofs.Revalidation
import ComponentDoc.Proofs.TwoTiers
import ComponentDoc.Proofs.Reduction
import ComponentDoc.Proofs.TierFlags
import ComponentDoc.Proofs.PlainLayout
import ComponentDoc.Proofs.Reordering
import ComponentDoc.Proofs.Undocumented
import ComponentDoc.Proofs.ExitCodes
import ComponentDoc.Proofs.TierMembership
import ComponentDoc.Proofs.StrayEntries
import ComponentDoc.Proofs.DeprecatedParents
import ComponentDoc.Proofs.Mappings
import ComponentDoc.Proofs.Reading
import ComponentDoc.Proofs.ComponentForm
import ComponentDoc.Proofs.ComponentReading
import ComponentDoc.Proofs.Containment
import ComponentDoc.Proofs.EntryChange
import ComponentDoc.Proofs.Idempotence
import ComponentDoc.Proofs.Obstruction
import ComponentDoc.Proofs.Pruning
import ComponentDoc.Proofs.Listing
import ComponentDoc.Proofs.Labels
import ComponentDoc.Proofs.Acceptance
import ComponentDoc.Proofs.Findings
import ComponentDoc.Proofs.Untagging
import ComponentDoc.Proofs.RewrittenAccess
import ComponentDoc.Proofs.Substitution
import ComponentDoc.Proofs.Requalification
import ComponentDoc.Proofs.DottedLookup
