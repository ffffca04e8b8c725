import NearSigner.Proofs.Transaction.Names
import NearSigner.Session.Exchange
import NearSigner.Transaction.Encoding
import NearSigner.Proofs.Transaction.Parts
import NearSigner.Proofs.Transaction.Exact
import NearSigner.Proofs.Path
import NearSigner.Proofs.Bytes.Texts
import NearSigner.Proofs.Review.Approval
import NearSigner.Proofs.Review.Values
import NearSigner.Proofs.Review.Effects
import NearSigner.Proofs.Review.Walk
import NearSigner.Proofs.Session.History
import NearSigner.Proofs.Session.Steps
import NearSigner.Proofs.Session.Coherence
import NearSigner.Proofs.Session.Fragments
import NearSigner.Proofs.Session.Signing
import NearSigner.Proofs.Session.Dialogue
import NearSigner.Proofs.Session.Isolation
import NearSigner.Proofs.Session.Exclusion
import NearSigner.Proofs.Session.Agreement
import NearSigner.Proofs.Frame.Commands
import NearSigner.Proofs.Session.Replies
import NearSigner.Proofs.Session.Namespace
import NearSigner.Proofs.Faults.Operations
import NearSigner.Proofs.Faults.Reading
import NearSigner.Proofs.Faults.Decoding
import NearSigner.Proofs.Faults.Rendering
import NearSigner.Proofs.Faults.Commands
import NearSigner.Proofs.Session.Length
import NearSigner.Proofs.Faults.Session
import NearSigner.Proofs.Session.Endings
import NearSigner.Proofs.Session.Secrecy
import NearSigner.Proofs.Transaction.Extension
import NearSigner.Proofs.Review.Restrictions
import NearSigner.Proofs.Review.Labels
import NearSigner.Proofs.Session.Assembly
import NearSigner.Proofs.Session.HashRequests
import NearSigner.Proofs.Session.KeyRequests
import NearSigner.Proofs.Session.VersionRequests
import NearSigner.Proofs.Frame.WireForm
import NearSigner.Proofs.Borsh.Reads
import NearSigner.Proofs.Frame.Payload
import NearSigner.Proofs.Review.Entries
