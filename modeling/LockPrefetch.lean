import LockPrefetch.Bytes.Base64.RoundTrip
import LockPrefetch.Encoding.Utf8.RoundTrip
import LockPrefetch.Main
import LockPrefetch.Proofs.Cache.Acceptance
import LockPrefetch.Proofs.Cache.Addressing
import LockPrefetch.Proofs.Cache.Damage
import LockPrefetch.Proofs.Cache.Frame
import LockPrefetch.Proofs.Cache.Reporting
import LockPrefetch.Proofs.Integrity.Selection
import LockPrefetch.Proofs.Lockfile.Flattening
import LockPrefetch.Proofs.Lockfile.Grammar
import LockPrefetch.Proofs.Lockfile.Parsing
import LockPrefetch.Proofs.Lockfile.Preparing
import LockPrefetch.Proofs.Lockfile.WrittenOut
import LockPrefetch.Proofs.Logs
import LockPrefetch.Proofs.Plan.Partition
import LockPrefetch.Proofs.Plan.Pinning
import LockPrefetch.Proofs.Reports
import LockPrefetch.Proofs.Run.Reproducing
import LockPrefetch.Proofs.Run.Staging
import LockPrefetch.Proofs.Url.Canonical
import LockPrefetch.Proofs.Url.Collisions
import LockPrefetch.Proofs.Url.Servers
import LockPrefetch.Proofs.Url.Services
