import Cuckoo.BitString.Lemmas
import Cuckoo.Pool
import Cuckoo.Proofs.BitString.Overwrite
import Cuckoo.Proofs.Table.Cells
import Cuckoo.Proofs.Table.Contents
import Cuckoo.Proofs.Fingerprint
import Cuckoo.Proofs.Nest.Chain
import Cuckoo.Proofs.Nest.Storing
import Cuckoo.Proofs.Nest.Rollback
import Cuckoo.Proofs.Nest.Classes
import Cuckoo.Proofs.Nest.Counting
import Cuckoo.Proofs.Draw.Uniform
import Cuckoo.Proofs.Placement.Lawful
import Cuckoo.Proofs.Placement.Paired
import Cuckoo.Proofs.Nest.Union
import Cuckoo.Proofs.Bytes.Field
import Cuckoo.Proofs.Filter.Backing
import Cuckoo.Proofs.Filter.Reload
import Cuckoo.Proofs.Pool.Sound
import Cuckoo.Proofs.Pool.Ledger
import Cuckoo.Proofs.Pool.Merging
import Cuckoo.Proofs.Table.Edits
import Cuckoo.Proofs.Table.Alike
import Cuckoo.Proofs.Table.Tally
import Cuckoo.Proofs.Nest.Alike
import Cuckoo.Proofs.Filter.Equality
import Cuckoo.Proofs.Pool.Equality
import Cuckoo.Proofs.Filter.Canonical
import Cuckoo.Proofs.Filter.Readback
import Cuckoo.Proofs.Pool.Restore
import Cuckoo.Proofs.Filter.Layout
import Cuckoo.Proofs.Filter.Malformed
import Cuckoo.Proofs.Nest.Recorded
import Cuckoo.Proofs.Nest.Script
import Cuckoo.Proofs.Pool.Tally
import Cuckoo.Proofs.BitString.Bounded
import Cuckoo.Proofs.Draw.Bounded
import Cuckoo.Proofs.Placement.Bounded
import Cuckoo.Proofs.Nest.Guarded
import Cuckoo.Proofs.Hash.Bounded
import Cuckoo.Proofs.Filter.Guarded
import Cuckoo.Proofs.Pool.Guarded
import Cuckoo.Hash.Buffer
import Cuckoo.Proofs.Hash.Chunks
import Cuckoo.Proofs.Nest.Budget
import Cuckoo.Proofs.Nest.Deleting
import Cuckoo.Proofs.Pool.Deleting
import Cuckoo.Proofs.Nest.Inserting
import Cuckoo.Proofs.BitString.InPlace
import Cuckoo.Proofs.Table.Equality
import Cuckoo.Proofs.Nest.Draws
import Cuckoo.Proofs.Nest.Accounts
import Cuckoo.Proofs.Placement.Rounding
import Cuckoo.Proofs.Plan
import Cuckoo.Proofs.Placement.Home
import Cuckoo.Proofs.Placement.Sum
import Cuckoo.Proofs.Fingerprint.Scan
import Cuckoo.Proofs.Nest.Room
import Cuckoo.Proofs.Bytes.Cursor
