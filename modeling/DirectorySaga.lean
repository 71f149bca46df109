import DirectorySaga.Configuration.Reader
import DirectorySaga.Directory.CallText
import DirectorySaga.Saga.Script
import DirectorySaga.Transaction.Basic
import DirectorySaga.Proofs.Name.Subtree
import DirectorySaga.Proofs.Directory.Entries
import DirectorySaga.Proofs.Directory.Moves
import DirectorySaga.Proofs.Directory.Closed
import DirectorySaga.Proofs.Attributes.Compensation
import DirectorySaga.Proofs.Transaction.Run
import DirectorySaga.Proofs.Transaction.Rollback
import DirectorySaga.Proofs.Directory.Parked
import DirectorySaga.Proofs.Transaction.Commit
import DirectorySaga.Proofs.Transaction.Places
import DirectorySaga.Proofs.Transaction.Numbering
import DirectorySaga.Proofs.Saga.Calls
import DirectorySaga.Proofs.Saga.LifeCycle
import DirectorySaga.Proofs.Saga.AuditTrail
import DirectorySaga.Proofs.Transaction.Locality
import DirectorySaga.Proofs.Transaction.Interleaving
import DirectorySaga.Proofs.Transaction.DedicatedSubtree
import DirectorySaga.Proofs.Name.Grammar
import DirectorySaga.Proofs.Text.Lowering
import DirectorySaga.Proofs.Name.Spelling
import DirectorySaga.Proofs.Name.Printing
import DirectorySaga.Proofs.Directory.Chronicle
import DirectorySaga.Proofs.Transaction.Traffic
import DirectorySaga.Proofs.Attributes.Independence
import DirectorySaga.Proofs.Directory.Renaming
import DirectorySaga.Proofs.Transaction.Journal
import DirectorySaga.Proofs.Transaction.Ending
import DirectorySaga.Proofs.Attributes.Singly
import DirectorySaga.Proofs.Attributes.Interchange
import DirectorySaga.Proofs.Transaction.Coincidence
import DirectorySaga.Proofs.Transaction.Attempts
import DirectorySaga.Proofs.Name.Rebasing
import DirectorySaga.Proofs.Directory.Children
import DirectorySaga.Proofs.Name.Distinction
import DirectorySaga.Proofs.Attributes.Order
