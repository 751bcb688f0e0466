import ScopedStore.Describe
import ScopedStore.Proofs.Client.Batches
import ScopedStore.Proofs.Client.FailedIndex
import ScopedStore.Proofs.Client.FindAndModify
import ScopedStore.Proofs.Client.Identifier
import ScopedStore.Proofs.Client.IdleSession
import ScopedStore.Proofs.Client.Isolation
import ScopedStore.Proofs.Client.Paging
import ScopedStore.Proofs.Client.Reading
import ScopedStore.Proofs.Client.Removal
import ScopedStore.Proofs.Conjunction
import ScopedStore.Proofs.Fixture
import ScopedStore.Proofs.Projection
import ScopedStore.Proofs.Scope.AllOrNothing
import ScopedStore.Proofs.Scope.Deadline
import ScopedStore.Proofs.Scope.Discipline
import ScopedStore.Proofs.Scope.Dispatch
import ScopedStore.Proofs.Scope.FirstOutcome
import ScopedStore.Proofs.Scope.Visibility
import ScopedStore.Proofs.Store.Changes
import ScopedStore.Proofs.Stress.Runs
import ScopedStore.Proofs.TotalOrder
