import DynRunner.ClusterState.Register
import DynRunner.Consensus.Ending
import DynRunner.Consensus.Failover
import DynRunner.Consensus.Retention
import DynRunner.Election.Agreement
import DynRunner.Election.Votes
import DynRunner.Inbox.Watermark
import DynRunner.Ledger.Prerequisite
import DynRunner.Membership.Capability
import DynRunner.Membership.Convergence
import DynRunner.Pool.Barrier
import DynRunner.Pool.Ingest
import DynRunner.Pool.Readiness
import DynRunner.Pool.Reservation
import DynRunner.Pool.Stranded
import DynRunner.Primary.AccountingRuns
import DynRunner.Primary.FinishedImports
import DynRunner.Primary.Respawn
import DynRunner.Primary.SpawnPublication
import DynRunner.Secondary.Reports
import DynRunner.Secondary.Slots
import DynRunner.Stream.AntiEntropy
import DynRunner.Tally.Bound
