import IpfsCluster.Soundness.Alerts
import IpfsCluster.Soundness.Auth
import IpfsCluster.Soundness.Backups
import IpfsCluster.Soundness.BatchMigrator
import IpfsCluster.Soundness.Batching
import IpfsCluster.Soundness.Billing
import IpfsCluster.Soundness.Breakers
import IpfsCluster.Soundness.Composite
import IpfsCluster.Soundness.LBClient
import IpfsCluster.Soundness.ListPins
import IpfsCluster.Soundness.Migration
import IpfsCluster.Soundness.Monitor
import IpfsCluster.Soundness.Payments
import IpfsCluster.Soundness.PinTracker
import IpfsCluster.Soundness.Pins
import IpfsCluster.Soundness.Policies
import IpfsCluster.Soundness.Recover
import IpfsCluster.Soundness.Replace
import IpfsCluster.Soundness.Replication
import IpfsCluster.Soundness.SchemaMigrations
import IpfsCluster.Soundness.Scylla
import IpfsCluster.Soundness.ScyllaTransfer
import IpfsCluster.Soundness.ShardedAdd
import IpfsCluster.Soundness.StateBatching
import IpfsCluster.Soundness.StreamResponse
import IpfsCluster.Soundness.Tokens
