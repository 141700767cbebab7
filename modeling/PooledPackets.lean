import PooledPackets.Main
import PooledPackets.Session
import PooledPackets.Document.Json
import PooledPackets.Proofs.Sessions.Journal
import PooledPackets.Proofs.Sessions.Checks
import PooledPackets.Proofs.Fragments.RoundTrip
import PooledPackets.Proofs.Sessions.Failures
import PooledPackets.Proofs.Sessions.Interleaving
import PooledPackets.Proofs.Contents.Runs
import PooledPackets.Proofs.Ownership.Containment
import PooledPackets.Proofs.Sessions.Deadlines
import PooledPackets.Proofs.Load.Iterations
import PooledPackets.Proofs.Reassembly.Scanning
import PooledPackets.Proofs.Fragments.Policy
import PooledPackets.Proofs.Counters.Runs
import PooledPackets.Proofs.Faults.Sessions
import PooledPackets.Proofs.Requests.Pieces
import PooledPackets.Proofs.Requests.Grants
import PooledPackets.Proofs.Reassembly.Splicing
import PooledPackets.Proofs.Packets.Readers
import PooledPackets.Proofs.Reassembly.Overlaps
import PooledPackets.Proofs.Requests.Deliveries
import PooledPackets.Proofs.Zones.Isolation
import PooledPackets.Proofs.Fragments.Frames
import PooledPackets.Proofs.Configs.Verdicts
import PooledPackets.Proofs.Configs.Sizes
