import Delorean.Lib.OrdMap
import Delorean.Lib.Reach
import Delorean.Lib.Except
import Delorean.Lib.Writes
import Delorean.Lib.Bls
import Delorean.Lib.Balances
import Delorean.Topdown.Cache
import Delorean.Topdown.Finality
import Delorean.Topdown.Voting
import Delorean.Topdown.Tally
import Delorean.Topdown.Syncer
import Delorean.Cetf.Actor
import Delorean.Cetf.VoteExtension
import Delorean.Chain.Interpreter
import Delorean.Cetf.Aggregation
import Delorean.Subnet.Checkpointing
import Delorean.Lib.BigEndian
import Delorean.Eth.Conv
import Delorean.Eth.Signed
import Delorean.Eth.Filters
import Delorean.Chain.Proposal
import Delorean.App.Proposal
import Delorean.Gateway.Envelope
import Delorean.Gateway.Ledger
import Delorean.Gateway.Hierarchy
import Delorean.Gateway.Batching
import Delorean.Staking.Releases
import Delorean.Gateway.Quorum
import Delorean.Gateway.Checkpoints
import Delorean.Staking.PQ
import Delorean.Staking.ValidatorSet
import Delorean.Staking.ChangeLog
import Delorean.Staking.SubnetActor
import Delorean.Staking.Runs
import Delorean.Fvm.Checkpoint
import Delorean.Chain.Resolution
import Delorean.Lib.CommonPrefix
import Delorean.Api.SubnetId
import Delorean.Gateway.Routing
import Delorean.Lib.AssocList
import Delorean.Resolver.ProviderCache
import Delorean.Resolver.Reference
import Delorean.Gateway.TopDownFinality
import Delorean.Fvm.TopDown
import Delorean.Fvm.EndBlock
