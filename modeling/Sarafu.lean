import Sarafu.Consensus.ActivePlaces
import Sarafu.Consensus.AggregatorHistory
import Sarafu.Consensus.Agreement
import Sarafu.Consensus.Block
import Sarafu.Consensus.BlockBytes
import Sarafu.Consensus.BlockCodec
import Sarafu.Consensus.BlockStore
import Sarafu.Consensus.BlockValidator
import Sarafu.Consensus.CachedStake
import Sarafu.Consensus.CertificateSoundness
import Sarafu.Consensus.ChainExtension
import Sarafu.Consensus.CheckpointAggregation
import Sarafu.Consensus.CheckpointHistory
import Sarafu.Consensus.CheckpointManager
import Sarafu.Consensus.CheckpointSoundness
import Sarafu.Consensus.ConsensusEngine
import Sarafu.Consensus.Doubles
import Sarafu.Consensus.EngineCalls
import Sarafu.Consensus.EpochSelection
import Sarafu.Consensus.EpochTransitionQC
import Sarafu.Consensus.Equivocation
import Sarafu.Consensus.Finality
import Sarafu.Consensus.FinalityLinks
import Sarafu.Consensus.FinalizedProofs
import Sarafu.Consensus.ForgedVotes
import Sarafu.Consensus.GenesisAgreement
import Sarafu.Consensus.GenesisBuilder
import Sarafu.Consensus.GenesisCaps
import Sarafu.Consensus.GenesisSet
import Sarafu.Consensus.GenesisSupply
import Sarafu.Consensus.HeightBinding
import Sarafu.Consensus.HeightIndex
import Sarafu.Consensus.HonestBlocks
import Sarafu.Consensus.LeaderRotation
import Sarafu.Consensus.LightClient
import Sarafu.Consensus.LightClientCodec
import Sarafu.Consensus.LightClientSoundness
import Sarafu.Consensus.Proposals
import Sarafu.Consensus.QCVerifier
import Sarafu.Consensus.RegistryRecords
import Sarafu.Consensus.RegistryWrites
import Sarafu.Consensus.RepeatedDowntime
import Sarafu.Consensus.RewardShares
import Sarafu.Consensus.SetCommitment
import Sarafu.Consensus.SetDrift
import Sarafu.Consensus.SignatureHistory
import Sarafu.Consensus.SigningRate
import Sarafu.Consensus.SlashingDetector
import Sarafu.Consensus.SlashingSupply
import Sarafu.Consensus.StakeFlow
import Sarafu.Consensus.StakeQuorum
import Sarafu.Consensus.StakeTotals
import Sarafu.Consensus.StateRoots
import Sarafu.Consensus.SyncGaps
import Sarafu.Consensus.SyncManager
import Sarafu.Consensus.Thresholds
import Sarafu.Consensus.Tombstones
import Sarafu.Consensus.TransactionsRoot
import Sarafu.Consensus.UnbondingStake
import Sarafu.Consensus.Validator
import Sarafu.Consensus.ValidatorCodec
import Sarafu.Consensus.ValidatorRegistry
import Sarafu.Consensus.Vesting
import Sarafu.Consensus.VoteAggregator
import Sarafu.Consensus.VoteConflicts
import Sarafu.Consensus.VoteRecords
import Sarafu.Crypto.Bytes
import Sarafu.Crypto.CanonicalFields
import Sarafu.Crypto.Encoding
import Sarafu.Crypto.FieldOffsets
import Sarafu.Crypto.HexText
import Sarafu.Crypto.MerkleBinding
import Sarafu.Crypto.MerkleCopies
import Sarafu.Crypto.MerkleLengths
import Sarafu.Crypto.MerkleProofCodec
import Sarafu.Crypto.MerkleProofs
import Sarafu.Crypto.MerkleTree
import Sarafu.Crypto.Primitives
import Sarafu.Crypto.Transparent
import Sarafu.Library.Amortized
import Sarafu.Library.BatchedTransfer
import Sarafu.Library.BudgetedWalk
import Sarafu.Library.CappedLogs
import Sarafu.Library.Decoding
import Sarafu.Library.DueQueue
import Sarafu.Library.FramedStreams
import Sarafu.Library.GeometricRuns
import Sarafu.Library.GreedyEviction
import Sarafu.Library.HashLinks
import Sarafu.Library.Histories
import Sarafu.Library.KeyedMaps
import Sarafu.Library.LastWrites
import Sarafu.Library.NamedSlots
import Sarafu.Library.NearestShares
import Sarafu.Library.PairTree
import Sarafu.Library.PairWalks
import Sarafu.Library.ProportionalShares
import Sarafu.Library.RankedPlaces
import Sarafu.Library.ReachedOffsets
import Sarafu.Library.ReadBounds
import Sarafu.Library.RelativeErrors
import Sarafu.Library.Repairs
import Sarafu.Library.RepeatedEnds
import Sarafu.Library.RoundRobin
import Sarafu.Library.RunSums
import Sarafu.Library.Runs
import Sarafu.Library.SinceCalls
import Sarafu.Library.SlidingWindow
import Sarafu.Library.SortedInsertion
import Sarafu.Library.SpacedActs
import Sarafu.Library.SweptMemory
import Sarafu.Library.TakenSymbols
import Sarafu.Library.TextSearch
import Sarafu.Library.WeightedQuorum
import Sarafu.Library.WordCounters
import Sarafu.Library.WordSums
import Sarafu.Network.BlockBounds
import Sarafu.Network.BoundedDecoders
import Sarafu.Network.Connections
import Sarafu.Network.ConsensusLoop
import Sarafu.Network.Gossip
import Sarafu.Network.GossipNetwork
import Sarafu.Network.GossipReach
import Sarafu.Network.GossipStorm
import Sarafu.Network.LightClientBounds
import Sarafu.Network.LoopPacing
import Sarafu.Network.MessageBytes
import Sarafu.Network.MessageHandler
import Sarafu.Network.NetworkMessage
import Sarafu.Network.PeerAddresses
import Sarafu.Network.PeerConduct
import Sarafu.Network.PeerStreams
import Sarafu.Network.PeerTable
import Sarafu.Network.RepeatedHandling
import Sarafu.Network.ReservingDecoders
import Sarafu.Network.VoteMessages
import Sarafu.Rpc.AuthManager
import Sarafu.Rpc.RateLimiter
import Sarafu.Rpc.ResetTime
import Sarafu.Rpc.RpcMiddleware
import Sarafu.Rpc.WebSocketServer
import Sarafu.State.AccountLeaves
import Sarafu.State.BaseFee
import Sarafu.State.BlockSelection
import Sarafu.State.Conservation
import Sarafu.State.FeeArithmetic
import Sarafu.State.FeeMarket
import Sarafu.State.FeeRuns
import Sarafu.State.Governance
import Sarafu.State.GovernanceHistory
import Sarafu.State.GovernanceThresholds
import Sarafu.State.IdleBlocks
import Sarafu.State.Issuance
import Sarafu.State.Ledger
import Sarafu.State.LedgerBytes
import Sarafu.State.LedgerCodec
import Sarafu.State.LedgerRuns
import Sarafu.State.Mempool
import Sarafu.State.MempoolHistory
import Sarafu.State.MempoolIndexes
import Sarafu.State.MonetaryPolicyEngine
import Sarafu.State.Nonces
import Sarafu.State.ProposalLifeCycle
import Sarafu.State.Receipts
import Sarafu.State.Replay
import Sarafu.State.Reverts
import Sarafu.State.Spending
import Sarafu.State.StateBinding
import Sarafu.State.StateMachine
import Sarafu.State.Timelock
import Sarafu.Storage.Database
import Sarafu.Storage.HashIndex
import Sarafu.Storage.Pruning
import Sarafu.Storage.SavedState
import Sarafu.Storage.StatePersistence
import Sarafu.Storage.StateStorage
import Sarafu.Storage.StoredMaps
import Sarafu.Storage.TransactionReceipt
