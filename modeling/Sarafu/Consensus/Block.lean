import Sarafu.State.Ledger

namespace Sarafu
namespace Consensus

open Crypto State

/-!
# Blocks, quorum certificates and votes

A block is identified by the hash of its header alone.  Neither the
transactions nor the justifying certificate enter the hash, and a vote signs
the block hash only: its height and view travel outside the signed message.
-/

abbrev ValidatorID := Address

structure QuorumCertificate where
  blockHeight : UInt64
  blockHash : Blake3Hash
  viewNumber : UInt64
  aggregatedSignature : BLS12381Signature
  signers : List ValidatorID
  totalStakeSigned : UInt64
deriving DecidableEq

/-- The default constructor. -/
def QuorumCertificate.empty : QuorumCertificate :=
  ⟨0, Blake3Hash.zero, 0, FixedBytes.zero 96, [], 0⟩

structure BlockHeader where
  height : UInt64
  timestamp : UInt64
  previousHash : Blake3Hash
  stateRoot : Blake3Hash
  transactionsRoot : Blake3Hash
  validatorSetRoot : Blake3Hash
  proposer : ValidatorID
  epoch : UInt64
deriving DecidableEq

namespace BlockHeader

def serialize (header : BlockHeader) : List UInt8 :=
  littleEndian64 header.height ++ littleEndian64 header.timestamp ++ header.previousHash.serialize ++
    header.stateRoot.serialize ++ header.transactionsRoot.serialize ++ header.validatorSetRoot.serialize ++
    header.proposer.serialize ++ littleEndian64 header.epoch

def hash (prim : Primitives) (header : BlockHeader) : Blake3Hash := prim.blake3 header.serialize

end BlockHeader

structure Block where
  header : BlockHeader
  transactions : List Transaction
  justify : QuorumCertificate
deriving DecidableEq

/-- `Block::hash` is the header hash. -/
def Block.hash (prim : Primitives) (block : Block) : Blake3Hash := block.header.hash prim

structure Vote where
  validatorId : ValidatorID
  blockHeight : UInt64
  blockHash : Blake3Hash
  viewNumber : UInt64
  signature : BLS12381Signature
deriving DecidableEq

/-- A collection of headers on which Blake3 behaves as a collision-free hash
with no preimage of zero.  The hash has a fixed width, so this can only be asked
of the headers that occur in a run, never of all headers. -/
structure CollisionFree (prim : Primitives) (headers : Set BlockHeader) : Prop where
  injective : forall first, first ∈ headers -> forall second, second ∈ headers ->
    first.hash prim = second.hash prim -> first = second
  nonzero : forall header, header ∈ headers -> header.hash prim ≠ Blake3Hash.zero

/-- A finite list of headers is checked by computing its hashes. -/
theorem collisionFree_of_nodup {prim : Primitives} {headers : List BlockHeader}
    (distinct : (headers.map (BlockHeader.hash prim)).Nodup)
    (nonzero : Blake3Hash.zero ∉ headers.map (BlockHeader.hash prim)) :
    CollisionFree prim { header | header ∈ headers } where
  injective := by
    intro first firstListed second secondListed same
    exact List.inj_on_of_nodup_map distinct firstListed secondListed same
  nonzero := by
    intro header listed zero
    exact nonzero (zero ▸ List.mem_map_of_mem listed)

end Consensus
end Sarafu
