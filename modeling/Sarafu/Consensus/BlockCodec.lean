import Sarafu.Consensus.Block
import Sarafu.State.LedgerCodec

namespace Sarafu
namespace Consensus

open Crypto State Library.Decoding

/-!
# The codecs of certificates, headers and blocks

The list of signers carries a count, the list of transactions a count and a size for each
transaction, and the certificate of a block takes the bytes that remain.  `reserve` only
allocates and is left out.  The encodings are vectors, so their sizes are below `2^64`.
-/

namespace QuorumCertificate

def serialize (qc : QuorumCertificate) : List UInt8 :=
  littleEndian64 qc.blockHeight ++ qc.blockHash.serialize ++ littleEndian64 qc.viewNumber ++
    qc.aggregatedSignature.serialize ++ littleEndian64 (UInt64.ofNat qc.signers.length) ++
    qc.signers.flatMap FixedBytes.serialize ++ littleEndian64 qc.totalStakeSigned

/-- One iteration over the signers. -/
def readSigner : ByteDecoder ValidatorID := do
  Decoder.require 32 "QuorumCertificate data truncated"
  readAddress

def decoder : ByteDecoder QuorumCertificate := do
  let height <- readLittle64
  let hash <- readBlake3Hash
  let view <- readLittle64
  let signature <- readBLS12381Signature
  let signersCount <- readLittle64
  let signers <- Decoder.many readSigner signersCount.toNat
  Decoder.requireEach 8 "QuorumCertificate data truncated"
  let stake <- readLittle64
  return ⟨height, hash, view, signature, signers, stake⟩

/-- Bytes behind the stake are not looked at. -/
def deserialize (data : List UInt8) : Outcome String QuorumCertificate :=
  if data.length < 160 then .throws "QuorumCertificate data too short" else decoder.run data

end QuorumCertificate

namespace BlockHeader

def decoder : ByteDecoder BlockHeader := do
  let height <- readLittle64
  let timestamp <- readLittle64
  let previousHash <- readBlake3Hash
  let stateRoot <- readBlake3Hash
  let transactionsRoot <- readBlake3Hash
  let validatorSetRoot <- readBlake3Hash
  let proposer <- readAddress
  let epoch <- readLittle64
  return ⟨height, timestamp, previousHash, stateRoot, transactionsRoot, validatorSetRoot, proposer, epoch⟩

def deserialize (data : List UInt8) : Outcome String BlockHeader :=
  if data.length < 184 then .throws "BlockHeader data too short" else decoder.run data

end BlockHeader

namespace Block

/-- A transaction behind its size. -/
def writeTransaction (tx : Transaction) : List UInt8 :=
  littleEndian64 (UInt64.ofNat tx.serialize.length) ++ tx.serialize

def serialize (block : Block) : List UInt8 :=
  block.header.serialize ++ littleEndian64 (UInt64.ofNat block.transactions.length) ++
    block.transactions.flatMap writeTransaction ++ block.justify.serialize

/-- One iteration over the transactions. -/
def readTransaction : ByteDecoder Transaction := do
  Decoder.require 8 "Block data truncated"
  let txSize <- readLittle64
  Decoder.require txSize.toNat "Block data truncated"
  let txBytes <- Decoder.slice txSize.toNat
  Decoder.lift (Transaction.deserialize txBytes)

def decoder : ByteDecoder Block := do
  let headerBytes <- Decoder.slice 184
  let header <- Decoder.lift (BlockHeader.deserialize headerBytes)
  Decoder.requireEach 8 "Block data truncated"
  let txCount <- readLittle64
  let transactions <- Decoder.many readTransaction txCount.toNat
  let qcBytes <- Decoder.rest
  let justify <- Decoder.lift (QuorumCertificate.deserialize qcBytes)
  return ⟨header, transactions, justify⟩

def deserialize (data : List UInt8) : Outcome String Block :=
  if data.length < 192 then .throws "Block data too short" else decoder.run data

end Block

/-! ## Round trips -/

theorem toNat_ofNat_length {Item : Type} {items : List Item} (short : items.length < 2 ^ 64) :
    (UInt64.ofNat items.length).toNat = items.length := UInt64.toNat_ofNat_of_lt short

theorem toNat_ofNat32_length {Item : Type} {items : List Item} (short : items.length < 2 ^ 32) :
    (UInt32.ofNat items.length).toNat = items.length := UInt32.toNat_ofNat_of_lt short

/-- Counted items of one byte or more are not more than the bytes. -/
theorem length_le_length_flatMap {Item : Type} (write : Item -> List UInt8) (items : List Item)
    (nonempty : forall item, 1 ≤ (write item).length) : items.length ≤ (items.flatMap write).length := by
  induction items with
  | nil => exact Nat.le_refl 0
  | cons item others inductionHypothesis =>
      rw [List.flatMap_cons, List.length_append, List.length_cons, Nat.add_comm]
      exact Nat.add_le_add (nonempty item) inductionHypothesis

namespace BlockHeader

theorem length_serialize (header : BlockHeader) : header.serialize.length = 184 := by
  simp only [serialize, List.length_append, Crypto.length_serialize, length_littleEndian64]

theorem consumes_decoder (header : BlockHeader) (after : List UInt8) :
    Consumes decoder header.serialize after header := by
  simp only [serialize, List.append_assoc]
  refine (consumes_readLittle64 _ header.height).bind ?_
  refine (consumes_readLittle64 _ header.timestamp).bind ?_
  refine (consumes_readFixed _ _ header.previousHash).bind ?_
  refine (consumes_readFixed _ _ header.stateRoot).bind ?_
  refine (consumes_readFixed _ _ header.transactionsRoot).bind ?_
  refine (consumes_readFixed _ _ header.validatorSetRoot).bind ?_
  refine (consumes_readFixed _ _ header.proposer).bind ?_
  exact (consumes_readLittle64 _ header.epoch).last

theorem deserialize_serialize (header : BlockHeader) : deserialize header.serialize = .value header := by
  unfold deserialize
  rw [length_serialize, if_neg (Nat.lt_irrefl 184)]
  exact (header.consumes_decoder []).run_eq (by rw [length_serialize]; decide)

end BlockHeader

namespace QuorumCertificate

theorem consumes_readSigner (signer : ValidatorID) (after : List UInt8) :
    Consumes readSigner signer.serialize after signer := consumes_checkedFixed after _ _ signer

theorem length_serialize (qc : QuorumCertificate) :
    qc.serialize.length = 160 + (qc.signers.flatMap FixedBytes.serialize).length := by
  simp only [serialize, List.length_append, Crypto.length_serialize, length_littleEndian64]
  omega

theorem length_signers_le (qc : QuorumCertificate) : qc.signers.length ≤ qc.serialize.length := by
  rw [length_serialize]
  refine Nat.le_trans (length_le_length_flatMap FixedBytes.serialize qc.signers fun signer => ?_) (Nat.le_add_left _ _)
  rw [Crypto.length_serialize]
  decide

theorem consumes_decoder (qc : QuorumCertificate) (short : qc.serialize.length < 2 ^ 64) (after : List UInt8) :
    Consumes decoder qc.serialize after qc := by
  have counted := toNat_ofNat_length (Nat.lt_of_le_of_lt qc.length_signers_le short)
  simp only [serialize, List.append_assoc]
  refine (consumes_readLittle64 _ qc.blockHeight).bind ?_
  refine (consumes_readFixed _ _ qc.blockHash).bind ?_
  refine (consumes_readLittle64 _ qc.viewNumber).bind ?_
  refine (consumes_readFixed _ _ qc.aggregatedSignature).bind ?_
  refine (consumes_readLittle64 _ (UInt64.ofNat qc.signers.length)).bind ?_
  rw [counted]
  refine (Consumes.many (fun signer _ => consumes_readSigner signer) _).bind ?_
  have enough : 8 ≤ (littleEndian64 qc.totalStakeSigned ++ after).length := Nat.le_add_left 8 after.length
  exact (Consumes.requireEach enough _).between (consumes_readLittle64 _ qc.totalStakeSigned).last

theorem deserialize_serialize (qc : QuorumCertificate) (short : qc.serialize.length < 2 ^ 64) :
    deserialize qc.serialize = .value qc := by
  have long : ¬qc.serialize.length < 160 := by
    rw [length_serialize]
    exact Nat.not_lt.mpr (Nat.le_add_right 160 _)
  unfold deserialize
  rw [if_neg long]
  exact (qc.consumes_decoder short []).run_eq short

end QuorumCertificate

namespace Block

theorem consumes_readTransaction (tx : Transaction) (after : List UInt8) :
    Consumes readTransaction (writeTransaction tx) after tx := by
  have size : (UInt64.ofNat tx.serialize.length).toNat = tx.serialize.length := by
    rw [Transaction.length_serialize]
    rfl
  have enough : forall bytes : List UInt8, 8 ≤ (writeTransaction tx ++ bytes).length := fun bytes => by
    rw [writeTransaction, List.length_append, List.length_append, length_littleEndian64]
    omega
  refine (Consumes.require (enough after) _).between ?_
  refine (consumes_readLittle64 _ (UInt64.ofNat tx.serialize.length)).bind ?_
  rw [size]
  have inside : tx.serialize.length ≤ (tx.serialize ++ after).length := by
    rw [List.length_append]
    exact Nat.le_add_right _ _
  exact (Consumes.require inside _).between ((Consumes.slice rfl after).parsed tx.deserialize_serialize)

theorem length_serialize (block : Block) : block.serialize.length =
    192 + (block.transactions.flatMap writeTransaction).length + block.justify.serialize.length := by
  simp only [serialize, List.length_append, BlockHeader.length_serialize, length_littleEndian64]

theorem length_transactions_le (block : Block) : block.transactions.length ≤ block.serialize.length := by
  have counted := length_le_length_flatMap writeTransaction block.transactions fun tx => by
    rw [writeTransaction, List.length_append, length_littleEndian64]
    omega
  rw [length_serialize]
  omega

theorem consumes_decoder (block : Block) (short : block.serialize.length < 2 ^ 64) :
    Consumes decoder block.serialize [] block := by
  have counted := toNat_ofNat_length (Nat.lt_of_le_of_lt block.length_transactions_le short)
  have shortJustify : block.justify.serialize.length < 2 ^ 64 := by
    rw [length_serialize] at short
    omega
  simp only [serialize, List.append_assoc]
  refine (Consumes.slice block.header.length_serialize _).bind ?_
  refine (Consumes.lift block.header.deserialize_serialize _).between ?_
  refine (Consumes.requireEach (Nat.le_add_left 8 _) _).between ?_
  refine (consumes_readLittle64 _ (UInt64.ofNat block.transactions.length)).bind ?_
  rw [counted]
  refine (Consumes.many (fun tx _ => consumes_readTransaction tx) _).bind ?_
  rw [← List.append_nil block.justify.serialize]
  refine (Consumes.rest block.justify.serialize).bind ?_
  exact (Consumes.lift (block.justify.deserialize_serialize shortJustify) []).last

theorem deserialize_serialize (block : Block) (short : block.serialize.length < 2 ^ 64) :
    deserialize block.serialize = .value block := by
  have long : ¬block.serialize.length < 192 := by
    rw [length_serialize]
    omega
  unfold deserialize
  rw [if_neg long]
  exact (block.consumes_decoder short).run_eq short

end Block

/-- The round trips of blocks, certificates, headers and transactions.  A block and a
certificate have an encoding if its size is below `2^64`; the other two have a fixed size. -/
theorem blockCodecs_roundTrip :
    (forall block : Block, block.serialize.length < 2 ^ 64 -> Block.deserialize block.serialize = .value block) ∧
      (forall qc : QuorumCertificate, qc.serialize.length < 2 ^ 64 ->
        QuorumCertificate.deserialize qc.serialize = .value qc) ∧
      (forall header : BlockHeader, BlockHeader.deserialize header.serialize = .value header) ∧
      forall tx : Transaction, Transaction.deserialize tx.serialize = .value tx :=
  ⟨Block.deserialize_serialize, QuorumCertificate.deserialize_serialize, BlockHeader.deserialize_serialize,
    Transaction.deserialize_serialize⟩

/-- A block with two transactions, justified by two signers. -/
def encodedBlock : Block :=
  let sender := FixedBytes.ofNat 32 1
  let transfer : UInt64 -> Transaction := fun nonce =>
    ⟨sender, FixedBytes.ofNat 32 2, 10, nonce, 1, 21000, 1, FixedBytes.ofNat 64 3⟩
  ⟨⟨7, 1000, FixedBytes.ofNat 32 4, FixedBytes.ofNat 32 5, FixedBytes.ofNat 32 6, FixedBytes.ofNat 32 7, sender, 0⟩,
    [transfer 0, transfer 1],
    ⟨6, FixedBytes.ofNat 32 4, 0, FixedBytes.ofNat 96 8, [sender, FixedBytes.ofNat 32 2], 300⟩⟩

theorem blockCodecs_roundTrip_encodedBlock :
    Block.deserialize encodedBlock.serialize = .value encodedBlock ∧ encodedBlock.serialize.length = 760 :=
  ⟨blockCodecs_roundTrip.1 encodedBlock (by decide +kernel), by decide +kernel⟩

end Consensus
end Sarafu
