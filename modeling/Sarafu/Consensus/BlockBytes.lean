import Sarafu.Consensus.BlockCodec
import Sarafu.Crypto.FieldOffsets
import Sarafu.State.LedgerBytes

namespace Sarafu
namespace Consensus

open Crypto State Library.Decoding

/-!
# Blocks from arbitrary bytes

A block is decoded field by field, and each field takes exactly its encoding.  The
certificate gets all the bytes that are left and does not look at those behind its stake.  An
accepted string is therefore the encoding of its block with some bytes behind, and the counts
in the string announce where the encoding ends.
-/

namespace QuorumCertificate

theorem takes_readSigner : Takes readSigner fun signer taken => taken = signer.serialize :=
  (Takes.require 32 _).after takes_readAddress

theorem takes_decoder :
    Takes decoder fun qc taken => taken = qc.serialize ∧ qc.signers.length < 2 ^ 64 := by
  refine takes_readLittle64.bind ?_
  rintro height _ rfl
  refine takes_readBlake3Hash.bind ?_
  rintro hash _ rfl
  refine takes_readLittle64.bind ?_
  rintro view _ rfl
  refine (takes_readFixed 96 _ (by decide)).bind ?_
  rintro signature _ rfl
  refine takes_readLittle64.bind ?_
  rintro signersCount _ rfl
  refine (Takes.many takes_readSigner signersCount.toNat).bind ?_
  rintro signers _ ⟨rfl, counted⟩
  refine (Takes.requireEach 8 _).after (takes_readLittle64.last ?_)
  rintro stake _ rfl
  simp only [serialize, List.append_assoc]
  rw [counted, UInt64.ofNat_toNat]
  exact ⟨rfl, signersCount.toNat_lt⟩

/-- An accepted string starts with the encoding of the certificate. -/
theorem append_of_deserialize {data : List UInt8} {qc : QuorumCertificate} (ends : deserialize data = .value qc) :
    ∃ after, data = qc.serialize ++ after ∧ qc.signers.length < 2 ^ 64 := by
  unfold deserialize at ends
  split at ends
  · cases ends
  · rcases takes_decoder.run_eq ends with ⟨_, after, split, rfl, few⟩
    exact ⟨after, split, few⟩

/-- The count of the signers stands at a fixed place. -/
theorem wordAt_serialize (qc : QuorumCertificate) (after : List UInt8) :
    wordAt (qc.serialize ++ after) 144 = UInt64.ofNat qc.signers.length := by
  have word := wordAt_append
    (littleEndian64 qc.blockHeight ++ (qc.blockHash.serialize ++ (littleEndian64 qc.viewNumber ++
      qc.aggregatedSignature.serialize))) (UInt64.ofNat qc.signers.length)
    (qc.signers.flatMap FixedBytes.serialize ++ (littleEndian64 qc.totalStakeSigned ++ after))
  simp only [List.length_append, Crypto.length_serialize, length_littleEndian64] at word
  rw [← word]
  simp only [serialize, List.append_assoc]

theorem strides_readSigner {data : List UInt8} (vector : data.length < 2 ^ 63) :
    Strides readSigner data 32 fun start => start + 32 ≤ data.length := by
  refine strides_require (strides_readFixed vector (by decide) _) _ fun start inside => ?_
  rw [sizeSum_of_lt (by omega)]
  exact inside

/-- A certificate is decoded from a string if and only if its signers fit into it. -/
theorem exists_deserialize_iff {data : List UInt8} (vector : data.length < 2 ^ 63) :
    (∃ qc, deserialize data = .value qc) <-> 160 + 32 * (wordAt data 144).toNat ≤ data.length := by
  constructor
  · rintro ⟨qc, ends⟩
    rcases append_of_deserialize ends with ⟨after, rfl, few⟩
    rw [wordAt_serialize, toNat_ofNat_length few, List.length_append, length_serialize, length_flatMap_serialize]
    exact Nat.le_add_right _ _
  · intro enough
    have long : ¬ data.length < 160 := by omega
    unfold deserialize
    rw [if_neg long]
    apply exists_run_eq_value_iff.mpr
    refine ⟨152 + 32 * (wordAt data 144).toNat + 8, ?_⟩
    refine (reaches_readLittle64 vector (by omega)).bind fun height => ?_
    refine (reaches_readFixed vector (by decide) _ (by omega)).bind fun hash => ?_
    refine (reaches_readLittle64 vector (by omega)).bind fun view => ?_
    refine (reaches_readFixed vector (by decide) _ (by omega)).bind fun signature => ?_
    refine Reaches.field (readLittle64_eq vector 144) (by omega) ?_
    have signers := (strides_many (strides_readSigner vector) (wordAt data 144).toNat 152 _).mpr
      ⟨fun index small => by omega, rfl⟩
    refine signers.bind fun signers => ?_
    refine Reaches.check rfl (by omega) ?_
    exact (reaches_readLittle64 vector (by omega)).last

end QuorumCertificate

namespace BlockHeader

theorem takes_decoder : Takes decoder fun header taken => taken = header.serialize := by
  refine takes_readLittle64.bind ?_
  rintro height _ rfl
  refine takes_readLittle64.bind ?_
  rintro timestamp _ rfl
  refine takes_readBlake3Hash.bind ?_
  rintro previousHash _ rfl
  refine takes_readBlake3Hash.bind ?_
  rintro stateRoot _ rfl
  refine takes_readBlake3Hash.bind ?_
  rintro transactionsRoot _ rfl
  refine takes_readBlake3Hash.bind ?_
  rintro validatorSetRoot _ rfl
  refine takes_readAddress.bind ?_
  rintro proposer _ rfl
  refine takes_readLittle64.last ?_
  rintro epoch _ rfl
  simp only [serialize, List.append_assoc]

theorem serialize_of_deserialize {data : List UInt8} {header : BlockHeader} (sized : data.length = 184)
    (ends : deserialize data = .value header) : header.serialize = data := by
  unfold deserialize at ends
  split at ends
  · cases ends
  · exact takes_decoder.whole length_serialize sized ends

/-- A header is decoded from every string that is long enough. -/
theorem exists_deserialize_iff {data : List UInt8} (vector : data.length < 2 ^ 63) :
    (∃ header, deserialize data = .value header) <-> 184 ≤ data.length := by
  unfold deserialize
  split
  · rename_i short
    exact iff_of_false (fun ⟨_, impossible⟩ => nomatch impossible) (Nat.not_le.mpr short)
  · rename_i long
    refine iff_of_true (exists_run_eq_value_iff.mpr ⟨184, ?_⟩) (Nat.not_lt.mp long)
    refine (reaches_readLittle64 vector (by omega)).bind fun height => ?_
    refine (reaches_readLittle64 vector (by omega)).bind fun timestamp => ?_
    refine (reaches_readFixed vector (by decide) _ (by omega)).bind fun previousHash => ?_
    refine (reaches_readFixed vector (by decide) _ (by omega)).bind fun stateRoot => ?_
    refine (reaches_readFixed vector (by decide) _ (by omega)).bind fun transactionsRoot => ?_
    refine (reaches_readFixed vector (by decide) _ (by omega)).bind fun validatorSetRoot => ?_
    refine (reaches_readFixed vector (by decide) _ (by omega)).bind fun proposer => ?_
    exact (reaches_readLittle64 vector (by omega)).last

theorem deserialize_ne_outside {data : List UInt8} (vector : data.length < 2 ^ 63) : deserialize data ≠ .outside := by
  intro outside
  have none : ¬ ∃ header, deserialize data = .value header := by
    rw [outside]
    exact fun ⟨_, impossible⟩ => nomatch impossible
  rw [exists_deserialize_iff vector, Nat.not_le] at none
  rw [deserialize, if_pos none] at outside
  cases outside

end BlockHeader

namespace Block

theorem takes_readTransaction : Takes readTransaction fun tx taken => taken = writeTransaction tx := by
  refine (Takes.require 8 _).after (takes_readLittle64.bind ?_)
  rintro txSize _ rfl
  refine (Takes.require txSize.toNat _).after ((Takes.slice txSize.toNat_lt).bind ?_)
  rintro _ txBytes ⟨rfl, sized⟩
  refine (Takes.lift (Transaction.deserialize txBytes)).weaken ?_
  rintro tx _ ⟨rfl, ends⟩
  have encoded := Transaction.serialize_of_deserialize ends
  rw [writeTransaction, encoded, sized, UInt64.ofNat_toNat, List.append_nil]

/-- What the decoder takes: the encoding of the block, and bytes behind it. -/
def Trailed (block : Block) (taken : List UInt8) : Prop :=
  ∃ after, taken = block.serialize ++ after ∧ block.transactions.length < 2 ^ 64 ∧ block.justify.signers.length < 2 ^ 64

theorem takes_decoder : Takes decoder Trailed := by
  refine (Takes.slice (by decide)).bind ?_
  rintro _ headerBytes ⟨rfl, sized⟩
  refine (Takes.lift (BlockHeader.deserialize headerBytes)).bind ?_
  rintro header _ ⟨rfl, headerEnds⟩
  refine (Takes.requireEach 8 _).after (takes_readLittle64.bind ?_)
  rintro txCount _ rfl
  refine (Takes.many takes_readTransaction txCount.toNat).bind ?_
  rintro transactions _ ⟨rfl, counted⟩
  refine Takes.rest.bind ?_
  rintro _ qcBytes rfl
  refine (Takes.lift (QuorumCertificate.deserialize qcBytes)).last ?_
  rintro justify _ ⟨rfl, ends⟩
  rcases QuorumCertificate.append_of_deserialize ends with ⟨after, split, few⟩
  have encodedHeader := BlockHeader.serialize_of_deserialize sized headerEnds
  refine ⟨after, ?_, counted ▸ txCount.toNat_lt, few⟩
  simp only [serialize, List.append_assoc, List.nil_append, List.append_nil]
  rw [encodedHeader, split, counted, UInt64.ofNat_toNat]

/-- An accepted string starts with the encoding of the block. -/
theorem append_of_deserialize {data : List UInt8} {block : Block} (ends : deserialize data = .value block) :
    Trailed block data := by
  unfold deserialize at ends
  split at ends
  · cases ends
  · rcases takes_decoder.run_eq ends with ⟨_, more, rfl, after, rfl, few⟩
    exact ⟨after ++ more, List.append_assoc _ _ _, few⟩

/-- Where the encoding ends, from the two counts in the string. -/
def announcedLength (data : List UInt8) : Nat :=
  let certificate := 192 + 172 * (wordAt data 184).toNat
  certificate + 160 + 32 * (wordAt data (certificate + 144)).toNat

theorem length_transactions (transactions : List Transaction) :
    (transactions.flatMap writeTransaction).length = 172 * transactions.length := by
  refine length_flatMap_of_size transactions fun tx => ?_
  rw [writeTransaction, List.length_append, length_littleEndian64, Transaction.length_serialize]

theorem announcedLength_eq {block : Block} {data : List UInt8} (trailed : Trailed block data) :
    announcedLength data = block.serialize.length := by
  rcases trailed with ⟨after, rfl, fewTransactions, fewSigners⟩
  have size := block.length_serialize
  rw [length_transactions, QuorumCertificate.length_serialize, length_flatMap_serialize] at size
  have parts : block.serialize ++ after = block.header.serialize ++
      (littleEndian64 (UInt64.ofNat block.transactions.length) ++
        (block.transactions.flatMap writeTransaction ++ (block.justify.serialize ++ after))) := by
    simp only [serialize, List.append_assoc]
  have txCount : wordAt (block.serialize ++ after) 184 = UInt64.ofNat block.transactions.length := by
    rw [parts, ← block.header.length_serialize]
    exact wordAt_append _ _ _
  have front : (block.header.serialize ++ littleEndian64 (UInt64.ofNat block.transactions.length) ++
      block.transactions.flatMap writeTransaction).length = 192 + 172 * block.transactions.length := by
    rw [List.length_append, List.length_append, BlockHeader.length_serialize, length_littleEndian64,
      length_transactions]
  have certificate : (block.serialize ++ after).drop (192 + 172 * block.transactions.length) =
      block.justify.serialize ++ after := by
    rw [serialize, List.append_assoc, ← front, List.drop_left]
  unfold announcedLength
  dsimp only
  rw [txCount, toNat_ofNat_length fewTransactions, ← wordAt_drop, certificate, block.justify.wordAt_serialize,
    toNat_ofNat_length fewSigners, size]
  omega

/-- An accepted string is the encoding of its block if and only if it ends where its counts
announce it. -/
theorem serialize_eq_iff {data : List UInt8} {block : Block} (ends : deserialize data = .value block) :
    block.serialize = data <-> data.length = announcedLength data := by
  have trailed := append_of_deserialize ends
  rw [announcedLength_eq trailed]
  rcases trailed with ⟨after, rfl, _⟩
  rw [List.length_append, Nat.add_eq_left, List.length_eq_zero_iff, List.self_eq_append_right]

/-- An accepted string is the encoding of its block if and only if it ends where its counts
announce it, and no other string that does so is accepted as the same block. -/
theorem serialize_of_deserialize_iff (data : List UInt8) (block : Block) (ends : deserialize data = .value block) :
    (block.serialize = data <-> data.length = announcedLength data) ∧
      forall other : List UInt8, deserialize other = .value block -> data.length = announcedLength data ->
        other.length = announcedLength other -> data = other := by
  refine ⟨serialize_eq_iff ends, ?_⟩
  intro other otherEnds sized otherSized
  rw [← (serialize_eq_iff ends).mpr sized, (serialize_eq_iff otherEnds).mpr otherSized]

theorem serialize_of_deserialize_iff_encodedBlock :
    encodedBlock.serialize.length = announcedLength encodedBlock.serialize :=
  (serialize_of_deserialize_iff encodedBlock.serialize encodedBlock
    (encodedBlock.deserialize_serialize (by decide +kernel))).1.mp rfl

/-- A byte behind the certificate is accepted and lost: two strings decode to one block. -/
theorem trailing_byte_accepted :
    deserialize (encodedBlock.serialize ++ [0]) = .value encodedBlock ∧
      deserialize encodedBlock.serialize = .value encodedBlock ∧
      encodedBlock.serialize ≠ encodedBlock.serialize ++ [0] := by
  refine ⟨?_, ?_, ?_⟩
  · decide +kernel
  · decide +kernel
  · decide +kernel

end Block
end Consensus
end Sarafu
