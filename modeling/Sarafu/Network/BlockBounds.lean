import Sarafu.Network.ReservingDecoders

namespace Sarafu
namespace Consensus

open Crypto State Library.Decoding

/-!
# The bounds of a block

The size of a transaction is a word of the input.  It is added to the offset before it is
compared with the size of the vector, and the sum may wrap around to a small number.  Apart
from that every index and every slice is inside.
-/

namespace Block

/-- The bytes of the transaction whose size stands at this place end behind `2^64`, and what is
left of the sum passes the check. -/
def WrapsAt (data : List UInt8) (place : Nat) : Prop :=
  place + 8 ≤ data.length ∧ 2 ^ 64 ≤ place + 8 + (wordAt data place).toNat ∧
    place + 8 + (wordAt data place).toNat ≤ 2 ^ 64 + data.length

/-- The size of some transaction wraps around, and those before it are the size of a
transaction. -/
def Overruns (data : List UInt8) : Prop :=
  ∃ index, index < (wordAt data 184).toNat ∧
    (forall earlier, earlier < index -> wordAt data (192 + 172 * earlier) = 164) ∧
      WrapsAt data (192 + 172 * index)

section Bounds

variable {data : List UInt8} (vector : data.length < 2 ^ 63)

include vector

/-- One iteration over the transactions reads inside unless the size wraps around. -/
theorem safe_readTransaction_iff {start : Nat} (inside : start ≤ data.length) :
    Safe readTransaction data start <-> ¬ WrapsAt data start := by
  have sum : sizeSum start 8 = start + 8 := sizeSum_of_lt (by omega)
  have word := (wordAt data start).toNat_lt
  rw [readTransaction, Safe.require_bind_iff, sum, Safe.field_bind_iff (readLittle64_eq vector start),
    Safe.require_bind_iff, Safe.slice_bind_iff word (by omega), Safe.lift_iff,
    and_iff_left (Transaction.deserialize_ne_outside _)]
  unfold WrapsAt sizeSum
  constructor
  · rintro holds ⟨enough, wraps, passes⟩
    have last := (holds enough).2 (by omega)
    omega
  · intro unwrapped enough
    refine ⟨enough, fun passes => ?_⟩
    by_contra cut
    exact unwrapped ⟨enough, by omega, by omega⟩

/-- One iteration accepts a size of 164 bytes and these bytes. -/
theorem strides_readTransaction : Strides readTransaction data 172 fun start =>
    start + 172 ≤ data.length ∧ wordAt data start = 164 := by
  intro start stop
  constructor
  · rintro ⟨tx, ends⟩
    -- the size is read at the start, so the start is inside
    have inside : start ≤ data.length := by
      rcases Reaches.bind_iff.mp ⟨tx, ends⟩ with ⟨_, middle, checked, sized⟩
      unfold Decoder.require at checked
      split at checked
      · cases checked
      · cases checked
        rcases Reaches.bind_iff.mp sized with ⟨_, _, read, _⟩
        rw [readLittle64_eq vector] at read
        split at read
        · omega
        · cases read
    rcases takes_readTransaction data start tx stop inside ends with ⟨_, ⟨split, place, most⟩, rfl⟩
    rw [writeTransaction, List.length_append, length_littleEndian64, Transaction.length_serialize] at place
    have size : wordAt data start = 164 := by
      have word := wordAt_append [] (UInt64.ofNat tx.serialize.length) (tx.serialize ++ data.drop stop)
      rw [Transaction.length_serialize, List.nil_append, ← List.append_assoc] at word
      rw [writeTransaction, Transaction.length_serialize] at split
      rw [← Nat.add_zero start, ← wordAt_drop, split]
      exact word
    exact ⟨⟨by omega, size⟩, place⟩
  · rintro ⟨⟨enough, size⟩, rfl⟩
    have first : sizeSum start 8 = start + 8 := sizeSum_of_lt (by omega)
    have second : sizeSum (start + 8) 164 = start + 8 + 164 := sizeSum_of_lt (by omega)
    have sized : ((data.drop (start + 8)).take 164).length = 164 := by
      rw [List.length_take, List.length_drop]
      omega
    have field := readLittle64_eq vector start
    rw [size] at field
    refine Reaches.check rfl (by omega) ?_
    refine Reaches.field field (by omega) ?_
    refine Reaches.check rfl (by change ¬ data.length < sizeSum (start + 8) 164; omega) ?_
    refine Reaches.field (slice_eq (by decide) (by omega) (start + 8)) (by change start + 8 + 164 ≤ _; omega) ?_
    exact Reaches.lift ((Transaction.exists_deserialize_iff _).mpr sized)

/-- Behind the header and the count every iteration that is reached has to stay inside. -/
theorem safe_reservingDecoder_iff (canReserve : ReservedVector -> Nat -> Bool) (long : 192 ≤ data.length) :
    Safe (reservingDecoder canReserve) data 0 <-> (canReserve .transactions (wordAt data 184).toNat = true ->
      forall index, index < (wordAt data 184).toNat ->
        (forall earlier, earlier < index ->
          192 + 172 * earlier + 172 ≤ data.length ∧ wordAt data (192 + 172 * earlier) = 164) ->
        Safe readTransaction data (192 + 172 * index)) := by
  have headerSized : ((data.drop 0).take 184).length = 184 := by
    rw [List.drop_zero, List.length_take]
    omega
  have short : ((data.drop 0).take 184).length < 2 ^ 63 := by
    rw [headerSized]
    decide
  rcases (BlockHeader.exists_deserialize_iff short).mpr headerSized.ge with ⟨header, headerEnds⟩
  have strides := strides_many (strides_readTransaction vector) (wordAt data 184).toNat
  -- behind the transactions the rest is inside if its start is
  have tail : forall transactions : List Transaction,
      Safe (Decoder.rest >>= fun qcBytes =>
          Decoder.lift (QuorumCertificate.deserializeReserving canReserve qcBytes) >>= fun justify =>
            Pure.pure (Block.mk header transactions justify)) data (192 + 172 * (wordAt data 184).toNat) <->
        192 + 172 * (wordAt data 184).toNat ≤ data.length := by
    intro transactions
    have bytes : (data.drop (192 + 172 * (wordAt data 184).toNat)).length < 2 ^ 63 := by
      rw [List.length_drop]
      omega
    rw [Safe.field_bind_iff rfl, Safe.last_iff, Safe.lift_iff]
    exact and_iff_left (QuorumCertificate.deserializeReserving_ne_outside bytes)
  rw [reservingDecoder, Safe.slice_bind_iff (by decide) (by omega), headerEnds, Safe.lift_bind_iff]
  simp only [ne_eq, reduceCtorEq, not_false_eq_true, true_and, Outcome.value.injEq, forall_eq']
  rw [Safe.requireEach_bind_iff, Safe.field_bind_iff (readLittle64_eq vector (0 + 184)), Safe.reserve_bind_iff,
    Safe.bind_iff_of_strides strides tail, safe_many_iff (strides_readTransaction vector)]
  have ends : (forall index, index < (wordAt data 184).toNat ->
      192 + 172 * index + 172 ≤ data.length ∧ wordAt data (192 + 172 * index) = 164) ->
        192 + 172 * (wordAt data 184).toNat ≤ data.length := by
    intro accepted
    rcases Nat.eq_zero_or_pos (wordAt data 184).toNat with none | positive
    · omega
    · have last := (accepted ((wordAt data 184).toNat - 1) (by omega)).1
      omega
  rw [and_iff_left ends, Nat.zero_add, and_iff_right (by omega), and_iff_right long]
  exact forall_prop_of_true long

/-- A block is read inside of its bounds if and only if no size wraps around, or the space for
the transactions cannot be reserved. -/
theorem deserializeReserving_ne_outside_iff (canReserve : ReservedVector -> Nat -> Bool) :
    deserializeReserving canReserve data ≠ .outside <->
      ¬ (canReserve .transactions (wordAt data 184).toNat = true ∧ Overruns data) := by
  unfold deserializeReserving
  by_cases long : 192 ≤ data.length
  · rw [if_neg (Nat.not_lt.mpr long), run_ne_outside_iff, safe_reservingDecoder_iff vector canReserve long, not_and]
    refine imp_congr_right fun _ => ?_
    unfold Overruns
    constructor
    · rintro each ⟨index, small, sizes, wraps⟩
      have enough := wraps.1
      have safe := each index small fun earlier before => ⟨by omega, sizes earlier before⟩
      exact (safe_readTransaction_iff vector (by omega)).mp safe wraps
    · intro none index small earlierAccepts
      have inside : 192 + 172 * index ≤ data.length := by
        rcases Nat.eq_zero_or_pos index with rfl | positive
        · omega
        · have last := (earlierAccepts (index - 1) (by omega)).1
          omega
      apply (safe_readTransaction_iff vector inside).mpr
      intro wraps
      exact none ⟨index, small, fun earlier before => (earlierAccepts earlier before).2, wraps⟩
  · rw [if_pos (Nat.not_le.mp long)]
    refine iff_of_true nofun ?_
    rintro ⟨_, index, _, _, enough, _⟩
    omega

end Bounds

/-- A header, a count of one and a size whose sum with the offset is `2^64`. -/
def wrappingBlock : List UInt8 :=
  encodedBlock.header.serialize ++ littleEndian64 1 ++ littleEndian64 (UInt64.ofNat (2 ^ 64 - 200))

theorem deserializeReserving_ne_outside_iff_encodedBlock : ¬ Overruns encodedBlock.serialize := by
  intro overruns
  have inside : deserializeReserving (fun _ _ => true) encodedBlock.serialize ≠ .outside := by
    rw [deserializeReserving_eq, encodedBlock.deserialize_serialize (by decide +kernel)]
    nofun
  exact (deserializeReserving_ne_outside_iff (by decide +kernel) fun _ _ => true).mp inside ⟨rfl, overruns⟩

/-- The check of the size passes and the slice ends before it starts. -/
theorem wrapping_size_passes :
    wrappingBlock.length = 200 ∧ deserializeReserving (fun _ _ => true) wrappingBlock = .outside ∧
      deserialize wrappingBlock = .outside := by
  refine ⟨?_, ?_, ?_⟩
  · decide +kernel
  · decide +kernel
  · decide +kernel

end Block
end Consensus
end Sarafu
