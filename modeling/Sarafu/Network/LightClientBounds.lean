import Sarafu.Network.ReservingDecoders

namespace Sarafu
namespace Consensus

open Crypto State Library.Decoding

/-!
# The bounds of header proofs and genesis allocations

Both decoders check the least size of their input once.  The sizes and counts that they read
after that are not compared with what is left.  The conditions below follow the fields in the
order in which they are read: each of them has to be inside, unless an exception before it
ends the decoder.
-/

/-! ## Allocations -/

theorem VestingSchedule.stays_decoder {data : List UInt8} (vector : data.length < 2 ^ 63) :
    Stays VestingSchedule.decoder data 32 0 := by
  refine (stays_readLittle64 24 vector).bind fun totalAmount => ?_
  refine (stays_readLittle64 16 vector).bind fun vestedAmount => ?_
  refine (stays_readLittle64 8 vector).bind fun startTimestamp => ?_
  exact (stays_readLittle64 0 vector).last

theorem VestingSchedule.deserialize_ne_outside {data : List UInt8} (vector : data.length < 2 ^ 63) :
    VestingSchedule.deserialize data ≠ .outside := checked_ne_outside (VestingSchedule.stays_decoder vector) _

namespace GenesisAllocation

/-- The flag is looked at only if it is there. -/
theorem safe_readVesting {data : List UInt8} (vector : data.length < 2 ^ 63) (offset : Nat) :
    Safe readVesting data offset := by
  have flag : Safe readVesting data offset <-> Safe (if data[offset]? = some 1 then do
      let _ <- readByte
      let vestingData <- Decoder.rest
      let schedule <- Decoder.lift (VestingSchedule.deserialize vestingData)
      return some schedule
    else return none) data offset := Iff.rfl
  rw [flag]
  by_cases vesting : data[offset]? = some 1
  · have there : offset < data.length := (List.getElem?_eq_some_iff.mp vesting).1
    have rest : (data.drop (offset + 1)).length < 2 ^ 63 := by
      rw [List.length_drop]
      omega
    rw [if_pos vesting, Safe.field_bind_iff (readByte_eq vector offset), Safe.field_bind_iff rfl, Safe.last_iff,
      Safe.lift_iff]
    exact ⟨there, there, VestingSchedule.deserialize_ne_outside rest⟩
  · rw [if_neg vesting]
    exact Safe.pure none

/-- An allocation is read inside if and only if its category is. -/
theorem deserialize_ne_outside_iff {data : List UInt8} (vector : data.length < 2 ^ 63) :
    deserialize data ≠ .outside <-> (45 ≤ data.length -> 44 + (shortAt data 40).toNat ≤ data.length) := by
  unfold deserialize
  by_cases long : 45 ≤ data.length
  · have small : (shortAt data 40).toNat < 2 ^ 64 := Nat.lt_trans (shortAt data 40).toNat_lt (by decide)
    have tail : forall address : FixedBytes 32, Safe (readLittle64 >>= fun amount =>
        readLittle32 >>= fun categoryLength => Decoder.slice categoryLength.toNat >>= fun category =>
          readVesting >>= fun vestingSchedule =>
            Pure.pure (GenesisAllocation.mk address amount category vestingSchedule)) data (0 + 32) <->
        44 + (shortAt data 40).toNat ≤ data.length := by
      intro address
      rw [Safe.field_bind_iff (readLittle64_eq vector (0 + 32)),
        Safe.field_bind_iff (readLittle32_eq vector (0 + 32 + 8)), Safe.slice_bind_iff small (by omega), Safe.last_iff]
      constructor
      · intro holds
        exact holds.2.2.1
      · intro category
        exact ⟨by omega, by omega, category, safe_readVesting vector _⟩
    have addresses : Strides readAddress data 32 fun start => start + 32 ≤ data.length :=
      strides_readFixed vector (by decide) _
    have address : Safe readAddress data 0 <-> 0 + 32 ≤ data.length := safe_readFixed_iff vector (by decide) _
    rw [if_neg (Nat.not_lt.mpr long), run_ne_outside_iff, decoder, Safe.bind_iff_of_strides addresses tail, address]
    constructor
    · intro holds _
      exact holds.2 (by omega)
    · intro category
      exact ⟨by omega, fun _ => category long⟩
  · rw [if_pos (Nat.not_le.mp long)]
    exact iff_of_true nofun fun impossible => absurd impossible long

end GenesisAllocation

/-! ## Validators -/

theorem ValidatorStatus.exists_ofByte_iff (byte : UInt8) : (∃ status, ofByte byte = .value status) <-> byte < 4 := by
  unfold ofByte
  split
  · exact iff_of_true ⟨_, rfl⟩ (by decide)
  · exact iff_of_true ⟨_, rfl⟩ (by decide)
  · exact iff_of_true ⟨_, rfl⟩ (by decide)
  · exact iff_of_true ⟨_, rfl⟩ (by decide)
  · rename_i notActive notStandby notJailed notTombstoned
    refine iff_of_false (fun ⟨_, impossible⟩ => nomatch impossible) ?_
    simp only [← UInt8.toNat_inj, UInt8.lt_iff_toNat_lt] at *
    change ¬ byte.toNat < 4
    change byte.toNat ≠ 0 at notActive
    change byte.toNat ≠ 1 at notStandby
    change byte.toNat ≠ 2 at notJailed
    change byte.toNat ≠ 3 at notTombstoned
    omega

namespace Validator

/-- A validator is decoded from 153 bytes whose status is one of the four. -/
theorem exists_deserialize_iff {data : List UInt8} (sized : data.length = 153) :
    (∃ validator, deserialize data = .value validator) <-> data.getD 120 0 < 4 := by
  have vector : data.length < 2 ^ 63 := by
    rw [sized]
    decide
  have idField : Reaches readAddress data 0 (0 + 32) := reaches_readFixed vector (by decide) _ (by omega)
  have keyField : Reaches readBLS12381PublicKey data (0 + 32) (0 + 32 + 48) :=
    reaches_readFixed vector (by decide) _ (by omega)
  have withdrawalField : Reaches readEd25519PublicKey data (0 + 32 + 48) (0 + 32 + 48 + 32) :=
    reaches_readFixed vector (by decide) _ (by omega)
  have stakeField := readLittle64_eq vector (0 + 32 + 48 + 32)
  have statusField := readByte_eq vector (0 + 32 + 48 + 32 + 8)
  rw [if_pos (by omega)] at stakeField statusField
  rcases idField with ⟨id, idField⟩
  rcases keyField with ⟨consensusKey, keyField⟩
  rcases withdrawalField with ⟨withdrawalKey, withdrawalField⟩
  have place : 0 + 32 + 48 + 32 + 8 = 120 := rfl
  rw [← ValidatorStatus.exists_ofByte_iff, deserialize, if_neg (by omega), exists_run_eq_value_iff]
  unfold Reaches decoder
  rw [bind_of_value idField, bind_of_value keyField, bind_of_value withdrawalField, bind_of_value stakeField,
    bind_of_value statusField, place]
  cases ValidatorStatus.ofByte (data.getD 120 0) with
  | value status =>
      refine iff_of_true ⟨0 + 32 + 48 + 32 + 8 + 1 + 8 + 8 + 8 + 8, ?_⟩ ⟨status, rfl⟩
      refine (Reaches.lift ⟨status, rfl⟩).bind fun status => ?_
      refine (reaches_readLittle64 vector (by omega)).bind fun jailedUntilEpoch => ?_
      refine (reaches_readLittle64 vector (by omega)).bind fun consecutiveDowntimeEpochs => ?_
      refine (reaches_readLittle64 vector (by omega)).bind fun blocksSignedThisEpoch => ?_
      exact (reaches_readLittle64 vector (by omega)).last
  | throws error =>
      exact iff_of_false (fun ⟨_, _, impossible⟩ => nomatch impossible) fun ⟨_, impossible⟩ => nomatch impossible
  | outside =>
      exact iff_of_false (fun ⟨_, _, impossible⟩ => nomatch impossible) fun ⟨_, impossible⟩ => nomatch impossible

end Validator

namespace HeaderProof

/-! ## The places of the fields -/

def headerSize (data : List UInt8) : Nat := (shortAt data 0).toNat

/-- Where the size of the certificate stands. -/
def certificatePlace (data : List UInt8) : Nat := 4 + headerSize data

def certificateSize (data : List UInt8) : Nat := (shortAt data (certificatePlace data)).toNat

def signersCount (data : List UInt8) : Nat := (wordAt data (certificatePlace data + 4 + 144)).toNat

/-- Where the count of the hashes stands. -/
def hashesPlace (data : List UInt8) : Nat := certificatePlace data + 4 + certificateSize data

def hashCount (data : List UInt8) : Nat := (shortAt data (hashesPlace data)).toNat

/-- Where the count of the validators stands. -/
def validatorsPlace (data : List UInt8) : Nat := hashesPlace data + 4 + 32 * hashCount data

def validatorCount (data : List UInt8) : Nat := (shortAt data (validatorsPlace data)).toNat

def validatorPlace (data : List UInt8) (index : Nat) : Nat := validatorsPlace data + 4 + 153 * index

/-- The status byte of a validator is one of the four. -/
def StatusAt (data : List UInt8) (place : Nat) : Prop := data.getD (place + 120) 0 < 4

variable (canReserve : ReservedVector -> Nat -> Bool) (data : List UInt8)

/-- The validators that are reached are inside, and the stake is if all of them have a status. -/
def ValidatorsInside : Prop :=
  canReserve .validators (validatorCount data) = true ->
    (forall index, index < validatorCount data ->
      (forall earlier, earlier < index -> StatusAt data (validatorPlace data earlier)) ->
        validatorPlace data index + 153 ≤ data.length) ∧
    ((forall index, index < validatorCount data -> StatusAt data (validatorPlace data index)) ->
      validatorPlace data (validatorCount data) + 8 ≤ data.length)

/-- The hashes and the count behind them are inside. -/
def HashesInside : Prop :=
  canReserve .hashes (hashCount data) = true ->
    validatorsPlace data + 4 ≤ data.length ∧ ValidatorsInside canReserve data

/-- The certificate is decoded. -/
def CertificateFits : Prop :=
  160 + 32 * signersCount data ≤ certificateSize data ∧ canReserve .signers (signersCount data) = true

/-- The certificate is inside, and the count behind it if the certificate is decoded. -/
def CertificateInside : Prop :=
  hashesPlace data ≤ data.length ∧
    (CertificateFits canReserve data -> hashesPlace data + 4 ≤ data.length ∧ HashesInside canReserve data)

/-- Every field that is reached is inside. -/
def ReadInside : Prop :=
  certificatePlace data ≤ data.length ∧ (184 ≤ headerSize data -> CertificateInside canReserve data)

/-! ## Stage by stage, from the last field -/

section Stages

variable {canReserve : ReservedVector -> Nat -> Bool} {data : List UInt8} (vector : data.length < 2 ^ 63)

include vector

theorem safe_readValidator_iff (start : Nat) : Safe readValidator data start <-> start + 153 ≤ data.length := by
  have bytes : ((data.drop start).take 153).length < 2 ^ 63 := by
    rw [List.length_take, List.length_drop]
    omega
  rw [readValidator, Safe.slice_bind_iff (by decide) (by omega), Safe.lift_iff]
  exact and_iff_left (Validator.deserialize_ne_outside bytes)

theorem strides_readValidator : Strides readValidator data 153 fun start =>
    start + 153 ≤ data.length ∧ StatusAt data start := by
  intro start stop
  have decoded : start + 153 ≤ data.length -> ((∃ validator,
      Validator.deserialize ((data.drop start).take 153) = .value validator) <-> StatusAt data start) := by
    intro inside
    have sized : ((data.drop start).take 153).length = 153 := by
      rw [List.length_take, List.length_drop]
      omega
    have status : ((data.drop start).take 153).getD 120 0 = data.getD (start + 120) 0 := by
      rw [List.getD_eq_getElem?_getD, List.getD_eq_getElem?_getD, List.getElem?_take_of_lt (by decide),
        List.getElem?_drop]
    rw [Validator.exists_deserialize_iff sized, status, StatusAt]
  rw [readValidator, Reaches.bind_iff]
  constructor
  · rintro ⟨bytes, middle, ends, validator, last⟩
    rw [slice_eq (by decide) (by omega)] at ends
    split at ends
    · rename_i inside
      cases ends
      unfold Decoder.lift at last
      cases parsed : Validator.deserialize ((data.drop start).take 153) with
      | value result =>
          rw [parsed] at last
          cases last
          exact ⟨⟨inside, (decoded inside).mp ⟨validator, parsed⟩⟩, rfl⟩
      | throws error =>
          rw [parsed] at last
          cases last
      | outside =>
          rw [parsed] at last
          cases last
    · cases ends
  · rintro ⟨⟨inside, status⟩, rfl⟩
    refine ⟨_, _, (slice_eq (by decide) (by omega) start).trans (if_pos inside), ?_⟩
    exact Reaches.lift ((decoded inside).mpr status)

/-- The loop over the validators and the stake behind it. -/
theorem safe_validators_iff {Result : Type} (build : List Validator -> UInt64 -> Result) :
    Safe (reserve canReserve .validators (validatorCount data) >>= fun _ =>
        Decoder.many readValidator (validatorCount data) >>= fun signingValidators =>
          readLittle64 >>= fun totalValidatorSetStake => Pure.pure (build signingValidators totalValidatorSetStake))
      data (validatorsPlace data + 4) <-> ValidatorsInside canReserve data := by
  have tail : forall signingValidators : List Validator, Safe (readLittle64 >>= fun totalValidatorSetStake =>
      Pure.pure (build signingValidators totalValidatorSetStake)) data
        (validatorsPlace data + 4 + 153 * validatorCount data) <->
      validatorPlace data (validatorCount data) + 8 ≤ data.length := by
    intro signingValidators
    rw [Safe.last_iff, Safe.field_iff (readLittle64_eq vector _)]
    rfl
  rw [Safe.reserve_bind_iff, Safe.bind_iff_of_strides (strides_many (strides_readValidator vector) _) tail,
    safe_many_iff (strides_readValidator vector)]
  simp only [safe_readValidator_iff vector]
  rw [forall_inside_iff]
  refine imp_congr_right fun _ => and_congr_right fun reached => ⟨fun holds status => ?_, fun holds both => ?_⟩
  · apply holds
    intro index small
    exact ⟨reached index small fun earlier before => status earlier (by omega), status index small⟩
  · exact holds fun index small => (both index small).2

/-- The loop over the hashes and the count of the validators behind it. -/
theorem safe_hashes_iff {Result : Type} (build : List Blake3Hash -> List Validator -> UInt64 -> Result)
    (inside : hashesPlace data + 4 ≤ data.length) :
    Safe (reserve canReserve .hashes (hashCount data) >>= fun _ =>
        Decoder.many readBlake3Hash (hashCount data) >>= fun hashes => readLittle32 >>= fun validatorCount =>
          reserve canReserve .validators validatorCount.toNat >>= fun _ =>
            Decoder.many readValidator validatorCount.toNat >>= fun signingValidators =>
              readLittle64 >>= fun totalValidatorSetStake =>
                Pure.pure (build hashes signingValidators totalValidatorSetStake))
      data (hashesPlace data + 4) <-> HashesInside canReserve data := by
  have hashes : Strides readBlake3Hash data 32 fun start => start + 32 ≤ data.length :=
    strides_readFixed vector (by decide) Blake3Hash.mismatch
  have safe : forall start, Safe readBlake3Hash data start <-> start + 32 ≤ data.length := fun start =>
    safe_readFixed_iff vector (by decide) Blake3Hash.mismatch
  have tail : forall hashes : List Blake3Hash, Safe (readLittle32 >>= fun validatorCount =>
      reserve canReserve .validators validatorCount.toNat >>= fun _ =>
        Decoder.many readValidator validatorCount.toNat >>= fun signingValidators =>
          readLittle64 >>= fun totalValidatorSetStake =>
            Pure.pure (build hashes signingValidators totalValidatorSetStake)) data
        (hashesPlace data + 4 + 32 * hashCount data) <->
      validatorsPlace data + 4 ≤ data.length ∧ ValidatorsInside canReserve data := by
    intro hashes
    have place : hashesPlace data + 4 + 32 * hashCount data = validatorsPlace data := rfl
    have count : (shortAt data (validatorsPlace data)).toNat = validatorCount data := rfl
    rw [place, Safe.field_bind_iff (readLittle32_eq vector _), count, safe_validators_iff vector (build hashes)]
  rw [Safe.reserve_bind_iff, Safe.bind_iff_of_strides (strides_many hashes _) tail, safe_many_iff_le hashes safe inside]
  refine imp_congr_right fun _ => ⟨fun holds => ?_, fun holds => ⟨?_, fun _ => holds⟩⟩
  · apply holds.2
    intro index small
    have most : 32 * (index + 1) ≤ 32 * hashCount data := Nat.mul_le_mul_left 32 small
    omega
  · have most := holds.1
    unfold validatorsPlace at most
    omega

/-- A vector behind its size is a field: its bytes are known if they are inside. -/
theorem readSized_eq (offset : Nat) : readSized data offset =
    if offset + 4 + (shortAt data offset).toNat ≤ data.length then
      .value ((data.drop (offset + 4)).take (shortAt data offset).toNat, offset + 4 + (shortAt data offset).toNat)
    else .outside := by
  have small : (shortAt data offset).toNat < 2 ^ 64 := Nat.lt_trans (shortAt data offset).toNat_lt (by decide)
  change (readLittle32 data offset).bind _ = _
  rw [readLittle32_eq vector]
  split
  · exact slice_eq small (by omega) (offset + 4)
  · rw [if_neg (by omega)]
    rfl

theorem exists_certificate_iff (inside : hashesPlace data ≤ data.length) :
    (∃ qc, QuorumCertificate.deserializeReserving canReserve
      ((data.drop (certificatePlace data + 4)).take (certificateSize data)) = .value qc) <->
        CertificateFits canReserve data := by
  have sized : ((data.drop (certificatePlace data + 4)).take (certificateSize data)).length = certificateSize data := by
    rw [List.length_take, List.length_drop]
    unfold hashesPlace at inside
    omega
  have short : ((data.drop (certificatePlace data + 4)).take (certificateSize data)).length < 2 ^ 63 := by
    rw [sized]
    unfold hashesPlace at inside
    omega
  rw [QuorumCertificate.exists_deserializeReserving_iff short, sized]
  unfold CertificateFits signersCount
  by_cases long : 160 ≤ certificateSize data
  · rw [wordAt_take (by omega), wordAt_drop]
  · exact iff_of_false (fun both => long (by omega)) fun both => long (by omega)

/-- The certificate and the count of the hashes behind it. -/
theorem safe_certificate_iff {Result : Type}
    (build : QuorumCertificate -> List Blake3Hash -> List Validator -> UInt64 -> Result) :
    Safe (readSized >>= fun qcData =>
        Decoder.lift (QuorumCertificate.deserializeReserving canReserve qcData) >>= fun qc =>
        readLittle32 >>= fun proofCount => reserve canReserve .hashes proofCount.toNat >>= fun _ =>
          Decoder.many readBlake3Hash proofCount.toNat >>= fun hashes => readLittle32 >>= fun validatorCount =>
            reserve canReserve .validators validatorCount.toNat >>= fun _ =>
              Decoder.many readValidator validatorCount.toNat >>= fun signingValidators =>
                readLittle64 >>= fun totalValidatorSetStake =>
                  Pure.pure (build qc hashes signingValidators totalValidatorSetStake))
      data (certificatePlace data) <-> CertificateInside canReserve data := by
  have size : (shortAt data (certificatePlace data)).toNat = certificateSize data := rfl
  have place : certificatePlace data + 4 + certificateSize data = hashesPlace data := rfl
  have count : (shortAt data (hashesPlace data)).toNat = hashCount data := rfl
  rw [Safe.field_bind_iff (readSized_eq vector _), Safe.lift_bind_iff, size, place]
  refine and_congr_right fun inside => ?_
  have bytes : ((data.drop (certificatePlace data + 4)).take (certificateSize data)).length < 2 ^ 63 := by
    rw [List.length_take, List.length_drop]
    omega
  rw [and_iff_right (QuorumCertificate.deserializeReserving_ne_outside bytes), ← exists_certificate_iff vector inside]
  have rest : forall qc : QuorumCertificate, Safe (readLittle32 >>= fun proofCount =>
      reserve canReserve .hashes proofCount.toNat >>= fun _ =>
        Decoder.many readBlake3Hash proofCount.toNat >>= fun hashes => readLittle32 >>= fun validatorCount =>
          reserve canReserve .validators validatorCount.toNat >>= fun _ =>
            Decoder.many readValidator validatorCount.toNat >>= fun signingValidators =>
              readLittle64 >>= fun totalValidatorSetStake =>
                Pure.pure (build qc hashes signingValidators totalValidatorSetStake)) data (hashesPlace data) <->
      hashesPlace data + 4 ≤ data.length ∧ HashesInside canReserve data := by
    intro qc
    rw [Safe.field_bind_iff (readLittle32_eq vector _), count]
    exact and_congr_right fun counted => safe_hashes_iff vector (build qc) counted
  simp only [rest]
  exact exists_imp.symm

theorem safe_reservingDecoder_iff : Safe (reservingDecoder canReserve) data 0 <-> ReadInside canReserve data := by
  have size : (shortAt data 0).toNat = headerSize data := rfl
  have place : 0 + 4 + headerSize data = certificatePlace data := rfl
  rw [reservingDecoder, Safe.field_bind_iff (readSized_eq vector 0), Safe.lift_bind_iff, size, place]
  refine and_congr_right fun inside => ?_
  have sized : ((data.drop (0 + 4)).take (headerSize data)).length = headerSize data := by
    rw [List.length_take, List.length_drop]
    unfold certificatePlace at inside
    omega
  have bytes : ((data.drop (0 + 4)).take (headerSize data)).length < 2 ^ 63 := by
    rw [sized]
    unfold certificatePlace at inside
    omega
  rw [and_iff_right (BlockHeader.deserialize_ne_outside bytes)]
  have accepted := BlockHeader.exists_deserialize_iff bytes
  rw [sized] at accepted
  rw [← accepted]
  simp only [safe_certificate_iff vector (HeaderProof.mk _)]
  exact exists_imp.symm

/-- A header proof is read inside if and only if every field is inside that is reached. -/
theorem deserializeReserving_inside_iff :
    deserializeReserving canReserve data ≠ .outside <-> (16 ≤ data.length -> ReadInside canReserve data) := by
  unfold deserializeReserving
  by_cases long : 16 ≤ data.length
  · rw [if_neg (Nat.not_lt.mpr long), run_ne_outside_iff, safe_reservingDecoder_iff vector]
    exact ⟨fun holds _ => holds, fun holds => holds long⟩
  · rw [if_pos (Nat.not_le.mp long)]
    exact iff_of_true nofun fun impossible => absurd impossible long

end Stages

end HeaderProof

/-- Exactly when the two decoders stay inside. -/
theorem lightClientDecoders_inside_iff (canReserve : ReservedVector -> Nat -> Bool) (data : List UInt8)
    (vector : data.length < 2 ^ 63) :
    (HeaderProof.deserializeReserving canReserve data ≠ .outside <->
        (16 ≤ data.length -> HeaderProof.ReadInside canReserve data)) ∧
      (GenesisAllocation.deserialize data ≠ .outside <->
        (45 ≤ data.length -> 44 + (shortAt data 40).toNat ≤ data.length)) :=
  ⟨HeaderProof.deserializeReserving_inside_iff vector, GenesisAllocation.deserialize_ne_outside_iff vector⟩

/-- A proof with a certificate of two signers, one hash and one validator. -/
theorem lightClientDecoders_inside_iff_encodedHeaderProof :
    HeaderProof.ReadInside (fun _ _ => true) encodedHeaderProof.serialize := by
  have trip : HeaderProof.deserialize encodedHeaderProof.serialize = .value encodedHeaderProof :=
    encodedHeaderProof.deserialize_serialize ⟨by decide +kernel, by decide, by decide⟩
  have exactly := lightClientDecoders_inside_iff (fun _ _ => true) encodedHeaderProof.serialize (by decide +kernel)
  refine exactly.1.mp ?_ (by decide +kernel)
  rw [HeaderProof.deserializeReserving_eq, trip]
  nofun

/-- Sixteen bytes that announce a header of 184 bytes, and an allocation whose category has two
bytes of which one is there. -/
theorem announced_sizes_not_checked :
    HeaderProof.deserializeReserving (fun _ _ => true) (littleEndian32 184 ++ List.replicate 12 0) = .outside ∧
      GenesisAllocation.deserialize (List.replicate 40 0 ++ littleEndian32 2 ++ [0]) = .outside := by
  refine ⟨?_, ?_⟩
  · rfl
  · decide +kernel

end Consensus
end Sarafu
