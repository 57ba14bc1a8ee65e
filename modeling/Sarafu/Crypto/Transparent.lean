import Sarafu.Crypto.Primitives

namespace Sarafu
namespace Crypto
namespace Transparent

/-!
# A transparent instance of the external libraries

The theorems of this development hold for every `Primitives`.  This instance is
small enough to be evaluated and serves as their non-vacuity witness.  The hash
is a polynomial modulo `2^256`.  A signature point is the signed message itself
or the mixed point `none`; adding two different points gives the mixed point, so
an aggregate verifies exactly when all of its parts are signatures on the
message.  Keys play no part in it, and nothing here is meant to be secure.
-/

/-- The hash: a polynomial in the bytes, cut to 32 bytes. -/
def digest (data : List UInt8) : Blake3Hash :=
  FixedBytes.ofNat 32 (data.foldl (fun total byte => (total * 257 + byte.toNat + 1) % 2 ^ 256) 0)

/-- Signature points: a message, or the mixed point. -/
abbrev Point := Option (List UInt8)

/-- A marker byte, the message, and padding.  Only messages of the size of a
block hash have a code of their own. -/
def compress (point : Point) : BLS12381Signature :=
  match point with
  | none => FixedBytes.zero 96
  | some message =>
      if sized : message.length = 32 then
        ⟨1 :: message ++ List.replicate 63 0, by simp [sized]⟩
      else FixedBytes.zero 96

def uncompress (signature : BLS12381Signature) : Point :=
  if signature.bytes.head? = some 1 then some (signature.bytes.tail.take 32) else none

def add (left right : Point) : Point := if left = right then left else none

def blst : Blst where
  G1 := Unit
  G2 := Point
  p1Uncompress := fun _ => some ()
  p1AffineInG1 := fun _ => true
  p1Add := fun _ _ => ()
  p2Uncompress := fun signature => some (uncompress signature)
  p2AffineInG2 := fun _ => true
  p2Add := add
  p2Compress := compress
  hashToG2 := fun message _ => some message
  signPkInG1 := fun point _ => point
  coreVerifyPkInG1 := fun _ point message _ => decide (point = some message)

/-- The instance.  Ed25519 verification accepts the all-zero signature only. -/
def primitives : Primitives where
  blake3 := digest
  blst := blst
  cryptoSignVerifyDetached := fun signature _ _ => decide (signature = FixedBytes.zero 64)

theorem uncompress_length {signature : BLS12381Signature} {message : List UInt8}
    (point : uncompress signature = some message) : message.length = 32 := by
  unfold uncompress at point
  split at point
  · rw [← Option.some.inj point, List.length_take, List.length_tail, signature.length_bytes]
    rfl
  · cases point

theorem uncompress_compress {message : List UInt8} (sized : message.length = 32) :
    uncompress (compress (some message)) = some message := by
  simp only [compress, dif_pos sized, uncompress, List.cons_append, List.head?_cons, if_true, List.tail_cons]
  rw [List.take_left' sized]

theorem eq_of_uncompress_compress {point : Point} {message : List UInt8}
    (decoded : uncompress (compress point) = some message) : point = some message := by
  cases point with
  | none => cases decoded
  | some inner =>
      by_cases sized : inner.length = 32
      · rw [uncompress_compress sized] at decoded
        exact decoded
      · simp only [compress, dif_neg sized] at decoded
        cases decoded

theorem verify_iff (signature : BLS12381Signature) (message : List UInt8) (key : BLS12381PublicKey) :
    BLS12381.verify primitives signature message key = true <-> uncompress signature = some message := by
  change decide (uncompress signature = some message) = true <-> _
  rw [decide_eq_true_eq]

theorem verifyAggregated_iff (signature : BLS12381Signature) (message : List UInt8)
    {keys : List BLS12381PublicKey} (nonempty : keys ≠ []) :
    BLS12381.verifyAggregated primitives signature message keys = .ok true <->
      uncompress signature = some message := by
  rcases List.exists_cons_of_ne_nil nonempty with ⟨first, rest, rfl⟩
  have summed : forall keys : List BLS12381PublicKey,
      BLS12381.aggregateKeys primitives () keys = some () := by
    intro keys
    induction keys with
    | nil => rfl
    | cons key rest inductionHypothesis => exact inductionHypothesis
  have signaturePoint : BLS12381.decodeSignature primitives signature = some (uncompress signature) := rfl
  have keyPoint : BLS12381.decodePublicKey primitives first = some () := rfl
  simp only [BLS12381.verifyAggregated, signaturePoint, keyPoint, summed rest, Except.ok.injEq]
  exact decide_eq_true_iff

/-- The loop of `aggregate` never throws here and folds the addition. -/
theorem aggregateRest_eq (start : Point) (index : Nat) (signatures : List BLS12381Signature) :
    BLS12381.aggregateRest primitives start index signatures =
      .ok (signatures.foldl (fun total signature => add total (uncompress signature)) start) := by
  induction signatures generalizing start index with
  | nil => rfl
  | cons signature rest inductionHypothesis => exact inductionHypothesis (add start (uncompress signature)) (index + 1)

theorem aggregate_cons (first : BLS12381Signature) (rest : List BLS12381Signature) :
    BLS12381.aggregate primitives (first :: rest) =
      .ok (compress (rest.foldl (fun total signature => add total (uncompress signature)) (uncompress first))) := by
  change (BLS12381.aggregateRest primitives (uncompress first) 1 rest).map compress = _
  rw [aggregateRest_eq]
  rfl

/-- The sum is a message exactly when every part is that message. -/
theorem foldl_add_eq_some (start : Point) (signatures : List BLS12381Signature) (message : List UInt8) :
    signatures.foldl (fun total signature => add total (uncompress signature)) start = some message <->
      start = some message ∧ forall signature, signature ∈ signatures -> uncompress signature = some message := by
  induction signatures generalizing start with
  | nil => simp only [List.foldl_nil, List.not_mem_nil, false_implies, implies_true, and_true]
  | cons signature rest inductionHypothesis =>
      rw [List.foldl_cons, inductionHypothesis, List.forall_mem_cons, ← and_assoc]
      apply and_congr_left
      intro _
      unfold add
      split
      · rename_i same
        rw [← same, and_self]
      · rename_i different
        constructor
        · intro impossible
          cases impossible
        · rintro ⟨left, right⟩
          exact absurd (left.trans right.symm) different

theorem aggregationComplete : BLS12381.AggregationComplete primitives := by
  intro message parts nonempty valid
  rcases List.exists_cons_of_ne_nil nonempty with ⟨first, rest, rfl⟩
  have decoded : forall part, part ∈ first :: rest -> uncompress part.1 = some message := fun part member =>
    (verify_iff part.1 message part.2).mp (valid part member)
  have start := decoded first List.mem_cons_self
  have total := (foldl_add_eq_some (uncompress first.1) (rest.map Prod.fst) message).mpr ⟨start, by
    intro signature member
    rcases List.mem_map.mp member with ⟨part, listed, rfl⟩
    exact decoded part (List.mem_cons_of_mem first listed)⟩
  refine ⟨_, aggregate_cons first.1 (rest.map Prod.fst), ?_⟩
  rw [total]
  exact (verifyAggregated_iff _ message (by simp)).mpr (uncompress_compress (uncompress_length start))

theorem aggregationSound : BLS12381.AggregationSound primitives := by
  intro message parts aggregated formed verified part member
  rcases List.exists_cons_of_ne_nil (List.ne_nil_of_mem member) with ⟨first, rest, rfl⟩
  rw [List.map_cons, aggregate_cons] at formed
  rw [← Except.ok.inj formed] at verified
  have decoded := (verifyAggregated_iff _ message (by simp)).mp verified
  rcases (foldl_add_eq_some _ _ message).mp (eq_of_uncompress_compress decoded) with ⟨start, others⟩
  apply (verify_iff part.1 message part.2).mpr
  rcases List.mem_cons.mp member with same | later
  · rw [same]
    exact start
  · exact others part.1 (List.mem_map_of_mem later)

/-! ## Signatures that do not decode -/

/-- The instance with signatures that are not a point: only the code of a
message decodes, as a compressed point has to carry its marker. -/
def strict : Primitives :=
  { primitives with
    blst := { blst with p2Uncompress := fun signature => (uncompress signature).map some } }

theorem strict_decode {signature : BLS12381Signature} {message : List UInt8}
    (point : uncompress signature = some message) :
    BLS12381.decodeSignature strict signature = some (some message) := by
  change ((uncompress signature).map some).filter (fun _ => true) = _
  rw [point]
  rfl

theorem strict_verify {signature : BLS12381Signature} {message : List UInt8} {key : BLS12381PublicKey}
    (verified : BLS12381.verify strict signature message key = true) : uncompress signature = some message := by
  cases point : uncompress signature with
  | none =>
      have undecodable : BLS12381.decodeSignature strict signature = none := by
        change ((uncompress signature).map some).filter (fun _ => true) = none
        rw [point]
        rfl
      simp only [BLS12381.verify, undecodable] at verified
      cases verified
  | some other =>
      simp only [BLS12381.verify, strict_decode point] at verified
      exact of_decide_eq_true verified

theorem strict_aggregateRest {message : List UInt8} (index : Nat) {signatures : List BLS12381Signature}
    (decoded : forall signature, signature ∈ signatures -> uncompress signature = some message) :
    BLS12381.aggregateRest strict (some message) index signatures = .ok (some message) := by
  induction signatures generalizing index with
  | nil => rfl
  | cons signature rest inductionHypothesis =>
      rw [List.forall_mem_cons] at decoded
      have found := fun undecodable outside =>
        (BLS12381.decodeForAggregate_eq_ok_iff signature undecodable outside _).mpr (strict_decode decoded.1)
      simp only [BLS12381.aggregateRest, found]
      have summed : strict.blst.p2Add (some message) (some message) = some message := if_pos rfl
      rw [summed]
      exact inductionHypothesis (index + 1) decoded.2

theorem strict_verifyAggregated {signature : BLS12381Signature} {message : List UInt8} (keys : List BLS12381PublicKey)
    (point : uncompress signature = some message) (nonempty : keys ≠ []) :
    BLS12381.verifyAggregated strict signature message keys = .ok true := by
  rcases List.exists_cons_of_ne_nil nonempty with ⟨first, rest, rfl⟩
  have summed : forall keys : List BLS12381PublicKey, BLS12381.aggregateKeys strict () keys = some () := by
    intro keys
    induction keys with
    | nil => rfl
    | cons key rest inductionHypothesis => exact inductionHypothesis
  have keyPoint : BLS12381.decodePublicKey strict first = some () := rfl
  simp only [BLS12381.verifyAggregated, strict_decode point, keyPoint, summed rest, Except.ok.injEq]
  exact decide_eq_true rfl

theorem strict_aggregationComplete : BLS12381.AggregationComplete strict := by
  intro message parts nonempty valid
  rcases List.exists_cons_of_ne_nil nonempty with ⟨first, rest, rfl⟩
  have decoded : forall signature, signature ∈ (first :: rest).map Prod.fst -> uncompress signature = some message := by
    rw [List.forall_mem_map]
    intro part member
    exact strict_verify (valid part member)
  rw [List.map_cons, List.forall_mem_cons] at decoded
  refine ⟨compress (some message), ?_, ?_⟩
  · have found := fun undecodable outside =>
      (BLS12381.decodeForAggregate_eq_ok_iff first.1 undecodable outside _).mpr (strict_decode decoded.1)
    simp only [List.map_cons, BLS12381.aggregate, found, strict_aggregateRest 1 decoded.2]
    rfl
  · exact strict_verifyAggregated _ (uncompress_compress (uncompress_length decoded.1)) (by simp)

end Transparent
end Crypto
end Sarafu
