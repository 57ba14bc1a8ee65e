import Sarafu.Crypto.Bytes

namespace Sarafu
namespace Crypto

/-!
# External cryptography and the BLS12-381 wrapper

The `blake3`, `blst` and `libsodium` libraries are not part of the repository.
`Primitives` collects exactly the entry points that the source calls, and every
definition of the model takes it as an argument.  What the source does around
those entry points (the empty-list exceptions, the order of the decoding
checks, the error texts) is modelled below and not assumed.

`blst` keeps affine and projective representations of one point apart.  The
conversions between them lose nothing, so one type per group is used here.
-/

/-- The exceptions thrown by the modelled code, with their texts. -/
inductive Failure
  | invalidArgument (what : String)
  | runtimeError (what : String)
deriving DecidableEq, Repr

/-- The part of `blst` that is called: points of the two groups, their
compressed encodings, subgroup checks, addition and the pairing check. -/
structure Blst where
  G1 : Type
  G2 : Type
  p1Uncompress : BLS12381PublicKey -> Option G1
  p1AffineInG1 : G1 -> Bool
  p1Add : G1 -> G1 -> G1
  p2Uncompress : BLS12381Signature -> Option G2
  p2AffineInG2 : G2 -> Bool
  p2Add : G2 -> G2 -> G2
  p2Compress : G2 -> BLS12381Signature
  hashToG2 : List UInt8 -> String -> G2
  signPkInG1 : G2 -> BLS12381PrivateKey -> G2
  coreVerifyPkInG1 : G1 -> G2 -> List UInt8 -> String -> Bool

/-- The external libraries. -/
structure Primitives where
  blake3 : List UInt8 -> Blake3Hash
  blst : Blst
  cryptoSignVerifyDetached : Ed25519Signature -> List UInt8 -> Ed25519PublicKey -> Bool

namespace BLS12381

/-- The domain separation tag of every BLS signature. -/
def dst : String := "SARAFU_BLS_SIG_BLS12381G2_XMD:SHA-256_SSWU_RO_"

variable (prim : Primitives)

def sign (message : List UInt8) (privateKey : BLS12381PrivateKey) : BLS12381Signature :=
  prim.blst.p2Compress (prim.blst.signPkInG1 (prim.blst.hashToG2 message dst) privateKey)

/-- Uncompress a public key and check that it lies in the subgroup. -/
def decodePublicKey (publicKey : BLS12381PublicKey) : Option prim.blst.G1 :=
  (prim.blst.p1Uncompress publicKey).filter prim.blst.p1AffineInG1

/-- Uncompress a signature and check that it lies in the subgroup. -/
def decodeSignature (signature : BLS12381Signature) : Option prim.blst.G2 :=
  (prim.blst.p2Uncompress signature).filter prim.blst.p2AffineInG2

def verify (signature : BLS12381Signature) (message : List UInt8)
    (publicKey : BLS12381PublicKey) : Bool :=
  match decodePublicKey prim publicKey, decodeSignature prim signature with
  | some keyPoint, some signaturePoint => prim.blst.coreVerifyPkInG1 keyPoint signaturePoint message dst
  | _, _ => false

/-- One decoding step of `aggregate`: the two failures have their own texts. -/
def decodeForAggregate (signature : BLS12381Signature) (undecodable outside : String) :
    Except Failure prim.blst.G2 :=
  match prim.blst.p2Uncompress signature with
  | none => .error (.runtimeError undecodable)
  | some point => if prim.blst.p2AffineInG2 point then .ok point else .error (.runtimeError outside)

/-- The loop over the signatures after the first one. -/
def aggregateRest (aggregated : prim.blst.G2) :
    Nat -> List BLS12381Signature -> Except Failure prim.blst.G2
  | _, [] => .ok aggregated
  | index, signature :: rest =>
      match decodeForAggregate prim signature
          ("Failed to deserialize signature at index " ++ toString index)
          ("Signature at index " ++ toString index ++ " is not in G2 subgroup") with
      | .error failure => .error failure
      | .ok point => aggregateRest (prim.blst.p2Add aggregated point) (index + 1) rest

def aggregate : List BLS12381Signature -> Except Failure BLS12381Signature
  | [] => .error (.invalidArgument "Cannot aggregate empty signature list")
  | first :: rest =>
      match decodeForAggregate prim first "Failed to deserialize first signature"
          "First signature is not in G2 subgroup" with
      | .error failure => .error failure
      | .ok start => (aggregateRest prim start 1 rest).map prim.blst.p2Compress

/-- Sum the public keys; `none` is the early `return false` of the loop. -/
def aggregateKeys (aggregated : prim.blst.G1) : List BLS12381PublicKey -> Option prim.blst.G1
  | [] => some aggregated
  | publicKey :: rest =>
      match decodePublicKey prim publicKey with
      | none => none
      | some point => aggregateKeys (prim.blst.p1Add aggregated point) rest

def verifyAggregated (aggregatedSignature : BLS12381Signature) (message : List UInt8) :
    List BLS12381PublicKey -> Except Failure Bool
  | [] => .error (.invalidArgument "Cannot verify with empty public key list")
  | first :: rest =>
      match decodeSignature prim aggregatedSignature with
      | none => .ok false
      | some signaturePoint =>
          match decodePublicKey prim first with
          | none => .ok false
          | some start =>
              match aggregateKeys prim start rest with
              | none => .ok false
              | some keyPoint => .ok (prim.blst.coreVerifyPkInG1 keyPoint signaturePoint message dst)

/-- Signatures on one message that verify one by one aggregate to a signature
that verifies under their keys.  Callers of `aggregate` rely on this. -/
def AggregationComplete : Prop :=
  forall (message : List UInt8) (parts : List (BLS12381Signature × BLS12381PublicKey)),
    parts ≠ [] -> (forall part, part ∈ parts -> verify prim part.1 message part.2 = true) ->
    ∃ aggregated, aggregate prim (parts.map Prod.fst) = .ok aggregated ∧
      verifyAggregated prim aggregated message (parts.map Prod.snd) = .ok true

/-- An aggregate with a part that does not verify does not verify either. -/
def AggregationSound : Prop :=
  forall (message : List UInt8) (parts : List (BLS12381Signature × BLS12381PublicKey))
    (aggregated : BLS12381Signature), aggregate prim (parts.map Prod.fst) = .ok aggregated ->
    verifyAggregated prim aggregated message (parts.map Prod.snd) = .ok true ->
    forall part, part ∈ parts -> verify prim part.1 message part.2 = true

variable {prim}

/-- A signature passes the checks of `aggregate` exactly if it decodes. -/
theorem decodeForAggregate_eq_ok_iff (signature : BLS12381Signature) (undecodable outside : String)
    (point : prim.blst.G2) :
    decodeForAggregate prim signature undecodable outside = .ok point <->
      decodeSignature prim signature = some point := by
  unfold decodeForAggregate decodeSignature
  cases prim.blst.p2Uncompress signature with
  | none =>
      constructor
      · intro impossible
        cases impossible
      · intro impossible
        cases impossible
  | some found =>
      simp only [Option.filter]
      split
      · rw [Except.ok.injEq, Option.some.injEq]
      · constructor
        · intro impossible
          cases impossible
        · intro impossible
          cases impossible

theorem exists_aggregateRest_iff (aggregated : prim.blst.G2) (index : Nat) (signatures : List BLS12381Signature) :
    (∃ total, aggregateRest prim aggregated index signatures = .ok total) <->
      forall signature, signature ∈ signatures -> (decodeSignature prim signature).isSome = true := by
  induction signatures generalizing aggregated index with
  | nil => exact ⟨fun _ _ member => absurd member List.not_mem_nil, fun _ => ⟨aggregated, rfl⟩⟩
  | cons signature rest inductionHypothesis =>
      rw [List.forall_mem_cons]
      cases decoded : decodeForAggregate prim signature ("Failed to deserialize signature at index " ++ toString index)
          ("Signature at index " ++ toString index ++ " is not in G2 subgroup") with
      | error failure =>
          simp only [aggregateRest, decoded]
          constructor
          · rintro ⟨total, impossible⟩
            cases impossible
          · rintro ⟨some, _⟩
            rcases Option.isSome_iff_exists.mp some with ⟨point, found⟩
            rw [(decodeForAggregate_eq_ok_iff signature _ _ point).mpr found] at decoded
            cases decoded
      | ok point =>
          have found := (decodeForAggregate_eq_ok_iff signature _ _ point).mp decoded
          simp only [aggregateRest, decoded, inductionHypothesis, found, Option.isSome_some, true_and]

/-- `aggregate` returns exactly if there are signatures and all of them decode. -/
theorem exists_aggregate_iff (signatures : List BLS12381Signature) :
    (∃ aggregated, aggregate prim signatures = .ok aggregated) <->
      signatures ≠ [] ∧ forall signature, signature ∈ signatures -> (decodeSignature prim signature).isSome = true := by
  cases signatures with
  | nil =>
      constructor
      · rintro ⟨aggregated, impossible⟩
        cases impossible
      · rintro ⟨impossible, _⟩
        exact absurd rfl impossible
  | cons first rest =>
      rw [List.forall_mem_cons]
      cases decoded : decodeForAggregate prim first "Failed to deserialize first signature"
          "First signature is not in G2 subgroup" with
      | error failure =>
          simp only [aggregate, decoded]
          constructor
          · rintro ⟨aggregated, impossible⟩
            cases impossible
          · rintro ⟨_, some, _⟩
            rcases Option.isSome_iff_exists.mp some with ⟨point, found⟩
            rw [(decodeForAggregate_eq_ok_iff first _ _ point).mpr found] at decoded
            cases decoded
      | ok start =>
          have found := (decodeForAggregate_eq_ok_iff first _ _ start).mp decoded
          have summed := exists_aggregateRest_iff start 1 rest
          simp only [aggregate, decoded, found, Option.isSome_some, true_and, ne_eq, reduceCtorEq, not_false_eq_true]
          rw [← summed]
          constructor
          · rintro ⟨aggregated, returned⟩
            cases total : aggregateRest prim start 1 rest with
            | error failure =>
                rw [total] at returned
                cases returned
            | ok point => exact ⟨point, rfl⟩
          · rintro ⟨total, returned⟩
            exact ⟨prim.blst.p2Compress total, by rw [returned]; rfl⟩

end BLS12381

namespace Ed25519

def verify (prim : Primitives) (signature : Ed25519Signature) (message : List UInt8)
    (publicKey : Ed25519PublicKey) : Bool :=
  prim.cryptoSignVerifyDetached signature message publicKey

end Ed25519
end Crypto
end Sarafu
