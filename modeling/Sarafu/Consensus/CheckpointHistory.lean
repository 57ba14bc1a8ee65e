import Sarafu.Consensus.BlockValidator
import Sarafu.Consensus.CheckpointAggregation
import Sarafu.Consensus.Finality
import Sarafu.Library.HashLinks

namespace Sarafu
namespace Consensus

open Crypto State Library.HashLinks

/-!
# Checkpoints and the history behind them

A checkpoint copies five fields of a block, and a chain is compared with it at one block only.
Since every validated block names its parent by hash, that one comparison decides about
everything before it.
-/

namespace CheckpointManager

/-- The interval is positive; the source divides by it. -/
def shouldProduceCheckpoint (config : CheckpointConfig) (blockHeight : UInt64) : Bool :=
  decide (0 < blockHeight) && blockHeight % config.checkpointInterval == 0

/-- The signature fields are those of the default constructor. -/
def produceCheckpoint (prim : Primitives) (block : Block) : WeakSubjectivityCheckpoint where
  blockHeight := block.header.height
  blockHash := block.hash prim
  epoch := block.header.epoch
  timestamp := block.header.timestamp
  stateRoot := block.header.stateRoot
  validatorSetRoot := block.header.validatorSetRoot
  aggregatedSignature := FixedBytes.zero 96
  signers := []
  totalStakeSigned := 0

/-- The id of the signer is not read. -/
def signCheckpoint (prim : Primitives) (checkpoint : WeakSubjectivityCheckpoint) (_validatorId : ValidatorID)
    (privateKey : BLS12381PrivateKey) : BLS12381Signature :=
  BLS12381.sign prim (checkpoint.hash prim).serialize privateKey

def verifyChainIncludesCheckpoint (prim : Primitives) (checkpoint : WeakSubjectivityCheckpoint)
    (chainBlock : Block) : Bool :=
  if chainBlock.header.height ≠ checkpoint.blockHeight then false
  else if chainBlock.hash prim ≠ checkpoint.blockHash then false
  else if chainBlock.header.stateRoot ≠ checkpoint.stateRoot then false
  else if chainBlock.header.validatorSetRoot ≠ checkpoint.validatorSetRoot then false
  else true

/-- The comment of the source announces the opposite answer. -/
def rejectChainWithoutCheckpoint (prim : Primitives) (checkpoint : WeakSubjectivityCheckpoint)
    (chainBlock : Block) : Bool := !verifyChainIncludesCheckpoint prim checkpoint chainBlock

variable {prim : Primitives}

theorem verifyChainIncludesCheckpoint_iff {checkpoint : WeakSubjectivityCheckpoint} {block : Block} :
    verifyChainIncludesCheckpoint prim checkpoint block = true <->
      block.header.height = checkpoint.blockHeight ∧ block.hash prim = checkpoint.blockHash ∧
        block.header.stateRoot = checkpoint.stateRoot ∧
        block.header.validatorSetRoot = checkpoint.validatorSetRoot := by
  unfold verifyChainIncludesCheckpoint
  grind

/-- Signing changes none of the fields that a chain is compared with. -/
theorem includes_aggregated_iff {checkpoint signed : WeakSubjectivityCheckpoint} {set : ValidatorSet}
    {signatures : OrderedMap ValidatorID BLS12381Signature} {block : Block}
    (aggregated : aggregateSignatures prim checkpoint signatures set = .ok (some signed)) :
    verifyChainIncludesCheckpoint prim signed block = true <->
      verifyChainIncludesCheckpoint prim checkpoint block = true := by
  unfold aggregateSignatures at aggregated
  dsimp only at aggregated
  split at aggregated
  · cases aggregated
  · split at aggregated
    · cases aggregated
    · cases aggregated
      exact verifyChainIncludesCheckpoint_iff.trans verifyChainIncludesCheckpoint_iff.symm

end CheckpointManager

/-! ## Validated chains -/

/-- Every block was validated against the one before it, each by a validator of its own. -/
def ValidatedChain (prim : Primitives) (chain : List Block) : Prop :=
  chain.IsChain fun parent block =>
    ∃ (validator : BlockValidator) (verifiesStateRoot : Bool),
      validator.validateBlock prim block parent verifiesStateRoot = ""

def FromGenesis (chain : List Block) : Prop := forall genesis, genesis ∈ chain.head? -> genesis.header.height = 0

/-- The headers of the blocks up to a place. -/
def headersUpTo (chain : List Block) (place : Nat) : List BlockHeader := (chain.take (place + 1)).map Block.header

variable {prim : Primitives} {chain : List Block}

/-- What two neighbours of a validated chain have to do with each other. -/
theorem ValidatedChain.follows (validated : ValidatedChain prim chain) :
    chain.IsChain fun parent block => block.header.height = parent.header.height + 1 ∧
      block.header.previousHash = parent.hash prim ∧ parent.header.timestamp < block.header.timestamp := by
  refine List.IsChain.imp ?_ validated
  rintro parent block ⟨validator, verifiesStateRoot, passed⟩
  have each := BlockValidator.firstError_eq_empty_iff.mp passed
  simp only [List.forall_mem_cons] at each
  exact ⟨BlockValidator.verifyBlockHeight_eq_empty_iff.mp each.1,
    BlockValidator.verifyBlockHashChain_eq_empty_iff.mp each.2.1,
    BlockValidator.verifyTimestamp_eq_empty_iff.mp each.2.2.1⟩

/-- Timestamps rise from block to block, so a chain is no longer than there are timestamps. -/
theorem ValidatedChain.place_le_timestamp (validated : ValidatedChain prim chain) {place : Nat}
    (within : place < chain.length) : place ≤ chain[place].header.timestamp.toNat := by
  induction place with
  | zero => exact Nat.zero_le _
  | succ place inductionHypothesis =>
      have later := (List.isChain_iff_getElem.mp validated.follows place within).2.2
      have earlier := inductionHypothesis (Nat.lt_of_succ_lt within)
      rw [UInt64.lt_iff_toNat_lt] at later
      omega

/-- The height of a block is its place, as the counter cannot have wrapped. -/
theorem ValidatedChain.toNat_height (validated : ValidatedChain prim chain) (begins : FromGenesis chain) {place : Nat}
    (within : place < chain.length) : chain[place].header.height.toNat = place := by
  induction place with
  | zero =>
      have first : chain[0].header.height = 0 := begins chain[0] (by
        rw [List.head?_eq_getElem?, List.getElem?_eq_getElem within]
        exact rfl)
      exact congrArg UInt64.toNat first
  | succ place inductionHypothesis =>
      have next := (List.isChain_iff_getElem.mp validated.follows place within).1
      have bound := validated.place_le_timestamp within
      have width := chain[place + 1].header.timestamp.toNat_lt
      rw [next, UInt64.toNat_add, inductionHypothesis (Nat.lt_of_succ_lt within)]
      exact Nat.mod_eq_of_lt (Nat.lt_of_le_of_lt bound width)

theorem reverse_headersUpTo {place : Nat} (within : place < chain.length) :
    (headersUpTo chain place).reverse = chain[place].header :: ((chain.take place).map Block.header).reverse := by
  rw [headersUpTo, List.take_succ_eq_append_getElem within, List.map_append, List.reverse_append]
  exact rfl

theorem ValidatedChain.linked (validated : ValidatedChain prim chain) (place : Nat) :
    Linked (BlockHeader.hash prim) BlockHeader.previousHash (headersUpTo chain place).reverse := by
  refine List.isChain_reverse.mpr (List.isChain_map_of_isChain Block.header (fun _ _ follows => follows) ?_)
  exact List.IsChain.imp (fun _ _ both => both.2.1) (validated.follows.take (place + 1))

/-- A block's hash and height stand for the whole history behind it. -/
theorem ValidatedChain.headersUpTo_eq_iff {headers : Set BlockHeader}
    (separate : Set.InjOn (BlockHeader.hash prim) headers)
    {history : List Block} (validated : ValidatedChain prim chain) (alsoValidated : ValidatedChain prim history)
    (begins : FromGenesis chain) (alsoBegins : FromGenesis history)
    (listed : forall block, block ∈ chain -> block.header ∈ headers)
    (alsoListed : forall block, block ∈ history -> block.header ∈ headers) {place depth : Nat}
    (within : place < chain.length) (inside : depth < history.length) :
    headersUpTo chain place = headersUpTo history depth <->
      chain[place].header.height = history[depth].header.height ∧
        chain[place].hash prim = history[depth].hash prim := by
  constructor
  · intro same
    have reversed := congrArg List.reverse same
    rw [reverse_headersUpTo within, reverse_headersUpTo inside] at reversed
    have top : chain[place].header = history[depth].header := (List.cons.inj reversed).1
    exact ⟨congrArg BlockHeader.height top, congrArg (BlockHeader.hash prim) top⟩
  · rintro ⟨sameHeight, sameHash⟩
    have samePlace : place = depth := by
      rw [← validated.toNat_height begins within, ← alsoValidated.toNat_height alsoBegins inside, sameHeight]
    have known (blocks : List Block) (inHeaders : forall block, block ∈ blocks -> block.header ∈ headers) (last : Nat) :
        forall header, header ∈ (headersUpTo blocks last).reverse -> header ∈ headers := by
      intro header member
      rcases List.mem_map.mp (List.mem_reverse.mp member) with ⟨block, taken, rfl⟩
      exact inHeaders block (List.mem_of_mem_take taken)
    have linked := validated.linked place
    have alsoLinked := alsoValidated.linked depth
    have inChain := known chain listed place
    have inHistory := known history alsoListed depth
    rw [reverse_headersUpTo within] at linked inChain
    rw [reverse_headersUpTo inside] at alsoLinked inHistory
    apply List.reverse_injective
    rw [reverse_headersUpTo within, reverse_headersUpTo inside]
    apply eq_of_same_digest headers (fun _ first _ second => separate first second) linked alsoLinked inChain
      inHistory sameHash
    simp only [List.length_reverse, List.length_map, List.length_take]
    omega

namespace CheckpointManager

/-- A chain is let through by a checkpoint exactly where it carries the whole history of the
block that the checkpoint was made from. -/
theorem checkpoint_pins_history (prim : Primitives) {headers : Set BlockHeader}
    (separate : Set.InjOn (BlockHeader.hash prim) headers)
    {history chain : List Block} (alsoValidated : ValidatedChain prim history) (alsoBegins : FromGenesis history)
    (alsoListed : forall block, block ∈ history -> block.header ∈ headers) (validated : ValidatedChain prim chain)
    (begins : FromGenesis chain) (listed : forall block, block ∈ chain -> block.header ∈ headers) {depth : Nat}
    (inside : depth < history.length) {signatures : OrderedMap ValidatorID BLS12381Signature} {set : ValidatorSet}
    {checkpoint : WeakSubjectivityCheckpoint}
    (aggregated : aggregateSignatures prim (produceCheckpoint prim history[depth]) signatures set =
      .ok (some checkpoint)) (place : Nat) (within : place < chain.length) :
    (verifyChainIncludesCheckpoint prim checkpoint chain[place] = true <->
      headersUpTo chain place = headersUpTo history depth) ∧
    (rejectChainWithoutCheckpoint prim checkpoint chain[place] = false <->
      headersUpTo chain place = headersUpTo history depth) := by
  have pinned : verifyChainIncludesCheckpoint prim checkpoint chain[place] = true <->
      headersUpTo chain place = headersUpTo history depth := by
    rw [includes_aggregated_iff aggregated, verifyChainIncludesCheckpoint_iff,
      validated.headersUpTo_eq_iff separate alsoValidated begins alsoBegins listed alsoListed within inside]
    constructor
    · rintro ⟨height, hash, _⟩
      exact ⟨height, hash⟩
    · rintro ⟨height, hash⟩
      have top : chain[place].header = history[depth].header :=
        separate (listed _ (List.getElem_mem within)) (alsoListed _ (List.getElem_mem inside)) hash
      exact ⟨height, hash, congrArg BlockHeader.stateRoot top, congrArg BlockHeader.validatorSetRoot top⟩
  exact ⟨pinned, by rw [rejectChainWithoutCheckpoint, Bool.not_eq_false', pinned]⟩

/-- As long as checkpoints are made no more rarely than they age, each block past the first
interval has one that is young enough. -/
theorem exists_young_checkpoint (config : CheckpointConfig) (positive : 0 < config.checkpointInterval)
    (ages : config.checkpointInterval ≤ config.maxCheckpointAge) (validated : ValidatedChain prim chain)
    (begins : FromGenesis chain) {place : Nat} (within : place < chain.length)
    (enough : config.checkpointInterval.toNat ≤ place) :
    ∃ (depth : Nat) (inside : depth < chain.length), depth ≤ place ∧
      shouldProduceCheckpoint config chain[depth].header.height = true ∧
      checkCheckpointAge config chain[depth].header.height chain[place].header.height = true := by
  rw [UInt64.lt_iff_toNat_lt] at positive
  rw [UInt64.le_iff_toNat_le] at ages
  have split := Nat.mod_add_div place config.checkpointInterval.toNat
  have rest := Nat.mod_lt place positive
  have below : place - place % config.checkpointInterval.toNat ≤ place := Nat.sub_le _ _
  have inside := Nat.lt_of_le_of_lt below within
  have height := validated.toNat_height begins within
  have lower := validated.toNat_height begins inside
  refine ⟨place - place % config.checkpointInterval.toNat, inside, below, ?_, ?_⟩
  · have multiple : (place - place % config.checkpointInterval.toNat) % config.checkpointInterval.toNat = 0 :=
      Nat.sub_mod_eq_zero_of_mod_eq (Nat.mod_mod _ _).symm
    simp only [shouldProduceCheckpoint, Bool.and_eq_true, decide_eq_true_eq, beq_iff_eq, UInt64.lt_iff_toNat_lt,
      ← UInt64.toNat_inj, UInt64.toNat_mod, lower]
    exact ⟨by rw [UInt64.toNat_zero]; omega, multiple⟩
  · have order : chain[place - place % config.checkpointInterval.toNat].header.height ≤ chain[place].header.height :=
      UInt64.le_iff_toNat_le.mpr (by rw [lower, height]; exact below)
    rw [checkCheckpointAge, if_neg (UInt64.not_lt.mpr order), decide_eq_true_eq, UInt64.lt_iff_toNat_lt,
      UInt64.toNat_sub_of_le _ _ order, lower, height]
    omega

/-- A validated chain of two empty blocks. -/
def pairChain : List Block :=
  [ConsensusEngine.genesisAt 0, ⟨⟨1, 1, (ConsensusEngine.genesisAt 0).hash Transparent.primitives, Blake3Hash.zero,
    Blake3Hash.zero, Blake3Hash.zero, FixedBytes.ofNat 32 1, 0⟩, [], .empty⟩]

/-- The signature of one validator on the checkpoint of the second block. -/
def pairSignatures : OrderedMap ValidatorID BLS12381Signature :=
  (∅ : OrderedMap ValidatorID BLS12381Signature).insert (FixedBytes.ofNat 32 1)
    (signCheckpoint Transparent.primitives (produceCheckpoint Transparent.primitives pairChain[1])
      (FixedBytes.ofNat 32 1) (FixedBytes.ofNat 32 1))

theorem checkpoint_pins_history_pair :
    ∃ checkpoint,
      aggregateSignatures Transparent.primitives (produceCheckpoint Transparent.primitives pairChain[1]) pairSignatures
        (unitSet 1) = .ok (some checkpoint) ∧
      (verifyChainIncludesCheckpoint Transparent.primitives checkpoint pairChain[1] = true <->
        headersUpTo pairChain 1 = headersUpTo pairChain 1) ∧
      (rejectChainWithoutCheckpoint Transparent.primitives checkpoint pairChain[1] = false <->
        headersUpTo pairChain 1 = headersUpTo pairChain 1) := by
  have signed : (aggregateSignatures Transparent.primitives (produceCheckpoint Transparent.primitives pairChain[1])
      pairSignatures (unitSet 1)).toOption.join.isSome = true := by decide +kernel
  have validated : ValidatedChain Transparent.primitives pairChain :=
    List.isChain_pair.mpr ⟨⟨ConsensusEngine.registryWith (unitSet 3), .create 1⟩, true, by decide +kernel⟩
  have begins : FromGenesis pairChain := by
    intro genesis first
    rw [← Option.some.inj first]
    exact rfl
  have separate : Set.InjOn (BlockHeader.hash Transparent.primitives)
      { header | header ∈ pairChain.map Block.header } :=
    fun _ first _ second same => List.inj_on_of_nodup_map (by decide +kernel) first second same
  have listed : forall block, block ∈ pairChain -> block.header ∈ { header | header ∈ pairChain.map Block.header } :=
    fun block member => List.mem_map_of_mem member
  rcases aggregated : aggregateSignatures Transparent.primitives (produceCheckpoint Transparent.primitives pairChain[1])
    pairSignatures (unitSet 1) with failure | none | checkpoint
  · rw [aggregated] at signed
    cases signed
  · rw [aggregated] at signed
    cases signed
  exact ⟨checkpoint, rfl, checkpoint_pins_history Transparent.primitives separate validated begins listed validated
    begins listed (by decide) aggregated 1 (by decide)⟩

end CheckpointManager
end Consensus
end Sarafu
