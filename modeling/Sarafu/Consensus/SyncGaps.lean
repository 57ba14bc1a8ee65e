import Sarafu.Consensus.SyncManager
import Sarafu.Crypto.Transparent

namespace Sarafu
namespace Consensus

open Crypto State Library.BatchedTransfer

/-!
# Heights that a sync leaves out

A download ends at the first block that does not arrive, and the loop then continues
behind the end of the batch that it asked for.  The blocks between are never requested
again, and the sync ends with the status `Synced`.  When the peers serve one valid chain,
these are all the heights that it leaves out.
-/

/-- The blocks of one chain by height: linked, and each with a certificate that claims stake. -/
structure ValidChain (prim : Primitives) (chain : UInt64 -> Block) : Prop where
  height : forall height, (chain height).header.height = height
  linked : forall height, height ≠ 0 -> (chain height).header.previousHash = (chain (height - 1)).hash prim
  certified : forall height, 0 < (chain height).justify.totalStakeSigned

namespace SyncEnvironment

/-- Peers answer with blocks of the chain or not at all. -/
def Truthful (env : SyncEnvironment) (chain : UInt64 -> Block) : Prop :=
  forall clock peer height block, env.requestBlock clock peer height = some block -> block = chain height

/-- What the request for a height at a moment brings. -/
def attempt (env : SyncEnvironment) (clock : Nat) (height : UInt64) : Option Block :=
  let peer := SyncManager.selectPeerForRequest (env.getPeers clock)
  if env.stopRequested clock || peer.isEmpty then none else env.requestBlock clock peer height

def replies (env : SyncEnvironment) (clock height : Nat) : Bool := (env.attempt clock (UInt64.ofNat height)).isSome

theorem Truthful.attempt {env : SyncEnvironment} {chain : UInt64 -> Block} (truthful : env.Truthful chain) {clock : Nat}
    {height : UInt64} {block : Block} (answered : env.attempt clock height = some block) : block = chain height := by
  unfold SyncEnvironment.attempt at answered
  dsimp only at answered
  split at answered
  · cases answered
  · exact truthful clock _ height block answered

end SyncEnvironment

/-- Consecutive blocks of the chain. -/
def chainFrom (chain : UInt64 -> Block) : Nat -> UInt64 -> List Block
  | 0, _ => []
  | count + 1, height => chain height :: chainFrom chain count (height + 1)

theorem chainFrom_eq_nil_iff {chain : UInt64 -> Block} {count : Nat} {height : UInt64} :
    chainFrom chain count height = [] <-> count = 0 := by
  cases count with
  | zero => exact iff_of_true rfl rfl
  | succ count => exact iff_of_false nofun nofun

namespace SyncManager

variable {prim : Primitives} {chain : UInt64 -> Block} {env : SyncEnvironment}

def blockAt (manager : SyncManager) (height : UInt64) : Option Block := manager.database.blocks[height]?

theorem toNat_succ (height : UInt64) (below : height.toNat + 1 < 2 ^ 64) : (height + 1).toNat = height.toNat + 1 := by
  rw [UInt64.toNat_add]
  exact Nat.mod_eq_of_lt below

theorem toNat_pred {height : UInt64} (nonzero : height ≠ 0) : (height - 1).toNat + 1 = height.toNat := by
  have some : 1 ≤ height.toNat := Nat.one_le_iff_ne_zero.mpr fun zero => nonzero (UInt64.toNat_inj.mp zero)
  have one : (1 : UInt64) ≤ height := UInt64.le_iff_toNat_le.mpr some
  rw [UInt64.toNat_sub_of_le _ _ one]
  exact Nat.sub_add_cancel some

theorem downloadLoop_succ (env : SyncEnvironment) (endHeight : UInt64) (fuel : Nat) (height : UInt64)
    (progress : SyncProgress) (clock : Nat) : downloadLoop env endHeight (fuel + 1) height progress clock =
      if endHeight < height then .ok ([], progress, clock)
      else
        match env.attempt clock height with
        | none => .ok ([], progress, clock + 1)
        | some block =>
            (downloadLoop env endHeight fuel (height + 1)
              { progress with blocksDownloaded := progress.blocksDownloaded + 1 } (clock + 1)).map fun rest =>
                (block :: rest.1, rest.2) := by
  rw [downloadLoop, SyncEnvironment.attempt]
  dsimp only
  generalize selectPeerForRequest (env.getPeers clock) = peer
  cases env.stopRequested clock with
  | true => rfl
  | false =>
      cases peer.isEmpty with
      | true => rfl
      | false =>
          cases env.requestBlock clock peer height with
          | none => rfl
          | some block => rfl

/-- What a download brings, and when it ends. -/
theorem downloadLoop_eq (truthful : env.Truthful chain) {endHeight : UInt64} (bounded : endHeight.toNat + 1 < 2 ^ 64)
    {fuel : Nat} {height : UInt64} {progress : SyncProgress} {clock : Nat} {result : List Block × SyncProgress × Nat}
    (above : height.toNat ≤ endHeight.toNat + 1)
    (finished : downloadLoop env endHeight fuel height progress clock = .ok result) :
    result.1 = chainFrom chain (arrived env.replies (endHeight.toNat + 1 - height.toNat) height.toNat clock) height ∧
      result.2.2 = afterBatch env.replies (endHeight.toNat + 1 - height.toNat) height.toNat clock := by
  induction fuel generalizing height progress clock result with
  | zero => cases finished
  | succ fuel inductionHypothesis =>
      rw [downloadLoop_succ] at finished
      split at finished
      · rename_i beyond
        have compared := UInt64.lt_iff_toNat_lt.mp beyond
        rw [Nat.sub_eq_zero_of_le compared]
        cases finished
        exact ⟨rfl, rfl⟩
      · rename_i within
        have compared := UInt64.le_iff_toNat_le.mp (UInt64.not_lt.mp within)
        have next := toNat_succ height (by omega)
        have length : endHeight.toNat + 1 - height.toNat = endHeight.toNat + 1 - (height + 1).toNat + 1 := by
          omega
        have reply : env.replies clock height.toNat = (env.attempt clock height).isSome := by
          rw [SyncEnvironment.replies, UInt64.ofNat_toNat]
        rw [length, arrived, afterBatch_succ, reply]
        cases answer : env.attempt clock height with
        | none =>
            rw [answer] at finished
            cases finished
            exact ⟨rfl, rfl⟩
        | some block =>
            rw [answer] at finished
            rw [Option.isSome_some, if_pos rfl, if_pos rfl, ← next, chainFrom, ← truthful.attempt answer]
            cases remaining : downloadLoop env endHeight fuel (height + 1)
                { progress with blocksDownloaded := progress.blocksDownloaded + 1 } (clock + 1) with
            | error fault =>
                rw [remaining] at finished
                cases finished
            | ok rest =>
                rw [remaining] at finished
                cases finished
                rcases inductionHypothesis (by omega) remaining with ⟨blocksEq, laterEq⟩
                exact ⟨congrArg (block :: ·) blocksEq, laterEq⟩

theorem blockAt_storeBlock (manager : SyncManager) (block : Block) (height : UInt64) :
    (manager.storeBlock prim block).blockAt height =
      if height = block.header.height then some block else manager.blockAt height := by
  unfold blockAt storeBlock
  rw [OrderedMap.find_insert]

/-- Blocks of a valid chain are accepted and stored under their heights. -/
theorem applyBlocks_chainFrom (valid : ValidChain prim chain) {count : Nat} {height : UInt64} (manager : SyncManager)
    (bounded : height.toNat + count < 2 ^ 64) :
    ∃ applied, applyBlocks prim (chainFrom chain count height) manager = (true, applied) ∧
      applied.config = manager.config ∧
      forall key : UInt64, applied.blockAt key =
        if height.toNat ≤ key.toNat ∧ key.toNat < height.toNat + count then some (chain key)
        else manager.blockAt key := by
  induction count generalizing height manager with
  | zero =>
      refine ⟨manager, rfl, rfl, ?_⟩
      intro key
      rw [if_neg (by omega)]
  | succ count inductionHypothesis =>
      have next := toNat_succ height (by omega)
      have accepted : manager.verifyAndApplyBlock prim (chain height) =
          (true, manager.storeBlock prim (chain height)) := by
        rw [verifyAndApplyBlock, verifyQuorumCertificate, decide_eq_true (valid.certified height), if_pos rfl]
      have shorter : (height + 1).toNat + count < 2 ^ 64 := by
        omega
      rcases inductionHypothesis ((manager.storeBlock prim (chain height)).countVerified (chain height)) shorter with
        ⟨applied, done, sameConfig, stored⟩
      refine ⟨applied, ?_, sameConfig, ?_⟩
      · rw [chainFrom, applyBlocks, accepted]
        exact done
      · intro key
        rw [stored key, next]
        change (if _ then _ else (manager.storeBlock prim (chain height)).blockAt key) = _
        rw [blockAt_storeBlock, valid.height]
        by_cases first : key = height
        · rw [first, if_neg (by omega), if_pos rfl, if_pos (by omega)]
        · have apart : key.toNat ≠ height.toNat := first ∘ UInt64.toNat_inj.mp
          rw [if_neg first]
          refine if_congr ?_ rfl rfl
          omega

theorem toNat_batchEnd {config : SyncConfig} (positive : 0 < config.batchSize) (startHeight endHeight : UInt64) :
    (batchEnd config startHeight endHeight).toNat =
      min ((startHeight.toNat + config.batchSize.toNat - 1) % 2 ^ 64) endHeight.toNat := by
  have some := UInt64.lt_iff_toNat_lt.mp positive
  have full : (startHeight + config.batchSize - 1).toNat =
      (startHeight.toNat + config.batchSize.toNat - 1) % 2 ^ 64 := by
    rw [UInt64.toNat_sub, UInt64.toNat_add]
    change (2 ^ 64 - 1 + _) % 2 ^ 64 = _
    rw [UInt64.toNat_zero] at some
    omega
  unfold batchEnd
  dsimp only
  split
  · rename_i cut
    rw [UInt64.lt_iff_toNat_lt, full] at cut
    exact (Nat.min_eq_right (Nat.le_of_lt cut)).symm
  · rename_i whole
    rw [UInt64.not_lt, UInt64.le_iff_toNat_le, full] at whole
    rw [full, Nat.min_eq_left whole]

/-- The loop cannot reach its end: the target is the last height there is, or the end of
the batch wraps around behind its start. -/
def Stuck (config : SyncConfig) (startHeight endHeight : UInt64) : Prop :=
  endHeight.toNat + 1 = 2 ^ 64 ∨ (startHeight ≤ endHeight ∧ batchEnd config startHeight endHeight < startHeight)

/-- Otherwise a batch asks for the heights of the range that it should, and for some. -/
theorem batch_bounds {config : SyncConfig} (positive : 0 < config.batchSize) {startHeight endHeight : UInt64}
    (within : startHeight ≤ endHeight) (free : ¬Stuck config startHeight endHeight) :
    (batchEnd config startHeight endHeight).toNat + 1 =
      startHeight.toNat + batchLength config.batchSize.toNat endHeight.toNat startHeight.toNat ∧
    (batchEnd config startHeight endHeight).toNat + 1 < 2 ^ 64 ∧
    0 < batchLength config.batchSize.toNat endHeight.toNat startHeight.toNat := by
  have some := UInt64.lt_iff_toNat_lt.mp positive
  rw [UInt64.toNat_zero] at some
  rw [Stuck, not_or, not_and, UInt64.not_lt, UInt64.le_iff_toNat_le, UInt64.le_iff_toNat_le] at free
  rw [UInt64.le_iff_toNat_le] at within
  have ahead := free.2 within
  rw [toNat_batchEnd positive] at ahead ⊢
  rw [batchLength]
  have size := config.batchSize.toNat_lt
  have last := endHeight.toNat_lt
  omega

variable {endHeight startHeight : UInt64} {fuel clock : Nat} {manager after : SyncManager}

/-- An iteration of a sync that returns `true`: it is the last one, or its batch brought
nothing, or the blocks of its batch were applied. -/
theorem syncBatches_cases
    (finished : syncBatches prim env endHeight (fuel + 1) startHeight manager clock = .ok (true, after)) :
    (¬(startHeight ≤ endHeight ∧ env.stopRequested clock = false) ∧
      after = manager.setStatus (if env.stopRequested clock then .notStarted else .synced)) ∨
    startHeight ≤ endHeight ∧ ∃ blocks progress later,
      downloadBlocks env fuel startHeight (batchEnd manager.config startHeight endHeight) manager.progress clock =
        .ok (blocks, progress, later) ∧
      ((blocks = [] ∧
        syncBatches prim env endHeight fuel startHeight { manager with progress := progress } (later + 1) =
          .ok (true, after)) ∨
      (blocks ≠ [] ∧ ∃ applied, applyBlocks prim blocks { manager with progress := progress } = (true, applied) ∧
        syncBatches prim env endHeight fuel (batchEnd manager.config startHeight endHeight + 1) applied later =
          .ok (true, after))) := by
  rw [syncBatches] at finished
  dsimp only at finished
  split at finished
  · rename_i running
    refine Or.inr ⟨running.1, ?_⟩
    split at finished
    · cases finished
    · rename_i blocks progress later downloaded
      refine ⟨blocks, progress, later, downloaded, ?_⟩
      split at finished
      · rename_i empty
        exact Or.inl ⟨List.isEmpty_iff.mp empty, finished⟩
      · rename_i some
        split at finished
        · cases finished
        · rename_i applied done
          exact Or.inr ⟨some ∘ List.isEmpty_iff.mpr, applied, done, finished⟩
  · rename_i stopped
    cases finished
    exact Or.inl ⟨stopped, rfl⟩

theorem downloadBlocks_eq {blocks : List Block} {progress counted : SyncProgress} {later : Nat}
    (downloaded : downloadBlocks env fuel startHeight endHeight progress clock = .ok (blocks, counted, later)) :
    downloadLoop env endHeight fuel startHeight progress clock = .ok (blocks, counted, later) := by
  rw [downloadBlocks] at downloaded
  split at downloaded
  · exact downloaded
  · cases downloaded

/-- A loop that cannot reach its end is left only when it is stopped. -/
theorem not_synced_of_stuck
    (finished : syncBatches prim env endHeight fuel startHeight manager clock = .ok (true, after))
    (stuck : Stuck manager.config startHeight endHeight) : after.progress.status ≠ .synced := by
  induction fuel generalizing startHeight manager clock with
  | zero => cases finished
  | succ fuel inductionHypothesis =>
      have within : startHeight ≤ endHeight := by
        rcases stuck with last | wrapped
        · rw [UInt64.le_iff_toNat_le]
          have bound := startHeight.toNat_lt
          omega
        · exact wrapped.1
      rcases syncBatches_cases finished with
        ⟨left, rfl⟩ | ⟨_, blocks, progress, later, downloaded, ⟨_, again⟩ | ⟨some, applied, done, onward⟩⟩
      · rw [not_and, Bool.not_eq_false] at left
        rw [left within]
        exact nofun
      · exact inductionHypothesis again stuck
      · rcases stuck with last | wrapped
        · exact inductionHypothesis onward (Or.inl last)
        · -- the download loop of a wrapped batch is not entered
          have loop := downloadBlocks_eq downloaded
          cases fuel with
          | zero => cases loop
          | succ fuel =>
              rw [downloadLoop, if_pos wrapped.2] at loop
              cases loop
              exact absurd rfl some

/-- What the store holds after a sync that ends with `Synced`. -/
theorem syncBatches_fetched (valid : ValidChain prim chain) (truthful : env.Truthful chain)
    (positive : 0 < manager.config.batchSize)
    (finished : syncBatches prim env endHeight fuel startHeight manager clock = .ok (true, after))
    (synced : after.progress.status = .synced) :
    Fetched env.replies manager.config.batchSize.toNat endHeight.toNat UInt64.toNat chain startHeight.toNat clock
      manager.blockAt after.blockAt := by
  induction fuel generalizing startHeight manager clock with
  | zero => cases finished
  | succ fuel inductionHypothesis =>
      have free : ¬Stuck manager.config startHeight endHeight := fun stuck =>
        not_synced_of_stuck finished stuck synced
      rcases syncBatches_cases finished with ⟨left, rfl⟩ | ⟨within, blocks, progress, later, downloaded, outcome⟩
      · have behind : endHeight < startHeight := by
          by_contra below
          rw [not_and, Bool.not_eq_false] at left
          have stopped := left (UInt64.not_lt.mp below)
          rw [stopped] at synced
          cases synced
        exact Fetched.done (UInt64.lt_iff_toNat_lt.mp behind) manager.blockAt
      · rcases batch_bounds positive within free with ⟨ending, bounded, nonempty⟩
        rcases downloadLoop_eq truthful bounded (by omega) (downloadBlocks_eq downloaded) with ⟨brought, ends⟩
        rw [ending, Nat.add_sub_cancel_left] at brought ends
        dsimp only at brought ends
        rcases outcome with ⟨empty, again⟩ | ⟨some, applied, done, onward⟩
        · rw [ends] at again
          have rest := inductionHypothesis (by exact positive) again
          exact Fetched.retry nonempty (chainFrom_eq_nil_iff.mp (brought.symm.trans empty)) rest
        · have count := arrived_le env.replies
            (batchLength manager.config.batchSize.toNat endHeight.toNat startHeight.toNat) startHeight.toNat clock
          rw [brought] at done some
          rcases applyBlocks_chainFrom valid { manager with progress := progress }
            (Nat.lt_of_le_of_lt (Nat.add_le_add_left count startHeight.toNat) (ending ▸ bounded)) with
            ⟨stored, accepted, sameConfig, holds⟩
          rw [done] at accepted
          cases accepted
          have rest := inductionHypothesis (by rw [sameConfig]; exact positive) onward
          rw [toNat_succ _ bounded, ending, ends, sameConfig] at rest
          exact Fetched.next (Nat.pos_of_ne_zero (some ∘ chainFrom_eq_nil_iff.mpr)) holds rest

/-! ## The two entry points -/

/-- A call returned `true`: `start_sync`, `fast_sync`, or their common body with another target. -/
inductive Returned (prim : Primitives) (env : SyncEnvironment) (fuel : Nat) (manager : SyncManager) :
    UInt64 -> UInt64 -> SyncManager -> Prop
  | startSync {after : SyncManager} (returned : manager.startSync prim env fuel = .ok (true, after)) :
      Returned prim env fuel manager manager.stateMachine.currentHeight
        (getTargetHeight manager.stateMachine.currentHeight) after
  | fastSync {after : SyncManager} (checkpoint : WeakSubjectivityCheckpoint)
      (returned : manager.fastSync prim env fuel checkpoint = .ok (true, after)) :
      Returned prim env fuel manager checkpoint.blockHeight (getTargetHeight checkpoint.blockHeight) after
  | runSync {after : SyncManager} (status : SyncStatus) (baseHeight targetHeight : UInt64)
      (returned : manager.runSync prim env fuel status baseHeight targetHeight = .ok (true, after)) :
      Returned prim env fuel manager baseHeight targetHeight after

variable {baseHeight targetHeight : UInt64}

theorem Returned.exists_runSync (returned : Returned prim env fuel manager baseHeight targetHeight after) :
    ∃ status, manager.runSync prim env fuel status baseHeight targetHeight = .ok (true, after) := by
  cases returned with
  | startSync returned =>
      rw [SyncManager.startSync] at returned
      split at returned
      · cases returned
      · exact ⟨_, returned⟩
  | fastSync checkpoint returned =>
      rw [SyncManager.fastSync] at returned
      split at returned
      · cases returned
      · split at returned
        · cases returned
        · exact ⟨_, returned⟩
  | runSync status _ _ returned => exact ⟨status, returned⟩

theorem Returned.fetched (returned : Returned prim env fuel manager baseHeight targetHeight after)
    (valid : ValidChain prim chain) (truthful : env.Truthful chain) (positive : 0 < manager.config.batchSize)
    (synced : after.progress.status = .synced) :
    Fetched env.replies manager.config.batchSize.toNat targetHeight.toNat UInt64.toNat chain (baseHeight + 1).toNat 0
      manager.blockAt after.blockAt := by
  rcases returned.exists_runSync with ⟨status, finished⟩
  rw [SyncManager.runSync] at finished
  have fetched := syncBatches_fetched valid truthful (by exact positive) finished synced
  exact fetched

/-- Every height of the range has a block, which is linked to the block one height below.
The range starts at the height that the code computes, modulo `2^64`. -/
def NoGap (prim : Primitives) (manager : SyncManager) (baseHeight targetHeight : UInt64) : Prop :=
  forall height, baseHeight + 1 ≤ height -> height ≤ targetHeight ->
    ∃ block, manager.blockAt height = some block ∧
      forall below, height ≠ 0 -> manager.blockAt (height - 1) = some below ->
        block.header.previousHash = below.hash prim

/-- Where a sync is to store blocks, and at its base height, the store holds nothing but
blocks of the chain. -/
def StoresChain (manager : SyncManager) (chain : UInt64 -> Block) (baseHeight targetHeight : UInt64) : Prop :=
  forall height block, height = baseHeight ∨ (baseHeight + 1 ≤ height ∧ height ≤ targetHeight) ->
    manager.blockAt height = some block -> block = chain height

/-- The heights that a sync leaves out: they lie behind the place where a batch was cut
short.  They depend on the answers of the peers, the batch size and the range alone. -/
def LeftOut (env : SyncEnvironment) (batchSize baseHeight targetHeight height : UInt64) : Prop :=
  Missed env.replies batchSize.toNat targetHeight.toNat (baseHeight + 1).toNat 0 height.toNat

/-- The chain itself has no gap. -/
theorem noGap_of_chain (valid : ValidChain prim chain)
    (stored : forall height, baseHeight + 1 ≤ height -> height ≤ targetHeight ->
      manager.blockAt height = some (chain height))
    (base : forall block, manager.blockAt baseHeight = some block -> block = chain baseHeight) :
    NoGap prim manager baseHeight targetHeight := by
  intro height above below
  refine ⟨chain height, stored height above below, ?_⟩
  intro lower nonzero found
  rw [valid.linked height nonzero]
  by_cases first : height = baseHeight + 1
  · rw [first, UInt64.add_sub_cancel] at found ⊢
    rw [base lower found]
  · have previous := toNat_pred nonzero
    rw [UInt64.le_iff_toNat_le] at above below
    have apart : height.toNat ≠ (baseHeight + 1).toNat := first ∘ UInt64.toNat_inj.mp
    rw [stored (height - 1) (by rw [UInt64.le_iff_toNat_le]; omega) (by rw [UInt64.le_iff_toNat_le]; omega)] at found
    rw [Option.some.inj found]

/-- A sync that ends with `Synced` leaves no gap, whatever the store held in the range, if
no height was left out.  If the store held blocks of the chain only, it leaves no gap
exactly when every height that was left out had been stored before. -/
theorem noGap_iff (valid : ValidChain prim chain) (truthful : env.Truthful chain)
    (positive : 0 < manager.config.batchSize)
    (returned : Returned prim env fuel manager baseHeight targetHeight after)
    (synced : after.progress.status = .synced) :
    ((forall height, ¬LeftOut env manager.config.batchSize baseHeight targetHeight height) ->
      (forall block, manager.blockAt baseHeight = some block -> block = chain baseHeight) ->
      NoGap prim after baseHeight targetHeight) ∧
    (manager.StoresChain chain baseHeight targetHeight ->
      (NoGap prim after baseHeight targetHeight <->
        forall height, LeftOut env manager.config.batchSize baseHeight targetHeight height ->
          (manager.blockAt height).isSome = true)) := by
  have fetched := returned.fetched valid truthful positive synced
  have base : (forall block, manager.blockAt baseHeight = some block -> block = chain baseHeight) ->
      forall block, after.blockAt baseHeight = some block -> block = chain baseHeight := by
    intro before block found
    rcases fetched.kept_or_source baseHeight with same | fresh
    · exact before block (same ▸ found)
    · exact (Option.some.inj (fresh.symm.trans found)).symm
  refine ⟨?_, ?_⟩
  · intro nothing before
    refine noGap_of_chain valid ?_ (base before)
    intro height above below
    exact fetched.fresh height (UInt64.le_iff_toNat_le.mp above) (UInt64.le_iff_toNat_le.mp below) (nothing height)
  · intro stores
    constructor
    · intro noGap height leftOut
      rcases leftOut.bounds with ⟨above, below⟩
      rcases noGap height (UInt64.le_iff_toNat_le.mpr above) (UInt64.le_iff_toNat_le.mpr below) with ⟨block, found, _⟩
      rw [← fetched.kept height (Or.inr (Or.inr leftOut)), found]
      rfl
    · intro had
      refine noGap_of_chain valid ?_ (base fun block => stores baseHeight block (Or.inl rfl))
      intro height above below
      refine fetched.complete ?_ had height (UInt64.le_iff_toNat_le.mp above) (UInt64.le_iff_toNat_le.mp below)
      intro key block low high
      exact stores key block (Or.inr ⟨UInt64.le_iff_toNat_le.mpr low, UInt64.le_iff_toNat_le.mpr high⟩)

/-- A chain of empty blocks. -/
def linkedBlock (prim : Primitives) : Nat -> Block
  | 0 => ⟨⟨0, 0, Blake3Hash.zero, Blake3Hash.zero, Blake3Hash.zero, Blake3Hash.zero, FixedBytes.zero 32, 0⟩, [],
      { QuorumCertificate.empty with totalStakeSigned := 1 }⟩
  | height + 1 => ⟨⟨UInt64.ofNat (height + 1), 0, (linkedBlock prim height).hash prim, Blake3Hash.zero, Blake3Hash.zero,
      Blake3Hash.zero, FixedBytes.zero 32, 0⟩, [], { QuorumCertificate.empty with totalStakeSigned := 1 }⟩

def emptyChain (prim : Primitives) (height : UInt64) : Block := linkedBlock prim height.toNat

theorem validChain_emptyChain (prim : Primitives) : ValidChain prim (emptyChain prim) where
  height := by
    intro height
    unfold emptyChain
    cases position : height.toNat with
    | zero => exact UInt64.toNat_inj.mp position.symm
    | succ below =>
        change UInt64.ofNat (below + 1) = height
        rw [← position, UInt64.ofNat_toNat]
  linked := by
    intro height nonzero
    unfold emptyChain
    rw [← toNat_pred nonzero]
    rfl
  certified := by
    intro height
    unfold emptyChain
    cases height.toNat with
    | zero => exact UInt64.lt_iff_toNat_lt.mpr Nat.one_pos
    | succ below => exact UInt64.lt_iff_toNat_lt.mpr Nat.one_pos

/-- One peer that serves the empty chain whenever it is asked at a chosen moment. -/
def servedWhen (prim : Primitives) (serves : Nat -> Bool) : SyncEnvironment where
  getPeers := fun _ => [⟨"peer", true, 1⟩]
  requestBlock := fun clock _ height => if serves clock then some (emptyChain prim height) else none
  stopAt := none
  canReserve := fun _ => true

theorem truthful_servedWhen (prim : Primitives) (serves : Nat -> Bool) :
    (servedWhen prim serves).Truthful (emptyChain prim) := by
  intro clock peer height block answered
  unfold servedWhen at answered
  dsimp only at answered
  split at answered
  · exact (Option.some.inj answered).symm
  · cases answered

/-- A node at genesis with an empty database. -/
def freshManager : SyncManager := ⟨StateMachine.create 1, ⟨∅, ∅⟩, {}, {}, {}⟩

theorem blockAt_freshManager (height : UInt64) : freshManager.blockAt height = none :=
  Std.ExtTreeMap.getElem?_empty

theorem exists_synced {outcome : Except SyncFault (Bool × SyncManager)}
    (ends : outcome.map (fun result => (result.1, result.2.progress.status)) = .ok (true, .synced)) :
    ∃ after, outcome = .ok (true, after) ∧ after.progress.status = .synced := by
  cases outcome with
  | error fault => cases ends
  | ok result =>
      rcases result with ⟨answer, after⟩
      rcases Prod.mk.inj (Except.ok.inj ends) with ⟨rfl, status⟩
      exact ⟨after, rfl, status⟩

/-- Two blocks are fetched in one batch. -/
theorem noGap_iff_two_blocks :
    ∃ after, freshManager.runSync Transparent.primitives
      (servedWhen Transparent.primitives fun _ => true) 4 .syncing 0 2 =
        .ok (true, after) ∧ after.progress.status = .synced ∧
      ((forall height, ¬LeftOut (servedWhen Transparent.primitives fun _ => true) 100 0 2 height) ->
        (forall block, freshManager.blockAt 0 = some block -> block = emptyChain Transparent.primitives 0) ->
        NoGap Transparent.primitives after 0 2) ∧
      (freshManager.StoresChain (emptyChain Transparent.primitives) 0 2 ->
        (NoGap Transparent.primitives after 0 2 <->
          forall height, LeftOut (servedWhen Transparent.primitives fun _ => true) 100 0 2 height ->
            (freshManager.blockAt height).isSome = true)) := by
  have ends : (freshManager.runSync Transparent.primitives (servedWhen Transparent.primitives fun _ => true) 4
      .syncing 0 2).map (fun result => (result.1, result.2.progress.status)) = .ok (true, .synced) := rfl
  rcases exists_synced ends with ⟨after, returned, synced⟩
  exact ⟨after, returned, synced, noGap_iff (validChain_emptyChain _) (truthful_servedWhen _ _) (by decide)
    (.runSync .syncing 0 2 returned) synced⟩

/-- A peer that answers every second request: each batch of a hundred heights brings one
block, and the node calls itself synced after ten of a thousand blocks. -/
theorem startSync_leaves_gap :
    ValidChain Transparent.primitives (emptyChain Transparent.primitives) ∧
    (servedWhen Transparent.primitives fun clock => clock % 2 == 0).Truthful (emptyChain Transparent.primitives) ∧
    ∃ after, freshManager.startSync Transparent.primitives
        (servedWhen Transparent.primitives fun clock => clock % 2 == 0) 12 = .ok (true, after) ∧
      after.progress.status = .synced ∧ after.blockAt 2 = none ∧
      ¬NoGap Transparent.primitives after 0 (getTargetHeight 0) := by
  have valid := validChain_emptyChain Transparent.primitives
  have truthful := truthful_servedWhen Transparent.primitives fun clock => clock % 2 == 0
  have ends : (freshManager.startSync Transparent.primitives
      (servedWhen Transparent.primitives fun clock => clock % 2 == 0) 12).map
        (fun result => (result.1, result.2.progress.status)) = .ok (true, .synced) := rfl
  rcases exists_synced ends with ⟨after, returned, synced⟩
  have fetched := (Returned.startSync returned).fetched valid truthful (by decide) synced
  have absent : after.blockAt 2 = none := by
    rw [fetched.kept 2 (Or.inr (Or.inr (Missed.cut (by decide +kernel) (by decide +kernel) (by decide +kernel))))]
    exact blockAt_freshManager 2
  refine ⟨valid, truthful, after, returned, synced, absent, ?_⟩
  intro noGap
  rcases noGap 2 (by decide) (by decide) with ⟨block, found, _⟩
  rw [absent] at found
  cases found

end SyncManager
end Consensus
end Sarafu
