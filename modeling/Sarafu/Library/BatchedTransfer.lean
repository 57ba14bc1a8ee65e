import Mathlib.Tactic.Common

namespace Library
namespace BatchedTransfer

/-!
# A range fetched in batches

A client asks for the items of a range one after another and in batches.  Every
request is made at a moment of its own, and whether it is answered may depend on the
moment and on the item.  A batch ends at the first request that is not answered.  If
nothing arrived, the same batch is tried again after a pause; otherwise the client goes
on behind the batch, as if all of it had arrived.  The items that are never asked for
again are exactly those of a batch that was cut short.
-/

variable (replies : Nat -> Nat -> Bool)

/-- How many of `length` items arrive, beginning with `item` at the moment `clock`. -/
def arrived : Nat -> Nat -> Nat -> Nat
  | 0, _, _ => 0
  | length + 1, item, clock => if replies clock item then arrived length (item + 1) (clock + 1) + 1 else 0

/-- The moment after a batch.  The request that was not answered took one as well. -/
def afterBatch (length item clock : Nat) : Nat :=
  let count := arrived replies length item clock
  if count < length then clock + count + 1 else clock + count

theorem arrived_le (length item clock : Nat) : arrived replies length item clock ≤ length := by
  induction length generalizing item clock with
  | zero => exact Nat.le_refl 0
  | succ length inductionHypothesis =>
      rw [arrived]
      split
      · exact Nat.succ_le_succ (inductionHypothesis (item + 1) (clock + 1))
      · exact Nat.zero_le _

theorem afterBatch_succ (length item clock : Nat) :
    afterBatch replies (length + 1) item clock =
      if replies clock item then afterBatch replies length (item + 1) (clock + 1) else clock + 1 := by
  unfold afterBatch
  rw [arrived]
  split
  · simp only [Nat.add_lt_add_iff_right, Nat.add_assoc, Nat.add_comm 1]
  · rw [if_pos (Nat.succ_pos length), Nat.add_zero]

/-- The items that a batch from `start` asks for. -/
def batchLength (batchSize last start : Nat) : Nat := min batchSize (last + 1 - start)

theorem add_batchLength_le {batchSize last start : Nat} (nonempty : 0 < batchLength batchSize last start) :
    start + batchLength batchSize last start ≤ last + 1 := by
  rw [batchLength] at nonempty ⊢
  omega

variable (batchSize last : Nat)

/-- The items of a cut batch behind the place where it was cut, for a client that begins
a batch at `start` at the moment `clock`. -/
inductive Missed : Nat -> Nat -> Nat -> Prop
  | cut {start clock item : Nat}
      (some : 0 < arrived replies (batchLength batchSize last start) start clock)
      (behind : start + arrived replies (batchLength batchSize last start) start clock ≤ item)
      (within : item < start + batchLength batchSize last start) : Missed start clock item
  | next {start clock item : Nat}
      (some : 0 < arrived replies (batchLength batchSize last start) start clock)
      (later : Missed (start + batchLength batchSize last start)
        (afterBatch replies (batchLength batchSize last start) start clock) item) : Missed start clock item
  | retry {start clock item : Nat}
      (nonempty : 0 < batchLength batchSize last start)
      (none : arrived replies (batchLength batchSize last start) start clock = 0)
      (later : Missed start (afterBatch replies (batchLength batchSize last start) start clock + 1) item) :
      Missed start clock item

variable {replies batchSize last} {start clock item : Nat}

theorem Missed.bounds (missed : Missed replies batchSize last start clock item) : start ≤ item ∧ item ≤ last := by
  induction missed with
  | cut some behind within =>
      rw [batchLength] at behind within
      omega
  | next some later inductionHypothesis =>
      rw [batchLength] at inductionHypothesis
      omega
  | retry nonempty none later inductionHypothesis => exact inductionHypothesis

/-- A batch that brought something. -/
theorem missed_iff_of_pos (some : 0 < arrived replies (batchLength batchSize last start) start clock) :
    Missed replies batchSize last start clock item <->
      (start + arrived replies (batchLength batchSize last start) start clock ≤ item ∧
        item < start + batchLength batchSize last start) ∨
      Missed replies batchSize last (start + batchLength batchSize last start)
        (afterBatch replies (batchLength batchSize last start) start clock) item := by
  constructor
  · intro missed
    cases missed with
    | cut _ behind within => exact Or.inl ⟨behind, within⟩
    | next _ later => exact Or.inr later
    | retry _ none _ => exact absurd some (none ▸ Nat.lt_irrefl 0)
  · rintro (⟨behind, within⟩ | later)
    · exact Missed.cut some behind within
    · exact Missed.next some later

/-- A batch that brought nothing. -/
theorem missed_iff_of_zero (nonempty : 0 < batchLength batchSize last start)
    (none : arrived replies (batchLength batchSize last start) start clock = 0) :
    Missed replies batchSize last start clock item <->
      Missed replies batchSize last start
        (afterBatch replies (batchLength batchSize last start) start clock + 1) item := by
  constructor
  · intro missed
    cases missed with
    | cut some _ _ => exact absurd some (none ▸ Nat.lt_irrefl 0)
    | next some _ => exact absurd some (none ▸ Nat.lt_irrefl 0)
    | retry _ _ later => exact later
  · exact Missed.retry nonempty none

/-! ## Stores -/

universe u v

variable {Key : Type u} {Item : Type v} {rank : Key -> Nat} {source : Key -> Item}
    {before middle after : Key -> Option Item}

/-- What a store holds after a range has been fetched: the items that arrived are new,
and every other place is as before. -/
structure Fetched (replies : Nat -> Nat -> Bool) (batchSize last : Nat) (rank : Key -> Nat) (source : Key -> Item)
    (start clock : Nat) (before after : Key -> Option Item) : Prop where
  fresh : forall key, start ≤ rank key -> rank key ≤ last ->
    ¬Missed replies batchSize last start clock (rank key) -> after key = some (source key)
  kept : forall key, rank key < start ∨ last < rank key ∨ Missed replies batchSize last start clock (rank key) ->
    after key = before key

/-- Nothing is left to fetch. -/
theorem Fetched.done (finished : last < start) (store : Key -> Option Item) :
    Fetched replies batchSize last rank source start clock store store where
  fresh := by
    intro key above below _
    omega
  kept := fun _ _ => rfl

/-- A batch that brought something, and the rest of the range. -/
theorem Fetched.next (some : 0 < arrived replies (batchLength batchSize last start) start clock)
    (stored : forall key, middle key =
      if start ≤ rank key ∧ rank key < start + arrived replies (batchLength batchSize last start) start clock then
        Option.some (source key)
      else before key)
    (rest : Fetched replies batchSize last rank source (start + batchLength batchSize last start)
      (afterBatch replies (batchLength batchSize last start) start clock) middle after) :
    Fetched replies batchSize last rank source start clock before after := by
  have most := arrived_le replies (batchLength batchSize last start) start clock
  refine ⟨?_, ?_⟩
  · intro key above below found
    rw [missed_iff_of_pos some, not_or] at found
    by_cases later : start + batchLength batchSize last start ≤ rank key
    · exact rest.fresh key later below found.2
    · rw [rest.kept key (Or.inl (Nat.not_le.mp later)), stored key, if_pos ⟨above, by omega⟩]
  · intro key outside
    -- what this batch stored is neither outside the range nor missed
    have elsewhere : ¬(start ≤ rank key ∧
        rank key < start + arrived replies (batchLength batchSize last start) start clock) := by
      rintro ⟨above, early⟩
      rcases outside with earlier | beyond | missed
      · omega
      · have within := add_batchLength_le (Nat.lt_of_lt_of_le some most)
        omega
      · rcases (missed_iff_of_pos some).mp missed with ⟨behind, _⟩ | later
        · omega
        · have bounds := later.bounds
          omega
    have same : middle key = before key := by
      rw [stored key, if_neg elsewhere]
    rw [← same]
    apply rest.kept key
    rcases outside with earlier | beyond | missed
    · exact Or.inl (by omega)
    · exact Or.inr (Or.inl beyond)
    · rcases (missed_iff_of_pos some).mp missed with ⟨_, within⟩ | later
      · exact Or.inl within
      · exact Or.inr (Or.inr later)

/-- A batch that brought nothing is tried again. -/
theorem Fetched.retry (nonempty : 0 < batchLength batchSize last start)
    (none : arrived replies (batchLength batchSize last start) start clock = 0)
    (rest : Fetched replies batchSize last rank source start
      (afterBatch replies (batchLength batchSize last start) start clock + 1) before after) :
    Fetched replies batchSize last rank source start clock before after where
  fresh := by
    intro key above below found
    exact rest.fresh key above below (found ∘ (missed_iff_of_zero nonempty none).mpr)
  kept := by
    intro key outside
    exact rest.kept key (outside.imp_right (Or.imp_right (missed_iff_of_zero nonempty none).mp))

theorem Fetched.kept_or_source (fetched : Fetched replies batchSize last rank source start clock before after)
    (key : Key) :
    after key = before key ∨ after key = some (source key) := by
  by_cases inside : start ≤ rank key ∧ rank key ≤ last
  · by_cases missed : Missed replies batchSize last start clock (rank key)
    · exact Or.inl (fetched.kept key (Or.inr (Or.inr missed)))
    · exact Or.inr (fetched.fresh key inside.1 inside.2 missed)
  · exact Or.inl (fetched.kept key (by omega))

/-- If whatever was missed had been stored before, the store holds all of the range. -/
theorem Fetched.complete (fetched : Fetched replies batchSize last rank source start clock before after)
    (right : forall key item, start ≤ rank key -> rank key ≤ last -> before key = some item -> item = source key)
    (had : forall key, Missed replies batchSize last start clock (rank key) -> (before key).isSome = true) (key : Key)
    (above : start ≤ rank key) (below : rank key ≤ last) : after key = some (source key) := by
  by_cases missed : Missed replies batchSize last start clock (rank key)
  · rcases Option.isSome_iff_exists.mp (had key missed) with ⟨item, found⟩
    rw [fetched.kept key (Or.inr (Or.inr missed)), found, right key item above below found]
  · exact fetched.fresh key above below missed

end BatchedTransfer
end Library
