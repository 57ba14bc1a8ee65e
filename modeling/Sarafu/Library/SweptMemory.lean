import Sarafu.Library.Runs

namespace Library
namespace SweptMemory

/-!
# A memory that is swept when something is noted

Every key has the stamp of the last time that it was noted.  Each note also removes the
entries whose stamps have expired by then.  Nothing is removed between two notes, so an
entry that expired long ago stays until something else is noted.
-/

universe u v

variable {Key : Type u} {Stamp : Type v} [DecidableEq Key]

/-- A key and the time at which it is noted. -/
structure Note (Key : Type u) (Stamp : Type v) where
  key : Key
  stamp : Stamp

abbrev Memory (Key : Type u) (Stamp : Type v) := Key -> Option Stamp

variable (expired : Stamp -> Stamp -> Bool)

/-- The key gets its stamp, then the entries that have expired now are removed. -/
def note (memory : Memory Key Stamp) (made : Note Key Stamp) : Memory Key Stamp := fun key =>
  (if key = made.key then some made.stamp else memory key).filter fun stamp => !expired made.stamp stamp

/-- After these notes, from nothing. -/
def after (notes : List (Note Key Stamp)) : Memory Key Stamp := Runs.run (note expired) (fun _ => none) notes

/-- The last note of the key has this stamp, and no later note has removed it. -/
def Remembered (notes : List (Note Key Stamp)) (key : Key) (stamp : Stamp) : Prop :=
  ∃ before later, notes = before ++ ⟨key, stamp⟩ :: later ∧
    forall other, other ∈ later -> other.key ≠ key ∧ expired other.stamp stamp = false

/-- The last note of the key has been removed by a later one. -/
def Forgotten (notes : List (Note Key Stamp)) (key : Key) : Prop :=
  forall before stamp later, notes = before ++ ⟨key, stamp⟩ :: later ->
    (forall other, other ∈ later -> other.key ≠ key) ->
    ∃ other, other ∈ later ∧ expired other.stamp stamp = true

variable {expired}

omit [DecidableEq Key] in
theorem remembered_concat {notes : List (Note Key Stamp)} {made : Note Key Stamp} {key : Key} {stamp : Stamp} :
    Remembered expired (notes ++ [made]) key stamp <->
      (made.key = key ∧ made.stamp = stamp) ∨
        (Remembered expired notes key stamp ∧ made.key ≠ key ∧ expired made.stamp stamp = false) := by
  constructor
  · rintro ⟨before, later, split, fresh⟩
    rcases List.eq_nil_or_concat later with rfl | ⟨others, last, rfl⟩
    · refine Or.inl ?_
      have same := (List.append_inj' split rfl).2
      rw [List.singleton_inj] at same
      rw [same]
      exact ⟨rfl, rfl⟩
    · rw [List.concat_eq_append, ← List.cons_append, ← List.append_assoc] at split
      have parts := List.append_inj' split rfl
      have lastMade := List.singleton_inj.mp parts.2
      rw [List.concat_eq_append] at fresh
      refine Or.inr ⟨⟨before, others, parts.1, ?_⟩, ?_⟩
      · exact fun other member => fresh other (List.mem_append_left _ member)
      · rw [lastMade]
        exact fresh last (List.mem_append_right _ (List.mem_singleton.mpr rfl))
  · rintro (⟨rfl, rfl⟩ | ⟨⟨before, later, rfl, fresh⟩, other, stays⟩)
    · exact ⟨notes, [], rfl, nofun⟩
    · refine ⟨before, later ++ [made], ?_, ?_⟩
      · rw [← List.cons_append, List.append_assoc]
      · intro note member
        rcases List.mem_append.mp member with old | new
        · exact fresh note old
        · rw [List.mem_singleton.mp new]
          exact ⟨other, stays⟩

/-- The memory holds what is remembered of the notes. -/
theorem after_eq_some_iff (fresh : forall stamp, expired stamp stamp = false) (notes : List (Note Key Stamp))
    (key : Key) (stamp : Stamp) : after expired notes key = some stamp <-> Remembered expired notes key stamp := by
  induction notes using List.reverseRecOn generalizing stamp with
  | nil =>
      refine iff_of_false nofun ?_
      rintro ⟨before, later, split, _⟩
      exact List.append_ne_nil_of_right_ne_nil before (List.cons_ne_nil _ _) split.symm
  | append_singleton notes made inductionHypothesis =>
      have last : after expired (notes ++ [made]) = note expired (after expired notes) made := by
        rw [after, Runs.run_append]
        rfl
      rw [last, remembered_concat, ← inductionHypothesis, note, Option.filter_eq_some_iff, Bool.not_eq_true']
      by_cases same : key = made.key
      · rw [if_pos same, Option.some.injEq]
        constructor
        · rintro ⟨stamped, _⟩
          exact Or.inl ⟨same.symm, stamped⟩
        · rintro (⟨_, rfl⟩ | ⟨_, different, _⟩)
          · exact ⟨rfl, fresh _⟩
          · exact absurd same.symm different
      · rw [if_neg same]
        constructor
        · rintro ⟨held, stays⟩
          exact Or.inr ⟨held, Ne.symm same, stays⟩
        · rintro (⟨equal, _⟩ | ⟨held, _, stays⟩)
          · exact absurd equal.symm same
          · exact ⟨held, stays⟩

/-- A key is not held if and only if its last note was removed. -/
theorem after_eq_none_iff (fresh : forall stamp, expired stamp stamp = false) (notes : List (Note Key Stamp))
    (key : Key) : after expired notes key = none <-> Forgotten expired notes key := by
  constructor
  · intro absent before stamp later split last
    by_contra kept
    have remembered : Remembered expired notes key stamp := by
      refine ⟨before, later, split, fun other member => ⟨last other member, ?_⟩⟩
      rw [Bool.eq_false_iff]
      exact fun gone => kept ⟨other, member, gone⟩
    rw [← after_eq_some_iff fresh, absent] at remembered
    cases remembered
  · intro forgotten
    rw [Option.eq_none_iff_forall_ne_some]
    intro stamp held
    rcases (after_eq_some_iff fresh notes key stamp).mp held with ⟨before, later, split, stays⟩
    rcases forgotten before stamp later split fun other member => (stays other member).1 with ⟨other, member, gone⟩
    rw [(stays other member).2] at gone
    cases gone

/-! ## Notes in the order of their stamps -/

/-- A key that was noted is held with a stamp that is not before, or a later note has removed
such an entry of it. -/
theorem held_or_removed (rank : Stamp -> Nat) (fresh : forall stamp, expired stamp stamp = false)
    {notes : List (Note Key Stamp)}
    (ordered : notes.Pairwise fun earlier later => rank earlier.stamp ≤ rank later.stamp)
    {made : Note Key Stamp} (member : made ∈ notes) :
    (∃ held, held ∈ notes ∧ after expired notes made.key = some held.stamp ∧ rank made.stamp ≤ rank held.stamp) ∨
      ∃ stamp other, other ∈ notes ∧ rank made.stamp ≤ rank stamp ∧ rank stamp ≤ rank other.stamp ∧
        expired other.stamp stamp = true := by
  induction notes using List.reverseRecOn with
  | nil => cases member
  | append_singleton notes last inductionHypothesis =>
      have ends : after expired (notes ++ [last]) = note expired (after expired notes) last := by
        rw [after, Runs.run_append]
        rfl
      have lastListed : last ∈ notes ++ [last] := List.mem_append_right _ (List.mem_singleton_self last)
      rcases List.pairwise_append.mp ordered with ⟨orderedBefore, _, across⟩
      have upTo : forall other, other ∈ notes -> rank other.stamp ≤ rank last.stamp := fun other listed =>
        across other listed last (List.mem_singleton_self last)
      by_cases same : made.key = last.key
      · left
        refine ⟨last, lastListed, ?_, ?_⟩
        · rw [ends, note, if_pos same, Option.filter_some, fresh, Bool.not_false, if_pos rfl]
        · rcases List.mem_append.mp member with old | new
          · exact upTo made old
          · rw [List.mem_singleton.mp new]
      · have old : made ∈ notes := by
          rcases List.mem_append.mp member with old | new
          · exact old
          · exact absurd (congrArg Note.key (List.mem_singleton.mp new)) same
        rcases inductionHypothesis orderedBefore old with ⟨held, listed, found, since⟩ | ⟨stamp, other, listed, removed⟩
        · cases gone : expired last.stamp held.stamp with
          | true => exact Or.inr ⟨held.stamp, last, lastListed, since, upTo held listed, gone⟩
          | false =>
              refine Or.inl ⟨held, List.mem_append_left _ listed, ?_, since⟩
              rw [ends, note, if_neg same, found, Option.filter_some, gone, Bool.not_false, if_pos rfl]
        · exact Or.inr ⟨stamp, other, List.mem_append_left _ listed, removed⟩

end SweptMemory
end Library
