import Mathlib

namespace Library
namespace DueQueue

/-!
# Queues with due times

Items are issued one by one and wait until a release at or after their due time.  A
release takes all items that are due, wherever they stand, and records its own time
with each of them.  A queue carries the proof that its waiting and its released
items are together the issued ones, each as often as it was issued, and that none
was released early.  Nothing is assumed about the times of successive releases.
-/

universe u v

variable {Item : Type u} {Time : Type v} [LE Time]

structure Queue (due : Item -> Time) where
  issued : List Item
  pending : List Item
  /-- Every release with its time. -/
  released : List (Item × Time)
  accounted : issued.Perm (pending ++ released.map Prod.fst)
  timely : forall entry, entry ∈ released -> due entry.1 ≤ entry.2

namespace Queue

variable {due : Item -> Time}

def empty : Queue due := ⟨[], [], [], List.Perm.refl [], nofun⟩

def issue (queue : Queue due) (item : Item) : Queue due where
  issued := queue.issued ++ [item]
  pending := queue.pending ++ [item]
  released := queue.released
  accounted := by
    have appended := queue.accounted.append_right [item]
    rw [List.append_assoc] at appended ⊢
    exact appended.trans (List.Perm.append_left queue.pending List.perm_append_comm)
  timely := queue.timely

/-- Distinct items are released once at most. -/
theorem nodup_released (queue : Queue due) (distinct : queue.issued.Nodup) : (queue.released.map Prod.fst).Nodup :=
  (queue.accounted.nodup_iff.mp distinct).of_append_right

/-- A weight of the issued items is spread over the waiting and the released ones. -/
theorem sum_issued (queue : Queue due) (weight : Item -> Nat) :
    (queue.issued.map weight).sum =
      (queue.pending.map weight).sum + (queue.released.map fun entry => weight entry.1).sum := by
  rw [(queue.accounted.map weight).sum_eq, List.map_append, List.sum_append, List.map_map]
  rfl

variable [DecidableLE Time]

def release (queue : Queue due) (time : Time) : Queue due where
  issued := queue.issued
  pending := queue.pending.filter fun item => decide (¬ due item ≤ time)
  released := queue.released ++ (queue.pending.filter fun item => decide (due item ≤ time)).map fun item => (item, time)
  accounted := by
    have parts := List.filter_append_perm (fun item => decide (¬ due item ≤ time)) queue.pending
    simp only [decide_not, Bool.not_not] at parts ⊢
    rw [List.map_append, List.map_map]
    refine queue.accounted.trans ((parts.symm.append_right _).trans ?_)
    rw [List.append_assoc]
    apply List.Perm.append_left
    refine List.perm_append_comm.trans (List.Perm.of_eq ?_)
    exact congrArg (queue.released.map Prod.fst ++ ·) (List.map_id _).symm
  timely := by
    intro entry member
    rcases List.mem_append.mp member with earlier | now
    · exact queue.timely entry earlier
    · rcases List.mem_map.mp now with ⟨item, taken, rfl⟩
      exact of_decide_eq_true (List.mem_filter.mp taken).2

/-- An issued item that is due has been released before, or a release takes it. -/
theorem released_of_due (queue : Queue due) {item : Item} {time : Time} (issued : item ∈ queue.issued)
    (isDue : due item ≤ time) :
    (∃ earlier, (item, earlier) ∈ queue.released) ∨ (item, time) ∈ (queue.release time).released := by
  rcases List.mem_append.mp (queue.accounted.mem_iff.mp issued) with waiting | before
  · right
    apply List.mem_append_right
    exact List.mem_map_of_mem (List.mem_filter.mpr ⟨waiting, decide_eq_true isDue⟩)
  · left
    rcases List.mem_map.mp before with ⟨⟨found, earlier⟩, member, rfl⟩
    exact ⟨earlier, member⟩

end Queue

end DueQueue
end Library
