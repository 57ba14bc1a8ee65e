import Mathlib.Data.List.Rotate

namespace Library
namespace RoundRobin

/-!
# Taking turns

The members of a list take turns by a counter, modulo the length of the list.
-/

variable {Member : Type*}

/-- Whose turn it is at so many counters in a row. -/
def turns (members : List Member) (start count : Nat) : List Member :=
  (List.range count).filterMap fun turn => members[(start + turn) % members.length]?

variable {members : List Member}

theorem turns_append (start first second : Nat) :
    turns members start (first + second) = turns members start first ++ turns members (start + first) second := by
  unfold turns
  rw [List.range_add, List.filterMap_append, List.filterMap_map]
  congr 2
  funext turn
  simp only [Function.comp_apply, Nat.add_assoc]

theorem turns_succ (start count : Nat) :
    turns members start (count + 1) = (members[start % members.length]?).toList ++ turns members (start + 1) count := by
  rw [Nat.add_comm count 1, turns_append]
  congr 1

/-- One round goes through the list once, from where it starts. -/
theorem turns_length (start : Nat) : turns members start members.length = members.rotate start := by
  have place : forall turn, turn ∈ List.range members.length ->
      members[(start + turn) % members.length]? = (members.rotate start)[turn]? := by
    intro turn inside
    rw [List.getElem?_rotate (List.mem_range.mp inside), Nat.add_comm]
  unfold turns
  rw [List.filterMap_congr place, ← List.length_rotate members start]
  apply List.ext_getElem?
  intro turn
  induction members.rotate start generalizing turn with
  | nil => simp
  | cons member rest inductionHypothesis =>
      simp only [List.length_cons, List.range_succ_eq_map, List.filterMap_cons, List.getElem?_cons_zero,
        List.filterMap_map, Function.comp_def, List.getElem?_cons_succ]
      cases turn with
      | zero => rfl
      | succ turn => exact inductionHypothesis turn

/-- In so many whole rounds, everyone has that many turns. -/
theorem count_turns [DecidableEq Member] (start rounds : Nat) (member : Member) :
    (turns members start (rounds * members.length)).count member = rounds * members.count member := by
  induction rounds generalizing start with
  | zero =>
      rw [Nat.zero_mul, Nat.zero_mul]
      exact List.count_nil
  | succ rounds inductionHypothesis =>
      rw [Nat.succ_mul, Nat.add_comm, turns_append, List.count_append, inductionHypothesis, turns_length,
        (List.rotate_perm members start).count_eq, Nat.succ_mul, Nat.add_comm]

end RoundRobin
end Library
