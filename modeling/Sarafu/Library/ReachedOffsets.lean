import Sarafu.Library.Decoding

namespace Library
namespace Decoding

/-!
# Where a decoder ends

For one vector and one offset the rules say exactly when a decoder stays inside, and at
which offset it leaves a value.  Each rule is an equivalence, so the rules of the fields of a
record add up to the exact condition on its bytes.
-/

variable {Symbol Error Value Result : Type} {decoder : Decoder Symbol Error Value} {data : List Symbol}
  {offset start middle stop : Nat}

/-- From the offset the decoder does not read outside of the vector. -/
def Safe (decoder : Decoder Symbol Error Value) (data : List Symbol) (offset : Nat) : Prop :=
  decoder data offset ≠ .outside

/-- From one offset the decoder ends with a value at another one. -/
def Reaches (decoder : Decoder Symbol Error Value) (data : List Symbol) (start stop : Nat) : Prop :=
  ∃ value, decoder data start = .value (value, stop)

/-- Where it accepts the symbols, the decoder goes on by a fixed width. -/
def Strides (decoder : Decoder Symbol Error Value) (data : List Symbol) (width : Nat) (accepts : Nat -> Prop) : Prop :=
  forall start stop, Reaches decoder data start stop <-> accepts start ∧ stop = start + width

theorem bind_of_value {next : Value -> Decoder Symbol Error Result} {value : Value}
    (ends : decoder data start = .value (value, middle)) : (decoder >>= next) data start = next value data middle := by
  change (decoder data start).bind (fun reached => next reached.1 data reached.2) = _
  rw [ends]
  rfl

theorem run_ne_outside_iff : decoder.run data ≠ .outside <-> Safe decoder data 0 := by
  unfold Decoder.run Safe
  cases decoder data 0 with
  | value reached => exact iff_of_true nofun nofun
  | throws error => exact iff_of_true nofun nofun
  | outside => exact iff_of_false (fun inside => inside rfl) fun inside => inside rfl

theorem exists_run_eq_value_iff :
    (∃ value, decoder.run data = .value value) <-> ∃ stop, Reaches decoder data 0 stop := by
  unfold Decoder.run Reaches
  cases decoder data 0 with
  | value reached => exact iff_of_true ⟨reached.1, rfl⟩ ⟨reached.2, reached.1, rfl⟩
  | throws error =>
      exact iff_of_false (fun ⟨_, impossible⟩ => nomatch impossible) fun ⟨_, _, impossible⟩ => nomatch impossible
  | outside =>
      exact iff_of_false (fun ⟨_, impossible⟩ => nomatch impossible) fun ⟨_, _, impossible⟩ => nomatch impossible

namespace Safe

theorem pure (value : Value) : Safe (Pure.pure value : Decoder Symbol Error Value) data offset := nofun

theorem bind_iff {next : Value -> Decoder Symbol Error Result} : Safe (decoder >>= next) data offset <->
    Safe decoder data offset ∧
      forall value stop, decoder data offset = .value (value, stop) -> Safe (next value) data stop := by
  change (decoder data offset).bind (fun reached => next reached.1 data reached.2) ≠ .outside <->
    decoder data offset ≠ .outside ∧ _
  cases decoder data offset with
  | value reached =>
      constructor
      · intro inside
        refine ⟨nofun, ?_⟩
        intro value stop same
        cases same
        exact inside
      · intro both
        exact both.2 reached.1 reached.2 rfl
  | throws error => exact iff_of_true nofun ⟨nofun, nofun⟩
  | outside => exact iff_of_false (fun inside => inside rfl) fun both => both.1 rfl

theorem last_iff {build : Value -> Result} :
    Safe (decoder >>= fun value => Pure.pure (build value)) data offset <-> Safe decoder data offset := by
  rw [bind_iff]
  exact and_iff_left fun value stop _ => Safe.pure (build value)

/-- Behind a decoder of a fixed width, if the value makes no difference. -/
theorem bind_iff_of_strides {next : Value -> Decoder Symbol Error Result} {width : Nat} {accepts : Nat -> Prop}
    {condition : Prop} (strides : Strides decoder data width accepts)
    (tail : forall value, Safe (next value) data (offset + width) <-> condition) :
    Safe (decoder >>= next) data offset <-> Safe decoder data offset ∧ (accepts offset -> condition) := by
  rw [bind_iff]
  refine and_congr_right fun _ => ?_
  constructor
  · intro each accepted
    rcases (strides offset _).mpr ⟨accepted, rfl⟩ with ⟨value, ends⟩
    exact (tail value).mp (each value _ ends)
  · intro holds value stop ends
    rcases (strides offset stop).mp ⟨value, ends⟩ with ⟨accepted, rfl⟩
    exact (tail value).mpr (holds accepted)

theorem lift_iff {outcome : Outcome Error Value} :
    Safe (Decoder.lift outcome : Decoder Symbol Error Value) data offset <-> outcome ≠ .outside := by
  unfold Safe Decoder.lift
  cases outcome with
  | value result => exact iff_of_true nofun nofun
  | throws error => exact iff_of_true nofun nofun
  | outside => exact iff_of_false (fun inside => inside rfl) fun inside => inside rfl

theorem lift_bind_iff {outcome : Outcome Error Value} {next : Value -> Decoder Symbol Error Result} :
    Safe (Decoder.lift outcome >>= next) data offset <->
      outcome ≠ .outside ∧ forall value, outcome = .value value -> Safe (next value) data offset := by
  rw [bind_iff]
  unfold Safe Decoder.lift
  cases outcome with
  | value result =>
      refine and_congr (iff_of_true nofun nofun) ?_
      constructor
      · intro each value same
        cases same
        exact each result offset rfl
      · intro each value stop same
        cases same
        exact each result rfl
  | throws error => exact iff_of_true ⟨nofun, nofun⟩ ⟨nofun, nofun⟩
  | outside => exact iff_of_false (fun both => both.1 rfl) fun both => both.1 rfl

theorem field_iff {inside : Prop} [Decidable inside] {value : Value}
    (field : decoder data offset = if inside then .value (value, stop) else .outside) :
    Safe decoder data offset <-> inside := by
  rw [Safe, field]
  split
  · rename_i holds
    exact iff_of_true nofun holds
  · rename_i fails
    exact iff_of_false (fun safe => safe rfl) fails

/-- Behind a field that is inside and has a known value, or is outside. -/
theorem field_bind_iff {next : Value -> Decoder Symbol Error Result} {inside : Prop} [Decidable inside] {value : Value}
    (field : decoder data offset = if inside then .value (value, stop) else .outside) :
    Safe (decoder >>= next) data offset <-> inside ∧ Safe (next value) data stop := by
  rw [bind_iff, Safe, field]
  by_cases holds : inside
  · rw [if_pos holds]
    refine and_congr (iff_of_true nofun holds) ?_
    constructor
    · intro each
      exact each value stop rfl
    · intro safe other last same
      cases same
      exact safe
  · rw [if_neg holds]
    exact iff_of_false (fun both => both.1 rfl) fun both => holds both.1

/-- Behind a check that throws or goes on where it stands. -/
theorem check_bind_iff {check : Decoder Symbol Error Unit} {fails : Prop} [Decidable fails] {error : Error}
    (checks : check data offset = if fails then .throws error else .value ((), offset))
    {next : Unit -> Decoder Symbol Error Result} :
    Safe (check >>= next) data offset <-> (¬ fails -> Safe (next ()) data offset) := by
  rw [bind_iff, Safe, checks]
  by_cases failed : fails
  · rw [if_pos failed]
    exact iff_of_true ⟨nofun, nofun⟩ fun passed => absurd failed passed
  · rw [if_neg failed]
    constructor
    · intro both _
      exact both.2 () offset rfl
    · intro holds
      refine ⟨nofun, ?_⟩
      intro value stop same
      cases same
      exact holds failed

theorem require_bind_iff {count : Nat} {error : Error} {next : Unit -> Decoder Symbol Error Result} :
    Safe (Decoder.require count error >>= next) data offset <->
      (sizeSum offset count ≤ data.length -> Safe (next ()) data offset) := by
  rw [← Nat.not_lt]
  exact check_bind_iff rfl

theorem requireEach_bind_iff {count : Nat} {error : Error} {next : Unit -> Decoder Symbol Error Result} :
    Safe (Decoder.requireEach count error >>= next) data offset <->
      (offset + count ≤ data.length -> Safe (next ()) data offset) := by
  rw [← Nat.not_lt]
  exact check_bind_iff rfl

theorem requireExactly_bind_iff {count : Nat} {error : Error} {next : Unit -> Decoder Symbol Error Result} :
    Safe (Decoder.requireExactly count error >>= next) data offset <->
      (sizeSum offset count = data.length -> Safe (next ()) data offset) :=
  (check_bind_iff rfl).trans (imp_congr_left not_not)

end Safe

/-- A field of a fixed width that is inside or outside. -/
theorem strides_of_field {width : Nat} {inside : Nat -> Prop} [DecidablePred inside]
    (field : forall start, ∃ value,
      decoder data start = if inside start then .value (value, start + width) else .outside) :
    Strides decoder data width inside := by
  intro start stop
  rcases field start with ⟨value, field⟩
  rw [Reaches, field]
  split
  · rename_i holds
    constructor
    · rintro ⟨other, ends⟩
      cases ends
      exact ⟨holds, rfl⟩
    · rintro ⟨_, rfl⟩
      exact ⟨value, rfl⟩
  · rename_i fails
    exact iff_of_false (fun ⟨_, impossible⟩ => nomatch impossible) fun both => fails both.1

/-! ## Slices -/

/-- A slice is inside if and only if the sum of its offset and its size is, without wrapping
around. -/
theorem slice_eq {count : Nat} (small : count < 2 ^ 64) (vector : data.length < 2 ^ 64) (offset : Nat) :
    (Decoder.slice count : Decoder Symbol Error (List Symbol)) data offset =
      if offset + count ≤ data.length then .value ((data.drop offset).take count, offset + count) else .outside := by
  unfold Decoder.slice sizeSum
  by_cases inside : offset + count ≤ data.length
  · have sum : (offset + count) % 2 ^ 64 = offset + count := Nat.mod_eq_of_lt (by omega)
    rw [if_pos inside, sum, if_pos ⟨Nat.le_add_right _ _, inside⟩, Nat.add_sub_cancel_left]
  · rw [if_neg inside, if_neg]
    rintro ⟨ordered, most⟩
    omega

theorem Safe.slice_bind_iff {count : Nat} {next : List Symbol -> Decoder Symbol Error Result} (small : count < 2 ^ 64)
    (vector : data.length < 2 ^ 64) : Safe (Decoder.slice count >>= next) data offset <->
      offset + count ≤ data.length ∧ Safe (next ((data.drop offset).take count)) data (offset + count) :=
  Safe.field_bind_iff (slice_eq small vector offset)

namespace Reaches

theorem pure (value : Value) : Reaches (Pure.pure value : Decoder Symbol Error Value) data offset offset := ⟨value, rfl⟩

theorem bind {next : Value -> Decoder Symbol Error Result} (first : Reaches decoder data start middle)
    (second : forall value, Reaches (next value) data middle stop) : Reaches (decoder >>= next) data start stop := by
  rcases first with ⟨value, ends⟩
  rcases second value with ⟨result, last⟩
  exact ⟨result, (bind_of_value ends).trans last⟩

/-- Behind a field that is inside. -/
theorem field {next : Value -> Decoder Symbol Error Result} {inside : Prop} [Decidable inside] {value : Value}
    (field : decoder data start = if inside then .value (value, middle) else .outside) (holds : inside)
    (second : Reaches (next value) data middle stop) : Reaches (decoder >>= next) data start stop := by
  rcases second with ⟨result, last⟩
  exact ⟨result, (bind_of_value (field.trans (if_pos holds))).trans last⟩

/-- Behind a check that passes. -/
theorem check {check : Decoder Symbol Error Unit} {fails : Prop} [Decidable fails] {error : Error}
    {next : Unit -> Decoder Symbol Error Result}
    (checks : check data start = if fails then .throws error else .value ((), start)) (passes : ¬ fails)
    (second : Reaches (next ()) data start stop) : Reaches (check >>= next) data start stop := by
  rcases second with ⟨result, last⟩
  exact ⟨result, (bind_of_value (checks.trans (if_neg passes))).trans last⟩

theorem last {build : Value -> Result} (reaches : Reaches decoder data start stop) :
    Reaches (decoder >>= fun value => Pure.pure (build value)) data start stop :=
  reaches.bind fun value => Reaches.pure (build value)

theorem lift {outcome : Outcome Error Value} (ends : ∃ value, outcome = .value value) :
    Reaches (Decoder.lift outcome : Decoder Symbol Error Value) data start start := by
  rcases ends with ⟨value, rfl⟩
  exact ⟨value, rfl⟩

theorem bind_iff {next : Value -> Decoder Symbol Error Result} : Reaches (decoder >>= next) data start stop <->
    ∃ value middle, decoder data start = .value (value, middle) ∧ Reaches (next value) data middle stop := by
  constructor
  · rintro ⟨result, ends⟩
    change (decoder data start).bind (fun reached => next reached.1 data reached.2) = _ at ends
    cases reached : decoder data start with
    | value place =>
        rw [reached] at ends
        exact ⟨place.1, place.2, rfl, result, ends⟩
    | throws error =>
        rw [reached] at ends
        cases ends
    | outside =>
        rw [reached] at ends
        cases ends
  · rintro ⟨value, middle, ends, result, last⟩
    exact ⟨result, (bind_of_value ends).trans last⟩

theorem last_iff {build : Value -> Result} :
    Reaches (decoder >>= fun value => Pure.pure (build value)) data start stop <-> Reaches decoder data start stop := by
  rw [bind_iff]
  constructor
  · rintro ⟨value, middle, ends, result, same⟩
    cases same
    exact ⟨value, ends⟩
  · rintro ⟨value, ends⟩
    exact ⟨value, stop, ends, Reaches.pure (build value)⟩

end Reaches

/-- A check that passes wherever the decoder accepts. -/
theorem strides_require {width count : Nat} {accepts : Nat -> Prop} (strides : Strides decoder data width accepts)
    (error : Error) (passes : forall start, accepts start -> sizeSum start count ≤ data.length) :
    Strides (Decoder.require count error >>= fun _ => decoder) data width accepts := by
  intro start stop
  constructor
  · intro reached
    rcases Reaches.bind_iff.mp reached with ⟨_, middle, checked, ends⟩
    unfold Decoder.require at checked
    split at checked
    · cases checked
    · cases checked
      exact (strides start stop).mp ends
  · intro both
    exact Reaches.check rfl (Nat.not_lt.mpr (passes start both.1)) ((strides start stop).mpr both)

/-! ## Loops -/

section Loops

variable {width : Nat} {accepts : Nat -> Prop} (strides : Strides decoder data width accepts)

include strides

/-- A loop accepts what each of its iterations accepts. -/
theorem strides_many (count : Nat) : Strides (Decoder.many decoder count) data (width * count) fun start =>
    forall index, index < count -> accepts (start + width * index) := by
  induction count with
  | zero =>
      intro start stop
      constructor
      · rintro ⟨values, ends⟩
        cases ends
        exact ⟨fun index impossible => absurd impossible (Nat.not_lt_zero index), rfl⟩
      · rintro ⟨_, rfl⟩
        exact Reaches.pure []
  | succ count inductionHypothesis =>
      intro start stop
      have shifted : forall index, start + width + width * index = start + width * (index + 1) := by
        intro index
        rw [Nat.mul_succ]
        omega
      have whole : (forall index, index < count + 1 -> accepts (start + width * index)) <->
          accepts start ∧ forall index, index < count -> accepts (start + width + width * index) := by
        rw [Nat.forall_lt_succ_left, Nat.mul_zero, Nat.add_zero]
        simp only [shifted]
      change Reaches (Decoder.many decoder (count + 1)) data start stop <-> (forall index, _) ∧ _
      rw [whole, ← shifted count, and_assoc, Decoder.many, Reaches.bind_iff]
      constructor
      · rintro ⟨value, middle, ends, others⟩
        rcases (strides start middle).mp ⟨value, ends⟩ with ⟨accepted, rfl⟩
        exact ⟨accepted, (inductionHypothesis _ stop).mp (Reaches.last_iff.mp others)⟩
      · rintro ⟨accepted, others⟩
        rcases (strides start _).mpr ⟨accepted, rfl⟩ with ⟨value, ends⟩
        exact ⟨value, _, ends, ((inductionHypothesis _ stop).mpr others).last⟩

/-- A loop stays inside if every iteration that is reached does. -/
theorem safe_many_iff (count : Nat) : Safe (Decoder.many decoder count) data offset <->
    forall index, index < count -> (forall earlier, earlier < index -> accepts (offset + width * earlier)) ->
      Safe decoder data (offset + width * index) := by
  induction count generalizing offset with
  | zero => exact iff_of_true (Safe.pure []) fun index impossible => absurd impossible (Nat.not_lt_zero index)
  | succ count inductionHypothesis =>
      have shifted : forall index, offset + width + width * index = offset + width * (index + 1) := by
        intro index
        rw [Nat.mul_succ]
        omega
      rw [Decoder.many, Safe.bind_iff_of_strides strides fun value => Safe.last_iff.trans inductionHypothesis,
        Nat.forall_lt_succ_left, Nat.mul_zero, Nat.add_zero]
      simp only [shifted]
      refine and_congr ?_ ?_
      · constructor
        · exact fun inside _ => inside
        · exact fun holds => holds fun earlier impossible => absurd impossible (Nat.not_lt_zero earlier)
      · constructor
        · intro holds index small earlierAccepts
          rw [Nat.forall_lt_succ_left, Nat.mul_zero, Nat.add_zero] at earlierAccepts
          exact holds earlierAccepts.1 index small earlierAccepts.2
        · intro holds accepted index small earlierAccepts
          apply holds index small
          rw [Nat.forall_lt_succ_left, Nat.mul_zero, Nat.add_zero]
          exact ⟨accepted, earlierAccepts⟩

end Loops

/-- What is inside as far as a loop gets is inside where only the other condition is asked of
the earlier items. -/
theorem forall_inside_iff {inside others : Nat -> Prop} (count : Nat) :
    (forall index, index < count ->
        (forall earlier, earlier < index -> inside earlier ∧ others earlier) -> inside index) <->
      forall index, index < count -> (forall earlier, earlier < index -> others earlier) -> inside index := by
  constructor
  · intro holds index
    induction index using Nat.strong_induction_on with
    | _ index inductionHypothesis =>
        intro small earlierOthers
        apply holds index small
        intro earlier before
        refine ⟨inductionHypothesis earlier before (by omega) fun first lower => ?_, earlierOthers earlier before⟩
        exact earlierOthers first (by omega)
  · intro holds index small both
    exact holds index small fun earlier before => (both earlier before).2

/-- A loop over items that only have to be inside is inside if all its items are. -/
theorem safe_many_iff_le {width : Nat} (strides : Strides decoder data width fun start => start + width ≤ data.length)
    (safe : forall start, Safe decoder data start <-> start + width ≤ data.length) (inside : offset ≤ data.length)
    (count : Nat) : Safe (Decoder.many decoder count) data offset <-> offset + width * count ≤ data.length := by
  rw [safe_many_iff strides]
  simp only [safe]
  have shifted : forall index, offset + width * index + width = offset + width * (index + 1) := by
    intro index
    rw [Nat.mul_succ, Nat.add_assoc]
  constructor
  · intro holds
    have reached : forall index, index ≤ count -> offset + width * index ≤ data.length := by
      intro index
      induction index using Nat.strong_induction_on with
      | _ index inductionHypothesis =>
          intro small
          rcases Nat.eq_zero_or_pos index with rfl | positive
          · exact inside
          · have last := holds (index - 1) (by omega) fun earlier before => by
              rw [shifted]
              exact inductionHypothesis (earlier + 1) (by omega) (by omega)
            rw [shifted, Nat.sub_add_cancel positive] at last
            exact last
    exact reached count (Nat.le_refl count)
  · intro enough index small _
    have most : width * (index + 1) ≤ width * count := Nat.mul_le_mul_left width small
    rw [shifted]
    omega

end Decoding
end Library
