import Sarafu.Library.Decoding

namespace Library
namespace Decoding

/-!
# What a decoder has taken

The rules are about every vector on which a decoder ends with a value.  The symbols between
the offset before and the offset after are what the decoder took, and they are related to
the value.  A decoder is canonical if what it takes is the encoding of the value.
-/

variable {Symbol Error Value Result Item : Type}

/-- The symbols of a vector from one offset up to another. -/
def Between (data taken : List Symbol) (offset stop : Nat) : Prop :=
  data.drop offset = taken ++ data.drop stop ∧ stop = offset + taken.length ∧ stop ≤ data.length

/-- A value is left only where the symbols that were taken have the shape. -/
def Takes (decoder : Decoder Symbol Error Value) (shape : Value -> List Symbol -> Prop) : Prop :=
  forall (data : List Symbol) (offset : Nat) (value : Value) (stop : Nat), offset ≤ data.length ->
    decoder data offset = .value (value, stop) -> ∃ taken, Between data taken offset stop ∧ shape value taken

namespace Between

variable {data left right : List Symbol} {offset middle stop : Nat}

theorem nothing (inside : offset ≤ data.length) : Between data [] offset offset := ⟨rfl, rfl, inside⟩

theorem append (first : Between data left offset middle) (second : Between data right middle stop) :
    Between data (left ++ right) offset stop := by
  rcases first with ⟨split, place, _⟩
  rcases second with ⟨rest, next, inside⟩
  refine ⟨?_, ?_, inside⟩
  · rw [split, rest, List.append_assoc]
  · rw [next, place, List.length_append, Nat.add_assoc]

/-- The part between two offsets of which the second one is not before the first one. -/
theorem slice (ordered : offset ≤ stop) (inside : stop ≤ data.length) :
    Between data ((data.drop offset).take (stop - offset)) offset stop := by
  refine ⟨?_, ?_, inside⟩
  · have after : data.drop stop = (data.drop offset).drop (stop - offset) := by
      rw [List.drop_drop, Nat.add_sub_cancel' ordered]
    rw [after, List.take_append_drop]
  · rw [List.length_take, List.length_drop]
    omega

end Between

namespace Takes

variable {decoder : Decoder Symbol Error Value} {shape : Value -> List Symbol -> Prop}

/-- From the start of a vector: what was taken and what is left. -/
theorem run_eq (takes : Takes decoder shape) {data : List Symbol} {value : Value}
    (ends : decoder.run data = .value value) :
    ∃ taken after, data = taken ++ after ∧ shape value taken := by
  unfold Decoder.run at ends
  cases reached : decoder data 0 with
  | throws error =>
      rw [reached] at ends
      cases ends
  | outside =>
      rw [reached] at ends
      cases ends
  | value place =>
      rw [reached] at ends
      cases ends
      rcases takes data 0 place.1 place.2 (Nat.zero_le _) reached with ⟨taken, ⟨split, _⟩, shaped⟩
      exact ⟨taken, data.drop place.2, split, shaped⟩

/-- A vector that is as long as every encoding is the encoding of what is left. -/
theorem whole {write : Value -> List Symbol} {size : Nat} (takes : Takes decoder fun value taken => taken = write value)
    (sized : forall value, (write value).length = size) {data : List Symbol} {value : Value}
    (length : data.length = size) (ends : decoder.run data = .value value) : write value = data := by
  rcases takes.run_eq ends with ⟨_, after, rfl, rfl⟩
  rw [List.length_append, sized value] at length
  have nothing : after = [] := List.length_eq_zero_iff.mp (by omega)
  rw [nothing, List.append_nil]

theorem weaken {other : Value -> List Symbol -> Prop} (takes : Takes decoder shape)
    (implies : forall value taken, shape value taken -> other value taken) : Takes decoder other := by
  intro data offset value stop inside ends
  rcases takes data offset value stop inside ends with ⟨taken, between, shaped⟩
  exact ⟨taken, between, implies value taken shaped⟩

theorem pure {value : Value} (shaped : shape value []) :
    Takes (Pure.pure value : Decoder Symbol Error Value) shape := by
  intro data offset other stop inside ends
  cases ends
  exact ⟨[], Between.nothing inside, shaped⟩

theorem bind {next : Value -> Decoder Symbol Error Result} {whole : Result -> List Symbol -> Prop}
    (first : Takes decoder shape)
    (second : forall value taken, shape value taken ->
      Takes (next value) fun result rest => whole result (taken ++ rest)) : Takes (decoder >>= next) whole := by
  intro data offset result stop inside ends
  change ((decoder data offset).bind fun reached => next reached.1 data reached.2) = _ at ends
  cases reached : decoder data offset with
  | throws error =>
      rw [reached] at ends
      cases ends
  | outside =>
      rw [reached] at ends
      cases ends
  | value place =>
      rw [reached] at ends
      rcases first data offset place.1 place.2 inside reached with ⟨taken, before, shaped⟩
      rcases second place.1 taken shaped data place.2 result stop before.2.2 ends with ⟨rest, after, shapedWhole⟩
      exact ⟨taken ++ rest, before.append after, shapedWhole⟩

/-- The last field of a record. -/
theorem last {build : Value -> Result} {whole : Result -> List Symbol -> Prop} (takes : Takes decoder shape)
    (implies : forall value taken, shape value taken -> whole (build value) taken) :
    Takes (decoder >>= fun value => Pure.pure (build value)) whole := by
  refine takes.bind fun value taken shaped => Takes.pure ?_
  rw [List.append_nil]
  exact implies value taken shaped

theorem lift (outcome : Outcome Error Value) :
    Takes (Decoder.lift outcome : Decoder Symbol Error Value)
      fun value taken => taken = [] ∧ outcome = .value value := by
  intro data offset value stop inside ends
  unfold Decoder.lift at ends
  cases outcome with
  | throws error => cases ends
  | outside => cases ends
  | value result =>
      cases ends
      exact ⟨[], Between.nothing inside, rfl, rfl⟩

/-- Symbols that another function decodes. -/
theorem parsed {decoder : Decoder Symbol Error (List Symbol)} {parse : List Symbol -> Outcome Error Result}
    {whole : Result -> List Symbol -> Prop} (takes : Takes decoder fun symbols taken => taken = symbols)
    (implies : forall symbols result, parse symbols = .value result -> whole result symbols) :
    Takes (decoder >>= fun symbols => Decoder.lift (parse symbols)) whole := by
  refine takes.bind ?_
  rintro _ symbols rfl
  refine (Takes.lift (parse symbols)).weaken ?_
  rintro result _ ⟨rfl, ends⟩
  rw [List.append_nil]
  exact implies symbols result ends

theorem slice {count : Nat} (small : count < 2 ^ 64) :
    Takes (Decoder.slice count : Decoder Symbol Error (List Symbol)) fun symbols taken =>
      taken = symbols ∧ symbols.length = count := by
  intro data offset symbols stop inside ends
  unfold Decoder.slice at ends
  dsimp only at ends
  split at ends
  · rename_i bounds
    rcases bounds with ⟨ordered, most⟩
    cases ends
    refine ⟨_, Between.slice ordered most, rfl, ?_⟩
    -- a sum that wraps around is smaller than the offset
    unfold sizeSum at ordered most ⊢
    rw [List.length_take, List.length_drop]
    omega
  · cases ends

theorem rest : Takes (Decoder.rest : Decoder Symbol Error (List Symbol)) fun symbols taken => taken = symbols := by
  intro data offset symbols stop inside ends
  unfold Decoder.rest at ends
  rw [if_pos inside] at ends
  cases ends
  refine ⟨data.drop offset, ⟨?_, ?_, Nat.le_refl _⟩, rfl⟩
  · rw [List.drop_length, List.append_nil]
  · rw [List.length_drop]
    omega

theorem require (count : Nat) (error : Error) :
    Takes (Decoder.require count error : Decoder Symbol Error Unit) fun _ taken => taken = [] := by
  intro data offset value stop inside ends
  unfold Decoder.require at ends
  split at ends
  · cases ends
  · cases ends
    exact ⟨[], Between.nothing inside, rfl⟩

theorem requireEach (count : Nat) (error : Error) :
    Takes (Decoder.requireEach count error : Decoder Symbol Error Unit) fun _ taken => taken = [] := by
  intro data offset value stop inside ends
  unfold Decoder.requireEach at ends
  split at ends
  · cases ends
  · cases ends
    exact ⟨[], Between.nothing inside, rfl⟩

theorem requireExactly (count : Nat) (error : Error) :
    Takes (Decoder.requireExactly count error : Decoder Symbol Error Unit) fun _ taken => taken = [] := by
  intro data offset value stop inside ends
  unfold Decoder.requireExactly at ends
  split at ends
  · cases ends
  · cases ends
    exact ⟨[], Between.nothing inside, rfl⟩

/-- A check in front of a decoder. -/
theorem after {check : Decoder Symbol Error Unit} (checks : Takes check fun _ taken => taken = [])
    (takes : Takes decoder shape) : Takes (check >>= fun _ => decoder) shape := by
  refine checks.bind ?_
  rintro _ _ rfl
  exact takes

/-- A loop takes the encodings of its items one after the other. -/
theorem many {decoder : Decoder Symbol Error Item} {write : Item -> List Symbol}
    (each : Takes decoder fun item taken => taken = write item) (count : Nat) :
    Takes (Decoder.many decoder count) fun items taken => taken = items.flatMap write ∧ items.length = count := by
  induction count with
  | zero => exact Takes.pure ⟨rfl, rfl⟩
  | succ count inductionHypothesis =>
      refine each.bind ?_
      rintro item _ rfl
      refine inductionHypothesis.last ?_
      rintro items _ ⟨rfl, rfl⟩
      exact ⟨rfl, rfl⟩

end Takes
end Decoding
end Library
