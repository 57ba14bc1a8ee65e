import Sarafu.Library.Decoding

namespace Library
namespace Decoding

/-!
# Decoders that read inside of their input

The rules are about every vector, whatever it contains.  A decoder gets some room ahead of
its offset and either throws or leaves some room ahead of the next offset.  A check of the
remaining size makes room out of nothing, so a loop that checks in every iteration keeps no
room at all as its invariant.

The positions in a vector differ by signed numbers of 64 bits, so a vector has fewer than
`2^63` elements.
-/

namespace Outcome

variable {Error Value Result : Type}

/-- Not outside, and a value satisfies the condition. -/
def Within (condition : Value -> Prop) : Outcome Error Value -> Prop
  | value result => condition result
  | throws _ => True
  | outside => False

variable {condition : Value -> Prop} {outcome : Outcome Error Value}

theorem Within.ne_outside (within : outcome.Within condition) : outcome ≠ outside := by
  intro same
  rw [same] at within
  exact within

theorem within_of_ne_outside (inside : outcome ≠ outside) : outcome.Within fun _ => True := by
  cases outcome with
  | value result => exact trivial
  | throws error => exact trivial
  | outside => exact inside rfl

theorem Within.map {function : Value -> Result} {other : Result -> Prop} (within : outcome.Within condition)
    (implies : forall value, condition value -> other (function value)) : (outcome.map function).Within other := by
  cases outcome with
  | value result => exact implies result within
  | throws error => exact trivial
  | outside => exact within

theorem Within.bind {next : Value -> Outcome Error Result} {other : Result -> Prop} (within : outcome.Within condition)
    (implies : forall value, condition value -> (next value).Within other) : (outcome.bind next).Within other := by
  cases outcome with
  | value result => exact implies result within
  | throws error => exact trivial
  | outside => exact within

end Outcome

variable {Symbol Error Value Result : Type} {decoder : Decoder Symbol Error Value} {data : List Symbol}
  {room left next : Nat}

/-- With `room` symbols ahead the decoder reads inside of the vector, and a value leaves
`left` symbols ahead. -/
def Stays (decoder : Decoder Symbol Error Value) (data : List Symbol) (room left : Nat) : Prop :=
  forall offset, offset + room ≤ data.length ->
    (decoder data offset).Within fun reached => reached.2 + left ≤ data.length

/-- The symbols that a decoder leaves are not more than those of the vector. -/
def TakesPart (decoder : Decoder Symbol Error (List Symbol)) (data : List Symbol) : Prop :=
  forall offset reached, decoder data offset = .value reached -> reached.1.length ≤ data.length

theorem takesPart_slice (count : Nat) (data : List Symbol) :
    TakesPart (Decoder.slice count : Decoder Symbol Error (List Symbol)) data := by
  intro offset reached taken
  unfold Decoder.slice at taken
  dsimp only at taken
  split at taken
  · rw [← Outcome.value.inj taken]
    exact Nat.le_trans (List.length_take_le' _ _) (by rw [List.length_drop]; exact Nat.sub_le _ _)
  · cases taken

theorem takesPart_rest (data : List Symbol) :
    TakesPart (Decoder.rest : Decoder Symbol Error (List Symbol)) data := by
  intro offset reached taken
  unfold Decoder.rest at taken
  split at taken
  · rw [← Outcome.value.inj taken]
    exact (List.length_drop).trans_le (Nat.sub_le _ _)
  · cases taken

namespace Stays

theorem run_ne_outside (stays : Stays decoder data room left) (enough : room ≤ data.length) :
    decoder.run data ≠ .outside := by
  have start : 0 + room ≤ data.length := by
    rw [Nat.zero_add]
    exact enough
  have within : (decoder.run data).Within fun _ => True := (stays 0 start).map fun _ _ => trivial
  exact within.ne_outside

theorem weaken {more : Nat} (stays : Stays decoder data room left) (most : room ≤ more) :
    Stays decoder data more left :=
  fun offset inside => stays offset (Nat.le_trans (Nat.add_le_add_left most offset) inside)

theorem pure (value : Value) (data : List Symbol) (left : Nat) :
    Stays (Pure.pure value : Decoder Symbol Error Value) data left left := fun _ inside => inside

theorem bind {following : Value -> Decoder Symbol Error Result} (first : Stays decoder data room left)
    (second : forall value, Stays (following value) data left next) : Stays (decoder >>= following) data room next :=
  fun offset inside => (first offset inside).bind fun reached ahead => second reached.1 reached.2 ahead

/-- The last field of a record. -/
theorem last {build : Value -> Result} (stays : Stays decoder data room left) :
    Stays (decoder >>= fun value => Pure.pure (build value)) data room left :=
  stays.bind fun value => Stays.pure (build value) data left

theorem lift {outcome : Outcome Error Value} (inside : outcome ≠ .outside) (data : List Symbol) (left : Nat) :
    Stays (Decoder.lift outcome) data left left :=
  fun _ ahead => (Outcome.within_of_ne_outside inside).map fun _ _ => ahead

/-- A part of the vector that another function decodes. -/
theorem parsed {decoder : Decoder Symbol Error (List Symbol)} {parse : List Symbol -> Outcome Error Result}
    (stays : Stays decoder data room left) (part : TakesPart decoder data)
    (inside : forall symbols, symbols.length ≤ data.length -> parse symbols ≠ .outside) :
    Stays (decoder >>= fun symbols => Decoder.lift (parse symbols)) data room left := by
  intro offset start
  change ((decoder data offset).bind fun reached => Decoder.lift (parse reached.1) data reached.2).Within _
  have ahead := stays offset start
  cases taken : decoder data offset with
  | value reached =>
      rw [taken] at ahead
      exact Stays.lift (inside reached.1 (part offset reached taken)) data left reached.2 ahead
  | throws error => exact trivial
  | outside =>
      rw [taken] at ahead
      exact ahead

/-- The same in front of further fields. -/
theorem parsed_bind {decoder : Decoder Symbol Error (List Symbol)} {parse : List Symbol -> Outcome Error Value}
    {following : Value -> Decoder Symbol Error Result}
    (first : Stays (decoder >>= fun symbols => Decoder.lift (parse symbols)) data room left)
    (second : forall value, Stays (following value) data left next) :
    Stays (decoder >>= fun symbols => Decoder.lift (parse symbols) >>= following) data room next := by
  have regrouped : (decoder >>= fun symbols => Decoder.lift (parse symbols) >>= following) =
      (decoder >>= fun symbols => Decoder.lift (parse symbols)) >>= following := by
    funext vector offset
    change (decoder vector offset).bind _ = ((decoder vector offset).bind _).bind _
    cases decoder vector offset with
    | value reached => rfl
    | throws error => rfl
    | outside => rfl
  rw [regrouped]
  exact first.bind second

theorem slice (count left : Nat) (vector : data.length < 2 ^ 63) :
    Stays (Decoder.slice count : Decoder Symbol Error (List Symbol)) data (count + left) left := by
  intro offset inside
  have stop : sizeSum offset count = offset + count := sizeSum_of_lt (by omega)
  have bounds : offset ≤ offset + count ∧ offset + count ≤ data.length := by omega
  unfold Decoder.slice
  rw [stop, if_pos bounds]
  change offset + count + left ≤ data.length
  omega

theorem rest (data : List Symbol) (room : Nat) :
    Stays (Decoder.rest : Decoder Symbol Error (List Symbol)) data room 0 := by
  intro offset inside
  unfold Decoder.rest
  rw [if_pos (Nat.le_trans (Nat.le_add_right offset room) inside)]
  exact Nat.le_refl data.length

theorem require {count : Nat} (small : count < 2 ^ 63) (vector : data.length < 2 ^ 63) (error : Error) (room : Nat) :
    Stays (Decoder.require count error : Decoder Symbol Error Unit) data room count := by
  intro offset inside
  have stop : sizeSum offset count = offset + count := sizeSum_of_lt (by omega)
  unfold Decoder.require
  rw [stop]
  split
  · exact trivial
  · rename_i enough
    exact Nat.not_lt.mp enough

theorem requireEach (count : Nat) (data : List Symbol) (error : Error) (room : Nat) :
    Stays (Decoder.requireEach count error : Decoder Symbol Error Unit) data room count := by
  intro offset inside
  unfold Decoder.requireEach
  split
  · exact trivial
  · rename_i enough
    exact Nat.not_lt.mp enough

theorem requireExactly (count : Nat) (data : List Symbol) (error : Error) (room : Nat) :
    Stays (Decoder.requireExactly count error : Decoder Symbol Error Unit) data room room := by
  intro offset inside
  unfold Decoder.requireExactly
  split
  · exact trivial
  · exact inside

/-- The invariant of a loop is the room that one iteration keeps. -/
theorem many (each : Stays decoder data left left) (count : Nat) :
    Stays (Decoder.many decoder count) data left left := by
  induction count with
  | zero => exact Stays.pure [] data left
  | succ count inductionHypothesis => exact each.bind fun _ => inductionHypothesis.last

end Stays
end Decoding
end Library
