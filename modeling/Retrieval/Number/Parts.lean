import Retrieval.Text.Blank

/-!
# Parts of a written number

A written number is handed on in parts: its sign, its digits with the point, and the zeros that only
mark places, which come in groups. Together the parts are the text.
-/

namespace Retrieval.Number

/-- The length of a group of zeros. -/
def zeroGroupLength : Nat := 64

/-- Zeros in full groups, with the rest of them last. -/
def zeroGroups (count : Nat) : List (List Char) :=
  List.replicate (count / zeroGroupLength) (List.replicate zeroGroupLength '0')
    ++ [List.replicate (count % zeroGroupLength) '0']

theorem flatten_zeroGroups (count : Nat) :
    (zeroGroups count).flatten = List.replicate count '0' := by
  simp [zeroGroups, List.flatten_replicate_replicate, Nat.div_add_mod']

/-- The parts of a number without sign. Zeros behind the point of a number below one, and zeros at the
end of a whole number, only mark places. -/
def magnitudeParts (characters : List Char) : List (List Char) :=
  match Text.cutCharacters '.' characters with
  | some (['0'], places) =>
      ['0', '.'] :: zeroGroups (places.takeWhile (· == '0')).length
        ++ [places.dropWhile (· == '0')]
  | some (whole, places) => [whole, ['.'], places]
  | none =>
      let backwards := characters.reverse
      (backwards.dropWhile (· == '0')).reverse
        :: zeroGroups (backwards.takeWhile (· == '0')).length

/-- The parts of a written number. -/
def parts : List Char → List (List Char)
  | '-' :: characters => ['-'] :: magnitudeParts characters
  | characters => magnitudeParts characters

theorem replicate_length_takeWhile (characters : List Char) :
    List.replicate (characters.takeWhile (· == '0')).length '0'
      = characters.takeWhile (· == '0') :=
  (List.eq_replicate_iff.mpr ⟨rfl, fun character member => by
    simpa using List.all_eq_true.mp List.all_takeWhile character member⟩).symm

theorem flatten_magnitudeParts (characters : List Char) :
    (magnitudeParts characters).flatten = characters := by
  unfold magnitudeParts
  split
  · next places cut =>
      simp [Text.eq_of_cutCharacters cut, flatten_zeroGroups, replicate_length_takeWhile]
  · next whole places _ cut => simp [Text.eq_of_cutCharacters cut]
  · simp only [List.flatten_cons, flatten_zeroGroups]
    rw [← List.reverse_inj, List.reverse_append, List.reverse_replicate,
      replicate_length_takeWhile]
    simp

/-- The parts of a written number are its text. -/
theorem flatten_parts (characters : List Char) : (parts characters).flatten = characters := by
  unfold parts
  split
  · simp [flatten_magnitudeParts]
  · exact flatten_magnitudeParts _

end Retrieval.Number
