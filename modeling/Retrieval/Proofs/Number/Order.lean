import Mathlib.Data.Prod.Lex
import Retrieval.Proofs.Number.Magnitude
import Retrieval.Ranking

/-!
# The order of defined numbers

Among defined numbers the comparisons of double precision are those of a linear order: the places of
negative and positive infinity, and between them sign, exponent and significand. Positive and negative
zero have one place. So a ranking without undefined scores is sorted by a linear order on places and
document numbers, and sorting a part of a sorted ranking once more changes nothing.
-/

namespace Retrieval

namespace Number

open Float.Model

/-- The place of a number, by its kind, its exponent and its significand. -/
abbrev Place := ℤ ×ₗ ℤ ×ₗ ℤ

/-- The place of an unpacked number; the place of an undefined one means nothing. -/
def placeOf : UnpackedFloat → Place
  | .notANumber => toLex (0, toLex (0, 0))
  | .infinity .negative => toLex (-2, toLex (0, 0))
  | .finite .negative mantissa exponent _ => toLex (-1, toLex (-exponent, -mantissa))
  | .zero _ => toLex (0, toLex (0, 0))
  | .finite .positive mantissa exponent _ => toLex (1, toLex (exponent, mantissa))
  | .infinity .positive => toLex (2, toLex (0, 0))

theorem lt_iff_placeOf {left right : UnpackedFloat} (leftDefined : left ≠ .notANumber)
    (rightDefined : right ≠ .notANumber) :
    UnpackedFloat.lt left right = true ↔ placeOf left < placeOf right := by
  rw [UnpackedFloat.lt, beq_iff_eq]
  -- Two kinds decide by themselves; numbers of one sign decide by exponent and significand.
  rcases left with (_ | _) | _ | _ | ⟨_ | _, mantissa, exponent, _⟩ <;>
    rcases right with (_ | _) | _ | _ | ⟨_ | _, other, power, _⟩ <;>
    first
      | contradiction
      | decide
      | simp [UnpackedFloat.compare, placeOf, Prod.Lex.toLex_lt_toLex, Ordering.then_eq_lt,
          Ordering.then_eq_gt, compare_lt_iff_lt, compare_gt_iff_gt]

theorem le_iff_placeOf {left right : UnpackedFloat} (leftDefined : left ≠ .notANumber)
    (rightDefined : right ≠ .notANumber) :
    UnpackedFloat.le left right = true ↔ placeOf left ≤ placeOf right := by
  rw [UnpackedFloat.le]
  rcases left with (_ | _) | _ | _ | ⟨_ | _, mantissa, exponent, _⟩ <;>
    rcases right with (_ | _) | _ | _ | ⟨_ | _, other, power, _⟩ <;>
    first
      | contradiction
      | decide
      | simp [UnpackedFloat.compare, placeOf, Prod.Lex.toLex_le_toLex, Ordering.isLE_iff_ne_gt,
          Ordering.isGE_iff_ne_lt, Ordering.then_eq_lt, Ordering.then_eq_gt, compare_lt_iff_lt,
          compare_gt_iff_gt] <;> omega

/-- The place of a number. -/
def place (number : Float) : Place := placeOf number.toModel.unpack

theorem unpack_ne_of_defined {number : Float} (isDefined : number ≤ number) :
    number.toModel.unpack ≠ .notANumber := by
  intro undefined
  rw [le_iff, undefined] at isDefined
  contradiction

theorem lt_iff_place {left right : Float} (leftDefined : left ≤ left) (rightDefined : right ≤ right) :
    left < right ↔ place left < place right := by
  rw [lt_iff]
  exact lt_iff_placeOf (unpack_ne_of_defined leftDefined) (unpack_ne_of_defined rightDefined)

theorem le_iff_place {left right : Float} (leftDefined : left ≤ left) (rightDefined : right ≤ right) :
    left ≤ right ↔ place left ≤ place right := by
  rw [le_iff]
  exact le_iff_placeOf (unpack_ne_of_defined leftDefined) (unpack_ne_of_defined rightDefined)

end Number

/-! ## Sorted rankings -/

namespace Scored

/-- Where a scored document stands in a sorted ranking: greater scores first, and smaller document
numbers first among scores at one place. -/
def standing (scored : Scored Float) : Number.Placeᵒᵈ ×ₗ DocumentId :=
  toLex (OrderDual.toDual (Number.place scored.score), scored.document)

theorem precedes_iff {left right : Scored Float} (leftDefined : left.score ≤ left.score)
    (rightDefined : right.score ≤ right.score) :
    left.precedes right = true ↔ left.standing < right.standing := by
  have before := Number.lt_iff_place rightDefined leftDefined
  have behind := Number.lt_iff_place leftDefined rightDefined
  rw [precedes, standing, standing, Prod.Lex.toLex_lt_toLex, OrderDual.toDual_lt_toDual]
  simp only [before, behind]
  rcases lt_trichotomy (Number.place left.score) (Number.place right.score) with
    smaller | same | greater
  · simp [smaller, smaller.ne, smaller.not_gt]
  · simp [same]
  · simp [greater]

end Scored

namespace Ranking

variable {ranking : Ranking Float}

/-- A ranking without undefined scores is sorted by where the documents stand. -/
theorem sort_eq_mergeSort (isDefined : ranking.isDefined = true) :
    ranking.sort = ranking.mergeSort fun left right => left.standing ≤ right.standing := by
  have defined : ∀ scored ∈ ranking, scored.score ≤ scored.score := by
    simpa [Ranking.isDefined] using isDefined
  have agree : ∀ left ∈ ranking, ∀ right ∈ ranking,
      (!right.precedes left) = decide (left.standing ≤ right.standing) := by
    intro left leftMember right rightMember
    have precedes := Scored.precedes_iff (defined right rightMember) (defined left leftMember)
    rw [Bool.eq_iff_iff, Bool.not_eq_true', ← Bool.not_eq_true, precedes, not_lt,
      decide_eq_true_iff]
  rw [sort, if_pos isDefined]
  simpa using List.map_mergeSort (f := id) agree

/-- The documents of a sorted ranking stand in order. -/
theorem pairwise_sort (isDefined : ranking.isDefined = true) :
    ranking.sort.Pairwise fun left right => left.standing ≤ right.standing := by
  rw [sort_eq_mergeSort isDefined]
  have transitive (left middle right : Scored Float) :
      decide (left.standing ≤ middle.standing) = true →
        decide (middle.standing ≤ right.standing) = true →
          decide (left.standing ≤ right.standing) = true := by
    simpa using le_trans
  have total (left right : Scored Float) :
      (decide (left.standing ≤ right.standing) || decide (right.standing ≤ left.standing)) = true := by
    simpa using le_total left.standing right.standing
  simpa using List.pairwise_mergeSort transitive total ranking

/-- Sorting what is in order changes nothing. -/
theorem sort_of_pairwise (isDefined : ranking.isDefined = true)
    (sorted : ranking.Pairwise fun left right => left.standing ≤ right.standing) :
    ranking.sort = ranking := by
  rw [sort_eq_mergeSort isDefined]
  exact List.mergeSort_of_pairwise (by simpa using sorted)

theorem isDefined_of_subset {part : Ranking Float} (isDefined : ranking.isDefined = true)
    (subset : part ⊆ ranking) : part.isDefined = true := by
  rw [Ranking.isDefined, List.all_eq_true] at isDefined ⊢
  exact fun scored member => isDefined scored (subset member)

/-- Sorting the first documents of a sorted ranking once more changes nothing. -/
theorem sort_take_sort (isDefined : ranking.isDefined = true) (limit : Nat) :
    Ranking.sort (ranking.sort.take limit) = ranking.sort.take limit := by
  have subset : ranking.sort.take limit ⊆ ranking := fun scored member =>
    ranking.sort_perm.subset (List.mem_of_mem_take member)
  exact sort_of_pairwise (isDefined_of_subset isDefined subset)
    ((pairwise_sort isDefined).sublist (List.take_sublist limit _))

end Ranking

end Retrieval
