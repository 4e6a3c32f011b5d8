import Mathlib.Logic.Basic
import Retrieval.Text.Alphanumeric
import Retrieval.Text.Lowercase

/-!
# Small letters

What has been lowercased stays as it is when it is lowercased again. Letters and digits are lowercased
into letters and digits, except for the dotted capital I, the form of which ends in a combining dot. A
whole text is lowercased character by character, unless a capital sigma stands at the end of a word.
-/

namespace Retrieval.Text

variable {character lowered : Char} {low high : Nat}

/-! ## Tables -/

namespace CodeRanges

variable {ranges : CodeRanges}

/-- The code points from `low` to `high` lie in one range, the first that does not end before them. -/
def covers (low high : Nat) : CodeRanges → Bool
  | [] => false
  | range :: later =>
      if range.2 < low then covers low high later else range.1 ≤ low && high ≤ range.2

theorem contains_of_covers (proper : ∀ range ∈ ranges, range.1 ≤ range.2)
    (covered : ranges.covers low high = true) (above : low ≤ character.toNat)
    (below : character.toNat ≤ high) : ranges.contains character = true := by
  induction ranges with
  | nil => exact absurd covered Bool.false_ne_true
  | cons range later induction =>
      obtain ⟨isProper, properLater⟩ := List.forall_mem_cons.mp proper
      rw [covers] at covered
      rw [contains]
      split at covered
      · rw [if_neg (by omega), if_neg (by omega)]
        exact induction properLater covered
      · have inside : range.1 ≤ low ∧ high ≤ range.2 := by simpa using covered
        rw [if_neg (by omega), if_pos (by omega)]

theorem le_of_contains {first last : Nat} {later : CodeRanges}
    (inside : contains ((first, last) :: later) character = true) : first ≤ character.toNat := by
  rw [contains] at inside
  split at inside
  · simp at inside
  · omega

end CodeRanges

theorem alphanumericRanges_proper : ∀ range ∈ alphanumericRanges, range.1 ≤ range.2 := by
  decide +kernel

namespace CaseRun

/-- Code point of the lowercase form of the last capital. -/
def lastTarget (run : CaseRun) : Nat := run.target + (run.last - run.first)

/-- The lower forms of a run of capitals are characters, and all of them lie beyond the point. -/
def LeadsBeyondPoint (run : CaseRun) : Prop :=
  '.'.toNat < run.target ∧ ∀ distance ≤ run.last - run.first, (run.target + distance).isValidChar

instance (run : CaseRun) : Decidable run.LeadsBeyondPoint := inferInstanceAs (Decidable (_ ∧ _))

/-- No lowercase form of the run is a capital of ascending runs: where they lie in the span of other
capitals, these are the letters between them. -/
def avoids (run : CaseRun) : List CaseRun → Bool
  | [] => true
  | other :: later =>
      if other.last < run.target then run.avoids later
      else if run.lastTarget < other.first then true
      else (run.first = run.last || run.stride = 2) && other.stride = 2 &&
        (run.target + other.first) % 2 = 1 && run.avoids later

end CaseRun

theorem lowercaseRuns_leadBeyondPoint : ∀ run ∈ lowercaseRuns, run.LeadsBeyondPoint := by
  decide +kernel

theorem lowercaseRuns_covered :
    ∀ run ∈ lowercaseRuns, alphanumericRanges.covers run.target run.lastTarget = true := by
  decide +kernel

theorem lowercaseRuns_avoid : ∀ run ∈ lowercaseRuns, run.avoids lowercaseRuns = true := by
  decide +kernel

/-- The dotted capital I is no lowercase form. -/
theorem lowercaseRuns_undotted :
    ∀ run ∈ lowercaseRuns, run.lastTarget < 0x130 ∨ 0x130 < run.target := by
  decide +kernel

/-! ## Forms in runs -/

theorem toNat_ofNat {code : Nat} (isValid : code.isValidChar) : (Char.ofNat code).toNat = code := by
  rw [Char.ofNat, dif_pos isValid]
  rfl

/-- A character is left as it is, or it is a capital at some distance from the first one of a run. -/
theorem lowerByRuns_cases (runs : List CaseRun) (character : Char) :
    lowerByRuns runs character = character ∨
      ∃ run ∈ runs, ∃ distance ≤ run.last - run.first, distance % run.stride = 0 ∧
        lowerByRuns runs character = Char.ofNat (run.target + distance) := by
  induction runs with
  | nil => exact .inl rfl
  | cons run later induction =>
      rw [lowerByRuns]
      split
      · exact .inl rfl
      · split
        · split
          · next capital =>
              exact .inr ⟨run, List.mem_cons_self, character.toNat - run.first, by omega, capital, rfl⟩
          · exact .inl rfl
        · refine induction.imp_right ?_
          rintro ⟨other, member, found⟩
          exact ⟨other, List.mem_cons_of_mem _ member, found⟩

/-- A lowercase form that no run has as a capital is left as it is. -/
theorem lowerByRuns_of_avoids {run : CaseRun} {runs : List CaseRun} (avoids : run.avoids runs = true)
    {distance : Nat} (bounded : distance ≤ run.last - run.first)
    (even : distance % run.stride = 0) (isForm : character.toNat = run.target + distance) :
    lowerByRuns runs character = character := by
  induction runs with
  | nil => rfl
  | cons other later induction =>
      rw [CaseRun.avoids, CaseRun.lastTarget] at avoids
      rw [lowerByRuns]
      split
      · rfl
      · split at avoids
        · rw [if_neg (by omega)]
          exact induction avoids
        · rw [if_neg (by omega)] at avoids
          simp only [Bool.and_eq_true, Bool.or_eq_true, decide_eq_true_eq] at avoids
          obtain ⟨⟨⟨small, pairs⟩, odd⟩, avoidsLater⟩ := avoids
          have isEven : distance % 2 = 0 := by
            rcases small with alone | two
            · omega
            · rwa [two] at even
          split
          · rw [if_neg (by rw [pairs]; omega)]
          · exact induction avoidsLater

theorem point_lt_lowerByRuns (beyond : '.'.toNat < character.toNat) :
    '.'.toNat < (lowerByRuns lowercaseRuns character).toNat := by
  rcases lowerByRuns_cases lowercaseRuns character with same | ⟨run, member, distance, bounded, -, form⟩
  · rwa [same]
  · obtain ⟨isBeyond, isValid⟩ := lowercaseRuns_leadBeyondPoint run member
    rw [form, toNat_ofNat (isValid distance bounded)]
    exact Nat.lt_add_right _ isBeyond

theorem isAlphanumeric_lowerByRuns (letter : isAlphanumeric character = true) :
    isAlphanumeric (lowerByRuns lowercaseRuns character) = true := by
  rcases lowerByRuns_cases lowercaseRuns character with same | ⟨run, member, distance, bounded, -, form⟩
  · rwa [same]
  · have isForm := toNat_ofNat ((lowercaseRuns_leadBeyondPoint run member).2 distance bounded)
    rw [form]
    refine CodeRanges.contains_of_covers alphanumericRanges_proper (lowercaseRuns_covered run member)
      ?_ ?_ <;> rw [isForm]
    · omega
    · rw [CaseRun.lastTarget]
      omega

/-! ## Forms of characters -/

/-- The dot that is left when the dotted capital I is lowercased. -/
def combiningDot : Char := '\u0307'

theorem isAlphanumeric_combiningDot : isAlphanumeric combiningDot = false := by
  decide +kernel

theorem ne_combiningDot_of_isAlphanumeric (letter : isAlphanumeric character = true) :
    character ≠ combiningDot := by
  rintro rfl
  rw [isAlphanumeric_combiningDot] at letter
  exact Bool.false_ne_true letter

theorem lowerCharacter_of_ne (undotted : character ≠ '\u0130') :
    lowerCharacter character = [lowerByRuns lowercaseRuns character] :=
  if_neg undotted

theorem lowerCharacter_ne_nil (character : Char) : lowerCharacter character ≠ [] := by
  rw [lowerCharacter]
  split <;> exact List.cons_ne_nil _ _

theorem point_lt_of_mem_lowerCharacter (beyond : '.'.toNat < character.toNat)
    (member : lowered ∈ lowerCharacter character) : '.'.toNat < lowered.toNat := by
  rw [lowerCharacter] at member
  split at member
  · rcases List.mem_cons.mp member with rfl | accent
    · decide
    · obtain rfl := List.mem_singleton.mp accent
      decide
  · obtain rfl := List.mem_singleton.mp member
    exact point_lt_lowerByRuns beyond

/-- What has been lowercased stays as it is. -/
theorem lowerCharacter_of_mem (member : lowered ∈ lowerCharacter character) :
    lowerCharacter lowered = [lowered] := by
  by_cases dotted : character = '\u0130'
  · subst dotted
    have forms : (lowerCharacter '\u0130').all fun form => lowerCharacter form = [form] := by
      decide +kernel
    exact of_decide_eq_true (List.all_eq_true.mp forms lowered member)
  · rw [lowerCharacter_of_ne dotted, List.mem_singleton] at member
    subst member
    rcases lowerByRuns_cases lowercaseRuns character with
      same | ⟨run, member, distance, bounded, even, form⟩
    · rw [same, lowerCharacter_of_ne dotted, same]
    · have isForm := toNat_ofNat ((lowercaseRuns_leadBeyondPoint run member).2 distance bounded)
      have undotted : Char.ofNat (run.target + distance) ≠ '\u0130' := by
        intro dotted
        have code : run.target + distance = 0x130 := isForm.symm.trans (congrArg Char.toNat dotted)
        have apart := lowercaseRuns_undotted run member
        rw [CaseRun.lastTarget] at apart
        omega
      rw [form, lowerCharacter_of_ne undotted,
        lowerByRuns_of_avoids (lowercaseRuns_avoid run member) bounded even isForm]

/-- Letters and digits lead to letters and digits, but for the combining dot. -/
theorem isAlphanumeric_of_mem_lowerCharacter (letter : isAlphanumeric character = true)
    (member : lowered ∈ lowerCharacter character) :
    isAlphanumeric lowered = true ∨ lowered = combiningDot ∧ character = '\u0130' := by
  by_cases dotted : character = '\u0130'
  · subst dotted
    have forms : (lowerCharacter '\u0130').all fun form =>
        isAlphanumeric form ∨ form = combiningDot := by decide +kernel
    have form := of_decide_eq_true (List.all_eq_true.mp forms lowered member)
    exact form.imp_right fun dot => ⟨dot, rfl⟩
  · rw [lowerCharacter_of_ne dotted, List.mem_singleton] at member
    exact .inl (member ▸ isAlphanumeric_lowerByRuns letter)

/-! ## Forms of texts -/

/-- A capital sigma of the text stands at the end of a word. -/
def HasFinalSigma (characters : List Char) : Prop :=
  ∃ front back, characters = front ++ '\u03A3' :: back ∧ isWordFinal front.reverse back = true

theorem lowerAfter_eq_flatMap_iff (before characters : List Char) :
    lowerAfter before characters = characters.flatMap lowerCharacter ↔
      ¬∃ front back, characters = front ++ '\u03A3' :: back ∧
        isWordFinal (front.reverse ++ before) back = true := by
  induction characters generalizing before with
  | nil => simp [lowerAfter]
  | cons character later induction =>
      have sigma : lowerCharacter '\u03A3' = ['\u03C3'] := by decide +kernel
      rw [lowerAfter, List.flatMap_cons]
      by_cases final : character = '\u03A3' ∧ isWordFinal before later = true
      · obtain ⟨rfl, isFinal⟩ := final
        simp only [isFinal, if_true, sigma]
        exact iff_of_false (by simp) fun none => none ⟨[], later, rfl, isFinal⟩
      · have lowered : (if character = '\u03A3' then
            if isWordFinal before later = true then ['\u03C2'] else ['\u03C3']
            else lowerCharacter character) = lowerCharacter character := by
          split
          · next isSigma =>
              subst isSigma
              rw [if_neg fun isFinal => final ⟨rfl, isFinal⟩, sigma]
          · rfl
        rw [lowered, List.append_right_inj, induction, not_iff_not]
        constructor
        · rintro ⟨front, back, rfl, isFinal⟩
          exact ⟨character :: front, back, rfl, by simpa using isFinal⟩
        · rintro ⟨front, back, split, isFinal⟩
          cases front with
          | nil =>
              obtain ⟨rfl, rfl⟩ := List.cons_eq_cons.mp split
              exact absurd ⟨rfl, isFinal⟩ final
          | cons first front =>
              obtain ⟨rfl, rfl⟩ := List.cons_eq_cons.mp split
              exact ⟨front, back, rfl, by simpa using isFinal⟩

/-- A text is lowercased character by character exactly if no capital sigma ends a word. -/
theorem lowerText_eq_iff (text : String) :
    lowerText text = String.ofList (text.toList.flatMap lowerCharacter) ↔
      ¬HasFinalSigma text.toList := by
  rw [lowerText, String.ofList_inj, lowerAfter_eq_flatMap_iff]
  simp only [List.append_nil]
  rfl

end Retrieval.Text
