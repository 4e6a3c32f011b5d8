import Mathlib.Data.List.Basic
import Retrieval.Tally

/-!
# Distinct words

The first occurrences of the words of a list are its words, each of them once, as they remain when later
occurrences are erased. The tally counts the occurrences.
-/

namespace Retrieval

theorem mem_firstOccurrencesBeyond {seen : Std.HashSet String} {words : List String} {word : String} :
    word ∈ firstOccurrencesBeyond seen words ↔ word ∈ words ∧ word ∉ seen := by
  induction words generalizing seen with
  | nil => simp [firstOccurrencesBeyond]
  | cons first later induction =>
      rw [firstOccurrencesBeyond]
      split
      · next before =>
          have known : first ∈ seen := before
          rw [induction, List.mem_cons]
          constructor
          · exact fun ⟨inside, new⟩ => ⟨.inr inside, new⟩
          · rintro ⟨rfl | inside, new⟩
            · exact absurd known new
            · exact ⟨inside, new⟩
      · next unseen =>
          have new : first ∉ seen := fun known => unseen known
          rw [List.mem_cons, induction, List.mem_cons, Std.HashSet.mem_insert]
          by_cases same : word = first
          · subst same
            simp [new]
          · simp [same, Ne.symm same]

/-- The first occurrences of the words of a list are those words. -/
theorem mem_firstOccurrences {words : List String} {word : String} :
    word ∈ firstOccurrences words ↔ word ∈ words := by
  rw [firstOccurrences, mem_firstOccurrencesBeyond]
  simp

theorem nodup_firstOccurrencesBeyond (seen : Std.HashSet String) (words : List String) :
    (firstOccurrencesBeyond seen words).Nodup := by
  induction words generalizing seen with
  | nil => exact List.nodup_nil
  | cons word later induction =>
      rw [firstOccurrencesBeyond]
      split
      · exact induction seen
      · refine List.nodup_cons.mpr ⟨fun again => ?_, induction _⟩
        exact (mem_firstOccurrencesBeyond.mp again).2 Std.HashSet.mem_insert_self

theorem nodup_firstOccurrences (words : List String) : (firstOccurrences words).Nodup :=
  nodup_firstOccurrencesBeyond ∅ words

theorem getD_tally (words : List String) (word : String) :
    (tally words).getD word 0 = words.count word := by
  have counted : ∀ counts : Std.HashMap String Nat,
      (words.foldl (fun counts word => counts.insert word (counts.getD word 0 + 1)) counts).getD
        word 0 = counts.getD word 0 + words.count word := by
    induction words with
    | nil => simp
    | cons first later induction =>
        intro counts
        rw [List.foldl_cons, induction, Std.HashMap.getD_insert, List.count_cons]
        by_cases same : first = word
        · subst same
          simp [Nat.add_assoc, Nat.add_comm 1]
        · simp [same]
  rw [tally, counted]
  simp

theorem firstOccurrencesBeyond_eq (seen : Std.HashSet String) (words : List String) :
    firstOccurrencesBeyond seen words =
      (words.filter fun word => !seen.contains word).eraseDups := by
  induction words generalizing seen with
  | nil => rfl
  | cons word later induction =>
      rw [firstOccurrencesBeyond, List.filter_cons]
      cases known : seen.contains word with
      | true => simpa [known] using induction seen
      | false =>
          simp only [Bool.false_eq_true, if_false, Bool.not_false, if_true, List.eraseDups_cons,
            List.filter_filter]
          rw [induction]
          refine congrArg (fun rest => word :: List.eraseDups rest)
            (List.filter_congr fun other _ => ?_)
          rw [Std.HashSet.contains_insert, Bool.not_or, BEq.comm]

/-- The first occurrences are what remains when later occurrences are erased. -/
theorem firstOccurrences_eq_eraseDups (words : List String) :
    firstOccurrences words = words.eraseDups := by
  rw [firstOccurrences, firstOccurrencesBeyond_eq]
  simp

end Retrieval
