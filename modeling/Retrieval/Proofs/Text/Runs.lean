import Retrieval.Text.Run

/-!
# Runs

The runs of a text are not empty and hold, one after the other, exactly the characters that are kept. A
character that is not kept divides the text: the runs are those before it and then those behind it.
-/

namespace Retrieval.Text

variable {keep other : Char → Bool} {characters front back run before : List Char}
  {character divider : Char}

/-! ## One character -/

theorem runsAfter_nil (run : List Char) :
    runsAfter keep run [] = if run = [] then [] else [run.reverse] := by
  cases run <;> rfl

theorem runsAfter_of_keep (keeps : keep character = true) :
    runsAfter keep run (character :: back) = runsAfter keep (character :: run) back := by
  cases run <;> simp [runsAfter, keeps]

theorem runsAfter_of_divide (divides : keep character = false) :
    runsAfter keep run (character :: back) =
      (if run = [] then [] else [run.reverse]) ++ runs keep back := by
  cases run <;> simp [runsAfter, runs, divides]

/-! ## Whole texts -/

theorem runsAfter_append_cons (divides : keep divider = false) :
    runsAfter keep run (front ++ divider :: back) = runsAfter keep run front ++ runs keep back := by
  induction front generalizing run with
  | nil => rw [List.nil_append, runsAfter_of_divide divides, runsAfter_nil]
  | cons character front induction =>
      rw [List.cons_append]
      cases keeps : keep character with
      | true => rw [runsAfter_of_keep keeps, induction, runsAfter_of_keep keeps]
      | false =>
          rw [runsAfter_of_divide keeps, runsAfter_of_divide keeps, List.append_assoc]
          exact congrArg _ induction

/-- A character that is not kept divides a text. -/
theorem runs_append_cons (divides : keep divider = false) :
    runs keep (front ++ divider :: back) = runs keep front ++ runs keep back :=
  runsAfter_append_cons divides

theorem flatten_runsAfter (keep : Char → Bool) (run characters : List Char) :
    (runsAfter keep run characters).flatten = run.reverse ++ characters.filter keep := by
  induction characters generalizing run with
  | nil => cases run <;> simp [runsAfter_nil]
  | cons character later induction =>
      cases keeps : keep character with
      | true => simp [runsAfter_of_keep keeps, induction, keeps]
      | false => cases run <;> simp [runsAfter_of_divide keeps, runs, induction, keeps]

/-- The runs hold what is kept of a text, in order. -/
theorem flatten_runs (keep : Char → Bool) (characters : List Char) :
    (runs keep characters).flatten = characters.filter keep :=
  flatten_runsAfter keep [] characters

theorem ne_nil_of_mem_runsAfter (member : run ∈ runsAfter keep before characters) : run ≠ [] := by
  induction characters generalizing before with
  | nil =>
      rw [runsAfter_nil] at member
      split at member
      · exact absurd member List.not_mem_nil
      · obtain rfl := List.mem_singleton.mp member
        simpa
  | cons character later induction =>
      cases keeps : keep character with
      | true => exact induction (runsAfter_of_keep keeps ▸ member)
      | false =>
          rw [runsAfter_of_divide keeps] at member
          rcases List.mem_append.mp member with here | behind
          · split at here
            · exact absurd here List.not_mem_nil
            · obtain rfl := List.mem_singleton.mp here
              simpa
          · exact induction behind

/-- A run has characters, all of them kept ones of the text. -/
theorem mem_runs (member : run ∈ runs keep characters) :
    run ≠ [] ∧ ∀ character ∈ run, character ∈ characters ∧ keep character = true := by
  refine ⟨ne_nil_of_mem_runsAfter member, fun character inside => ?_⟩
  rw [← List.mem_filter, ← flatten_runs]
  exact List.mem_flatten_of_mem member inside

theorem runsAfter_of_forall (kept : ∀ character ∈ characters, keep character = true) :
    runsAfter keep run characters = runsAfter keep (characters.reverse ++ run) [] := by
  induction characters generalizing run with
  | nil => rfl
  | cons character later induction =>
      obtain ⟨keeps, keepsLater⟩ := List.forall_mem_cons.mp kept
      rw [runsAfter_of_keep keeps, induction keepsLater]
      simp

/-- A text of which all is kept is one run. -/
theorem runs_eq_singleton (nonempty : characters ≠ [])
    (kept : ∀ character ∈ characters, keep character = true) :
    runs keep characters = [characters] := by
  rw [runs, runsAfter_of_forall kept, runsAfter_nil]
  simp [nonempty]

/-- The runs depend on the characters of the text only. -/
theorem runs_congr (same : ∀ character ∈ characters, keep character = other character) :
    runs keep characters = runs other characters := by
  suffices ∀ run, runsAfter keep run characters = runsAfter other run characters from this []
  induction characters with
  | nil => exact fun run => by rw [runsAfter_nil, runsAfter_nil]
  | cons character later induction =>
      obtain ⟨here, sameLater⟩ := List.forall_mem_cons.mp same
      intro run
      cases keeps : keep character with
      | true =>
          rw [runsAfter_of_keep keeps, runsAfter_of_keep (here ▸ keeps), induction sameLater]
      | false =>
          rw [runsAfter_of_divide keeps, runsAfter_of_divide (here ▸ keeps)]
          exact congrArg _ (induction sameLater [])

/-! ## Maximal runs -/

/-- The runs are the maximal ones of the text, in order: all else is not kept, and a run ends where the
text does or where a character follows that is not kept. -/
inductive MaximalRuns (keep : Char → Bool) : List Char → List (List Char) → Prop
  /-- Nothing is kept. -/
  | none {gap : List Char} (drops : ∀ character ∈ gap, keep character = false) :
      MaximalRuns keep gap []
  /-- The first run, and those of the text behind it. -/
  | run {gap run later : List Char} {runs : List (List Char)}
      (drops : ∀ character ∈ gap, keep character = false) (nonempty : run ≠ [])
      (keeps : ∀ character ∈ run, keep character = true)
      (ends : ∀ character, later.head? = some character → keep character = false)
      (rest : MaximalRuns keep later runs) : MaximalRuns keep (gap ++ (run ++ later)) (run :: runs)

theorem runs_append_of_drops (drops : ∀ character ∈ front, keep character = false)
    (back : List Char) : runs keep (front ++ back) = runs keep back := by
  induction front with
  | nil => rfl
  | cons divider front induction =>
      obtain ⟨divides, dropsLater⟩ := List.forall_mem_cons.mp drops
      rw [List.cons_append, runs, runsAfter_of_divide divides]
      exact induction dropsLater

/-- A run that is not continued stands apart from what follows. -/
theorem runs_append_of_keeps (nonempty : run ≠ []) (keeps : ∀ character ∈ run, keep character = true)
    (ends : ∀ character, back.head? = some character → keep character = false) :
    runs keep (run ++ back) = run :: runs keep back := by
  cases back with
  | nil =>
      rw [List.append_nil, runs_eq_singleton nonempty keeps]
      rfl
  | cons divider back =>
      have divides := ends divider rfl
      have passed := runs_append_of_drops (List.forall_mem_singleton.mpr divides) back
      rw [runs_append_cons divides, runs_eq_singleton nonempty keeps, ← passed]
      rfl

theorem MaximalRuns.eq_runs {found : List (List Char)} (maximal : MaximalRuns keep characters found) :
    found = runs keep characters := by
  induction maximal with
  | none drops =>
      have passed := runs_append_of_drops drops []
      rw [List.append_nil] at passed
      exact passed.symm
  | run drops nonempty keeps ends _ induction =>
      rw [runs_append_of_drops drops, runs_append_of_keeps nonempty keeps ends, induction]

/-- A text may begin with its first run. -/
theorem MaximalRuns.lead {found : List (List Char)} (nonempty : run ≠ [])
    (keeps : ∀ character ∈ run, keep character = true)
    (ends : ∀ character, back.head? = some character → keep character = false)
    (rest : MaximalRuns keep back found) : MaximalRuns keep (run ++ back) (run :: found) :=
  .run (fun _ member => absurd member List.not_mem_nil) nonempty keeps ends rest

/-- A character ahead of a text is not kept, or it lengthens the first run, or it is a run of its own. -/
theorem exists_maximalRuns (keep : Char → Bool) (characters : List Char) :
    ∃ found, MaximalRuns keep characters found := by
  induction characters with
  | nil => exact ⟨[], .none (by simp)⟩
  | cons character later induction =>
      obtain ⟨found, maximal⟩ := induction
      by_cases keeps : keep character = true
      · have alone : ∀ other ∈ [character], keep other = true := by simpa using keeps
        by_cases ends : ∀ first, later.head? = some first → keep first = false
        · exact ⟨[character] :: found, maximal.lead (List.cons_ne_nil _ _) alone ends⟩
        · cases maximal with
          | none drops =>
              exact absurd (fun first head => drops first (List.mem_of_mem_head? head)) ends
          | @run gap run behind runs drops nonempty keepsRun endsRun rest =>
              cases gap with
              | cons divider gap =>
                  refine absurd (fun first head => drops first ?_) ends
                  exact List.mem_of_mem_head? (by simpa using head)
              | nil =>
                  have keepsAll : ∀ other ∈ character :: run, keep other = true := by
                    simpa using ⟨keeps, keepsRun⟩
                  exact ⟨(character :: run) :: runs,
                    rest.lead (List.cons_ne_nil _ _) keepsAll endsRun⟩
      · have divides : keep character = false := Bool.eq_false_iff.mpr keeps
        cases maximal with
        | none dropsLater => exact ⟨[], .none (by simpa using ⟨divides, dropsLater⟩)⟩
        | @run gap run behind runs dropsGap nonempty keepsRun endsRun rest =>
            have dropsAll : ∀ other ∈ character :: gap, keep other = false := by
              simpa using ⟨divides, dropsGap⟩
            exact ⟨run :: runs, .run dropsAll nonempty keepsRun endsRun rest⟩

/-- A text has one list of maximal runs. -/
theorem maximalRuns_iff {found : List (List Char)} :
    MaximalRuns keep characters found ↔ found = runs keep characters := by
  refine ⟨MaximalRuns.eq_runs, ?_⟩
  rintro rfl
  obtain ⟨found, maximal⟩ := exists_maximalRuns keep characters
  exact maximal.eq_runs ▸ maximal

end Retrieval.Text
