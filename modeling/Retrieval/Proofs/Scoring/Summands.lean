import Mathlib.Data.List.Dedup
import Retrieval.Proofs.Cursor.Protocol
import Retrieval.Proofs.Evaluation.Probabilities
import Retrieval.Proofs.Query.Unambiguous

/-!
# The summands of a sum

Under BM25 a sum counts each list once, with the number of operands that stand for it, however often and in
whatever order the operands occur. Operands are compared by their texts, which tell the lists of a query
apart; of all operands for a list the first one has its number, and the others have none.
-/

namespace Retrieval

open ExactArithmetic

namespace Query

variable {ω : Type} [Arithmetic ω] {analyzer : Analyzer}

/-- What the score of a list in a document depends on, if so many operands stand for the list. -/
def bm25Statistics (index : Index) (document : DocumentId) (count : Nat) (list : Query ω) :
    Bm25Statistics ω where
  frequency := Arithmetic.ofNat ((list.listOn index).frequencyAt document)
  documentFrequency := Arithmetic.ofNat (list.listOn index).documentFrequency
  documents := Arithmetic.ofNat index.documentCount
  length := Arithmetic.ofNat (index.lengthAt list.field document)
  meanLength := SumStatistics.meanLength index list.field
  queryFrequency := Arithmetic.ofNat count

/-- After any calls that leave a cursor of the query on the document, it answers with the score. -/
def Answers (index : Index) (model : Model ω) (document : DocumentId) (query : Query ω)
    (score : ω) : Prop :=
  ∀ calls : List Call,
    let final := calls.foldl (Cursor.perform index model) ((Cursor.ofQuery query).openOn index)
    final.current? = some document → (final.score index model).1 = .ok score

/-- How many of the operands stand for the list. -/
def copies [DecidableEq (Query ω)] (operands : List (Query ω)) (list : Query ω) : Nat :=
  operands.countP fun operand => operand.summand? = some list

/-- The summands of a sum: a term score for each list among the operands that has the document, and the
scores of the other operands that have it. -/
def summands [DecidableEq (Query ω)] (index : Index) (parameters : Bm25 ω) (document : DocumentId)
    (score : Query ω → ω) (operands : List (Query ω)) : List ω :=
  let lists := (operands.filterMap summand?).dedup
  let others := operands.filter (·.summand?.isNone)
  ((lists.filter fun list => document ∈ list.documentsOn index false).map fun list =>
      parameters.termScore (list.bm25Statistics index document (copies operands list))) ++
    (others.filter fun operand => document ∈ operand.documentsOn index false).map score

/-! ## Operands and their texts -/

/-- The text by which an operand is compared. -/
def key (operand : Query ω) : Option String :=
  operand.summand?.map write

/-- The operands stand for lists that are well formed. -/
def StandForLists (analyzer : Analyzer) (operands : List (Query ω)) : Prop :=
  ∀ operand ∈ operands, ∀ list, operand.summand? = some list →
    list.WellFormed analyzer ∧ list.isList = true

theorem StandForLists.key_eq_iff {operands : List (Query ω)} (legible : StandForLists analyzer operands)
    {operand other list : Query ω} (member : operand ∈ operands) (otherMember : other ∈ operands)
    (stands : other.summand? = some list) :
    operand.key = other.key ↔ operand.summand? = some list := by
  rw [key, key, stands]
  cases found : operand.summand? with
  | none => simp
  | some present =>
      obtain ⟨wellFormed, isList⟩ := legible operand member present found
      obtain ⟨otherWellFormed, otherIsList⟩ := legible other otherMember list stands
      rw [Option.map_some, Option.map_some, Option.some.injEq, Option.some.injEq]
      exact wellFormed.write_inj isList otherWellFormed otherIsList

/-- An operand that stands for a list has the documents of the list. -/
theorem documentsOn_of_summand?_eq (index : Index) (soft : Bool) {operand list : Query ω}
    (stands : operand.summand? = some list) :
    operand.documentsOn index soft = list.documentsOn index soft := by
  cases operand with
  | term text field =>
      obtain rfl := Option.some.inj stands
      rfl
  | apply operator operands weights =>
      cases operator with
      | list operator =>
          obtain rfl := Option.some.inj stands
          rfl
      | scoring operator =>
          cases operator with
          | score =>
              cases operands with
              | nil => cases stands
              | cons first others =>
                  rw [summand?] at stands
                  split at stands
                  · obtain rfl := Option.some.inj stands
                    rw [documentsOn_scoring]
                    rfl
                  · cases stands
          | and | or | sum | wand | wsum | not => cases stands

/-- The list of an operand that has a number. -/
def counted? : Query ω × Nat → Option (Query ω)
  | (operand, frequency) => if frequency = 0 then none else operand.summand?

omit [Arithmetic ω] in
theorem summand?_eq_of_counted? {numbered : Query ω × Nat} {list : Query ω}
    (counts : counted? numbered = some list) : numbered.1.summand? = some list := by
  rw [counted?] at counts
  split at counts
  · cases counts
  · exact counts

/-- The operands behind others, each beside its number among all of them. -/
def numberedAfter (earlier operands : List (Query ω)) : List (Query ω × Nat) :=
  operands.zip <| (operands.map key).mapIdx fun place =>
    SumStatistics.repetitions ((earlier ++ operands).map key) (earlier.length + place)

theorem numberedAfter_cons (earlier later : List (Query ω)) (operand : Query ω) :
    numberedAfter earlier (operand :: later) =
      (operand, SumStatistics.repetitions ((earlier ++ operand :: later).map key) earlier.length
        operand.key) :: numberedAfter (earlier ++ [operand]) later := by
  have shifted : ∀ place : Nat, earlier.length + (place + 1) = (earlier ++ [operand]).length + place := by
    intro place
    rw [List.length_append, List.length_singleton, Nat.add_assoc, Nat.add_comm 1]
  simp only [numberedAfter, List.map_cons, List.mapIdx_cons, List.zip_cons_cons, Nat.add_zero, shifted,
    List.append_assoc, List.singleton_append]

theorem numberedAfter_nil (operands : List (Query ω)) :
    numberedAfter [] operands = operands.zip (queryFrequencies operands) := by
  simp only [numberedAfter, queryFrequencies, List.nil_append, List.length_nil, Nat.zero_add]
  rfl

section Counting

variable [DecidableEq (Query ω)]

/-! ## First occurrences -/

/-- The number of an operand: that of all operands for its list if no earlier one stands for it, and zero
otherwise. -/
theorem StandForLists.repetitions_eq {earlier later : List (Query ω)} {operand : Query ω}
    (legible : StandForLists analyzer (earlier ++ operand :: later)) :
    SumStatistics.repetitions ((earlier ++ operand :: later).map key) earlier.length operand.key =
      if operand.summand? ∈ earlier.map summand? then 0
      else operand.summand?.elim 0 (copies (earlier ++ operand :: later)) := by
  have here : operand ∈ earlier ++ operand :: later := by simp
  cases stands : operand.summand? with
  | none =>
      have none : operand.key = none := by rw [key, stands, Option.map_none]
      simp [SumStatistics.repetitions, none]
  | some list =>
      have same : ∀ other ∈ earlier ++ operand :: later, other.key = operand.key ↔
          other.summand? = some list :=
        fun other member => legible.key_eq_iff member here stands
      have some : operand.key.isNone = false := by rw [key, stands, Option.map_some, Option.isNone_some]
      have before : ((earlier ++ operand :: later).map key).take earlier.length = earlier.map key := by
        rw [List.map_append, List.take_left' (List.length_map key)]
      have seen : operand.key ∈ earlier.map key ↔ Option.some list ∈ earlier.map summand? := by
        simp only [List.mem_map]
        refine exists_congr fun other => and_congr_right fun member => same other ?_
        exact List.mem_append_left _ member
      have count : ((earlier ++ operand :: later).map key).count operand.key =
          copies (earlier ++ operand :: later) list := by
        rw [List.count, List.countP_map, copies]
        exact List.countP_congr fun other member => by simpa using same other member
      rw [SumStatistics.repetitions, some, before, count, Bool.false_or, List.contains_eq_mem]
      simp only [decide_eq_true_eq, seen, Option.elim_some]

/-- An operand counts if none before it stands for its list. -/
theorem StandForLists.counted?_eq {earlier later : List (Query ω)} {operand : Query ω}
    (legible : StandForLists analyzer (earlier ++ operand :: later)) :
    counted? (operand, SumStatistics.repetitions ((earlier ++ operand :: later).map key)
        earlier.length operand.key) =
      if operand.summand? ∈ earlier.map summand? then none else operand.summand? := by
  rw [counted?, legible.repetitions_eq]
  by_cases seen : operand.summand? ∈ earlier.map summand?
  · simp [seen]
  · rw [if_neg seen, if_neg seen]
    cases stands : operand.summand? with
    | none => simp
    | some list =>
        have several : copies (earlier ++ operand :: later) list ≠ 0 := by
          refine (List.countP_pos_iff.mpr ⟨operand, ?_, ?_⟩).ne'
          · simp
          · simp [stands]
        rw [Option.elim_some, if_neg several]

/-- Every operand has the number of those for its list if it counts, and zero otherwise. -/
theorem StandForLists.number_eq {earlier operands : List (Query ω)}
    (legible : StandForLists analyzer (earlier ++ operands)) :
    ∀ numbered ∈ numberedAfter earlier operands,
      numbered.2 = (counted? numbered).elim 0 (copies (earlier ++ operands)) := by
  induction operands generalizing earlier with
  | nil => simp [numberedAfter]
  | cons operand later induction =>
      have whole : earlier ++ operand :: later = (earlier ++ [operand]) ++ later := by simp
      rw [numberedAfter_cons]
      refine List.forall_mem_cons.mpr ⟨?_, ?_⟩
      · rw [legible.counted?_eq, legible.repetitions_eq]
        split <;> rfl
      · rw [whole] at legible ⊢
        exact induction legible

/-- Each list behind others that none of them stands for counts at one place. -/
theorem StandForLists.counted_lists {earlier operands : List (Query ω)}
    (legible : StandForLists analyzer (earlier ++ operands)) :
    ((numberedAfter earlier operands).filterMap counted?).Nodup ∧
      ∀ list, list ∈ (numberedAfter earlier operands).filterMap counted? ↔
        some list ∈ operands.map summand? ∧ some list ∉ earlier.map summand? := by
  induction operands generalizing earlier with
  | nil => simp [numberedAfter]
  | cons operand later induction =>
      have counts := legible.counted?_eq
      rw [show earlier ++ operand :: later = (earlier ++ [operand]) ++ later by simp] at legible
      obtain ⟨distinct, mem_iff⟩ := induction legible
      simp only [List.map_append, List.map_cons, List.map_nil, List.mem_append, List.mem_singleton,
        not_or] at mem_iff
      rw [numberedAfter_cons]
      by_cases seen : operand.summand? ∈ earlier.map summand?
      · rw [if_pos seen] at counts
        rw [List.filterMap_cons_none counts]
        refine ⟨distinct, fun list => ?_⟩
        rw [mem_iff, List.map_cons, List.mem_cons]
        constructor
        · rintro ⟨among, fresh, -⟩
          exact ⟨.inr among, fresh⟩
        · rintro ⟨same | among, fresh⟩
          · exact absurd (same ▸ seen) fresh
          · exact ⟨among, fresh, fun same => fresh (same ▸ seen)⟩
      · rw [if_neg seen] at counts
        cases stands : operand.summand? with
        | none =>
            rw [stands] at counts
            rw [List.filterMap_cons_none counts]
            exact ⟨distinct, fun list => by rw [mem_iff]; simp [stands]⟩
        | some list =>
            rw [stands] at counts seen
            rw [List.filterMap_cons_some counts]
            refine ⟨List.nodup_cons.mpr ⟨fun again => ?_, distinct⟩, fun other => ?_⟩
            · exact ((mem_iff list).mp again).2.2 stands.symm
            · rw [List.mem_cons, mem_iff, List.map_cons, List.mem_cons, stands, Option.some.injEq]
              by_cases same : other = list
              · subst same
                simp [seen]
              · simp [same]

theorem StandForLists.number_eq_of_mem_zip {operands : List (Query ω)}
    (legible : StandForLists analyzer operands) :
    ∀ numbered ∈ operands.zip (queryFrequencies operands),
      numbered.2 = (counted? numbered).elim 0 (copies operands) := by
  have numbers := @number_eq ω _ analyzer _ [] operands legible
  rwa [numberedAfter_nil, List.nil_append] at numbers

/-- The lists that count are those among the operands. -/
theorem StandForLists.counted_perm {operands : List (Query ω)}
    (legible : StandForLists analyzer operands) :
    ((operands.zip (queryFrequencies operands)).filterMap counted?).Perm
      (operands.filterMap summand?).dedup := by
  obtain ⟨distinct, mem_iff⟩ := @counted_lists ω _ analyzer _ [] operands legible
  rw [numberedAfter_nil] at distinct mem_iff
  refine (List.perm_ext_iff_of_nodup distinct (List.nodup_dedup _)).mpr fun list => ?_
  rw [mem_iff, List.mem_dedup, List.mem_filterMap, List.mem_map]
  simp

/-- What the numbers of the operands give in sum: the number of operands that stand for lists. -/
theorem StandForLists.sum_queryFrequencies {operands : List (Query ω)}
    (legible : StandForLists analyzer operands) :
    (queryFrequencies operands).sum = operands.countP (·.summand?.isSome) := by
  have counted : ∀ items : List (Query ω × Nat),
      (∀ item ∈ items, item.2 = (counted? item).elim 0 (copies operands)) →
        (items.map Prod.snd).sum = ((items.filterMap counted?).map (copies operands)).sum := by
    intro items each
    induction items with
    | nil => rfl
    | cons item items induction =>
        obtain ⟨number, later⟩ := List.forall_mem_cons.mp each
        rw [List.map_cons, List.sum_cons, induction later, number]
        cases found : counted? item with
        | none => simp [found]
        | some list => simp [found]
  have copies_eq : copies operands = fun list => (operands.filterMap summand?).count list := by
    funext list
    rw [List.count, List.countP_filterMap, copies]
    refine List.countP_congr fun operand _ => ?_
    cases operand.summand? <;> simp
  calc (queryFrequencies operands).sum
      = ((operands.zip (queryFrequencies operands)).map Prod.snd).sum := by
        rw [List.map_snd_zip (length_queryFrequencies operands).le]
    _ = (((operands.zip (queryFrequencies operands)).filterMap counted?).map (copies operands)).sum :=
        counted _ legible.number_eq_of_mem_zip
    _ = ((operands.filterMap summand?).dedup.map (copies operands)).sum :=
        (legible.counted_perm.map _).sum_eq
    _ = (operands.filterMap summand?).length := by
        rw [copies_eq, List.sum_map_count_dedup_eq_length]
    _ = operands.countP (·.summand?.isSome) := List.length_filterMap_eq_countP

end Counting

/-! ## What operands add -/

/-- What an operand with a number adds to a sum, given the scores of those that stand for no list. -/
def addend? (index : Index) (parameters : Bm25 ω) (document : DocumentId) (score : Query ω → ω)
    (numbered : Query ω × Nat) : Option ω :=
  match numbered.1.summand? with
  | none => some (score numbered.1)
  | some _ => (counted? numbered).map fun list =>
      parameters.termScore (list.bm25Statistics index document numbered.2)

theorem addendAt_eq {index : Index} (parameters : Bm25 ω) {document : DocumentId}
    (bounded : document < index.documentCount) {score : Query ω → ω} {answer : Except Error ω}
    {operand : Query ω} (answers : operand.summand? = none → answer = .ok (score operand))
    (frequency : Nat) :
    operand.addendAt index parameters document answer frequency =
      .ok (addend? index parameters document score (operand, frequency)) := by
  cases stands : operand.summand? with
  | none =>
      rw [addendAt, addend?, stands, answers stands]
      rfl
  | some list =>
      rw [addendAt, addend?, stands]
      dsimp only
      rw [termScoreAt, Index.fieldLength_eq _ bounded, counted?, stands]
      split <;> rfl

section Adding

variable [DecidableEq (Query ω)]

/-- What the operands add: the scores of the lists that count, and those of the operands that stand for no
list. -/
theorem filterMap_addend?_perm (index : Index) (parameters : Bm25 ω) (document : DocumentId)
    (score : Query ω → ω) {operands : List (Query ω)} {items : List (Query ω × Nat)}
    (numbers : ∀ item ∈ items, item.2 = (counted? item).elim 0 (copies operands)) :
    (items.filterMap (addend? index parameters document score)).Perm
      (((items.filterMap counted?).map fun list =>
          parameters.termScore (list.bm25Statistics index document (copies operands list))) ++
        ((items.map Prod.fst).filter (·.summand?.isNone)).map score) := by
  induction items with
  | nil => rfl
  | cons item items induction =>
      obtain ⟨number, later⟩ := List.forall_mem_cons.mp numbers
      have rest := induction later
      cases stands : item.1.summand? with
      | none =>
          have uncounted : counted? item = none := by
            rw [counted?, stands]
            split <;> rfl
          have adds : addend? index parameters document score item = some (score item.1) := by
            rw [addend?, stands]
          rw [List.filterMap_cons_some adds, List.filterMap_cons_none uncounted, List.map_cons,
            List.filter_cons_of_pos (by rw [stands]; rfl), List.map_cons]
          exact (rest.cons _).trans List.perm_middle.symm
      | some list =>
          have adds : addend? index parameters document score item = (counted? item).map fun list =>
              parameters.termScore (list.bm25Statistics index document item.2) := by
            rw [addend?, stands]
          rw [List.map_cons, List.filter_cons_of_neg (by rw [stands]; simp)]
          cases counts : counted? item with
          | none =>
              rw [counts] at adds
              rw [List.filterMap_cons_none adds, List.filterMap_cons_none counts]
              exact rest
          | some present =>
              rw [counts, Option.elim_some] at number
              rw [counts, Option.map_some, number] at adds
              rw [List.filterMap_cons_some adds, List.filterMap_cons_some counts]
              exact rest.cons _

/-- The operands that have the document add the summands, in some order. -/
theorem StandForLists.exists_addends {operands : List (Query ω)}
    (legible : StandForLists analyzer operands) {index : Index} (wellFormed : index.WellFormed)
    (parameters : Bm25 ω) (document : DocumentId) (score : Query ω → ω)
    (answers : ∀ operand ∈ operands, operand.summand? = none →
      document ∈ operand.documentsOn index false →
        operand.scoreAt index (.bm25 parameters) document = .ok (score operand)) :
    ∃ addends, addendsAt index false parameters document
        (scoresAt index (.bm25 parameters) document operands) = .ok addends ∧
      addends.Perm (summands index parameters document score operands) := by
  rw [addendsAt_eq_mapM]
  set has : Query ω → Bool := fun query => decide (document ∈ query.documentsOn index false)
  set items := operands.zip (queryFrequencies operands)
  have inside : ∀ item ∈ items.filter fun item => has item.1,
      item ∈ items ∧ document ∈ item.1.documentsOn index false := by
    intro item member
    obtain ⟨among, present⟩ := List.mem_filter.mp member
    exact ⟨among, of_decide_eq_true present⟩
  have added : (items.filter fun item => has item.1).mapM (fun (query, frequency) =>
      addendAt index parameters document query (scoreAt index (.bm25 parameters) document query)
        frequency) = .ok ((items.filter fun item => has item.1).map
          (addend? index parameters document score)) := by
    refine (mapM_congr fun item member => ?_).trans List.mapM_pure
    obtain ⟨among, present⟩ := inside item member
    refine addendAt_eq parameters (lt_of_mem_documentsOn wellFormed present) (fun none => ?_) item.2
    exact answers item.1 (List.of_mem_zip among).1 none present
  have lists : (items.filter fun item => has item.1).filterMap counted? =
      (items.filterMap counted?).filter has := by
    rw [List.filterMap_filter, List.filter_filterMap]
    refine List.filterMap_congr fun item _ => ?_
    cases counts : counted? item with
    | none => simp
    | some list =>
        have same : has item.1 = has list := by
          simp only [has, documentsOn_of_summand?_eq index false (summand?_eq_of_counted? counts)]
        simp [same, Option.filter]
  have others : ((items.filter fun item => has item.1).map Prod.fst).filter (·.summand?.isNone) =
      (operands.filter (·.summand?.isNone)).filter has := by
    have firsts : items.map Prod.fst = operands :=
      List.map_fst_zip (length_queryFrequencies operands).ge
    rw [← firsts, List.filter_comm, List.filter_map (p := has)]
    rfl
  refine ⟨_, by rw [added]; rfl, ?_⟩
  rw [List.filterMap_map]
  refine (filterMap_addend?_perm index parameters document score fun item member =>
    legible.number_eq_of_mem_zip item (inside item member).1).trans ?_
  rw [lists, others]
  exact ((legible.counted_perm.filter has).map _).append_right _

/-- The score of a sum is that of the summands, added in some order. -/
theorem StandForLists.exists_scoreAt_eq {operands : List (Query ω)}
    (legible : StandForLists analyzer operands) {index : Index} (wellFormed : index.WellFormed)
    (parameters : Bm25 ω) (document : DocumentId) (score : Query ω → ω)
    (answers : ∀ operand ∈ operands, operand.summand? = none →
      document ∈ operand.documentsOn index false →
        operand.scoreAt index (.bm25 parameters) document = .ok (score operand)) (weights : List ω) :
    ∃ addends, (apply (.scoring .sum) operands weights).scoreAt index (.bm25 parameters) document =
        .ok (Arithmetic.sum addends) ∧
      addends.Perm (summands index parameters document score operands) := by
  obtain ⟨addends, added, counts⟩ := legible.exists_addends wellFormed parameters document score answers
  refine ⟨addends, ?_, counts⟩
  rw [scoreAt, combinedAt]
  exact congrArg (Except.map Arithmetic.sum) added

end Adding

/-! ## Operands of plans -/

theorem WellFormed.of_summand?_eq {operand list : Query ω} (wellFormed : operand.WellFormed analyzer)
    (stands : operand.summand? = some list) : list.WellFormed analyzer ∧ list.isList = true := by
  cases wellFormed with
  | term field found =>
      obtain rfl := Option.some.inj stands
      exact ⟨.term field found, rfl⟩
  | @score inner isList inside =>
      have same : inner.score.summand? = some inner := if_pos isList
      obtain rfl := Option.some.inj (same.symm.trans stands)
      exact ⟨inside, isList⟩
  | @apply operator items named weighs kinds each =>
      cases operator with
      | list operator =>
          obtain rfl := Option.some.inj stands
          exact ⟨.apply named weighs kinds each, rfl⟩
      | scoring operator =>
          cases operator with
          | score => exact named.elim
          | and | or | sum | wand | wsum | not => cases stands

theorem standForLists_of_mem_parts {operator : Operator} {plan : Query ω}
    (wellFormed : plan.WellFormed analyzer) {operands : List (Query ω)} {weights : List ω}
    (part : .apply operator operands weights ∈ plan.parts) : StandForLists analyzer operands :=
  fun operand member _ stands =>
    ((wellFormed.part part).operand operand member).of_summand?_eq stands

/-- A query whose cursors answer with a score has that score on its documents. -/
theorem Answers.scoreAt_eq {index : Index} (ascending : index.Ascending) {model : Model ω}
    {document : DocumentId} {query : Query ω} {score : ω}
    (answers : query.Answers index model document score)
    (present : document ∈ query.documentsOn index model.isSoft) :
    query.scoreAt index model document = .ok score := by
  have current := Cursor.current?_advanced ascending model present
  have answered := answers [.advanceTo document, .hasMatch] current
  obtain ⟨-, same, -⟩ := Cursor.answers_after_calls ascending _ current
  rw [Cursor.query_ofQuery] at same
  exact same.symm.trans answered

theorem summands_perm [DecidableEq (Query ω)] {index : Index} {parameters : Bm25 ω}
    {document : DocumentId} {score : Query ω → ω} {operands permuted : List (Query ω)}
    (same : permuted.Perm operands) :
    (summands index parameters document score permuted).Perm
      (summands index parameters document score operands) := by
  have copies_eq : copies permuted = copies operands := funext fun list => same.countP_eq _
  rw [summands, summands, copies_eq]
  refine List.Perm.append ?_ (((same.filter _).filter _).map score)
  exact ((same.filterMap summand?).dedup.filter _).map _

end Query

namespace Cursor

variable {ω : Type} [Arithmetic ω]

/-- A sum of a plan counts each list among its operands once, with the number of operands that stand for
it, and each other operand with its score, in whatever order the operands stand. So the numbers that it
keeps of its operands give in sum the number of operands that stand for lists, and in exact arithmetic the
score is the sum of the same summands. -/
theorem score_eq_sum_summands [DecidableEq (Query ω)] (documents : List Document)
    (stopwords : List String) (parameters : Bm25 ω) {engine : Engine ω} {text : String} {plan : Query ω}
    (planned : engine.plan text = .ok (some plan)) {operands permuted : List (Query ω)}
    {weights : List ω} (part : .apply (.scoring .sum) operands weights ∈ plan.parts)
    (same : permuted.Perm operands) (otherWeights : List ω) :
    let index := Index.ofDocuments documents stopwords
    let opened := (ofQuery (.apply (.scoring .sum) permuted otherWeights)).openOn index
    (∃ cursors statistics, opened = .scoring .sum cursors otherWeights none (some statistics) ∧
      (statistics.operands.map (·.queryFrequency)).sum = operands.countP (·.summand?.isSome)) ∧
    ∀ (calls : List Call) (document : DocumentId) (score : Query ω → ω),
      let final := calls.foldl (perform index (.bm25 parameters)) opened
      let summands := Query.summands index parameters document score operands
      final.current? = some document →
        (∀ operand ∈ operands, operand.summand? = none →
          operand.Answers index (.bm25 parameters) document (score operand)) →
        ∃ addends, addends.Perm summands ∧
          (final.score index (.bm25 parameters)).1 = .ok (Arithmetic.sum addends) ∧
          ∀ [ExactArithmetic ω], value (Arithmetic.sum addends) = (summands.map value).sum := by
  intro index opened
  have ascending : index.Ascending := Index.ofDocuments_ascending documents stopwords
  have legible : Query.StandForLists engine.analyzer permuted := fun operand member =>
    Query.standForLists_of_mem_parts (Query.wellFormed_of_plan planned).1 part operand
      (same.mem_iff.mp member)
  constructor
  · refine ⟨openEachOn index (ofQueries permuted),
      .ofOperands index (openEachOn index (ofQueries permuted)), by
        simp only [opened, ofQuery, openOn, if_pos], ?_⟩
    have numbers : ((SumStatistics.ofOperands index (openEachOn index (ofQueries permuted))).operands.map
        (·.queryFrequency)) = Query.queryFrequencies permuted := by
      rw [SumStatistics.operands_ofOperands, queries_openEachOn, queries_ofQueries, List.map_map]
      exact List.map_snd_zip (Query.length_queryFrequencies permuted).le
    rw [numbers, legible.sum_queryFrequencies, same.countP_eq]
  · intro calls document score final summands current answers
    obtain ⟨-, scored, -⟩ := answers_after_calls ascending calls current
    obtain ⟨addends, added, counted⟩ := legible.exists_scoreAt_eq
      (Index.ofDocuments_consistent documents stopwords).wellFormed parameters document score
      (fun operand member none present =>
        (answers operand (same.mem_iff.mp member) none).scoreAt_eq ascending present) otherWeights
    have counts : addends.Perm summands := counted.trans (Query.summands_perm same)
    refine ⟨addends, counts, ?_, ?_⟩
    · rw [scored, query_ofQuery]
      exact added
    · intro exact
      rw [value_sum]
      exact (counts.map value).sum_eq

end Cursor

/-! ## A sum of a word with itself -/

/-- The usual parameters, without rounding. -/
noncomputable def Bm25.usualExactly : Bm25 RealNumber := ⟨⟨1.2⟩, ⟨0.75⟩, ⟨0⟩⟩

namespace Query

/-- A word beside the sum of the same word alone. -/
noncomputable def catAlone : Query RealNumber :=
  .apply (.scoring .sum) [(term "cat" .body).score] [1]

/-- A word that occurs twice, with its sum between. -/
noncomputable def catTwice : Query RealNumber :=
  .apply (.scoring .sum) [(term "cat" .body).score, catAlone, (term "cat" .body).score] [1, 1, 1]

variable (parameters : Bm25 RealNumber)

theorem plan_catTwice :
    (Engine.mk oneWord (.bm25 parameters) (.ofStopwords [])).plan "cat #sum(cat) cat" =
      .ok (some catTwice) := by
  have named := Operator.isNamed_label_defaultOperator (Model.bm25 parameters)
  have word : Operand (.ofStopwords []) (.scoring .sum) _ _ := .terms (by decide) standsFor_cat
  have alone : Operand (.ofStopwords []) (.scoring .sum) _ _ :=
    .apply (named : (Operator.scoring .sum).IsNamed "#sum") (fun isList => by cases isList)
      (.plain rfl word .nil)
  have derives : Items (.ofStopwords []) (.scoring .sum) (Token.scan "cat #sum(cat) cat") _ :=
    .plain rfl word (.plain rfl alone (.plain rfl word .nil))
  have parsed : (Engine.mk oneWord (.bm25 parameters) (.ofStopwords [])).parse "cat #sum(cat) cat" =
      .ok catTwice := (parse_eq_ok_iff_of_isNamed named).mpr ⟨_, derives, rfl⟩
  rw [Engine.plan, parsed]
  rfl

theorem documentsOn_catTwice :
    (term "cat" .body : Query RealNumber).score.documentsOn oneWord false = {0} ∧
      catAlone.documentsOn oneWord false = {0} ∧ catTwice.documentsOn oneWord false = {0} := by
  simp [catTwice, catAlone, Query.score, documentsOn_cat, ScoringOperator.matching, Matching.documents]

/-- The score of the word where so many operands stand for it. -/
noncomputable def catScore (count : Nat) : RealNumber :=
  parameters.termScore ((term "cat" .body).bm25Statistics oneWord 0 count)

theorem summands_catTwice [DecidableEq (Query RealNumber)] (score : Query RealNumber → RealNumber) :
    summands oneWord parameters 0 score catAlone.operands = [catScore parameters 1] ∧
      summands oneWord parameters 0 score catTwice.operands =
        [catScore parameters 2, score catAlone] := by
  have isList : (term "cat" .body : Query RealNumber).isList = true := rfl
  have summand : (term "cat" .body : Query RealNumber).score.summand? = some (term "cat" .body) := rfl
  have noSummand : catAlone.summand? = none := rfl
  constructor
  · simp [summands, catAlone, operands, summand, documentsOn_cat, copies, catScore]
  · simp [summands, catTwice, operands, summand, noSummand, documentsOn_cat, documentsOn_catTwice,
      copies, catScore]

theorem answers_catAlone :
    catAlone.Answers oneWord (.bm25 parameters) 0 (Arithmetic.sum [catScore parameters 1]) := by
  classical
  have ascending : oneWord.Ascending := Index.ofDocuments_ascending _ _
  have wellFormed : oneWord.WellFormed := (Index.ofDocuments_consistent _ _).wellFormed
  intro calls final current
  obtain ⟨-, scored, -⟩ := Cursor.answers_after_calls ascending calls current
  have inside : catAlone ∈ catTwice.parts :=
    mem_parts_apply.mpr (.inr ⟨catAlone, by simp, mem_parts_self _⟩)
  have legible := standForLists_of_mem_parts (wellFormed_of_plan (plan_catTwice parameters)).1 inside
  obtain ⟨addends, added, counts⟩ := legible.exists_scoreAt_eq wellFormed parameters 0 (fun _ => 0)
    (by
      intro operand member none
      obtain rfl := List.mem_singleton.mp member
      cases none) [1]
  replace counts : addends.Perm (summands oneWord parameters 0 _ catAlone.operands) := counts
  rw [(summands_catTwice parameters _).1] at counts
  obtain rfl := List.perm_singleton.mp counts
  rw [scored, Cursor.query_ofQuery]
  exact added

end Query

namespace Cursor

/-- The two operands for the word give one summand together, and the sum between them gives another. -/
theorem score_eq_sum_summands_catTwice :
    let model : Model RealNumber := .bm25 .usualExactly
    let final := [Call.hasMatch].foldl (perform oneWord model) ((ofQuery .catTwice).openOn oneWord)
    final.current? = some 0 ∧ ∃ addends,
      addends.Perm [Query.catScore .usualExactly 2, Arithmetic.sum [Query.catScore .usualExactly 1]] ∧
      (final.score oneWord model).1 = .ok (Arithmetic.sum addends) := by
  intro model final
  classical
  have current : final.current? = some 0 :=
    current?_settled (Index.ofDocuments_ascending _ _) Query.documentsOn_catTwice.2.2
  obtain ⟨-, scored⟩ := score_eq_sum_summands _ _ .usualExactly (Query.plan_catTwice .usualExactly)
    (Query.mem_parts_self _) (.refl _) [1, 1, 1]
  obtain ⟨addends, counts, score, -⟩ := scored [.hasMatch] 0
    (fun _ => Arithmetic.sum [Query.catScore .usualExactly 1]) current (by
      intro operand member none
      rcases List.mem_cons.mp member with rfl | later
      · cases none
      · rcases List.mem_cons.mp later with rfl | last
        · exact Query.answers_catAlone .usualExactly
        · obtain rfl := List.mem_singleton.mp last
          cases none)
  replace counts : addends.Perm (Query.summands oneWord .usualExactly 0 _ Query.catTwice.operands) := counts
  rw [(Query.summands_catTwice .usualExactly _).2] at counts
  exact ⟨current, addends, counts, score⟩

end Cursor

end Retrieval
