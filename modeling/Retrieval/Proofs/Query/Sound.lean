import Retrieval.Proofs.Query.Pruned
import Retrieval.Proofs.Query.Spelling

/-!
# The soundness of reading

While a text is read, each open operator but the innermost has the weight of the operand that is being
read: it let the operand begin only then, and it forgets the weight only when the operand is closed.
So no operand lacks a weight, and at every place of a query that is read the operator has the
operands and weights that evaluation relies on.
-/

namespace Retrieval

/-- The failure is not that an operand has no weight. -/
def QueryError.NotMissing (cause : QueryError) : Prop :=
  ∀ operator, cause ≠ .missingWeight operator

variable {ω : Type} [Arithmetic ω]

/-- All operators around the innermost one have the weight of the operand inside them. -/
def Reading.Weighed : Reading ω → Prop
  | .inside frames => ∀ frame ∈ frames.tail, ∃ weight, frame.weight? = some weight
  | .complete _ => True

/-! ## Each token -/

namespace Operator

theorem ofWord_fails (word : String) : FailsBy QueryError.NotMissing (ofWord word) := by
  rw [ofWord]
  split <;> first
    | exact .ok _
    | exact .error (by simp [QueryError.NotMissing])
    | split
      · exact .ok _
      · exact .error (by simp [QueryError.NotMissing])

end Operator

namespace OpenOperator

variable {frame : OpenOperator ω}

theorem operand_fails (operator : Operator) (query : Query ω) :
    FailsBy QueryError.NotMissing (operand operator query) := by
  rw [operand.eq_def]
  split
  · exact .ok _
  · split
    · split
      · exact .ok _
      · exact .error (by simp [QueryError.NotMissing])
    · exact .ok _

/-- Where the weight is known, adding operands does not miss it. -/
theorem pushAll_fails (given : ∃ weight, frame.weight? = some weight) (queries : List (Query ω)) :
    FailsBy QueryError.NotMissing (frame.pushAll queries) := by
  obtain ⟨weight, given⟩ := given
  have pushed : FailsBy QueryError.NotMissing (queries.foldlM push frame) := by
    refine .foldlM (fun state => state.weight? = some weight) queries given ?_ ?_
    · intro state query known
      rw [push_eq known]
      exact (operand_fails _ _).map _
    · intro state query next known stepped
      rw [push_eq known] at stepped
      obtain ⟨taken, -, rfl⟩ := map_eq_ok_iff.mp stepped
      exact known
  exact pushed.bind fun _ _ => .ok _

end OpenOperator

namespace Query

variable {analyzer : Analyzer} {text : String}

theorem readWeight_fails (word : String) :
    FailsBy QueryError.NotMissing (readWeight word : Except QueryError ω) := by
  rw [readWeight]
  split
  · split
    · exact .ok _
    · exact .error (by simp [QueryError.NotMissing])
  · exact .error (by simp [QueryError.NotMissing])

omit [Arithmetic ω] in
theorem termsOfWord_fails (word : String) :
    FailsBy QueryError.NotMissing (termsOfWord analyzer word : Except QueryError (List (Query ω))) := by
  rw [termsOfWord]
  split
  · exact .ok _
  · split
    · exact .ok _
    · exact .error (by simp [QueryError.NotMissing])

/-- A token is not refused for a missing weight. -/
theorem readToken_fails (reading : Reading ω) (token : Token) (weighed : reading.Weighed) :
    FailsBy QueryError.NotMissing (readToken analyzer text reading token) := by
  cases reading with
  | complete query => exact .error (by simp [QueryError.NotMissing])
  | inside frames =>
      cases token with
      | close =>
          cases frames with
          | nil => exact .error (by simp [QueryError.NotMissing])
          | cons frame outer =>
              cases pending : frame.pending with
              | some weight =>
                  rw [readToken, readClose.eq_def]
                  simp only [pending, Option.isSome_some, if_true]
                  exact .error (by simp [QueryError.NotMissing])
              | none =>
                  -- The closed operator becomes an operand of the one around it, which has its weight.
                  cases outer with
                  | nil =>
                      rw [readToken_close_last pending]
                      exact .ok _
                  | cons parent outer =>
                      rw [readToken_close pending]
                      exact (OpenOperator.pushAll_fails (weighed parent List.mem_cons_self) _).map _
      | word word =>
          cases frames with
          | nil =>
              rw [readToken_begin]
              split
              · exact (Operator.ofWord_fails word).map _
              · exact .error (by simp [QueryError.NotMissing])
          | cons frame outer =>
              cases expects : frame.expectsWeight with
              | true =>
                  rw [readToken_weight expects]
                  exact (readWeight_fails word).map _
              | false =>
                  have given := OpenOperator.expectsWeight_eq_false_iff.mp expects
                  by_cases sign : word.toList.head? = some '#'
                  · rw [readToken_operator expects sign]
                    exact (Operator.ofWord_fails word).map _
                  · rw [readToken_terms expects sign]
                    exact ((termsOfWord_fails word).bind fun terms _ =>
                      OpenOperator.pushAll_fails given terms).map _

/-- After a token, the operators around the innermost one have their weights again. -/
theorem weighed_of_readToken (reading : Reading ω) (token : Token) (next : Reading ω)
    (weighed : reading.Weighed) (step : readToken analyzer text reading token = .ok next) :
    next.Weighed := by
  cases reading with
  | complete query => cases step
  | inside frames =>
      cases token with
      | close =>
          cases frames with
          | nil => cases step
          | cons frame outer =>
              have settled := pending_eq_none_of_close step
              cases outer with
              | nil =>
                  obtain rfl := of_readToken_close_last settled step
                  trivial
              | cons parent outer =>
                  obtain ⟨given, others⟩ := List.forall_mem_cons.mp weighed
                  obtain ⟨weight, given⟩ := given
                  obtain ⟨-, rfl⟩ := of_readToken_close settled given step
                  exact others
      | word word =>
          cases frames with
          | nil =>
              rw [readToken_begin] at step
              split at step
              · obtain ⟨operator, -, rfl⟩ := map_eq_ok_iff.mp step
                exact fun frame member => absurd member List.not_mem_nil
              · cases step
          | cons frame outer =>
              rcases cases_of_readToken_word step with ⟨weight, -, -, rfl⟩ |
                ⟨weight, inner, given, -, rfl⟩ | ⟨weight, terms, -, -, -, rfl⟩
              · exact weighed
              · exact List.forall_mem_cons.mpr ⟨⟨weight, given⟩, weighed⟩
              · exact weighed

/-! ## Whole texts -/

theorem ofText_fails (analyzer : Analyzer) (text : String) :
    FailsBy QueryError.NotMissing (ofText analyzer text : Except QueryError (Query ω)) := by
  have begins : (Reading.inside [] : Reading ω).Weighed :=
    fun frame member => absurd member List.not_mem_nil
  refine (FailsBy.foldlM Reading.Weighed (Token.scan text) begins readToken_fails
    weighed_of_readToken).bind ?_
  intro reading _
  cases reading with
  | complete query => exact .ok _
  | inside frames => exact .error (by simp [QueryError.NotMissing])

/-! ## Each place of a query -/

/-- The query is the score of one list, or an operator that combines scores. -/
def IsScored : Query ω → Prop
  | .term .. => False
  | .apply (.list _) .. => False
  | .apply (.scoring .score) operands _ => ∃ list, operands = [list] ∧ list.isList = true
  | .apply (.scoring _) .. => True

/-- The operands are of the kind that an operator evaluates. -/
def OperandsFit : Operator → List (Query ω) → Prop
  | .list _, operands => ∀ operand ∈ operands, operand.isList = true
  | .scoring .score, operands => ∃ list, operands = [list] ∧ list.isList = true
  | .scoring _, operands => ∀ operand ∈ operands, operand.IsScored

/-- What evaluation relies on at one place of a query. -/
def IsSound (analyzer : Analyzer) : Query ω → Prop
  | .term text _ => text ≠ "" ∧ analyzer.isStopword text = false
  | .apply operator operands weights =>
      operator ≠ .scoring .not ∧ weights.length = operands.length ∧
        (∀ weight ∈ weights, operator.Weighs weight) ∧ OperandsFit operator operands

variable {query : Query ω}

theorem WellFormed.isScored (wellFormed : query.WellFormed analyzer) (scores : query.isList = false) :
    query.IsScored := by
  cases wellFormed with
  | term field found => cases scores
  | score isList inside => exact ⟨_, rfl, isList⟩
  | @apply operator items named weighs kinds each =>
      cases operator with
      | list operator => cases scores
      | scoring operator =>
          have noScore := (ne_score_of_isNamed named).1
          cases operator with
          | score => exact absurd rfl noScore
          | _ => trivial

theorem WellFormed.operandsFit {operator : Operator} {operands : List (Query ω)} {weights : List ω}
    (wellFormed : WellFormed analyzer (.apply operator operands weights)) :
    OperandsFit operator operands := by
  cases wellFormed with
  | score isList inside => exact ⟨_, rfl, isList⟩
  | apply named weighs kinds each =>
      cases operator with
      | list operator => exact List.forall_mem_map.mpr kinds
      | scoring operator =>
          have noScore := (ne_score_of_isNamed named).1
          cases operator with
          | score => exact absurd rfl noScore
          | _ => exact List.forall_mem_map.mpr fun item member =>
              (each item member).isScored (kinds item member)

theorem WellFormed.isSound (wellFormed : query.WellFormed analyzer) : query.IsSound analyzer := by
  have whole := wellFormed
  cases wellFormed with
  | @term text word field found =>
      have kept := (List.mem_filter.mp found).2
      rw [Analyzer.keeps, Bool.and_eq_true] at kept
      refine ⟨?_, by simpa using kept.2⟩
      rintro rfl
      exact (Analyzer.isTerm_of_mem_analyze found).1 rfl
  | score isList inside =>
      exact ⟨by simp, rfl, by simp [Operator.Weighs, Operator.isWeighted], whole.operandsFit⟩
  | apply named weighs kinds each =>
      refine ⟨?_, by simp, List.forall_mem_map.mpr weighs, whole.operandsFit⟩
      rintro rfl
      exact (ne_score_of_isNamed named).2 rfl

end Query

/-- No text is refused because an operand has no weight, and a query that is read has the default
operator over its operands and is sound at every place. -/
theorem Engine.parse_sound (engine : Engine ω) (text : String) :
    (∀ operator, engine.parse text ≠ .error (.missingWeight operator)) ∧
      ∀ query, engine.parse text = .ok query →
        (∃ operands weights, query = .apply engine.model.defaultOperator operands weights) ∧
          ∀ part ∈ query.parts, part.IsSound engine.analyzer := by
  constructor
  · intro operator missing
    exact Query.ofText_fails engine.analyzer _ _ missing operator rfl
  · intro query parsed
    obtain ⟨items, -, root⟩ := (engine.parse_eq_ok_iff text query).mp parsed
    have wellFormed := Query.wellFormed_of_parse parsed
    exact ⟨⟨_, _, root⟩, fun part member => (wellFormed.part member).isSound⟩

end Retrieval
