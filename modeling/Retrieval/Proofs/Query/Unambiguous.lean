import Retrieval.Proofs.Query.RoundTrip
import Retrieval.Proofs.Query.WellFormed

/-!
# Texts of lists

The text of a term or a list operator that has been read stands for no other one: its tokens begin with a
word, the name of the operator or the term with its field, and none of them can be mistaken for a token
behind the text. So whatever follows, the tokens tell where the text ends and which query it writes.
-/

namespace Retrieval

theorem Field.name_injective : Function.Injective name := by
  intro field other
  cases field <;> cases other <;> decide

/-- A term can be told from the field behind it, as the first point stands between them. -/
theorem Analyzer.IsTerm.append_name_inj {text other : String} {field otherField : Field}
    (isTerm : IsTerm text) (otherIsTerm : IsTerm other)
    (same : text ++ "." ++ field.name = other ++ "." ++ otherField.name) :
    text = other ∧ field = otherField := by
  have cut : Text.cut '.' (text ++ "." ++ field.name) = some (text, field.name) :=
    Query.cut_eq_some_iff.mpr ⟨rfl, isTerm.point_notMem⟩
  have otherCut : Text.cut '.' (text ++ "." ++ field.name) = some (other, otherField.name) :=
    Query.cut_eq_some_iff.mpr ⟨same, otherIsTerm.point_notMem⟩
  rw [cut, Option.some.injEq, Prod.mk.injEq] at otherCut
  exact ⟨otherCut.1, Field.name_injective otherCut.2⟩

/-- Operators whose labels name them differ in their labels. -/
theorem Operator.eq_of_label_eq {operator other : Operator} (named : operator.IsNamed operator.label)
    (otherNamed : other.IsNamed other.label) (same : operator.label = other.label) :
    operator = other := by
  have read := ofWord_eq_ok_iff.mpr named
  rw [same, ofWord_eq_ok_iff.mpr otherNamed] at read
  exact (Except.ok.inj read).symm

namespace Query

variable {ω : Type} [Arithmetic ω] {analyzer : Analyzer} {query other : Query ω}

theorem scan_write_term {text : String} (isTerm : Analyzer.IsTerm text) (field : Field) :
    Token.scan (term text field : Query ω).write = [.word (text ++ "." ++ field.name)] := by
  rw [write, Token.scan_word (isTerm.isWord field)]

theorem scan_write_list (operator : ListOperator) (operands : List (Query ω)) (weights : List ω) :
    Token.scan (apply (.list operator) operands weights).write =
      .word (Operator.list operator).label ::
        ((operands.flatMap fun operand => Token.scan operand.write) ++ [.close]) := by
  have plain : writeOperands (.list operator) weights (operands.map write) =
      " ".intercalate (operands.map write) := by
    rw [writeOperands]
    exact congrArg _ (List.ext_getElem (by simp) (by simp [Operator.isWeighted]))
  rw [write_apply operands weights (by simp), plain, Token.scan_call (Operator.isWord_label _),
    Token.scan_intercalate, List.flatMap_map, List.cons_append]

/-- The tokens of a list begin with a word. -/
theorem WellFormed.exists_scan_eq (wellFormed : query.WellFormed analyzer) (isList : query.isList = true) :
    ∃ word tokens, Token.scan query.write = .word word :: tokens := by
  cases wellFormed with
  | term field found =>
      exact ⟨_, [], scan_write_term (Analyzer.isTerm_of_mem_analyze found) field⟩
  | score => cases isList
  | @apply operator items named weighs kinds each =>
      cases operator with
      | list operator => exact ⟨_, _, scan_write_list operator _ _⟩
      | scoring operator => cases isList

/-- Whatever stands behind the text of the query, no other list has a text that begins as well there. -/
def IsDelimited (analyzer : Analyzer) (query : Query ω) : Prop :=
  ∀ other : Query ω, other.WellFormed analyzer → other.isList = true → ∀ rest later,
    Token.scan query.write ++ rest = Token.scan other.write ++ later → query = other ∧ rest = later

/-- Lists one after the other, up to a closing parenthesis, can be told apart if each of them can. -/
theorem flatMap_scan_inj {queries others : List (Query ω)} {rest later : List Token}
    (delimited : ∀ query ∈ queries, IsDelimited analyzer query)
    (wellFormed : ∀ query ∈ queries, query.WellFormed analyzer ∧ query.isList = true)
    (othersWellFormed : ∀ other ∈ others, other.WellFormed analyzer ∧ other.isList = true)
    (same : (queries.flatMap fun query => Token.scan query.write) ++ .close :: rest =
      (others.flatMap fun other => Token.scan other.write) ++ .close :: later) :
    queries = others ∧ rest = later := by
  induction queries generalizing others with
  | nil =>
      cases others with
      | nil => exact ⟨rfl, (List.cons.inj same).2⟩
      | cons other others =>
          obtain ⟨first, -⟩ := List.forall_mem_cons.mp othersWellFormed
          obtain ⟨word, tokens, begins⟩ := first.1.exists_scan_eq first.2
          simp [begins] at same
  | cons query queries induction =>
      obtain ⟨first, firsts⟩ := List.forall_mem_cons.mp wellFormed
      cases others with
      | nil =>
          obtain ⟨word, tokens, begins⟩ := first.1.exists_scan_eq first.2
          simp [begins] at same
      | cons other others =>
          obtain ⟨second, seconds⟩ := List.forall_mem_cons.mp othersWellFormed
          obtain ⟨told, tolds⟩ := List.forall_mem_cons.mp delimited
          rw [List.flatMap_cons, List.flatMap_cons, List.append_assoc, List.append_assoc] at same
          obtain ⟨rfl, sameLater⟩ := told other second.1 second.2 _ _ same
          obtain ⟨rfl, sameRest⟩ := induction tolds firsts seconds sameLater
          exact ⟨rfl, sameRest⟩

theorem map_fst_eq_replicate {operator : ListOperator} {items : List (ω × Query ω)}
    (weighs : ∀ item ∈ items, (Operator.list operator).Weighs item.1) :
    items.map Prod.fst = List.replicate items.length 1 :=
  List.eq_replicate_iff.mpr ⟨List.length_map _, List.forall_mem_map.mpr weighs⟩

theorem isDelimited_term {text : String} (isTerm : Analyzer.IsTerm text) (field : Field) :
    IsDelimited analyzer (term text field : Query ω) := by
  intro other wellFormed isList rest later same
  rw [scan_write_term isTerm] at same
  cases wellFormed with
  | @term otherText otherWord otherField otherFound =>
      have otherIsTerm := Analyzer.isTerm_of_mem_analyze otherFound
      rw [scan_write_term otherIsTerm] at same
      obtain ⟨sameWord, sameRest⟩ := List.cons.inj same
      obtain ⟨rfl, rfl⟩ := isTerm.append_name_inj otherIsTerm (Token.word.inj sameWord)
      exact ⟨rfl, sameRest⟩
  | score => cases isList
  | @apply operator items named weighs kinds each =>
      cases operator with
      | scoring operator => cases isList
      | list operator =>
          -- A label begins with a number sign, and a term does not.
          rw [scan_write_list] at same
          have sameWord := Token.word.inj (List.cons.inj same).1
          exact absurd (sameWord ▸ Operator.head?_of_isNamed named) (isTerm.head?_ne_sign field)

theorem isDelimited_list {operator : ListOperator} {items : List (ω × Query ω)}
    (named : Operator.IsNamed (Operator.list operator).label (.list operator))
    (each : ∀ item ∈ items, IsOperand analyzer (.list operator) item)
    (delimited : ∀ item ∈ items, IsDelimited analyzer item.2) :
    IsDelimited analyzer
      (.apply (.list operator) (items.map Prod.snd) (items.map Prod.fst) : Query ω) := by
  intro other wellFormed isList rest later same
  rw [scan_write_list] at same
  cases wellFormed with
  | term field found =>
      have isTerm := Analyzer.isTerm_of_mem_analyze found
      rw [scan_write_term isTerm] at same
      have sameWord := Token.word.inj (List.cons.inj same).1
      exact absurd (sameWord ▸ Operator.head?_of_isNamed named) (isTerm.head?_ne_sign field)
  | score => cases isList
  | @apply otherOperator others otherNamed otherWeighs otherKinds otherEach =>
      cases otherOperator with
      | scoring otherOperator => cases isList
      | list otherOperator =>
          rw [scan_write_list, List.cons_append, List.cons_append] at same
          obtain ⟨sameWord, sameLater⟩ := List.cons.inj same
          obtain rfl : operator = otherOperator := Operator.list.inj
            (Operator.eq_of_label_eq named otherNamed (Token.word.inj sameWord))
          rw [List.append_assoc, List.append_assoc] at sameLater
          obtain ⟨sameOperands, sameRest⟩ := flatMap_scan_inj (List.forall_mem_map.mpr delimited)
            (List.forall_mem_map.mpr fun item member =>
              ⟨(each item member).wellFormed, (each item member).kind⟩)
            (List.forall_mem_map.mpr fun item member => ⟨otherEach item member, otherKinds item member⟩)
            sameLater
          have sameLength : items.length = others.length := by
            simpa using congrArg List.length sameOperands
          rw [sameOperands, map_fst_eq_replicate fun item member => (each item member).weighs,
            map_fst_eq_replicate otherWeighs, sameLength]
          exact ⟨rfl, sameRest⟩

theorem WellFormed.isDelimited (wellFormed : query.WellFormed analyzer) :
    query.isList = true → IsDelimited analyzer query := by
  induction wellFormed with
  | term field found => exact fun _ => isDelimited_term (Analyzer.isTerm_of_mem_analyze found) field
  | score => exact fun isList => by cases isList
  | @apply operator items named weighs kinds each induction =>
      intro isList
      cases operator with
      | scoring operator => cases isList
      | list operator =>
          exact isDelimited_list named
            (fun item member => ⟨weighs item member, kinds item member, each item member⟩)
            fun item member => induction item member (kinds item member)

/-- Lists with the same text are the same. -/
theorem WellFormed.write_inj (wellFormed : query.WellFormed analyzer) (isList : query.isList = true)
    (otherWellFormed : other.WellFormed analyzer) (otherIsList : other.isList = true) :
    query.write = other.write ↔ query = other := by
  constructor
  · intro same
    exact (wellFormed.isDelimited isList other otherWellFormed otherIsList [] [] (by rw [same])).1
  · rintro rfl
    rfl

end Query

end Retrieval
