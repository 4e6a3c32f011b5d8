import Retrieval.Evaluation
import Retrieval.Proofs.Evaluation.Traversal
import Retrieval.Proofs.Query.Words

/-!
# The grammar of query texts

The tokens of a query derive the operands of an operator, as a context-free grammar with one nonterminal
for each operator: `Items` for a row of operands and `Operand` for one of them. The reader, which keeps
the open operators on a stack, accepts exactly the derivable texts, and the query that it builds is
that of the derivation.
-/

namespace Retrieval

variable {ω : Type} [Arithmetic ω]

/-- The form in which an operator takes an operand: a scoring operator takes the score of a list. -/
def Operator.take (operator : Operator) (query : Query ω) : Query ω :=
  if !operator.isList && query.isList then query.score else query

/-- An operator can take a query: a list operator takes only lists. -/
def Operator.Admits (operator : Operator) (query : Query ω) : Prop :=
  operator.isList = true → query.isList = true

namespace Query

mutual

/-- The tokens derive the operands of an operator, each with its weight. -/
inductive Items (analyzer : Analyzer) : Operator → List Token → List (ω × Query ω) → Prop
  | nil {operator : Operator} : Items analyzer operator [] []
  /-- Operands of an operator without weights all weigh one. -/
  | plain {operator : Operator} {tokens later : List Token} {queries : List (Query ω)}
      {items : List (ω × Query ω)} (unweighted : operator.isWeighted = false)
      (head : Operand analyzer operator tokens queries)
      (tail : Items analyzer operator later items) :
      Items analyzer operator (tokens ++ later) (queries.map (Prod.mk 1) ++ items)
  /-- The weight of an operand stands before it. -/
  | weighted {operator : Operator} {word : String} {weight : ω} {tokens later : List Token}
      {queries : List (Query ω)} {items : List (ω × Query ω)}
      (isWeighted : operator.isWeighted = true) (isWeight : IsWeight word weight)
      (head : Operand analyzer operator tokens queries)
      (tail : Items analyzer operator later items) :
      Items analyzer operator (.word word :: tokens ++ later)
        (queries.map (Prod.mk weight) ++ items)

/-- The tokens derive an operand of an operator. A word can stand for several terms, or for none. -/
inductive Operand (analyzer : Analyzer) : Operator → List Token → List (Query ω) → Prop
  | terms {operator : Operator} {word : String} {terms : List (Query ω)}
      (noOperator : word.toList.head? ≠ some '#') (standsFor : StandsFor analyzer word terms) :
      Operand analyzer operator [.word word] (terms.map operator.take)
  | apply {operator inner : Operator} {word : String} {tokens : List Token}
      {items : List (ω × Query ω)} (named : inner.IsNamed word)
      (admits : operator.isList = true → inner.isList = true)
      (inside : Items analyzer inner tokens items) :
      Operand analyzer operator (.word word :: tokens ++ [.close])
        [operator.take (.apply inner (items.map Prod.snd) (items.map Prod.fst))]

end

end Query

/-! ## Open operators -/

namespace OpenOperator

section Extension

variable {ω : Type} {frame : OpenOperator ω}

/-- The open operator with more operands. -/
def extend (frame : OpenOperator ω) (items : List (ω × Query ω)) : OpenOperator ω :=
  { frame with
    operands := (items.map Prod.snd).reverse ++ frame.operands
    weights := (items.map Prod.fst).reverse ++ frame.weights
    pending := none }

/-- The open operator with a weight that waits for its operand. -/
def await (frame : OpenOperator ω) (weight : ω) : OpenOperator ω :=
  { frame with pending := some weight }

@[simp]
theorem extend_await (weight : ω) (items : List (ω × Query ω)) :
    (frame.await weight).extend items = frame.extend items := rfl

theorem extend_nil (settled : frame.pending = none) : frame.extend [] = frame := by
  cases frame
  simp_all [extend]

theorem extend_extend (items more : List (ω × Query ω)) :
    (frame.extend items).extend more = frame.extend (items ++ more) := by
  simp [extend]

theorem close_extend_start (operator : Operator) (items : List (ω × Query ω)) :
    ((start operator).extend items).close =
      .apply operator (items.map Prod.snd) (items.map Prod.fst) := by
  simp [close, extend, start]

/-- Only an operator with weights lets a weight wait. -/
def Coherent (frame : OpenOperator ω) : Prop :=
  frame.pending.isSome = true → frame.operator.isWeighted = true

theorem coherent_start (operator : Operator) : (start operator : OpenOperator ω).Coherent :=
  fun waits => absurd waits (by simp [start])

theorem coherent_extend (frame : OpenOperator ω) (items : List (ω × Query ω)) :
    (frame.extend items).Coherent :=
  fun waits => absurd waits (by simp [extend])

end Extension

variable {frame next : OpenOperator ω} {query : Query ω} {queries : List (Query ω)} {weight : ω}

/-- The weight of the next operand, unless a word has to tell it first. -/
def weight? (frame : OpenOperator ω) : Option ω :=
  if frame.operator.isWeighted then frame.pending else some 1

theorem weight?_await (weighted : frame.operator.isWeighted = true) (weight : ω) :
    (frame.await weight).weight? = some weight := by
  exact if_pos weighted

theorem expectsWeight_eq_false_iff :
    frame.expectsWeight = false ↔ ∃ weight, frame.weight? = some weight := by
  rw [expectsWeight, weight?]
  cases frame.operator.isWeighted with
  | false => simp
  | true => cases frame.pending <;> simp

theorem operand_eq_ok_iff {operator : Operator} {taken : Query ω} :
    operand operator query = .ok taken ↔ operator.Admits query ∧ taken = operator.take query := by
  cases query with
  | term text field =>
      cases kind : operator.isList <;>
        simp [operand, Operator.Admits, Operator.take, Query.isList, kind, eq_comm]
  | apply inner operands weights =>
      cases kind : operator.isList <;> cases innerKind : inner.isList <;>
        simp [operand, Operator.Admits, Operator.take, Query.isList, kind, innerKind, eq_comm]

theorem push_eq (given : frame.weight? = some weight) :
    frame.push query = (operand frame.operator query).map fun taken =>
      { frame with operands := taken :: frame.operands, weights := weight :: frame.weights } := by
  rw [weight?] at given
  rw [push]
  cases operand frame.operator query with
  | error cause => rfl
  | ok taken =>
      cases weighted : frame.operator.isWeighted with
      | false =>
          simp only [weighted, Bool.false_eq_true, if_false, Option.some.injEq] at given
          rw [← given]
          rfl
      | true =>
          simp only [weighted, if_true] at given
          simp only [given]
          rfl

/-- The weight is that of all operands until it is forgotten. -/
theorem foldlM_push_eq_ok_iff (given : frame.weight? = some weight) :
    queries.foldlM push frame = .ok next ↔ (∀ query ∈ queries, frame.operator.Admits query) ∧
      next = { frame.extend (queries.map fun query => (weight, frame.operator.take query)) with
        pending := frame.pending } := by
  induction queries generalizing frame with
  | nil => simp [extend, pure, Except.pure, eq_comm]
  | cons query queries induction =>
      rw [List.foldlM_cons, push_eq given, List.forall_mem_cons]
      cases taken : operand frame.operator query with
      | error cause =>
          have refused : ¬ frame.operator.Admits query := fun admits => by
            rw [operand_eq_ok_iff.mpr ⟨admits, rfl⟩] at taken
            exact absurd taken (by simp)
          simp [refused, Except.map, bind, Except.bind]
      | ok form =>
          obtain ⟨admits, rfl⟩ := operand_eq_ok_iff.mp taken
          have later := @induction
            { frame with
              operands := frame.operator.take query :: frame.operands
              weights := weight :: frame.weights } given
          refine later.trans ?_
          simp [extend, admits]

theorem pushAll_eq_ok_iff (given : frame.weight? = some weight) :
    frame.pushAll queries = .ok next ↔ (∀ query ∈ queries, frame.operator.Admits query) ∧
      next = frame.extend (queries.map fun query => (weight, frame.operator.take query)) := by
  have pushed := @foldlM_push_eq_ok_iff ω _ frame
  rw [pushAll]
  cases folded : queries.foldlM push frame with
  | error cause =>
      constructor
      · intro impossible
        exact absurd impossible (by simp [bind, Except.bind])
      · rintro ⟨admits, -⟩
        rw [(pushed given).mpr ⟨admits, rfl⟩] at folded
        exact absurd folded (by simp)
  | ok all =>
      obtain ⟨admits, rfl⟩ := (pushed given).mp folded
      simp only [bind, Except.bind, pure, Except.pure, Except.ok.injEq]
      constructor
      · rintro rfl
        exact ⟨admits, rfl⟩
      · rintro ⟨-, rfl⟩
        rfl

end OpenOperator

/-! ## Reading tokens -/

namespace Query

variable {analyzer : Analyzer} {text word : String} {frame : OpenOperator ω}
  {outer : List (OpenOperator ω)}

theorem readToken_begin :
    readToken analyzer text (.inside ([] : List (OpenOperator ω))) (.word word) =
      if word.toList.head? = some '#' then
        (Operator.ofWord word).map fun operator => .inside [.start operator]
      else .error (.unbalancedParentheses text) := by
  rw [readToken, readWord, readOperand]
  cases Operator.ofWord word <;> rfl

theorem readToken_weight (expects : frame.expectsWeight = true) :
    readToken analyzer text (.inside (frame :: outer)) (.word word) =
      (readWeight word).map fun weight => .inside (frame.await weight :: outer) := by
  rw [readToken, readWord, if_pos expects]
  cases (readWeight word : Except QueryError ω) <;> rfl

theorem readToken_operator (ready : frame.expectsWeight = false)
    (sign : word.toList.head? = some '#') :
    readToken analyzer text (.inside (frame :: outer)) (.word word) =
      (Operator.ofWord word).map fun operator => .inside (.start operator :: frame :: outer) := by
  rw [readToken, readWord, if_neg (by simp [ready]), readOperand, if_pos sign]
  cases Operator.ofWord word <;> rfl

theorem readToken_terms (ready : frame.expectsWeight = false)
    (noOperator : word.toList.head? ≠ some '#') :
    readToken analyzer text (.inside (frame :: outer)) (.word word) =
      (termsOfWord analyzer word >>= frame.pushAll).map fun frame => .inside (frame :: outer) := by
  rw [readToken, readWord, if_neg (by simp [ready]), readOperand, if_neg noOperator]
  cases termsOfWord analyzer word with
  | error cause => rfl
  | ok terms => cases frame.pushAll terms <;> rfl

theorem readToken_close (settled : frame.pending = none) (parent : OpenOperator ω) :
    readToken analyzer text (.inside (frame :: parent :: outer)) .close =
      (parent.pushAll [frame.close]).map fun parent => .inside (parent :: outer) := by
  rw [readToken, readClose, if_neg (by simp [settled])]
  cases parent.pushAll [frame.close] <;> rfl

theorem readToken_close_last (settled : frame.pending = none) :
    readToken analyzer text (.inside [frame]) .close = .ok (.complete frame.close) := by
  rw [readToken, readClose, if_neg (by simp [settled])]

/-! ## What derives is read -/

mutual

/-- The operands that the tokens derive are read into the open operator. -/
theorem Items.read {operator : Operator} {tokens : List Token} {items : List (ω × Query ω)} :
    Items analyzer operator tokens items → ∀ (frame : OpenOperator ω) (outer : List (OpenOperator ω))
      (rest : List Token), frame.operator = operator → frame.pending = none →
      (tokens ++ rest).foldlM (readToken analyzer text) (.inside (frame :: outer)) =
        rest.foldlM (readToken analyzer text) (.inside (frame.extend items :: outer))
  | .nil => by
      intro frame outer rest same settled
      rw [List.nil_append, frame.extend_nil settled]
  | .plain unweighted head tail => by
      intro frame outer rest same settled
      have given : frame.weight? = some 1 := by
        rw [OpenOperator.weight?, same, unweighted]
        rfl
      rw [List.append_assoc, head.read frame outer _ same given,
        tail.read (frame.extend _) outer rest same rfl, OpenOperator.extend_extend]
  | .weighted isWeighted isWeight head tail => by
      intro frame outer rest same settled
      have expects : frame.expectsWeight = true := by
        rw [OpenOperator.expectsWeight, same, isWeighted, settled]
        rfl
      have given := frame.weight?_await (same ▸ isWeighted)
      rw [List.append_assoc, List.cons_append, List.foldlM_cons, readToken_weight expects,
        readWeight_eq_ok_iff.mpr isWeight]
      refine (head.read (frame.await _) outer _ same (given _)).trans ?_
      rw [OpenOperator.extend_await, tail.read (frame.extend _) outer rest same rfl,
        OpenOperator.extend_extend]

/-- The operand that the tokens derive is read into the open operator. -/
theorem Operand.read {operator : Operator} {tokens : List Token} {queries : List (Query ω)} :
    Operand analyzer operator tokens queries → ∀ (frame : OpenOperator ω)
      (outer : List (OpenOperator ω)) (rest : List Token) {weight : ω}, frame.operator = operator →
      frame.weight? = some weight →
      (tokens ++ rest).foldlM (readToken analyzer text) (.inside (frame :: outer)) =
        rest.foldlM (readToken analyzer text)
          (.inside (frame.extend (queries.map (Prod.mk weight)) :: outer))
  | @Operand.terms _ _ _ _ _ terms noOperator standsFor => by
      intro frame outer rest weight same given
      have ready := OpenOperator.expectsWeight_eq_false_iff.mpr ⟨weight, given⟩
      have admits : ∀ query ∈ terms, frame.operator.Admits query := by
        intro query member _
        obtain ⟨text, field, rfl⟩ := standsFor.exists_eq_term member
        rfl
      have pushed := (OpenOperator.pushAll_eq_ok_iff given).mpr ⟨admits, rfl⟩
      rw [List.cons_append, List.nil_append, List.foldlM_cons, readToken_terms ready noOperator,
        termsOfWord_eq_ok_iff.mpr standsFor, List.map_map, ← same]
      change (Except.map _ (frame.pushAll _)) >>= _ = _
      rw [pushed]
      rfl
  | @Operand.apply _ _ _ _ inner word tokens items named admits inside => by
      intro frame outer rest weight same given
      have ready := OpenOperator.expectsWeight_eq_false_iff.mpr ⟨weight, given⟩
      have closed := OpenOperator.close_extend_start inner items
      have pushed := (OpenOperator.pushAll_eq_ok_iff given).mpr
        ⟨List.forall_mem_singleton.mpr (same ▸ admits : frame.operator.Admits
          (((OpenOperator.start inner).extend items).close)), rfl⟩
      rw [List.cons_append, List.cons_append, List.append_assoc, List.foldlM_cons,
        readToken_operator ready (Operator.head?_of_isNamed named),
        Operator.ofWord_eq_ok_iff.mpr named]
      refine (inside.read (.start inner) (frame :: outer) _ rfl rfl).trans ?_
      rw [List.cons_append, List.nil_append, List.foldlM_cons, readToken_close rfl, pushed, ← same,
        closed]
      rfl

end

/-! ## What is read derives -/

theorem cases_of_readToken_word {state : Reading ω}
    (step : readToken analyzer text (.inside (frame :: outer)) (.word word) = .ok state) :
    (∃ weight, frame.expectsWeight = true ∧ IsWeight word weight ∧
        state = .inside (frame.await weight :: outer)) ∨
      (∃ weight inner, frame.weight? = some weight ∧ inner.IsNamed word ∧
        state = .inside (.start inner :: frame :: outer)) ∨
      ∃ weight terms, frame.weight? = some weight ∧ word.toList.head? ≠ some '#' ∧
        StandsFor analyzer word terms ∧
        state = .inside (frame.extend ((terms.map frame.operator.take).map (Prod.mk weight)) ::
          outer) := by
  cases expects : frame.expectsWeight with
  | true =>
      rw [readToken_weight expects] at step
      obtain ⟨weight, isWeight, rfl⟩ := map_eq_ok_iff.mp step
      exact .inl ⟨weight, rfl, readWeight_eq_ok_iff.mp isWeight, rfl⟩
  | false =>
      obtain ⟨weight, given⟩ := OpenOperator.expectsWeight_eq_false_iff.mp expects
      by_cases sign : word.toList.head? = some '#'
      · rw [readToken_operator expects sign] at step
        obtain ⟨inner, named, rfl⟩ := map_eq_ok_iff.mp step
        exact .inr (.inl ⟨weight, inner, given, Operator.ofWord_eq_ok_iff.mp named, rfl⟩)
      · rw [readToken_terms expects sign] at step
        obtain ⟨next, pushed, rfl⟩ := map_eq_ok_iff.mp step
        obtain ⟨terms, standsFor, pushed⟩ := bind_eq_ok_iff.mp pushed
        obtain ⟨-, rfl⟩ := (OpenOperator.pushAll_eq_ok_iff given).mp pushed
        refine .inr (.inr ⟨weight, terms, given, sign, termsOfWord_eq_ok_iff.mp standsFor, ?_⟩)
        rw [List.map_map]
        rfl

theorem of_readToken_close {parent : OpenOperator ω} {weight : ω} {state : Reading ω}
    (settled : frame.pending = none) (given : parent.weight? = some weight)
    (step : readToken analyzer text (.inside (frame :: parent :: outer)) .close = .ok state) :
    parent.operator.Admits frame.close ∧
      state = .inside (parent.extend [(weight, parent.operator.take frame.close)] :: outer) := by
  rw [readToken_close settled] at step
  obtain ⟨next, pushed, rfl⟩ := map_eq_ok_iff.mp step
  obtain ⟨admits, rfl⟩ := (OpenOperator.pushAll_eq_ok_iff given).mp pushed
  exact ⟨List.forall_mem_singleton.mp admits, rfl⟩

theorem of_readToken_close_last {state : Reading ω} (settled : frame.pending = none)
    (step : readToken analyzer text (.inside [frame]) .close = .ok state) :
    state = .complete frame.close := by
  rw [readToken_close_last settled] at step
  exact (Except.ok.inj step).symm

/-- The tokens derive what is left to an open operator: its operands, the first of which may have got
its weight already. -/
def Remainder (analyzer : Analyzer) (frame : OpenOperator ω) (tokens : List Token)
    (items : List (ω × Query ω)) : Prop :=
  match frame.pending with
  | none => Items analyzer frame.operator tokens items
  | some weight => ∃ first later queries more, tokens = first ++ later ∧
      Operand analyzer frame.operator first queries ∧ Items analyzer frame.operator later more ∧
      items = queries.map (Prod.mk weight) ++ more

theorem Remainder.of_operand {weight : ω} {first later : List Token} {queries : List (Query ω)}
    {more : List (ω × Query ω)} (coherent : frame.Coherent) (given : frame.weight? = some weight)
    (head : Operand analyzer frame.operator first queries)
    (tail : Items analyzer frame.operator later more) :
    Remainder analyzer frame (first ++ later) (queries.map (Prod.mk weight) ++ more) := by
  rw [OpenOperator.weight?] at given
  rw [Remainder]
  cases pending : frame.pending with
  | none =>
      cases weighted : frame.operator.isWeighted with
      | false =>
          obtain rfl : 1 = weight := by simpa [weighted] using given
          exact .plain weighted head tail
      | true => simp [weighted, pending] at given
  | some waiting =>
      have weighted := coherent (by simp [pending])
      obtain rfl : waiting = weight := by simpa [weighted, pending] using given
      exact ⟨first, later, queries, more, rfl, head, tail, rfl⟩

theorem Remainder.weighted {weight : ω} {tokens : List Token} {items : List (ω × Query ω)}
    (expects : frame.expectsWeight = true) (isWeight : IsWeight word weight)
    (remainder : Remainder analyzer (frame.await weight) tokens items) :
    Remainder analyzer frame (.word word :: tokens) items := by
  rw [OpenOperator.expectsWeight, Bool.and_eq_true, Option.isNone_iff_eq_none] at expects
  obtain ⟨first, later, queries, more, rfl, head, tail, rfl⟩ := remainder
  rw [Remainder, expects.2]
  exact .weighted expects.1 isWeight head tail

theorem pending_eq_none_of_close {state : Reading ω}
    (closed : readToken analyzer text (.inside (frame :: outer)) .close = .ok state) :
    frame.pending = none := by
  cases pending : frame.pending with
  | none => rfl
  | some weight =>
      rw [readToken, readClose.eq_def] at closed
      simp [pending] at closed

/-- The tokens that complete a query contain the parenthesis that closes the innermost operator, and
those before it derive what was left to that operator. -/
theorem exists_remainder {query : Query ω} (bound : Nat) {tokens : List Token}
    (short : tokens.length < bound) (coherent : frame.Coherent)
    (read : tokens.foldlM (readToken analyzer text) (.inside (frame :: outer)) =
      .ok (.complete query)) :
    ∃ front rest items, tokens = front ++ .close :: rest ∧ Remainder analyzer frame front items ∧
      (Token.close :: rest).foldlM (readToken analyzer text) (.inside (frame.extend items :: outer)) =
        .ok (.complete query) := by
  induction bound generalizing tokens frame outer with
  | zero => exact absurd short (Nat.not_lt_zero _)
  | succ bound induction =>
      cases tokens with
      | nil => exact absurd read (by simp [pure, Except.pure])
      | cons token tokens =>
          have shorter : tokens.length < bound := Nat.lt_of_succ_lt_succ short
          obtain ⟨state, step, readLater⟩ := bind_eq_ok_iff.mp (List.foldlM_cons.symm.trans read)
          cases token with
          | close =>
              have settled := pending_eq_none_of_close step
              refine ⟨[], tokens, [], rfl, ?_, by rwa [frame.extend_nil settled]⟩
              rw [Remainder, settled]
              exact .nil
          | word word =>
              rcases cases_of_readToken_word step with ⟨weight, expects, isWeight, rfl⟩ |
                ⟨weight, inner, given, named, rfl⟩ | ⟨weight, terms, given, noOperator, standsFor, rfl⟩
              · have weighted : frame.operator.isWeighted = true := (Bool.and_eq_true _ _ ▸ expects).1
                have awaits : (frame.await weight).Coherent := fun _ => weighted
                obtain ⟨front, rest, items, rfl, remainder, closes⟩ :=
                  induction shorter awaits readLater
                exact ⟨.word word :: front, rest, items, rfl, remainder.weighted expects isWeight,
                  closes⟩
              · -- The operator that the word opens is read to its own parenthesis first.
                obtain ⟨inside, afterInside, innerItems, rfl, derives, closes⟩ :=
                  induction shorter (OpenOperator.coherent_start inner) readLater
                obtain ⟨next, closed, readAfter⟩ := bind_eq_ok_iff.mp (List.foldlM_cons.symm.trans closes)
                obtain ⟨admits, rfl⟩ := of_readToken_close rfl given closed
                rw [OpenOperator.close_extend_start] at admits readAfter
                have fewer : afterInside.length < bound := by
                  rw [List.length_append, List.length_cons] at shorter
                  omega
                obtain ⟨front, rest, more, rfl, tail, closesOuter⟩ :=
                  induction fewer (frame.coherent_extend _) readAfter
                have head : Operand analyzer frame.operator (.word word :: inside ++ [.close]) _ :=
                  .apply named admits derives
                refine ⟨(.word word :: inside ++ [.close]) ++ front, rest, _, by simp,
                  .of_operand coherent given head tail, ?_⟩
                rwa [OpenOperator.extend_extend] at closesOuter
              · obtain ⟨front, rest, more, rfl, tail, closes⟩ :=
                  induction shorter (frame.coherent_extend _) readLater
                have head : Operand analyzer frame.operator [.word word] _ :=
                  .terms noOperator standsFor
                refine ⟨[.word word] ++ front, rest, _, rfl, .of_operand coherent given head tail, ?_⟩
                rwa [OpenOperator.extend_extend] at closes

/-! ## Whole texts -/

/-- What completes a query closes its outermost operator, and nothing follows. -/
theorem exists_items {operator : Operator} {query : Query ω} {tokens : List Token}
    (read : tokens.foldlM (readToken analyzer text) (.inside [.start operator]) =
      .ok (.complete query)) :
    ∃ front items, tokens = front ++ [.close] ∧ Items analyzer operator front items ∧
      query = .apply operator (items.map Prod.snd) (items.map Prod.fst) := by
  obtain ⟨front, rest, items, rfl, derives, closes⟩ :=
    exists_remainder _ (Nat.lt_succ_self _) (OpenOperator.coherent_start operator) read
  obtain ⟨state, closed, readRest⟩ := bind_eq_ok_iff.mp (List.foldlM_cons.symm.trans closes)
  obtain rfl := of_readToken_close_last rfl closed
  rw [OpenOperator.close_extend_start] at readRest
  cases rest with
  | nil =>
      refine ⟨front, items, rfl, derives, ?_⟩
      simpa [pure, Except.pure, eq_comm] using readRest
  | cons token rest => exact absurd readRest (by simp [readToken, bind, Except.bind])

theorem exists_items_of_ofText {query : Query ω} (parsed : ofText analyzer text = .ok query) :
    ∃ word operator tokens items, Token.scan text = .word word :: tokens ++ [.close] ∧
      operator.IsNamed word ∧ Items analyzer operator tokens items ∧
      query = .apply operator (items.map Prod.snd) (items.map Prod.fst) := by
  obtain ⟨reading, read, complete⟩ := bind_eq_ok_iff.mp parsed
  cases reading with
  | inside frames => exact absurd complete (by simp)
  | complete found =>
      obtain rfl : found = query := Except.ok.inj complete
      cases scanned : Token.scan text with
      | nil =>
          rw [scanned] at read
          exact absurd read (by simp [pure, Except.pure])
      | cons token tokens =>
          rw [scanned] at read
          obtain ⟨state, step, readLater⟩ := bind_eq_ok_iff.mp (List.foldlM_cons.symm.trans read)
          cases token with
          | close => exact absurd step (by simp [readToken, readClose])
          | word word =>
              rw [readToken_begin] at step
              split at step
              · obtain ⟨operator, named, rfl⟩ := map_eq_ok_iff.mp step
                obtain ⟨front, items, rfl, derives, same⟩ := exists_items readLater
                exact ⟨word, operator, front, items, rfl, Operator.ofWord_eq_ok_iff.mp named, derives,
                  same⟩
              · simp at step

theorem ofText_of_items {operator : Operator} {tokens : List Token} {items : List (ω × Query ω)}
    (scanned : Token.scan text = .word word :: tokens ++ [.close]) (named : operator.IsNamed word)
    (derives : Items analyzer operator tokens items) :
    ofText analyzer text = .ok (.apply operator (items.map Prod.snd) (items.map Prod.fst)) := by
  have first : readToken analyzer text (.inside ([] : List (OpenOperator ω))) (.word word) =
      .ok (.inside [.start operator]) := by
    rw [readToken_begin, if_pos (Operator.head?_of_isNamed named),
      Operator.ofWord_eq_ok_iff.mpr named]
    rfl
  have later : (tokens ++ [Token.close]).foldlM (readToken analyzer text)
      (.inside [(.start operator : OpenOperator ω)]) =
        .ok (.complete (.apply operator (items.map Prod.snd) (items.map Prod.fst))) := by
    rw [derives.read (.start operator) [] [.close] rfl rfl, List.foldlM_cons,
      readToken_close_last rfl, OpenOperator.close_extend_start]
    rfl
  rw [ofText, scanned, List.cons_append, List.foldlM_cons, first]
  change List.foldlM _ _ _ >>= _ = _
  rw [later]
  rfl

/-- A text is a query if its tokens name an operator, derive its operands and close it. -/
theorem ofText_eq_ok_iff {query : Query ω} :
    ofText analyzer text = .ok query ↔ ∃ word operator tokens items,
      Token.scan text = .word word :: tokens ++ [.close] ∧ operator.IsNamed word ∧
        Items analyzer operator tokens items ∧
        query = .apply operator (items.map Prod.snd) (items.map Prod.fst) := by
  constructor
  · exact exists_items_of_ofText
  · rintro ⟨word, operator, tokens, items, scanned, named, derives, rfl⟩
    exact ofText_of_items scanned named derives

/-- The operands of an operator whose label names it are the text inside its parentheses. -/
theorem parse_eq_ok_iff_of_isNamed {operator : Operator} {query : Query ω}
    (named : operator.IsNamed operator.label) :
    parse operator analyzer text = .ok query ↔ ∃ items,
      Items analyzer operator (Token.scan text) items ∧
        query = .apply operator (items.map Prod.snd) (items.map Prod.fst) := by
  have scanned := Token.scan_call operator.isWord_label text
  rw [parse, ofText_eq_ok_iff, wrap, scanned]
  constructor
  · rintro ⟨word, inner, tokens, items, same, innerNamed, derives, rfl⟩
    obtain ⟨sameWord, sameTokens⟩ := List.cons.inj same
    obtain rfl := Token.word.inj sameWord
    obtain rfl : Token.scan text = tokens := List.append_cancel_right sameTokens
    have sameOperator := (Operator.ofWord_eq_ok_iff.mpr named).symm.trans
      (Operator.ofWord_eq_ok_iff.mpr innerNamed)
    obtain rfl := Except.ok.inj sameOperator
    exact ⟨items, derives, rfl⟩
  · rintro ⟨items, derives, rfl⟩
    exact ⟨operator.label, operator, Token.scan text, items, rfl, named, derives, rfl⟩

end Query

/-- A text is a query of an engine exactly if its tokens derive operands of the default operator, and
the query is then the default operator of these operands. -/
theorem Engine.parse_eq_ok_iff (engine : Engine ω) (text : String) (query : Query ω) :
    engine.parse text = .ok query ↔ ∃ items,
      Query.Items engine.analyzer engine.model.defaultOperator (Token.scan text) items ∧
        query = .apply engine.model.defaultOperator (items.map Prod.snd) (items.map Prod.fst) :=
  Query.parse_eq_ok_iff_of_isNamed (Operator.isNamed_label_defaultOperator engine.model)

end Retrieval
