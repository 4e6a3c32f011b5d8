import Retrieval.Proofs.Cursor.Ending
import Retrieval.Proofs.Cursor.Standing
import Retrieval.Proofs.Evaluation.Traversal

/-!
# Searches find the next document

A cursor that stands at a bound, settled, stands at the same bound and on the next document of its
query from there. For a conjunction the measure is the number of documents that its first operand has
ahead: each round of leaps takes one away, so the rounds that the search allows are always enough.
-/

namespace Retrieval

/-- The documents of the query from the bound on. -/
def Standpoint.ahead {ω : Type} [Arithmetic ω] (index : Index) (soft : Bool)
    (place : Standpoint ω) : Set DocumentId :=
  documentsFrom (place.2.documentsOn index soft) place.1

/-- What a row of cursors that move to a document finds out about it. -/
def Agreement.Tells {ω : Type} (document : DocumentId) (documents : Set DocumentId)
    (cursors : List (Cursor ω)) : Agreement → Prop
  | .agreed => ∀ cursor ∈ cursors, cursor.current? = some document
  | .exhausted => ∀ found ∈ documents, found < document
  | .ahead other => document < other ∧ ∀ found ∈ documents, document ≤ found → other ≤ found

/-! ## Documents ahead of operators -/

namespace Matching

variable {bound : DocumentId} {operands : List (DocumentId × Finset DocumentId)}

theorem Follows.documentsFrom_any (follows : any.Follows bound operands) :
    documentsFrom (any.documents (operands.map Prod.snd)) bound =
      {document | ∃ operand ∈ operands, document ∈ documentsFrom operand.2 operand.1} := by
  ext document
  simp only [documentsFrom, Set.mem_ofPred_eq, mem_documents_any]
  constructor
  · rintro ⟨⟨_, among, present⟩, reached⟩
    obtain ⟨operand, member, rfl⟩ := List.mem_map.mp among
    exact ⟨operand, member, present, (follows operand member document present).mp reached⟩
  · rintro ⟨operand, member, present, reached⟩
    exact ⟨⟨_, List.mem_map_of_mem member, present⟩, (follows operand member document present).mpr reached⟩

theorem Follows.documentsFrom_all (follows : all.Follows bound operands) (nonempty : operands ≠ []) :
    documentsFrom (all.documents (operands.map Prod.snd)) bound =
      {document | ∀ operand ∈ operands, document ∈ documentsFrom operand.2 operand.1} := by
  have mem_iff : ∀ document, document ∈ all.documents (operands.map Prod.snd) ↔
      ∀ operand ∈ operands, document ∈ operand.2 := by
    intro document
    rw [mem_documents_all, List.forall_mem_map]
    exact and_iff_right (by simpa using nonempty)
  ext document
  simp only [documentsFrom, Set.mem_ofPred_eq, forall₂_and]
  constructor
  · rintro ⟨present, reached⟩
    exact ⟨(mem_iff document).mp present, (follows document present).mp reached⟩
  · rintro ⟨each, reached⟩
    have present := (mem_iff document).mpr each
    exact ⟨present, (follows document present).mpr reached⟩

theorem Follows.documentsFrom_leading {first : DocumentId × Finset DocumentId}
    (follows : leading.Follows bound (first :: operands)) :
    documentsFrom (leading.documents ((first :: operands).map Prod.snd)) bound =
      documentsFrom first.2 first.1 := by
  ext document
  exact and_congr_right fun present => follows first rfl document present

end Matching

namespace Cursor

variable {ω : Type}

theorem settleWithin_scoring (soft : Bool) (levels : Nat) (operator : ScoringOperator)
    (operands : List (Cursor ω)) (weights : List ω) (statistics : Option (SumStatistics ω)) :
    settleWithin soft (levels + 1) (.scoring operator operands weights none statistics) =
      match operator.matching soft, operands with
      | .any, operands =>
          let found := matchAny (settleWithin soft levels) operands
          .scoring operator found.2 weights found.1 statistics
      | .all, operands =>
          let found := matchAll (settleWithin soft levels) operands
          .scoring operator found.2 weights found.1 statistics
      | .leading, [] => .scoring operator [] weights none statistics
      | .leading, first :: others =>
          .scoring operator (settleWithin soft levels first :: others) weights
            (settleWithin soft levels first).current? statistics
      | .never, operands =>
          .scoring operator (operands.map (settleWithin soft levels)) weights none statistics := by
  cases operator <;> cases soft <;> cases operands <;> rfl

variable [Arithmetic ω]

/-! ## Finding -/

/-- The search from a cursor has ended at another one, which stands at the same bound and on the next
document of the query. -/
structure Found (index : Index) (soft : Bool) (bound : DocumentId) (query : Query ω)
    (before after : Cursor ω) : Prop where
  /-- The search ends. -/
  ends : Settles soft before after
  /-- The cursor has not moved beyond its bound. -/
  stands : Stands index soft bound query after
  /-- It is on the next document. -/
  next : IsNext (documentsFrom (query.documentsOn index soft) bound) after.current?

/-- A search that finds the next document of a query wherever a cursor stands. -/
def Finds (index : Index) (soft : Bool) (search : Cursor ω → Cursor ω) (query : Query ω) : Prop :=
  ∀ {bound : DocumentId} {cursor : Cursor ω}, Stands index soft bound query cursor →
    Found index soft bound query cursor (search cursor)

variable {index : Index} {soft : Bool} {search : Cursor ω → Cursor ω}

/-! ## Rows of cursors -/

theorem standEach_iff_forall₂ {places : List (Standpoint ω)} {cursors : List (Cursor ω)} :
    StandEach index soft places cursors ↔
      List.Forall₂ (fun place cursor => Stands index soft place.1 place.2 cursor) places cursors := by
  constructor
  · intro each
    induction places generalizing cursors with
    | nil =>
        cases each
        exact .nil
    | cons place places induction =>
        cases each with
        | cons stands later => exact .cons stands (induction later)
  · intro each
    induction each with
    | nil => exact .nil
    | cons stands _ later => exact .cons stands later

theorem StandEach.settleEach {places : List (Standpoint ω)} {cursors : List (Cursor ω)}
    (finds : ∀ place ∈ places, Finds index soft search place.2)
    (each : StandEach index soft places cursors) :
    SettlesEach soft cursors (cursors.map search) ∧
      StandEach index soft places (cursors.map search) ∧
      List.Forall₂ (fun place cursor => IsNext (place.ahead index soft) cursor.current?)
        places (cursors.map search) := by
  induction places generalizing cursors with
  | nil =>
      cases each
      exact ⟨.nil, .nil, .nil⟩
  | cons place places induction =>
      cases each with
      | cons stands later =>
          obtain ⟨findsHead, findsLater⟩ := List.forall_mem_cons.mp finds
          obtain ⟨ends, standing, next⟩ := findsHead stands
          obtain ⟨endsLater, standLater, nextLater⟩ := induction findsLater later
          exact ⟨.cons ends endsLater, .cons standing standLater, .cons next nextLater⟩

theorem StandEach.exists_of_mem {places : List (Standpoint ω)} {cursors : List (Cursor ω)}
    (each : StandEach index soft places cursors) {place : Standpoint ω} (member : place ∈ places) :
    ∃ cursor ∈ cursors, Stands index soft place.1 place.2 cursor :=
  exists_of_mem_forall₂ (standEach_iff_forall₂.mp each) member

theorem StandEach.exists_place {places : List (Standpoint ω)} {cursors : List (Cursor ω)}
    (each : StandEach index soft places cursors) {cursor : Cursor ω} (member : cursor ∈ cursors) :
    ∃ place ∈ places, Stands index soft place.1 place.2 cursor :=
  exists_of_mem_forall₂ (standEach_iff_forall₂.mp each).flip member

/-- The least document of several cursors is the next one that any of their queries has. -/
theorem isNext_earliest {places : List (Standpoint ω)} {cursors : List (Cursor ω)}
    (nexts : List.Forall₂ (fun place cursor => IsNext (place.ahead index soft) cursor.current?)
      places cursors) :
    IsNext {document | ∃ place ∈ places, document ∈ place.ahead index soft} (earliest cursors) := by
  cases found : earliest cursors with
  | none =>
      have nowhere : ∀ cursor ∈ cursors, cursor.current? = none := by
        rw [earliest, List.min?_eq_none_iff, List.filterMap_eq_nil_iff] at found
        exact found
      refine Set.eq_empty_of_forall_notMem ?_
      rintro document ⟨place, member, present⟩
      obtain ⟨cursor, among, next⟩ := exists_of_mem_forall₂ nexts member
      obtain ⟨least, current, -⟩ := next.exists_of_mem present
      rw [nowhere cursor among] at current
      exact absurd current (by simp)
  | some document =>
      obtain ⟨⟨cursor, among, current⟩, allFrom⟩ := earliest_eq_some_iff.mp found
      constructor
      · obtain ⟨place, member, next⟩ :
            ∃ place ∈ places, IsNext (place.ahead index soft) cursor.current? :=
          exists_of_mem_forall₂ nexts.flip among
        exact ⟨place, member, next.mem current⟩
      · rintro other ⟨place, member, present⟩
        obtain ⟨cursor, among, next⟩ := exists_of_mem_forall₂ nexts member
        obtain ⟨least, current, below⟩ := next.exists_of_mem present
        exact Nat.le_trans (allFrom cursor among least current) below

/-! ## Leaps -/

/-- The documents that all queries have from their bounds on. -/
def common (index : Index) (soft : Bool) (places : List (Standpoint ω)) : Set DocumentId :=
  {document | ∀ place ∈ places, document ∈ place.ahead index soft}

theorem mem_common_cons {place : Standpoint ω} {places : List (Standpoint ω)}
    {document : DocumentId} :
    document ∈ common index soft (place :: places) ↔
      document ∈ place.ahead index soft ∧ document ∈ common index soft places :=
  List.forall_mem_cons

/-- The bounds have moved to other ones, and no common document from the given one on is lost or won
by that. -/
structure Moved (index : Index) (soft : Bool) (document : DocumentId)
    (places moved : List (Standpoint ω)) : Prop where
  /-- The queries are the same. -/
  queries : moved.map Prod.snd = places.map Prod.snd
  /-- The common documents are the same. -/
  same : ∀ found, document ≤ found →
    (found ∈ common index soft moved ↔ found ∈ common index soft places)

/-- One cursor after the other moves to a document, as long as the cursors stand on it. -/
theorem StandEach.meet (ascending : index.Ascending) (document : DocumentId)
    {places : List (Standpoint ω)} {cursors : List (Cursor ω)}
    (finds : ∀ place ∈ places, Finds index soft search place.2)
    (each : StandEach index soft places cursors) :
    ∃ agreement met moved, Cursor.meet search document cursors = (agreement, met) ∧
      Meets soft document cursors agreement met ∧ StandEach index soft moved met ∧
      Moved index soft document places moved ∧
      agreement.Tells document (common index soft places) met := by
  induction places generalizing cursors with
  | nil =>
      cases each
      exact ⟨.agreed, [], [], rfl, .nil, .nil, ⟨rfl, fun _ _ => Iff.rfl⟩, by simp [Agreement.Tells]⟩
  | cons place places induction =>
      cases each with
      | @cons _ cursor _ cursors stands later =>
          obtain ⟨findsHead, findsLater⟩ := List.forall_mem_cons.mp finds
          obtain ⟨ends, standing, next⟩ := findsHead (stands.advanceTo ascending document)
          have raised : Moved index soft document (place :: places)
              (place.raise document :: places) := by
            refine ⟨rfl, fun found reached => ?_⟩
            simp [mem_common_cons, Standpoint.ahead, Standpoint.raise, documentsFrom, reached]
          have beyond : ∀ found ∈ common index soft (place :: places), document ≤ found →
              found ∈ documentsFrom (place.2.documentsOn index soft) (max place.1 document) := by
            intro found member reached
            exact (mem_common_cons.mp ((raised.same found reached).mpr member)).1
          rw [Cursor.meet]
          cases current : (search (cursor.advanceTo document)).current? with
          | none =>
              refine ⟨.exhausted, _, _, rfl, .exhausted ends current, .cons standing later, raised, ?_⟩
              intro found member
              by_contra reached
              exact next.notMem current (beyond found member (Nat.le_of_not_lt reached))
          | some other =>
              have reached : document ≤ other := Nat.le_trans (le_max_right _ _) (next.mem current).2
              by_cases same : other = document
              · subst same
                obtain ⟨agreement, met, moved, equal, meets, standLater, movedLater, tells⟩ :=
                  induction findsLater later
                refine ⟨agreement, _, place.raise other :: moved, by simp [equal],
                  .same ends current meets, .cons standing standLater, ?_, ?_⟩
                · refine ⟨by simp [movedLater.queries, Standpoint.raise], fun found from_ => ?_⟩
                  rw [← raised.same found from_, mem_common_cons, mem_common_cons,
                    movedLater.same found from_]
                · cases agreement with
                  | agreed => exact List.forall_mem_cons.mpr ⟨current, tells⟩
                  | exhausted => exact fun found member => tells found (mem_common_cons.mp member).2
                  | ahead next =>
                      exact ⟨tells.1, fun found member =>
                        tells.2 found (mem_common_cons.mp member).2⟩
              · simp only [if_neg same]
                refine ⟨.ahead other, _, _, rfl, .ahead ends current same, .cons standing later,
                  raised, lt_of_le_of_ne reached (Ne.symm same), fun found member from_ => ?_⟩
                exact next.le current (beyond found member from_)

theorem StandEach.mem_common (ascending : index.Ascending) {document : DocumentId}
    {places : List (Standpoint ω)} {cursors : List (Cursor ω)}
    (each : StandEach index soft places cursors)
    (standOn : ∀ cursor ∈ cursors, cursor.current? = some document) :
    document ∈ common index soft places := by
  intro place member
  obtain ⟨cursor, among, stands⟩ := each.exists_of_mem member
  exact (stands.isNext_of_current? ascending (standOn cursor among)).1

/-- The search of a row of cursors for a common document has ended, and what it has found is the next
one. -/
structure Leapt (index : Index) (soft : Bool) (places : List (Standpoint ω))
    (before : List (Cursor ω)) (found : Option DocumentId) (after : List (Cursor ω)) : Prop where
  /-- The search ends. -/
  ends : Agrees soft before found after
  /-- No common document is lost or won. -/
  stands : ∃ moved, Moved index soft 0 places moved ∧ StandEach index soft moved after
  /-- The next common document is found. -/
  next : IsNext (common index soft places) found
  /-- All cursors stand on it. -/
  agreed : ∀ document, found = some document → ∀ cursor ∈ after, cursor.current? = some document

/-- A leap of the first cursor beyond the document on which it stands takes that one away. -/
theorem card_raise_lt {place : Standpoint ω} {document other : DocumentId} (beyond : document < other)
    (present : document ∈ place.ahead index soft) :
    ((place.2.documentsOn index soft).filter ((place.raise other).1 ≤ ·)).card <
      ((place.2.documentsOn index soft).filter (place.1 ≤ ·)).card := by
  refine Finset.card_lt_card (Finset.ssubset_iff_of_subset ?_ |>.mpr ⟨document, ?_, ?_⟩)
  · intro found member
    obtain ⟨among, reached⟩ := Finset.mem_filter.mp member
    exact Finset.mem_filter.mpr ⟨among, Nat.le_trans (le_max_left _ _) reached⟩
  · exact Finset.mem_filter.mpr present
  · intro member
    have reached := Nat.le_trans (le_max_right _ _) (Finset.mem_filter.mp member).2
    exact absurd reached (Nat.not_le_of_lt beyond)

theorem Moved.trans {places moved final : List (Standpoint ω)}
    (first : Moved index soft 0 places moved) (second : Moved index soft 0 moved final) :
    Moved index soft 0 places final :=
  ⟨second.queries.trans first.queries, fun found from_ =>
    (second.same found from_).trans (first.same found from_)⟩

theorem Moved.common_eq {places moved : List (Standpoint ω)}
    (same : Moved index soft 0 places moved) :
    common index soft moved = common index soft places :=
  Set.ext fun found => same.same found (Nat.zero_le _)

theorem Moved.finds {document : DocumentId} {places moved : List (Standpoint ω)}
    (same : Moved index soft document places moved)
    (finds : ∀ place ∈ places, Finds index soft search place.2) :
    ∀ place ∈ moved, Finds index soft search place.2 := by
  have each : ∀ query ∈ moved.map Prod.snd, Finds index soft search query := by
    rw [same.queries]
    exact List.forall_mem_map.mpr finds
  exact List.forall_mem_map.mp each

theorem Moved.cons {document : DocumentId} {place : Standpoint ω} {places moved : List (Standpoint ω)}
    (reached : ∀ found ∈ place.ahead index soft, document ≤ found)
    (later : Moved index soft document places moved) :
    Moved index soft 0 (place :: places) (place :: moved) := by
  refine ⟨by simp [later.queries], fun found _ => ?_⟩
  rw [mem_common_cons, mem_common_cons]
  exact and_congr_right fun member => later.same found (reached found member)

/-- The first bound can be raised to a document which no common one of the others precedes. -/
theorem Moved.raise {document : DocumentId} {place : Standpoint ω} {places : List (Standpoint ω)}
    (least : ∀ found ∈ place.ahead index soft, found ∈ common index soft places → document ≤ found) :
    Moved index soft 0 (place :: places) (place.raise document :: places) := by
  refine ⟨rfl, fun found _ => ?_⟩
  rw [mem_common_cons, mem_common_cons]
  refine and_congr_left fun member => ?_
  constructor
  · rintro ⟨among, from_⟩
    exact ⟨among, Nat.le_trans (le_max_left _ _) from_⟩
  · intro ahead
    exact ⟨ahead.1, max_le ahead.2 (least found ahead member)⟩

/-- The rounds that are left suffice if the first cursor has fewer documents ahead. -/
theorem StandEach.leapfrog (ascending : index.Ascending) (rounds : Nat) {place : Standpoint ω}
    {places : List (Standpoint ω)} {first : Cursor ω} {others : List (Cursor ω)}
    (finds : ∀ other ∈ place :: places, Finds index soft search other.2)
    (each : StandEach index soft (place :: places) (first :: others))
    (enough : ((place.2.documentsOn index soft).filter (place.1 ≤ ·)).card < rounds) :
    Leapt index soft (place :: places) (first :: others)
      (Cursor.leapfrog search rounds first others).1
      (Cursor.leapfrog search rounds first others).2 := by
  induction rounds generalizing place places first others with
  | zero => exact absurd enough (Nat.not_lt_zero _)
  | succ rounds induction =>
      obtain ⟨findsHead, findsLater⟩ := List.forall_mem_cons.mp finds
      cases each with
      | cons stands later =>
          obtain ⟨ends, standing, next⟩ := findsHead stands
          rw [Cursor.leapfrog]
          cases current : (search first).current? with
          | none =>
              have empty : common index soft (place :: places) = ∅ :=
                Set.eq_empty_of_forall_notMem fun document member =>
                  next.notMem current (mem_common_cons.mp member).1
              exact ⟨.ended ends current,
                ⟨place :: places, ⟨rfl, fun _ _ => Iff.rfl⟩, .cons standing later⟩, empty, by simp⟩
          | some document =>
              -- Every common document lies at or beyond the one that the first cursor has reached.
              have reached : ∀ found ∈ common index soft (place :: places), document ≤ found :=
                fun found member => next.le current (mem_common_cons.mp member).1
              obtain ⟨agreement, met, moved, equal, meets, standLater, movedLater, tells⟩ :=
                later.meet ascending document findsLater
              have movedAll : Moved index soft 0 (place :: places) (place :: moved) :=
                .cons (fun found ahead => next.le current ahead) movedLater
              simp only [equal]
              cases agreement with
              | agreed =>
                  have standOn : ∀ cursor ∈ search first :: met, cursor.current? = some document :=
                    List.forall_mem_cons.mpr ⟨current, tells⟩
                  have each : StandEach index soft (place :: moved) (search first :: met) :=
                    .cons standing standLater
                  refine ⟨.agreed ends current meets, ⟨_, movedAll, each⟩, ⟨?_, reached⟩, ?_⟩
                  · exact movedAll.common_eq ▸ each.mem_common ascending standOn
                  · intro other same
                    obtain rfl := Option.some.inj same
                    exact standOn
              | exhausted =>
                  have empty : common index soft (place :: places) = ∅ := by
                    refine Set.eq_empty_of_forall_notMem fun found member => ?_
                    exact absurd (tells found (mem_common_cons.mp member).2)
                      (Nat.not_lt_of_le (reached found member))
                  exact ⟨.exhausted ends current meets,
                    ⟨_, movedAll, .cons standing standLater⟩, empty, by simp⟩
              | ahead other =>
                  obtain ⟨beyond, least⟩ := tells
                  have leap : Moved index soft 0 (place :: moved) (place.raise other :: moved) := by
                    refine .raise fun found ahead member => ?_
                    have from_ := next.le current ahead
                    exact least found ((movedLater.same found from_).mp member) from_
                  have movedTo := movedAll.trans leap
                  have findsMoved : ∀ later ∈ place.raise other :: moved,
                      Finds index soft search later.2 :=
                    List.forall_mem_cons.mpr ⟨findsHead, movedLater.finds findsLater⟩
                  have result := induction findsMoved
                    (.cons (standing.advanceTo ascending other) standLater)
                    (Nat.lt_of_lt_of_le (card_raise_lt beyond (next.mem current))
                      (Nat.le_of_lt_succ enough))
                  obtain ⟨final, movedFinal, standFinal⟩ := result.stands
                  exact ⟨.leap ends current meets result.ends,
                    ⟨final, movedTo.trans movedFinal, standFinal⟩,
                    movedTo.common_eq ▸ result.next, result.agreed⟩

/-! ## Settling -/

/-- A conjunction follows its operands wherever they have moved without losing common documents. -/
theorem Moved.follows {bound : DocumentId} {places moved : List (Standpoint ω)}
    (same : Moved index soft 0 places moved)
    (follows : Matching.all.Follows bound (places.map (Standpoint.documents index soft))) :
    Matching.all.Follows bound (moved.map (Standpoint.documents index soft)) := by
  have mem_common_iff : ∀ {row : List (Standpoint ω)} {document : DocumentId},
      document ∈ Matching.all.documents ((row.map Prod.snd).map (Query.documentsOn index soft)) →
      (document ∈ common index soft row ↔
        ∀ operand ∈ row.map (Standpoint.documents index soft), operand.1 ≤ document) := by
    intro row document among
    rw [List.forall_mem_map]
    refine forall₂_congr fun place member => ?_
    have present := (Matching.mem_documents_all.mp among).2 _
      (List.mem_map_of_mem (List.mem_map_of_mem member))
    exact and_iff_right present
  intro document among
  rw [Standpoint.map_documents] at among
  have amongPlaces := among
  rw [same.queries] at amongPlaces
  rw [← mem_common_iff among, same.common_eq, mem_common_iff amongPlaces]
  rw [← Standpoint.map_documents] at amongPlaces
  exact follows document amongPlaces

/-- Without operands there is nothing to find. -/
theorem isNext_none_of_no_operands (operator : ScoringOperator) (weights : List ω)
    (bound : DocumentId) :
    IsNext (documentsFrom (Query.documentsOn index soft (.apply (.scoring operator) [] weights)) bound)
      none := by
  have empty : Query.documentsOn index soft (.apply (.scoring operator) [] weights) = ∅ := by
    rw [Query.documentsOn_scoring, List.map_nil]
    cases operator.matching soft <;> rfl
  simp [empty, IsNext, documentsFrom]

/-- The search of a scoring operator for its match, from searches of its operands. -/
theorem settleWithin_found (ascending : index.Ascending) (levels : Nat) {bound : DocumentId}
    {operator : ScoringOperator} {operands : List (Cursor ω)} (weights : List ω)
    {places : List (Standpoint ω)} (each : StandEach index soft places operands)
    (follows : (operator.matching soft).Follows bound
      (places.map (Standpoint.documents index soft)))
    (finds : ∀ place ∈ places, Finds index soft (settleWithin soft levels) place.2) :
    let cursor := Cursor.scoring operator operands weights none
      (operator.statisticsOn index (places.map Prod.snd))
    Found index soft bound (.apply (.scoring operator) (places.map Prod.snd) weights) cursor
      (settleWithin soft (levels + 1) cursor) := by
  have documents_eq : Query.documentsOn index soft
        (.apply (.scoring operator) (places.map Prod.snd) weights) =
      (operator.matching soft).documents
        ((places.map (Standpoint.documents index soft)).map Prod.snd) := by
    rw [Standpoint.map_documents, Query.documentsOn_scoring]
  simp only [settleWithin_scoring]
  cases matching : operator.matching soft with
  | any =>
      rw [matching] at documents_eq follows
      obtain ⟨ends, standing, nexts⟩ := each.settleEach finds
      have next : IsNext (documentsFrom (Query.documentsOn index soft
          (.apply (.scoring operator) (places.map Prod.snd) weights)) bound)
          (earliest (operands.map (settleWithin soft levels))) := by
        rw [documents_eq, follows.documentsFrom_any]
        simpa [Standpoint.documents, Standpoint.ahead] using isNext_earliest nexts
      refine ⟨.any matching ends, .scoring places rfl standing (matching ▸ follows) ?_ ?_, next⟩
      · exact fun document found => found ▸ next
      · exact fun conjunction => absurd (matching.symm.trans conjunction) (by simp)
  | all =>
      rw [matching] at documents_eq follows
      cases each with
      | nil =>
          refine ⟨.all matching .nil, .scoring [] rfl .nil (matching ▸ follows) ?_ ?_,
            isNext_none_of_no_operands operator weights bound⟩
          · exact fun document found => absurd found (by simp [matchAll])
          · exact fun _ document found => absurd found (by simp [matchAll])
      | @cons place first places others stands later =>
          have enough := Nat.lt_succ_of_le stands.card_le_remaining
          obtain ⟨ends, ⟨moved, same, standing⟩, next, agreed⟩ :=
            StandEach.leapfrog ascending _ finds (.cons stands later) enough
          have followsMoved := same.follows follows
          have nextHere : IsNext (documentsFrom (Query.documentsOn index soft
              (.apply (.scoring operator) ((place :: places).map Prod.snd) weights)) bound)
              (matchAll (settleWithin soft levels) (first :: others)).1 := by
            rw [documents_eq, follows.documentsFrom_all (by simp)]
            simp only [List.forall_mem_map]
            exact next
          refine ⟨.all matching ends, ?_, nextHere⟩
          exact .scoring moved same.queries standing (matching ▸ followsMoved)
            (fun document found => found ▸ nextHere) fun _ => agreed
  | leading =>
      rw [matching] at documents_eq follows
      cases each with
      | nil =>
          exact ⟨.leaderless matching,
            .scoring [] rfl .nil (matching ▸ follows) (by simp) (by simp),
            isNext_none_of_no_operands operator weights bound⟩
      | @cons place first places others stands later =>
          obtain ⟨ends, standing, next⟩ := finds place List.mem_cons_self stands
          have nextHere : IsNext (documentsFrom (Query.documentsOn index soft
              (.apply (.scoring operator) ((place :: places).map Prod.snd) weights)) bound)
              (settleWithin soft levels first).current? := by
            rw [documents_eq, List.map_cons, Matching.Follows.documentsFrom_leading follows]
            exact next
          refine ⟨.leading matching ends, ?_, nextHere⟩
          exact .scoring (place :: places) rfl (.cons standing later) (matching ▸ follows)
            (fun document found => found ▸ nextHere)
            fun conjunction => absurd (matching.symm.trans conjunction) (by simp)
  | never =>
      rw [matching] at documents_eq
      obtain ⟨ends, standing, -⟩ := each.settleEach finds
      refine ⟨.never matching ends,
        .scoring places rfl standing (matching ▸ trivial) (by simp) (by simp), ?_⟩
      simp [documents_eq, IsNext, documentsFrom, Matching.documents, current?]

/-- As many levels as the query is high suffice to find its next document. -/
theorem settleWithin_finds (ascending : index.Ascending) :
    ∀ (levels : Nat) (query : Query ω), query.height ≤ levels →
      Finds index soft (settleWithin soft levels) query := by
  intro levels
  induction levels with
  | zero =>
      intro query low
      cases query <;> simp [Query.height] at low
  | succ levels induction =>
      intro query low bound cursor stands
      cases stands with
      | term => exact ⟨.list rfl, .term, Stands.isNext_current? ascending .term rfl⟩
      | list _ same =>
          exact ⟨.list rfl, .list _ same, Stands.isNext_current? ascending (.list _ same) rfl⟩
      | @scoring _ operator operands weights matched queries places of each follows known agreed =>
          subst of
          cases matched with
          | some document =>
              exact ⟨.known, .scoring places rfl each follows known agreed, known document rfl⟩
          | none =>
              rw [Query.height] at low
              refine settleWithin_found ascending levels weights each follows ?_
              intro place member
              refine induction place.2 ?_
              exact Nat.le_trans (Query.height_le_heightEach (List.mem_map_of_mem member))
                (Nat.le_of_succ_le_succ low)

/-- A settled cursor has found the next document of its query. -/
theorem Stands.settle (ascending : index.Ascending) {bound : DocumentId} {query : Query ω}
    {cursor : Cursor ω} (stands : Stands index soft bound query cursor) :
    Found index soft bound query cursor (cursor.settle soft) := by
  rw [Cursor.settle, height_eq, stands.query_eq]
  exact settleWithin_finds ascending _ query le_rfl stands

end Cursor

end Retrieval
