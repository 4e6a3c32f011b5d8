import Mathlib.Data.Nat.Basic
import Retrieval.Cursor.Opening

/-!
# Ascending lists

Every inverted list that an evaluation reads has its postings by strictly ascending documents: the
lists of an index, because documents are entered from the last to the first, and the lists of list
operators, because each round of a merge leaves all operands beyond the document it has written.
-/

namespace Retrieval

namespace InvertedList

/-- The postings stand by strictly ascending documents. -/
def Ascending (list : InvertedList) : Prop :=
  list.postings.Pairwise fun earlier later => earlier.document < later.document

/-- All documents of the list are the given one or greater. -/
def StartsFrom (document : DocumentId) (list : InvertedList) : Prop :=
  ∀ posting ∈ list.postings, document ≤ posting.document

@[simp]
theorem empty_ascending (field : Field) : (empty field).Ascending := by
  simp [empty, Ascending]

@[simp]
theorem empty_startsFrom (field : Field) (document : DocumentId) :
    (empty field).StartsFrom document := by
  simp [empty, StartsFrom]

@[simp]
theorem ofPostings_postings (field : Field) (postings : List Posting) :
    (ofPostings field postings).postings = postings := by
  induction postings with
  | nil => rfl
  | cons posting later induction => simpa [ofPostings, cons] using induction

theorem StartsFrom.weaken {list : InvertedList} {document earlier : DocumentId}
    (starts : list.StartsFrom document) (before : earlier ≤ document) : list.StartsFrom earlier :=
  fun posting member => Nat.le_trans before (starts posting member)

/-- A document that is entered ahead of greater ones, or once more, keeps a list ascending. -/
theorem enter_ascending {list : InvertedList} {document : DocumentId} (position : Nat)
    (ascending : list.Ascending) (starts : list.StartsFrom document) :
    (list.enter document position).Ascending ∧
      (list.enter document position).StartsFrom document := by
  rw [enter]
  split
  · next nothing => simp [Ascending, StartsFrom, cons, Posting.ofPositions, nothing]
  · next posting later split =>
      rw [Ascending, split, List.pairwise_cons] at ascending
      rw [StartsFrom, split, List.forall_mem_cons] at starts
      obtain ⟨before, laterAscending⟩ := ascending
      obtain ⟨start, laterStarts⟩ := starts
      split
      · next same =>
          subst same
          exact ⟨List.pairwise_cons.mpr ⟨before, laterAscending⟩,
            List.forall_mem_cons.mpr ⟨le_rfl, laterStarts⟩⟩
      · next differs =>
          have beyond : document < posting.document :=
            lt_of_le_of_ne start fun same => differs same.symm
          have allBeyond : ∀ other ∈ posting :: later, document < other.document :=
            List.forall_mem_cons.mpr
              ⟨beyond, fun other member => Nat.lt_trans beyond (before other member)⟩
          refine ⟨?_, ?_⟩
          · rw [Ascending, cons, split]
            exact List.pairwise_cons.mpr
              ⟨allBeyond, List.pairwise_cons.mpr ⟨before, laterAscending⟩⟩
          · rw [StartsFrom, cons, split]
            exact List.forall_mem_cons.mpr
              ⟨le_rfl, fun other member => Nat.le_of_lt (allBeyond other member)⟩

end InvertedList

/-! ## The lists of an index -/

namespace ListTable

/-- All lists are ascending and have no document before the given one. -/
def AscendingFrom (document : DocumentId) (lists : ListTable) : Prop :=
  ∀ field term, (lists.find field term).Ascending ∧ (lists.find field term).StartsFrom document

theorem find_insert (lists : ListTable) (field other : Field) (token term : String)
    (list : InvertedList) :
    find (lists.insert (field, token) list) other term =
      if (field, token) = (other, term) then list else lists.find other term := by
  simp [find, Std.HashMap.getD_insert]

/-- What each entry in a document keeps of a list, entering the tokens of a field keeps of all. -/
theorem enterTokens_keeps {holds : InvertedList → Prop} {document : DocumentId} {lists : ListTable}
    (enters : ∀ list position, holds list → holds (list.enter document position)) (field : Field)
    (tokens : List String) (all : ∀ other term, holds (lists.find other term)) :
    ∀ other term, holds ((lists.enterTokens document field tokens).find other term) := by
  rw [enterTokens]
  induction tokens.zipIdx with
  | nil => exact all
  | cons entry entries induction =>
      obtain ⟨token, position⟩ := entry
      intro other term
      simp only [List.foldr_cons, find_insert]
      split
      · exact enters _ position (induction field token)
      · exact induction other term

theorem enterDocument_keeps {holds : InvertedList → Prop} {document : DocumentId} {lists : ListTable}
    (enters : ∀ list position, holds list → holds (list.enter document position))
    (fields : FieldTable (List String)) (all : ∀ field term, holds (lists.find field term)) :
    ∀ field term, holds ((lists.enterDocument document fields).find field term) := by
  rw [enterDocument]
  induction Field.all with
  | nil => exact all
  | cons field others induction => exact enterTokens_keeps enters field (fields.get field) induction

/-- What holds of the empty list beyond the last document, of a list with one more occurrence in the
document that is entered, and from each document to the one before, holds of all lists. -/
theorem foldr_enterDocument_keeps (holds : DocumentId → InvertedList → Prop) {bound : Nat}
    (begins : ∀ field, holds bound (.empty field))
    (enters : ∀ document list position, document < bound → holds document list →
      holds document (list.enter document position))
    (lowers : ∀ document list, holds (document + 1) list → holds document list)
    (documents : List Document) {start : Nat} (ends : start + documents.length = bound) :
    ∀ field term, holds start (((documents.zipIdx start).foldr (fun (document, number) lists =>
      lists.enterDocument number document.fields) (∅ : ListTable)).find field term) := by
  induction documents generalizing start with
  | nil =>
      obtain rfl : start = bound := by simpa using ends
      simpa [find] using begins
  | cons document later induction =>
      have following : start + 1 + later.length = bound := by
        rw [List.length_cons] at ends
        omega
      have before : start < bound := by omega
      exact enterDocument_keeps (fun list position => enters start list position before)
        document.fields fun field term => lowers start _ (induction following field term)

theorem foldr_enterDocument_ascendingFrom (documents : List Document) (start : Nat) :
    ((documents.zipIdx start).foldr (fun (document, number) (lists : ListTable) =>
      lists.enterDocument number document.fields) ∅).AscendingFrom start := by
  refine foldr_enterDocument_keeps
    (fun document list => list.Ascending ∧ list.StartsFrom document) (fun field => ?_)
    (fun document list position _ kept => ?_) (fun document list kept => ?_) documents rfl
  · exact ⟨InvertedList.empty_ascending field, InvertedList.empty_startsFrom field _⟩
  · exact InvertedList.enter_ascending position kept.1 kept.2
  · exact ⟨kept.1, kept.2.weaken (Nat.le_succ document)⟩

end ListTable

/-! ## Readers and cursors only move forward -/

namespace Reader

/-- A reader that skips never comes to stand on what it skips. -/
theorem not_passed_of_current?_skip {passed : DocumentId → Bool} {reader : Reader}
    {document : DocumentId} (current : (reader.skip passed).current? = some document) :
    passed document = false := by
  rw [skip] at current
  split at current
  · next nothing => simp [current?, posting?, nothing] at current
  · next posting later split =>
      split at current
      · simp only [current?, posting?, enter, Option.map_eq_some_iff] at current
        obtain ⟨found, head, rfl⟩ := current
        have failing := List.head?_dropWhile_not (fun posting => passed posting.document) later
        simpa [head] using failing
      · next stays =>
          simp only [current?, posting?, split, List.head?_cons, Option.map_some,
            Option.some.injEq] at current
          simpa [← current] using stays

end Reader

namespace Cursor

variable {ω : Type}

theorem lt_current?_advancePast {document found : DocumentId} {cursor : Cursor ω}
    (current : (cursor.advancePast document).current? = some found) : document < found := by
  cases cursor with
  | scoring operator operands weights matched statistics => simp [advancePast, current?] at current
  | term text field reader =>
      obtain ⟨moved, member, standing⟩ := Option.bind_eq_some_iff.mp current
      obtain ⟨before, rfl, rfl⟩ := Option.map_eq_some_iff.mp member
      simpa using Reader.not_passed_of_current?_skip standing
  | list operator operands weights reader =>
      obtain ⟨moved, member, standing⟩ := Option.bind_eq_some_iff.mp current
      obtain ⟨before, rfl, rfl⟩ := Option.map_eq_some_iff.mp member
      simpa using Reader.not_passed_of_current?_skip standing

theorem le_current?_advanceTo {document found : DocumentId} {cursor : Cursor ω}
    (current : (cursor.advanceTo document).current? = some found) : document ≤ found := by
  cases cursor with
  | scoring operator operands weights matched statistics =>
      rw [advanceTo] at current
      split at current
      · next far =>
          simp only [current?] at current
          simpa [current] using far
      · simp [current?] at current
  | term text field reader =>
      obtain ⟨moved, member, standing⟩ := Option.bind_eq_some_iff.mp current
      obtain ⟨before, rfl, rfl⟩ := Option.map_eq_some_iff.mp member
      simpa using Reader.not_passed_of_current?_skip standing
  | list operator operands weights reader =>
      obtain ⟨moved, member, standing⟩ := Option.bind_eq_some_iff.mp current
      obtain ⟨before, rfl, rfl⟩ := Option.map_eq_some_iff.mp member
      simpa using Reader.not_passed_of_current?_skip standing

/-! ## The lists of list operators -/

/-- No cursor stands before the given document. -/
def AllFrom (document : DocumentId) (cursors : List (Cursor ω)) : Prop :=
  ∀ cursor ∈ cursors, ∀ found, cursor.current? = some found → document ≤ found

theorem earliest_eq_some_iff {cursors : List (Cursor ω)} {document : DocumentId} :
    earliest cursors = some document ↔
      (∃ cursor ∈ cursors, cursor.current? = some document) ∧ AllFrom document cursors := by
  rw [earliest, List.min?_eq_some_iff]
  simp only [List.mem_filterMap, AllFrom]
  exact and_congr_right fun _ =>
    ⟨fun least cursor member found current => least found ⟨cursor, member, current⟩,
      fun least found ⟨cursor, member, current⟩ => least cursor member found current⟩

/-- Moving the cursors that stand on the least document past it leaves all beyond it. -/
theorem allFrom_advancePast_present {cursors : List (Cursor ω)} {document : DocumentId}
    (start : AllFrom document cursors) :
    AllFrom (document + 1) (cursors.map fun cursor =>
      if cursor.current? == some document then cursor.advancePast document else cursor) := by
  intro moved moved_mem found standing
  obtain ⟨cursor, member, rfl⟩ := List.mem_map.mp moved_mem
  split at standing
  · exact lt_current?_advancePast standing
  · next absent =>
      have different : document ≠ found := by
        rintro rfl
        simp [standing] at absent
      exact lt_of_le_of_ne (start cursor member found standing) different

/-- The postings of a union start from where the first of the cursors stands. -/
theorem unite_startsFrom (rounds : Nat) {document : DocumentId} {cursors : List (Cursor ω)}
    (start : AllFrom document cursors) :
    ∀ posting ∈ (unite rounds cursors).1, document ≤ posting.document := by
  induction rounds generalizing document cursors with
  | zero => simp [unite]
  | succ rounds induction =>
      rw [unite]
      split
      · simp
      · next least found =>
          obtain ⟨⟨cursor, member, current⟩, allFrom⟩ := earliest_eq_some_iff.mp found
          have first : document ≤ least := start cursor member least current
          refine List.forall_mem_cons.mpr ⟨first, fun posting later => ?_⟩
          have beyond := induction (allFrom_advancePast_present allFrom) posting later
          exact Nat.le_trans first (Nat.le_of_succ_le beyond)

theorem unite_ascending (rounds : Nat) (cursors : List (Cursor ω)) :
    (unite rounds cursors).1.Pairwise fun earlier later => earlier.document < later.document := by
  induction rounds generalizing cursors with
  | zero => simp [unite]
  | succ rounds induction =>
      rw [unite]
      split
      · simp
      · next least found =>
          have allFrom := (earliest_eq_some_iff.mp found).2
          exact List.pairwise_cons.mpr
            ⟨unite_startsFrom rounds (allFrom_advancePast_present allFrom), induction _⟩

theorem meet_id_ahead {document other : DocumentId} {cursors moved : List (Cursor ω)}
    (met : meet id document cursors = (.ahead other, moved)) : document < other := by
  induction cursors generalizing moved with
  | nil => simp [meet] at met
  | cons cursor later induction =>
      rw [meet] at met
      simp only [id_eq] at met
      split at met
      · simp at met
      · next found standing =>
          split at met
          · generalize rest : meet id document later = outcome at met
            obtain ⟨agreement, others⟩ := outcome
            simp only [Prod.mk.injEq] at met
            exact induction (met.1 ▸ rest)
          · next differs =>
              simp only [Prod.mk.injEq, Agreement.ahead.injEq] at met
              obtain ⟨rfl, -⟩ := met
              exact lt_of_le_of_ne (le_current?_advanceTo standing) fun same => differs same.symm

/-- Cursors that agree do so no earlier than where the first of them stood. -/
theorem leapfrog_id_startsFrom (rounds : Nat) {start found : DocumentId} {first : Cursor ω}
    {others moved : List (Cursor ω)}
    (begins : ∀ document, first.current? = some document → start ≤ document)
    (agree : leapfrog id rounds first others = (some found, moved)) : start ≤ found := by
  induction rounds generalizing first others with
  | zero => simp [leapfrog] at agree
  | succ rounds induction =>
      rw [leapfrog] at agree
      simp only [id_eq] at agree
      split at agree
      · simp at agree
      · next document standing =>
          split at agree
          · simp only [Prod.mk.injEq, Option.some.injEq] at agree
            exact agree.1 ▸ begins document standing
          · simp at agree
          · next other later met =>
              refine induction (fun moved current => ?_) agree
              calc
                start ≤ document := begins document standing
                _ ≤ other := Nat.le_of_lt (meet_id_ahead met)
                _ ≤ moved := le_current?_advanceTo current

theorem allFrom_advancePast (document : DocumentId) (cursors : List (Cursor ω)) :
    AllFrom (document + 1) (cursors.map (advancePast document)) := by
  intro moved member found standing
  obtain ⟨cursor, -, rfl⟩ := List.mem_map.mp member
  exact lt_current?_advancePast standing

theorem matchAll_id_startsFrom {start found : DocumentId} {cursors moved : List (Cursor ω)}
    (begins : AllFrom start cursors) (agree : matchAll id cursors = (some found, moved)) :
    start ≤ found := by
  cases cursors with
  | nil => simp [matchAll] at agree
  | cons first others =>
      exact leapfrog_id_startsFrom _ (begins first List.mem_cons_self) agree

theorem intersect_startsFrom (rounds : Nat) {start : DocumentId} {cursors : List (Cursor ω)}
    (begins : AllFrom start cursors) :
    ∀ common ∈ (intersect rounds cursors).1, start ≤ common.1 := by
  induction rounds generalizing start cursors with
  | zero => simp [intersect]
  | succ rounds induction =>
      rw [intersect]
      split
      · simp
      · next document moved agree =>
          have first : start ≤ document := matchAll_id_startsFrom begins agree
          refine List.forall_mem_cons.mpr ⟨first, fun common later => ?_⟩
          have beyond := induction (allFrom_advancePast document moved) common later
          exact Nat.le_trans first (Nat.le_of_succ_le beyond)

theorem intersect_ascending (rounds : Nat) (cursors : List (Cursor ω)) :
    (intersect rounds cursors).1.Pairwise fun earlier later => earlier.1 < later.1 := by
  induction rounds generalizing cursors with
  | zero => simp [intersect]
  | succ rounds induction =>
      rw [intersect]
      split
      · simp
      · next document moved agree =>
          exact List.pairwise_cons.mpr
            ⟨intersect_startsFrom rounds (allFrom_advancePast document moved), induction _⟩

theorem proximity_ascending (combine : List (List Nat) → List Nat) (cursors : List (Cursor ω)) :
    (proximity combine cursors).1.Pairwise fun earlier later =>
      earlier.document < later.document := by
  rw [proximity]
  refine List.Pairwise.filterMap _ ?_ (intersect_ascending _ cursors)
  rintro ⟨earlier, before⟩ ⟨later, after⟩ less posting written other writtenOther
  dsimp only at written writtenOther
  split at written
  · simp at written
  · split at writtenOther
    · simp at writtenOther
    · simp only [Option.some.injEq] at written writtenOther
      subst written writtenOther
      exact less

/-- A list operator makes an ascending list if its operands have ascending lists. -/
theorem materialize_ascending (field : Field) (operator : ListOperator) {operands : List (Cursor ω)}
    (ascending : ∀ operand ∈ operands, ∀ list, operand.invertedList? = some list → list.Ascending) :
    (materialize field operator operands).1.Ascending := by
  have alone : ∀ operand ∈ operands, (operand.invertedList?.getD (.empty field)).Ascending := by
    intro operand member
    cases known : operand.invertedList? with
    | none => simp
    | some list => exact ascending operand member list known
  unfold materialize
  split
  · simpa [InvertedList.Ascending] using unite_ascending _ _
  · exact InvertedList.empty_ascending field
  · exact alone _ List.mem_cons_self
  · simpa [InvertedList.Ascending] using proximity_ascending _ _
  · simpa [InvertedList.Ascending] using proximity_ascending _ _

/-! ## The lists of an opened cursor -/

end Cursor

/-- All inverted lists of terms are ascending. -/
def Index.Ascending (index : Index) : Prop :=
  ∀ field term, (index.invertedList field term).Ascending

theorem Index.ofDocuments_ascending (documents : List Document) (stopwords : List String) :
    (Index.ofDocuments documents stopwords).Ascending :=
  fun field term => (ListTable.foldr_enterDocument_ascendingFrom documents 0 field term).1

namespace Cursor

variable [Arithmetic ω] {index : Index}

mutual

theorem openOn_ascending (ascending : index.Ascending) :
    ∀ (cursor : Cursor ω) (list : InvertedList),
      (cursor.openOn index).invertedList? = some list → list.Ascending
  | .term text field _, found, known => by
      simp only [openOn, invertedList?, reader?, Option.map_some, Option.some.injEq] at known
      exact known ▸ ascending field text
  | .list operator operands _ _, found, known => by
      simp only [openOn, invertedList?, reader?, Option.map_some, Option.some.injEq] at known
      exact known ▸ materialize_ascending _ operator (openEachOn_ascending ascending operands)
  | .scoring .., found, known => by
      simp [openOn, invertedList?, reader?] at known

theorem openEachOn_ascending (ascending : index.Ascending) :
    ∀ cursors : List (Cursor ω), ∀ cursor ∈ openEachOn index cursors,
      ∀ list, cursor.invertedList? = some list → list.Ascending
  | [] => by simp [openEachOn]
  | cursor :: later => by
      rw [openEachOn]
      exact List.forall_mem_cons.mpr
        ⟨openOn_ascending ascending cursor, openEachOn_ascending ascending later⟩

end

end Cursor

end Retrieval
