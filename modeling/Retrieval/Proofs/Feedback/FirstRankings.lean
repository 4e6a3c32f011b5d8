import Retrieval.Parameters
import Retrieval.Proofs.Evaluation.Traversal
import Retrieval.Proofs.Number.Order
import Retrieval.Proofs.Query.Spelling
import Retrieval.Proofs.Text.Columns
import Retrieval.Proofs.Text.Trimming
import Retrieval.Row

/-!
# Ranking files as first rankings

The rows of sorted rankings are read back as what they were written from: lines and columns are cut
where the rows were put together, the names of documents lead back to their numbers, the row of a query
without results names no document, and sorting the documents of a query once more changes nothing.
-/

namespace Retrieval

/-! ## Numbers in columns -/

namespace Text

theorem isBlank_of_isDigit {character : Char} (isDigit : character.isDigit = true) :
    isBlank character = false := by
  rw [Char.isDigit, Bool.and_eq_true, decide_eq_true_eq, decide_eq_true_eq] at isDigit
  have low : 48 ≤ character.toNat := UInt32.le_iff_toNat_le.mp isDigit.1
  have high : character.toNat ≤ 57 := UInt32.le_iff_toNat_le.mp isDigit.2
  simp only [isBlank, blankRanges, CodeRanges.contains]
  rw [if_neg (by omega), if_neg (by omega), if_neg (by omega), if_neg (by omega), if_pos (by omega)]

theorem isColumn_of_isNumeral {text : String} (isNumeral : Number.IsNumeral text) :
    IsColumn text := by
  refine ⟨isNumeral.1, fun character member => ?_⟩
  rcases isNumeral.2 character member with isDigit | sign
  · exact isBlank_of_isDigit isDigit
  · have plain : Number.signs.all (fun sign => !isBlank sign) = true := by decide
    simpa using List.all_eq_true.mp plain character sign

theorem isColumn_writeNat (number : Nat) : IsColumn (Number.writeNat number) := by
  rw [IsColumn, Number.writeNat, String.toList_ofList]
  exact ⟨Nat.toDigits_ne_nil, fun character member =>
    isBlank_of_isDigit (Nat.isDigit_of_mem_toDigits (by decide) (by decide) member)⟩

end Text

/-! ## Rows as lines -/

namespace Row

variable {row : Row Float} {rows : List (Row Float)}

/-- The columns of a row before its tag. -/
def columns (row : Row Float) : List String :=
  [row.query, "Q0", row.document, Number.writeNat row.rank, Number.writeFloat row.score]

theorem write_eq (row : Row Float) : row.write = Text.line row.columns row.tag := by
  rw [write, ← String.toList_inj]
  simp [columns, Text.line]
  rfl

/-- The query number and the document stand in columns of their own, and the tag stays on its line. -/
structure IsLegible (row : Row Float) : Prop where
  /-- The query number stands in a column. -/
  query : Text.IsColumn row.query
  /-- The document stands in a column. -/
  document : Text.IsColumn row.document
  /-- The tag has no line feed. -/
  tag : '\n' ∉ row.tag.toList

theorem IsLegible.areColumns (legible : row.IsLegible) :
    ∀ column ∈ row.columns, Text.IsColumn column := by
  simpa [columns] using ⟨legible.query, by decide, legible.document, Text.isColumn_writeNat row.rank,
    Text.isColumn_of_isNumeral (Number.isNumeral_writeFloat row.score)⟩

/-- The line of a row as it is read. -/
def line (row : Row Float) : String := Text.line row.columns (Text.dropReturn row.tag)

theorem lines_writeAll (legible : ∀ row ∈ rows, row.IsLegible) :
    Text.lines (writeAll rows) = rows.map line := by
  have noFeed : ∀ text ∈ rows.map write, '\n' ∉ text.toList := by
    refine List.forall_mem_map.mpr fun row member => ?_
    rw [write_eq]
    exact Text.feed_notMem_line (legible row member).areColumns (legible row member).tag
  have written : writeAll rows = String.join ((rows.map write).map (· ++ "\n")) := by
    rw [writeAll, List.map_map]
    rfl
  rw [written, Text.lines_join noFeed, List.map_map]
  refine List.map_congr_left fun row _ => ?_
  rw [Function.comp_apply, write_eq, Text.dropReturn_line]
  rfl

end Row

namespace FirstRankings

variable {index : Index} {row : Row Float} {document : DocumentId}

theorem ofLine?_line (legible : row.IsLegible) (known : index.number row.document = .ok document)
    (reread : Number.readFloat? (Number.writeFloat row.score) = some row.score) :
    ofLine? index row.line = some (row.query, (⟨document, row.score⟩ : Scored Float)) := by
  have score : Arithmetic.read? (Number.writeFloat row.score) = some row.score := reread
  rw [ofLine?, Row.line, Text.columns_line legible.areColumns]
  simp only [Row.columns, List.cons_append, score, known]

theorem ofLine?_line_of_unknown (legible : row.IsLegible) {cause : IndexError}
    (unknown : index.number row.document = .error cause) :
    ofLine? index row.line = (none : Option (String × Scored Float)) := by
  rw [ofLine?, Row.line, Text.columns_line legible.areColumns]
  simp only [Row.columns, List.cons_append, unknown]
  split
  · simp_all
  · rfl

end FirstRankings

/-! ## Names of documents -/

namespace Index

variable {documents : List Document} {stopwords : List String} {identifier : String}
  {number : DocumentId} {document : Document}

theorem getElem?_numbers_of_notMem (unknown : ∀ document ∈ documents, document.identifier ≠ identifier)
    (start : DocumentId) (numbers : Std.HashMap String DocumentId) :
    ((documents.zipIdx start).foldl (fun numbers (document, number) =>
      numbers.insert document.identifier number) numbers)[identifier]? = numbers[identifier]? := by
  induction documents generalizing start numbers with
  | nil => rfl
  | cons document later induction =>
      obtain ⟨differs, unknownLater⟩ := List.forall_mem_cons.mp unknown
      rw [List.zipIdx_cons, List.foldl_cons, induction unknownLater]
      simp [Std.HashMap.getElem?_insert, differs]

theorem getElem?_numbers (distinct : (documents.map (·.identifier)).Nodup)
    (here : documents[number]? = some document) (start : DocumentId)
    (numbers : Std.HashMap String DocumentId) :
    ((documents.zipIdx start).foldl (fun numbers (document, number) =>
      numbers.insert document.identifier number) numbers)[document.identifier]? =
        some (start + number) := by
  induction documents generalizing start numbers number with
  | nil => simp at here
  | cons first later induction =>
      obtain ⟨fresh, distinctLater⟩ := List.nodup_cons.mp distinct
      rw [List.zipIdx_cons, List.foldl_cons]
      cases number with
      | zero =>
          obtain rfl : first = document := by simpa using here
          rw [getElem?_numbers_of_notMem fun other member same =>
            fresh (List.mem_map.mpr ⟨other, member, same⟩)]
          simp
      | succ number =>
          rw [induction distinctLater (by simpa using here)]
          simp [Nat.add_assoc, Nat.add_comm 1]

theorem number_eq_ok (distinct : (documents.map (·.identifier)).Nodup)
    (here : documents[number]? = some document) :
    (Index.ofDocuments documents stopwords).number document.identifier = .ok number := by
  have found := getElem?_numbers distinct here 0 ∅
  rw [Nat.zero_add] at found
  simp only [Index.number, ofDocuments, found]

theorem number_eq_error (unknown : ∀ document ∈ documents, document.identifier ≠ identifier) :
    (Index.ofDocuments documents stopwords).number identifier =
      .error (.unknownIdentifier identifier) := by
  have absent := getElem?_numbers_of_notMem unknown 0 ∅
  rw [Std.HashMap.getElem?_empty] at absent
  simp only [Index.number, ofDocuments, absent]

theorem identifier_eq_ok (here : documents[number]? = some document) :
    (Index.ofDocuments documents stopwords).identifier number = .ok document.identifier := by
  simp [Index.identifier, Index.document, ofDocuments, here, Except.map]

end Index

/-! ## From rankings to rows and back -/

/-- The documents can be named in rows: their names differ, stand in columns, and none is that of the
placeholder. -/
structure Document.AreNamed (documents : List Document) : Prop where
  /-- The names differ. -/
  distinct : (documents.map (·.identifier)).Nodup
  /-- They stand in columns. -/
  columns : ∀ document ∈ documents, Text.IsColumn document.identifier
  /-- None is that of the placeholder. -/
  real : ∀ document ∈ documents, document.identifier ≠ placeholderDocument

/-- The ranking is one of an index, with scores that are defined and read back as they are written. -/
structure Ranking.Rereads (documentCount : Nat) (ranking : Ranking Float) : Prop where
  /-- The scores are defined. -/
  isDefined : ranking.isDefined = true
  /-- The documents are those of the index. -/
  bounded : ∀ scored ∈ ranking, scored.document < documentCount
  /-- The written scores are read back. -/
  reread : ∀ scored ∈ ranking,
    Number.readFloat? (Number.writeFloat scored.score) = some scored.score

section

variable (stopwords : List String) {documents : List Document} {query tag : String}

/-- What is read back from rows. -/
def Row.reread (index : Index) (rows : List (Row Float)) : List (String × Scored Float) :=
  rows.filterMap fun row => FirstRankings.ofLine? index row.line

/-- The rows of documents are read back as the documents, whatever the rank of the first one. -/
theorem exists_rows_of_documents (named : Document.AreNamed documents)
    (isColumn : Text.IsColumn query) (noFeed : '\n' ∉ tag.toList) (best : Ranking Float)
    (bounded : ∀ scored ∈ best, scored.document < documents.length)
    (reread : ∀ scored ∈ best,
      Number.readFloat? (Number.writeFloat scored.score) = some scored.score) (start : Nat) :
    let index := Index.ofDocuments documents stopwords
    ∃ rows : List (Row Float),
      (best.zipIdx start).mapM (fun (scored, place) =>
        (index.identifier scored.document).map fun document =>
          (⟨query, document, place + 1, scored.score, tag⟩ : Row Float)) = .ok rows ∧
        (∀ row ∈ rows, row.IsLegible) ∧
          Row.reread index rows = best.map fun scored => (query, scored) := by
  intro index
  induction best generalizing start with
  | nil => exact ⟨[], rfl, by simp, rfl⟩
  | cons scored later induction =>
      obtain ⟨inside, boundedLater⟩ := List.forall_mem_cons.mp bounded
      obtain ⟨rereads, rereadLater⟩ := List.forall_mem_cons.mp reread
      obtain ⟨rows, written, legible, readBack⟩ := induction boundedLater rereadLater (start + 1)
      have here : documents[scored.document]? = some documents[scored.document] :=
        List.getElem?_eq_getElem inside
      have member := List.getElem_mem inside
      let row : Row Float :=
        ⟨query, documents[scored.document].identifier, start + 1, scored.score, tag⟩
      have isLegible : row.IsLegible := ⟨isColumn, named.columns _ member, noFeed⟩
      have known : index.number row.document = .ok scored.document :=
        Index.number_eq_ok named.distinct here
      refine ⟨row :: rows, ?_, List.forall_mem_cons.mpr ⟨isLegible, legible⟩, ?_⟩
      · have named : index.identifier scored.document = .ok _ := Index.identifier_eq_ok here
        rw [List.zipIdx_cons, List.mapM_cons]
        dsimp only
        rw [named, written]
        rfl
      · rw [Row.reread, List.filterMap_cons, FirstRankings.ofLine?_line isLegible known rereads,
          List.map_cons, ← readBack]
        rfl

/-- The rows of a query are read back as its best documents. -/
theorem Ranking.exists_rows (named : Document.AreNamed documents) (isColumn : Text.IsColumn query)
    (noFeed : '\n' ∉ tag.toList) {ranking : Ranking Float}
    (rereads : ranking.Rereads documents.length) (limit : Nat) :
    let index := Index.ofDocuments documents stopwords
    ∃ rows : List (Row Float), ranking.rows index query tag limit = .ok rows ∧
      (∀ row ∈ rows, row.IsLegible) ∧
        Row.reread index rows = (ranking.take limit).map fun scored => (query, scored) := by
  intro index
  rw [Ranking.rows]
  split
  · next empty =>
      have isLegible : (⟨query, placeholderDocument, 1, 0, tag⟩ : Row Float).IsLegible :=
        ⟨isColumn, (by decide : Text.IsColumn placeholderDocument), noFeed⟩
      have unknown : index.number placeholderDocument = .error _ :=
        Index.number_eq_error named.real
      refine ⟨_, rfl, by simpa using isLegible, ?_⟩
      rw [Row.reread, List.filterMap_cons,
        FirstRankings.ofLine?_line_of_unknown isLegible unknown, List.isEmpty_iff.mp empty,
        List.take_nil]
      rfl
  · exact exists_rows_of_documents stopwords named isColumn noFeed (ranking.take limit)
      (fun scored member => rereads.bounded scored (List.mem_of_mem_take member))
      (fun scored member => rereads.reread scored (List.mem_of_mem_take member)) 0

theorem Ranking.Rereads.sort {documentCount : Nat} {ranking : Ranking Float}
    (rereads : ranking.Rereads documentCount) : ranking.sort.Rereads documentCount where
  isDefined := isDefined_of_subset rereads.isDefined ranking.sort_perm.subset
  bounded scored member := rereads.bounded scored (ranking.sort_perm.subset member)
  reread scored member := rereads.reread scored (ranking.sort_perm.subset member)

/-- A query with its best documents. -/
def bestOf (limit : Nat) (result : String × Ranking Float) : String × Ranking Float :=
  (result.1, result.2.sort.take limit)

/-- The rows of several queries are read back as the best documents of each. -/
theorem exists_rows_of_results (named : Document.AreNamed documents)
    (noFeed : '\n' ∉ tag.toList) {results : List (String × Ranking Float)}
    (isColumn : ∀ result ∈ results, Text.IsColumn result.1)
    (rereads : ∀ result ∈ results, result.2.Rereads documents.length) (limit : Nat) :
    let index := Index.ofDocuments documents stopwords
    ∃ rows : List (List (Row Float)),
      results.mapM (fun result => result.2.sort.rows index result.1 tag limit) = .ok rows ∧
        (∀ row ∈ rows.flatten, row.IsLegible) ∧
          Row.reread index rows.flatten = (results.map (bestOf limit)).flatMap fun result =>
            result.2.map fun scored => (result.1, scored) := by
  intro index
  induction results with
  | nil => exact ⟨[], rfl, by simp, rfl⟩
  | cons result later induction =>
      obtain ⟨here, isColumnLater⟩ := List.forall_mem_cons.mp isColumn
      obtain ⟨rereadsHere, rereadsLater⟩ := List.forall_mem_cons.mp rereads
      obtain ⟨first, written, legible, readBack⟩ :=
        Ranking.exists_rows stopwords named here noFeed rereadsHere.sort limit
      obtain ⟨rows, writtenLater, legibleLater, readBackLater⟩ :=
        induction isColumnLater rereadsLater
      refine ⟨first :: rows, ?_, ?_, ?_⟩
      · rw [List.mapM_cons, written, writtenLater]
        rfl
      · rw [List.flatten_cons]
        exact List.forall_mem_append.mpr ⟨legible, legibleLater⟩
      · rw [List.flatten_cons, Row.reread, List.filterMap_append, List.map_cons, List.flatMap_cons,
          ← readBackLater]
        exact congrArg (· ++ _) readBack

end

/-! ## Gathering by query -/

namespace FirstRankings

/-- The scored documents of a query. -/
def gathered (query : String) (rows : List (String × Scored Float)) : Ranking Float :=
  (rows.filter fun row => row.1 = query).map Prod.snd

theorem getElem?_foldr_insert (rows : List (String × Scored Float)) (query : String) :
    (rows.foldr (fun (query, scored) (rankings : FirstRankings Float) =>
      rankings.insert query (scored :: rankings.getD query [])) ∅)[query]? =
        if gathered query rows = [] then none else some (gathered query rows) := by
  induction rows with
  | nil => simp [gathered]
  | cons row later induction =>
      obtain ⟨number, scored⟩ := row
      rw [List.foldr_cons]
      generalize later.foldr _ (∅ : FirstRankings Float) = rankings at induction ⊢
      by_cases same : number = query
      · subst same
        have known : rankings.getD number [] = gathered number later := by
          rw [Std.HashMap.getD_eq_getD_getElem?, induction]
          split
          · next none => exact none.symm
          · rfl
        rw [Std.HashMap.getElem?_insert_self, known]
        simp [gathered]
      · have passed : gathered query ((number, scored) :: later) = gathered query later := by
          simp [gathered, same]
        rw [Std.HashMap.getElem?_insert, if_neg (by simpa using same), induction, passed]

theorem getElem?_ofText (index : Index) (text query : String) :
    (ofText index text : FirstRankings Float)[query]? =
      let ranking := gathered query ((Text.lines text).filterMap (ofLine? index))
      if ranking = [] then none else some (Ranking.sort ranking) := by
  rw [ofText, Std.HashMap.getElem?_map, getElem?_foldr_insert]
  dsimp only
  split <;> rfl

theorem gathered_append (query : String) (before after : List (String × Scored Float)) :
    gathered query (before ++ after) = gathered query before ++ gathered query after := by
  simp [gathered]

theorem gathered_map (query number : String) (ranking : Ranking Float) :
    gathered query (ranking.map fun scored => (number, scored)) =
      if number = query then ranking else [] := by
  rw [gathered, List.filter_map, List.map_map]
  split
  · next same =>
      subst same
      simp [Function.comp_def]
  · next differs => simp [Function.comp_def, differs]

/-- The documents that are read for a query are those of the results of the query. -/
theorem gathered_results (query : String) (results : List (String × Ranking Float)) :
    gathered query (results.flatMap fun result => result.2.map fun scored => (result.1, scored)) =
      (results.filter fun result => result.1 = query).flatMap Prod.snd := by
  induction results with
  | nil => rfl
  | cons result later induction =>
      rw [List.flatMap_cons, gathered_append, gathered_map, induction, List.filter_cons]
      by_cases same : result.1 = query <;> simp [same]

theorem filter_eq_singleton {results : List (String × Ranking Float)}
    (distinct : (results.map Prod.fst).Nodup) {query : String} {ranking : Ranking Float}
    (member : (query, ranking) ∈ results) :
    results.filter (fun result => result.1 = query) = [(query, ranking)] := by
  induction results with
  | nil => simp at member
  | cons result later induction =>
      obtain ⟨fresh, distinctLater⟩ := List.nodup_cons.mp distinct
      rcases List.mem_cons.mp member with rfl | among
      · have others : later.filter (fun result => result.1 = query) = [] :=
          List.filter_eq_nil_iff.mpr fun other inside same =>
            fresh (List.mem_map.mpr ⟨other, inside, by simpa using same⟩)
        simp [others]
      · have differs : result.1 ≠ query := fun same =>
          fresh (List.mem_map.mpr ⟨_, among, same.symm⟩)
        rw [List.filter_cons, if_neg (by simpa using differs), induction distinctLater among]

end FirstRankings

/-! ## The tag of a run -/

namespace Settings

/-- A value is part of its line. -/
theorem value_subset_of_ofLine {line : String} {number : Nat} {setting : String × String}
    (read : ofLine line number = .ok (some setting)) : setting.2.toList ⊆ line.toList := by
  rw [ofLine] at read
  split at read
  · simp at read
  · simp at read
  · split at read
    · next key value cut =>
        obtain rfl : (Text.trim key, Text.trim value) = setting := by simpa using read
        obtain ⟨⟨before, after⟩, found, same⟩ := Option.map_eq_some_iff.mp cut
        simp only [Prod.mk.injEq] at same
        obtain ⟨rfl, rfl⟩ := same
        have whole := Text.eq_of_cutCharacters found
        intro character member
        have inside : character ∈ after := by simpa using Text.trim_subset _ member
        exact Text.trim_subset line (by simp [whole, inside])
    · simp at read

theorem feed_notMem_value {text : String} {settings : Settings} (read : ofText text = .ok settings)
    {setting : String × String} (member : setting ∈ settings) : '\n' ∉ setting.2.toList := by
  obtain ⟨found, answered, same⟩ := bind_eq_ok_iff.mp read
  obtain rfl : (found.filterMap id).reverse = settings := Except.ok.inj same
  have among : some setting ∈ found := by simpa using member
  obtain ⟨⟨line, place⟩, inside, ofLine⟩ :=
    exists_of_mem_forall₂ (List.Forall₂.flip (mapM_eq_ok_iff.mp answered)) among
  have ofLines : line ∈ Text.lines text := by
    rw [List.mem_zipIdx_iff_getElem?] at inside
    exact List.mem_of_getElem? inside
  exact fun feed => Text.feed_notMem_of_mem_lines ofLines (value_subset_of_ofLine ofLine feed)

end Settings

namespace Parameters

variable {usual : UsualParameters Float} {parameters : Parameters Float}

theorem tag_of_ofSettings {settings : Settings}
    (accepted : ofSettings usual settings = .ok parameters) :
    parameters.tag = (settings.get? "runTag").getD usualTag := by
  simp only [ofSettings, bind_eq_ok_iff] at accepted
  obtain ⟨_, -, _, -, _, -, _, -, _, -, _, -, _, -, _, -, _, -, _, -, _, -, same⟩ := accepted
  rw [← Except.ok.inj same]

/-- The tag of a run stands on a line of its parameter file. -/
theorem feed_notMem_tag {text : String} (accepted : ofText usual text = .ok parameters) :
    '\n' ∉ parameters.tag.toList := by
  obtain ⟨settings, read, given⟩ := bind_eq_ok_iff.mp accepted
  rw [tag_of_ofSettings given, Settings.get?]
  cases found : settings.lookup "runTag" with
  | none => decide
  | some value =>
      obtain ⟨before, after, split, -⟩ := List.lookup_eq_some_iff.mp found
      have member : ("runTag", value) ∈ settings := by simp [split]
      have noFeed := Settings.feed_notMem_value read member
      rw [Option.filter_some]
      split
      · exact noFeed
      · decide

end Parameters

/-! ## Writing and reading -/

/-- The rows of sorted rankings, written into one text by a run, are read back as the best documents of
each query in their order; a query without results has no ranking. -/
theorem FirstRankings.ofText_writeAll {documents : List Document} (stopwords : List String)
    (named : Document.AreNamed documents) {results : List (String × Ranking Float)}
    (distinct : (results.map Prod.fst).Nodup)
    (isColumn : ∀ result ∈ results, Text.IsColumn result.1)
    (rereads : ∀ result ∈ results, result.2.Rereads documents.length)
    {usual : UsualParameters Float} {text : String} {parameters : Parameters Float}
    (accepted : Parameters.ofText usual text = .ok parameters) :
    let index := Index.ofDocuments documents stopwords
    ∃ rows : List (List (Row Float)),
      results.mapM (fun result =>
        result.2.sort.rows index result.1 parameters.tag maximalRows) = .ok rows ∧
      let firsts : FirstRankings Float := ofText index (Row.writeAll rows.flatten)
      (∀ query ranking, (query, ranking) ∈ results → ranking ≠ [] →
        firsts[query]? = some (ranking.sort.take maximalRows)) ∧
      ∀ query, (∀ ranking, (query, ranking) ∈ results → ranking = []) → firsts[query]? = none := by
  intro index
  obtain ⟨rows, written, legible, readBack⟩ := exists_rows_of_results stopwords named
    (Parameters.feed_notMem_tag accepted) isColumn rereads maximalRows
  refine ⟨rows, written, ?_⟩
  let best := results.map (bestOf maximalRows)
  have ofQuery (query : String) : (ofText index (Row.writeAll rows.flatten) :
      FirstRankings Float)[query]? =
        let ranking := (best.filter fun result => result.1 = query).flatMap Prod.snd
        if ranking = [] then none else some (Ranking.sort ranking) := by
    rw [getElem?_ofText, Row.lines_writeAll legible, List.filterMap_map, ← gathered_results]
    exact readBack ▸ rfl
  refine ⟨fun query ranking member nonempty => ?_, fun query without => ?_⟩
  · have distinctBest : (best.map Prod.fst).Nodup := by
      rw [List.map_map]
      exact distinct
    have among : (query, ranking.sort.take maximalRows) ∈ best :=
      List.mem_map.mpr ⟨_, member, rfl⟩
    have someBest : ranking.sort.take maximalRows ≠ [] := by
      have same := ranking.sort_perm.length_eq
      have positive := List.length_pos_iff.mpr nonempty
      rw [← List.length_pos_iff, List.length_take, maximalRows]
      omega
    rw [ofQuery, filter_eq_singleton distinctBest among]
    simp only [List.flatMap_cons, List.flatMap_nil, List.append_nil, if_neg someBest]
    rw [Ranking.sort_take_sort (rereads _ member).isDefined]
  · have nothing : (best.filter fun result => result.1 = query).flatMap Prod.snd = [] := by
      refine List.flatMap_eq_nil_iff.mpr fun result member => ?_
      obtain ⟨inside, same⟩ := List.mem_filter.mp member
      obtain ⟨⟨number, ranking⟩, among, rfl⟩ := List.mem_map.mp inside
      obtain rfl : number = query := of_decide_eq_true same
      obtain rfl := without ranking among
      simp [bestOf, Ranking.sort, Ranking.isDefined]
    rw [ofQuery, nothing]
    rfl

/-- Two documents of equal score, and a query without results, under a tag that has a blank. -/
theorem FirstRankings.ofText_writeAll_twoQueries :
    let documents : List Document := [⟨"one", .fill []⟩, ⟨"two", .fill []⟩]
    let index := Index.ofDocuments documents []
    let found : Ranking Float := [⟨1, 2⟩, ⟨0, 2⟩]
    let text := "indexPath=i\nqueryFilePath=q\ntrecEvalOutputPath=r\n" ++
      "retrievalAlgorithm=RankedBoolean\nrunTag=a run"
    ∃ (parameters : Parameters Float) (rows : List (List (Row Float))),
      Parameters.ofText .float text = .ok parameters ∧
        [("1", found), ("2", [])].mapM (fun result =>
          result.2.sort.rows index result.1 parameters.tag maximalRows) = .ok rows ∧
        let firsts : FirstRankings Float := ofText index (Row.writeAll rows.flatten)
        firsts["1"]? = some (found.sort.take maximalRows) ∧ firsts["2"]? = none := by
  intro documents index found text
  obtain ⟨parameters, accepted⟩ : ∃ parameters, Parameters.ofText .float text = .ok parameters := by
    subst text
    exact ⟨_, by rfl⟩
  have named : Document.AreNamed documents :=
    { distinct := by decide
      columns := List.forall_mem_cons.mpr ⟨by decide, List.forall_mem_singleton.mpr (by decide)⟩
      real := by simp [documents, placeholderDocument] }
  have rereads : found.Rereads documents.length :=
    { isDefined := by decide
      bounded := by simp [found, documents]
      reread := List.forall_mem_cons.mpr ⟨by rfl, List.forall_mem_singleton.mpr (by rfl)⟩ }
  have nothing : Ranking.Rereads documents.length [] := ⟨rfl, by simp, by simp⟩
  have distinct : ([("1", found), ("2", [])].map Prod.fst).Nodup := by decide
  obtain ⟨rows, written, best, without⟩ := FirstRankings.ofText_writeAll [] named distinct
    (List.forall_mem_cons.mpr ⟨by decide, List.forall_mem_singleton.mpr (by decide)⟩)
    (List.forall_mem_cons.mpr ⟨rereads, List.forall_mem_singleton.mpr nothing⟩) accepted
  exact ⟨parameters, rows, accepted, written, best "1" found (by simp) (by simp [found]),
    without "2" (by simp)⟩

end Retrieval
