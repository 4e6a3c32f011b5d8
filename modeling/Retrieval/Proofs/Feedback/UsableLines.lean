import Mathlib.Data.List.Perm.Basic
import Retrieval.Proofs.Feedback.FirstRankings

/-!
# The usable lines of ranking files

The first ranking of a query depends on the lines alone that give a scored document of this query. It
ranks the documents of these lines; all other lines are passed over, wherever they stand. If no score is
undefined, then neither does the order of the lines matter: scored documents that stand at one place are
the same document with equal scores.
-/

namespace Retrieval

variable {index : Index} {line query text : String}

/-! ## Scored documents in order -/

namespace Number

/-- The numbers are equal in comparisons, as positive and negative zero are. -/
def Equal (left right : Float) : Prop := left ≤ right ∧ right ≤ left

theorem equal_of_place {left right : Float} (leftDefined : left ≤ left)
    (rightDefined : right ≤ right) (same : place left = place right) : Equal left right :=
  ⟨(le_iff_place leftDefined rightDefined).mpr same.le,
    (le_iff_place rightDefined leftDefined).mpr same.ge⟩

end Number

namespace Scored

variable {left right : Scored Float}

/-- The same document with equal scores. -/
def Same (left right : Scored Float) : Prop :=
  left.document = right.document ∧ Number.Equal left.score right.score

/-- The first one has the greater score, or an equal one and no greater document number. -/
def InOrder (left right : Scored Float) : Prop :=
  right.score < left.score ∨
    Number.Equal left.score right.score ∧ left.document ≤ right.document

theorem same_of_standing (leftDefined : left.score ≤ left.score)
    (rightDefined : right.score ≤ right.score) (same : left.standing = right.standing) :
    left.Same right := by
  obtain ⟨place, document⟩ := Prod.mk.inj (toLex.injective same)
  exact ⟨document, Number.equal_of_place leftDefined rightDefined (OrderDual.toDual_inj.mp place)⟩

theorem inOrder_of_standing (leftDefined : left.score ≤ left.score)
    (rightDefined : right.score ≤ right.score) (ordered : left.standing ≤ right.standing) :
    left.InOrder right := by
  rw [standing, standing, Prod.Lex.toLex_le_toLex] at ordered
  rcases ordered with before | ⟨place, document⟩
  · have greater : Number.place right.score < Number.place left.score :=
      OrderDual.toDual_lt_toDual.mp before
    exact .inl ((Number.lt_iff_place rightDefined leftDefined).mpr greater)
  · have equal := Number.equal_of_place leftDefined rightDefined (OrderDual.toDual_inj.mp place)
    exact .inr ⟨equal, document⟩

end Scored

namespace Ranking

variable {ranking other : Ranking Float}

theorem defined_of_mem_sort (isDefined : ranking.isDefined = true) {scored : Scored Float}
    (member : scored ∈ ranking.sort) : scored.score ≤ scored.score := by
  rw [Ranking.isDefined, List.all_eq_true] at isDefined
  exact of_decide_eq_true (isDefined scored (ranking.sort_perm.subset member))

theorem inOrder_sort (isDefined : ranking.isDefined = true) :
    ranking.sort.Pairwise Scored.InOrder :=
  (pairwise_sort isDefined).imp_of_mem fun left right ordered =>
    Scored.inOrder_of_standing (defined_of_mem_sort isDefined left)
      (defined_of_mem_sort isDefined right) ordered

/-- Sorted, rankings of the same scored documents differ at most in the spelling of equal scores. -/
theorem forall₂_sort_of_perm (isDefined : ranking.isDefined = true) (perm : other.Perm ranking) :
    List.Forall₂ Scored.Same other.sort ranking.sort := by
  have otherDefined := isDefined_of_subset isDefined perm.subset
  -- Sorted by a linear order of places, both stand at the same places one by one.
  have places : other.sort.map Scored.standing = ranking.sort.map Scored.standing := by
    have samePlaces : (other.sort.map Scored.standing).Perm (ranking.sort.map Scored.standing) :=
      (other.sort_perm.trans (perm.trans ranking.sort_perm.symm)).map _
    refine samePlaces.eq_of_pairwise (fun _ _ _ _ => le_antisymm) ?_ ?_
    · exact List.pairwise_map.mpr (pairwise_sort otherDefined)
    · exact List.pairwise_map.mpr (pairwise_sort isDefined)
  rw [← List.forall₂_eq_eq_eq, List.forall₂_map_left_iff, List.forall₂_map_right_iff,
    List.forall₂_iff_zip] at places
  refine List.forall₂_iff_zip.mpr ⟨places.1, fun pair => ?_⟩
  obtain ⟨left, right⟩ := List.of_mem_zip pair
  exact Scored.same_of_standing (defined_of_mem_sort otherDefined left)
    (defined_of_mem_sort isDefined right) (places.2 pair)

end Ranking

/-! ## What lines give -/

namespace FirstRankings

/-- The line has at least five columns: the query is in the first one, the name of the document in the
third one and the score in the fifth one. -/
structure Gives (index : Index) (line query : String) (scored : Scored Float) : Prop where
  /-- There are five columns. -/
  wide : 5 ≤ (Text.columns line).length
  /-- The first column is the number of the query. -/
  first : (Text.columns line)[0]? = some query
  /-- The third column names the document. -/
  third : ∃ name, (Text.columns line)[2]? = some name ∧ index.number name = .ok scored.document
  /-- The fifth column is the score. -/
  fifth : ∃ written, (Text.columns line)[4]? = some written ∧
    Number.readFloat? written = some scored.score

theorem exists_of_five_le_length {columns : List String} (wide : 5 ≤ columns.length) :
    ∃ first second third fourth fifth later,
      columns = first :: second :: third :: fourth :: fifth :: later := by
  rcases columns with _ | ⟨first, _ | ⟨second, _ | ⟨third, _ | ⟨fourth, _ | ⟨fifth, later⟩⟩⟩⟩⟩
  case cons.cons.cons.cons.cons => exact ⟨first, second, third, fourth, fifth, later, rfl⟩
  all_goals simp at wide

theorem ofLine?_eq_some_iff {scored : Scored Float} :
    ofLine? index line = some (query, scored) ↔ Gives index line query scored := by
  constructor
  · intro read
    rw [ofLine?] at read
    split at read
    · next number tag name rank written later cut =>
        split at read
        · next score document readScore known =>
            obtain ⟨rfl, rfl⟩ := Prod.mk.inj (Option.some.inj read)
            rw [show Arithmetic.read? written = Number.readFloat? written from rfl] at readScore
            exact ⟨by simp [cut], by simp [cut], ⟨name, by simp [cut], known⟩,
              ⟨written, by simp [cut], readScore⟩⟩
        · simp at read
    · simp at read
  · rintro ⟨wide, first, ⟨name, third, known⟩, ⟨written, fifth, readScore⟩⟩
    have score : Arithmetic.read? written = some scored.score := readScore
    obtain ⟨number, tag, named, rank, spelled, later, cut⟩ := exists_of_five_le_length wide
    obtain rfl : number = query := by simpa [cut] using first
    obtain rfl : named = name := by simpa [cut] using third
    obtain rfl : spelled = written := by simpa [cut] using fifth
    simp only [ofLine?, cut, score, known]

/-- A line gives one scored document at most. -/
theorem rightUnique_gives (index : Index) (query : String) :
    Relator.RightUnique fun line scored => Gives index line query scored := by
  intro line scored other given givenOther
  rw [← ofLine?_eq_some_iff] at given givenOther
  exact (Prod.mk.inj (Option.some.inj (given.symm.trans givenOther))).2

/-- The line gives a scored document of the query. -/
def IsUsable (index : Index) (query line : String) : Prop :=
  ∃ scored, Gives index line query scored

theorem isUsable_iff :
    IsUsable index query line ↔
      (ofLine? index line : Option (String × Scored Float)).map Prod.fst = some query := by
  constructor
  · rintro ⟨scored, given⟩
    rw [ofLine?_eq_some_iff.mpr given, Option.map_some]
  · intro read
    obtain ⟨⟨number, scored⟩, found, rfl⟩ := Option.map_eq_some_iff.mp read
    exact ⟨scored, ofLine?_eq_some_iff.mp found⟩

instance (index : Index) (query line : String) : Decidable (IsUsable index query line) :=
  decidable_of_iff' _ isUsable_iff

/-- The lines of a text that give scored documents of the query. -/
def usableLines (index : Index) (query text : String) : List String :=
  (Text.lines text).filter fun line => IsUsable index query line

/-- The scored documents that the lines of a text give for the query, in the order of the lines. -/
def scoredDocuments (index : Index) (query : String) (lines : List String) : Ranking Float :=
  gathered query (lines.filterMap (ofLine? index))

theorem forall₂_scoredDocuments (index : Index) (query : String) (lines : List String) :
    List.Forall₂ (fun line scored => Gives index line query scored)
      (lines.filter fun line => IsUsable index query line) (scoredDocuments index query lines) := by
  induction lines with
  | nil => exact .nil
  | cons line later induction =>
      by_cases usable : IsUsable index query line
      · obtain ⟨scored, given⟩ := id usable
        rw [List.filter_cons_of_pos (by simpa using usable), scoredDocuments,
          List.filterMap_cons_some (ofLine?_eq_some_iff.mpr given), gathered,
          List.filter_cons_of_pos (by simp), List.map_cons]
        exact .cons given induction
      · have passed : scoredDocuments index query (line :: later) =
            scoredDocuments index query later := by
          rw [scoredDocuments, scoredDocuments]
          rw [isUsable_iff] at usable
          cases read : (ofLine? index line : Option (String × Scored Float)) with
          | none => rw [List.filterMap_cons_none read]
          | some row =>
              have differs : row.1 ≠ query := by simpa [read] using usable
              rw [List.filterMap_cons_some read, gathered,
                List.filter_cons_of_neg (by simpa using differs), gathered]
        rw [List.filter_cons_of_neg (by simpa using usable), passed]
        exact induction

/-! ## Canonical rankings -/

theorem getElem?_ofText_eq (index : Index) (query text : String) :
    (ofText index text : FirstRankings Float)[query]? =
      if scoredDocuments index query (Text.lines text) = [] then none
      else some (scoredDocuments index query (Text.lines text)).sort :=
  getElem?_ofText index text query

/-- A query has a first ranking exactly if a line is usable for it. -/
theorem mem_ofText_iff (index : Index) (query text : String) :
    query ∈ (ofText index text : FirstRankings Float) ↔
      ∃ line ∈ Text.lines text, IsUsable index query line := by
  have sameLength := (forall₂_scoredDocuments index query (Text.lines text)).length_eq
  have found : query ∈ (ofText index text : FirstRankings Float) ↔
      scoredDocuments index query (Text.lines text) ≠ [] := by
    rw [Std.HashMap.mem_iff_isSome_getElem?, getElem?_ofText_eq]
    split <;> simp_all
  rw [found, ← List.length_pos_iff, ← sameLength, List.length_pos_iff_exists_mem]
  simp only [List.mem_filter, decide_eq_true_eq]

theorem isDefined_scoredDocuments {lines : List String}
    (isDefined : ∀ line ∈ lines, ∀ scored, Gives index line query scored →
      scored.score ≤ scored.score) :
    (scoredDocuments index query lines).isDefined = true := by
  refine List.all_eq_true.mpr fun scored member => decide_eq_true ?_
  obtain ⟨line, usable, given⟩ :=
    exists_of_mem_forall₂ (forall₂_scoredDocuments index query lines).flip member
  exact isDefined line (List.mem_filter.mp usable).1 scored given

/-- If no score is undefined, the first ranking of a query, which it has exactly if a line is usable for it,
consists of what the usable lines give, in order of scores and document numbers. A text with the same
usable lines for the query, whatever other lines it has, leads to the same ranking; a text with the same
ones in another order leads to the same documents with equal scores. -/
theorem ofText_canonical (index : Index) {text : String}
    (isDefined : ∀ line ∈ Text.lines text, ∀ query scored, Gives index line query scored →
      scored.score ≤ scored.score) (query : String) :
    let firsts (text : String) : FirstRankings Float := ofText index text
    (query ∈ firsts text ↔ ∃ line ∈ Text.lines text, IsUsable index query line) ∧
      (∀ ranking, (firsts text)[query]? = some ranking →
        ranking.Pairwise Scored.InOrder ∧ ∃ given, List.Perm ranking given ∧
          List.Forall₂ (fun line scored => Gives index line query scored)
            (usableLines index query text) given) ∧
      (∀ other, usableLines index query other = usableLines index query text →
        (firsts other)[query]? = (firsts text)[query]?) ∧
      ∀ other, (usableLines index query other).Perm (usableLines index query text) →
        Option.Rel (List.Forall₂ Scored.Same) (firsts other)[query]? (firsts text)[query]? := by
  intro firsts
  have given (text : String) : List.Forall₂ (fun line scored => Gives index line query scored)
      (usableLines index query text) (scoredDocuments index query (Text.lines text)) :=
    forall₂_scoredDocuments index query (Text.lines text)
  have definedHere : (scoredDocuments index query (Text.lines text)).isDefined = true :=
    isDefined_scoredDocuments fun line member => isDefined line member query
  refine ⟨mem_ofText_iff index query text, fun ranking found => ?_, fun other same => ?_,
    fun other perm => ?_⟩
  · simp only [firsts, getElem?_ofText_eq] at found
    split at found
    · simp at found
    · obtain rfl := Option.some.inj found
      exact ⟨Ranking.inOrder_sort definedHere, _, Ranking.sort_perm _, given text⟩
  · have sameGiven := List.right_unique_forall₂' (rightUnique_gives index query) (given text)
      (same ▸ given other)
    simp only [firsts, getElem?_ofText_eq, sameGiven]
  · have permGiven :=
      List.rel_perm_imp (rightUnique_gives index query) (given other) (given text) perm
    simp only [firsts, getElem?_ofText_eq]
    by_cases nothing : scoredDocuments index query (Text.lines text) = []
    · have nothingOther := List.perm_nil.mp (nothing ▸ permGiven)
      rw [if_pos nothing, if_pos nothingOther]
      exact .none
    · have somethingOther : scoredDocuments index query (Text.lines other) ≠ [] := fun empty =>
        nothing (List.perm_nil.mp (empty ▸ permGiven).symm)
      rw [if_neg nothing, if_neg somethingOther]
      exact .some (Ranking.forall₂_sort_of_perm definedHere permGiven)

/-- Two documents of equal score, written in another order, or with a blank line and a short line between
them; a third row has no score. -/
theorem ofText_canonical_twoDocuments :
    let documents : List Document := [⟨"one", .fill []⟩, ⟨"two", .fill []⟩]
    let index := Index.ofDocuments documents []
    let firsts (text : String) : FirstRankings Float := ofText index text
    let text := "1 Q0 two 1 0.5 run\n1 Q0 one 2 0.5 run\n2 Q0 one 1 high run"
    let longer := "1 Q0 two 1 0.5 run\n\n1 Q0\n1 Q0 one 2 0.5 run\n2 Q0 one 1 high run"
    let permuted := "2 Q0 one 1 high run\n1 Q0 one 2 0.5 run\n1 Q0 two 1 0.5 run"
    "1" ∈ firsts text ∧ "2" ∉ firsts text ∧ (firsts longer)["1"]? = (firsts text)["1"]? ∧
      Option.Rel (List.Forall₂ Scored.Same) (firsts permuted)["1"]? (firsts text)["1"]? := by
  intro documents index firsts text longer permuted
  have scores : ∀ line ∈ Text.lines text, ∀ written ∈ (Text.columns line)[4]?,
      ∀ score ∈ Number.readFloat? written, score ≤ score := by
    decide +kernel
  have canonical := ofText_canonical index fun line member query scored given => by
    obtain ⟨written, fifth, read⟩ := given.fifth
    exact scores line member written fifth scored.score read
  have distinct : (documents.map (·.identifier)).Nodup := by decide
  have second : documents[1]? = some ⟨"two", .fill []⟩ := rfl
  have known : index.number "two" = .ok 1 := Index.number_eq_ok distinct second
  have usable : IsUsable index "1" "1 Q0 two 1 0.5 run" :=
    ⟨⟨1, 0.5⟩, by decide +kernel, by decide +kernel, ⟨"two", by decide +kernel, known⟩,
      ⟨"0.5", by decide +kernel, by rfl⟩⟩
  have unusable : ∀ line ∈ Text.lines text, ¬IsUsable index "2" line := by
    have unread : ∀ line ∈ Text.lines text, (Text.columns line)[0]? = some "2" →
        ∀ written ∈ (Text.columns line)[4]?, (Number.readFloat? written).isNone := by
      decide +kernel
    rintro line member ⟨scored, given⟩
    obtain ⟨written, fifth, read⟩ := given.fifth
    have nothing := unread line member given.first written fifth
    simp [read] at nothing
  have narrow (line : String) (short : (Text.columns line).length < 5) : ¬IsUsable index "1" line :=
    fun ⟨_, given⟩ => Nat.not_lt.mpr given.wide short
  have inserted : Text.lines longer = ["1 Q0 two 1 0.5 run", "", "1 Q0", "1 Q0 one 2 0.5 run",
      "2 Q0 one 1 high run"] := by decide +kernel
  have sameLines : usableLines index "1" longer = usableLines index "1" text := by
    have readLines : Text.lines text =
        ["1 Q0 two 1 0.5 run", "1 Q0 one 2 0.5 run", "2 Q0 one 1 high run"] := by decide +kernel
    have blank := narrow "" (by decide +kernel)
    have short := narrow "1 Q0" (by decide +kernel)
    simp only [usableLines, inserted, readLines, List.filter_cons, blank, short, decide_false,
      Bool.false_eq_true, if_false]
  have permutedLines : (usableLines index "1" permuted).Perm (usableLines index "1" text) :=
    List.Perm.filter _ (by decide +kernel)
  refine ⟨(canonical "1").1.mpr ⟨_, by decide +kernel, usable⟩, fun found => ?_,
    (canonical "1").2.2.1 longer sameLines, (canonical "1").2.2.2 permuted permutedLines⟩
  obtain ⟨line, member, isUsable⟩ := (canonical "2").1.mp found
  exact unusable line member isUsable

end FirstRankings

end Retrieval
