import Retrieval.Evaluation
import Retrieval.Shortlist
import Retrieval.Text.Blank

/-!
# Relevance feedback

The best documents of a first ranking are taken as relevant. The terms of their bodies are weighted by
how likely these documents are to produce them, and the strongest terms are added to the query. The
first ranking is that of the query itself or is read from a ranking file.
-/

namespace Retrieval

/-- How a query is expanded. -/
structure Feedback (ω : Type) where
  /-- The number of documents that count as relevant. -/
  documents : Nat
  /-- The number of terms that are added. -/
  terms : Nat
  /-- The smoothing mass of the collection. -/
  mu : ω
  /-- The weight of the query beside the added terms. -/
  queryWeight : ω
  /-- The file of the first rankings. -/
  rankingFile : Option FilePath
  /-- The file that receives the added terms of every query. -/
  expansionFile : Option FilePath

/-- A term that is added to a query. -/
structure ExpansionTerm (ω : Type) where
  /-- The term. -/
  term : String
  /-- Its weight. -/
  weight : ω

/-- A document that counts as relevant. -/
structure RelevantDocument (ω : Type) where
  /-- Its score in the first ranking. -/
  score : ω
  /-- The number of tokens of its body. -/
  length : Nat
  /-- The distinct terms of its body, in the order of their first occurrence. -/
  terms : List String
  /-- How often each of them occurs. -/
  counts : Std.HashMap String Nat

namespace RelevantDocument

/-- The relevant document with a score and the terms of its body. -/
def ofVector {ω : Type} (score : ω) (vector : TermVector) : RelevantDocument ω :=
  { score
    length := vector.length
    terms := vector.entries.map (·.stem)
    counts := .ofList (vector.entries.map fun entry => (entry.stem, entry.frequency)) }

end RelevantDocument

variable {ω : Type} [Arithmetic ω]

open Arithmetic

/-- The nearest number with four decimal places. -/
def roundToFourPlaces (number : ω) : ω :=
  round (number * ofNat 10000) / ofNat 10000

namespace Feedback

/-- Refuses settings outside of their ranges. -/
def validate (feedback : Feedback ω) : Except ConfigError Unit :=
  if feedback.documents = 0 || feedback.terms = 0 then .error .emptyFeedback
  else if feedback.mu < 0 then .error .negativeFeedbackSmoothing
  else if !isFraction feedback.queryWeight then .error .queryWeightOutOfRange
  else .ok ()

/-- The relevant documents with their scores and the terms of their bodies. -/
def relevant (feedback : Feedback ω) (index : Index) (ranking : Ranking ω) :
    Except IndexError (List (RelevantDocument ω)) :=
  (ranking.take feedback.documents).mapM fun scored =>
    (index.termVector .body scored.document).map (RelevantDocument.ofVector scored.score)

/-- What one document adds to the score of a term. -/
def contribution (feedback : Feedback ω) (tokens collectionFrequency : ω) (term : String)
    (document : RelevantDocument ω) : ω :=
  let share := collectionFrequency / tokens
  let probability := (ofNat (document.counts.getD term 0) + feedback.mu * share) /
    (ofNat document.length + feedback.mu)
  document.score * log (tokens / collectionFrequency) * probability

/-- The score of a term by all relevant documents, in order of their ranks. -/
def termScore (feedback : Feedback ω) (index : Index) (relevant : List (RelevantDocument ω))
    (term : String) : ω :=
  let tokens : ω := ofNat (index.tokenCount .body)
  let collectionFrequency := (index.invertedList .body term).collectionFrequency
  if collectionFrequency = 0 then 0
  else sum (relevant.map (feedback.contribution tokens (ofNat collectionFrequency) term))

/-- The term can be written into a query: it holds neither a point nor a comma. -/
def isWritable (term : String) : Bool :=
  !term.toList.contains '.' && !term.toList.contains ','

/-- The terms that may be added, each with its place among the terms of the relevant documents and
its score. -/
def candidates (feedback : Feedback ω) (index : Index) (relevant : List (RelevantDocument ω)) :
    List (Scored ω × String) :=
  let vocabulary := firstOccurrences (relevant.flatMap (·.terms))
  (vocabulary.zipIdx.filter fun (term, _) => isWritable term).map fun (term, place) =>
    (⟨place, feedback.termScore index relevant term⟩, term)

/-- The strongest terms of the relevant documents, the earlier ones first among equally strong
ones. -/
def expansionTerms (feedback : Feedback ω) (index : Index) (ranking : Ranking ω) :
    Except IndexError (List (ExpansionTerm ω)) :=
  if index.tokenCount .body = 0 then .ok []
  else (feedback.relevant index ranking).map fun relevant =>
    let candidates := feedback.candidates index relevant
    let best := Ranking.strongest feedback.terms (candidates.map Prod.fst)
    best.filterMap fun scored =>
      (candidates.find? fun candidate => candidate.1.document = scored.document).map
        fun (_, term) => ⟨term, roundToFourPlaces scored.score⟩

end Feedback

/-- The text of the query for some terms alone. -/
def expansionQuery (terms : List (ExpansionTerm ω)) : String :=
  "#wand(" ++ " ".intercalate (terms.map fun term => write term.weight ++ " " ++ term.term) ++ ")"

/-- The text of the query that combines a query with the query for the added terms. -/
def expandedQuery (query expansion : String) (queryWeight : ω) : String :=
  "#wand(" ++ write queryWeight ++ " #and(" ++ query ++ ") "
    ++ write (roundToFourPlaces (1 - queryWeight)) ++ " " ++ expansion ++ ")"

/-- What comes of a query with feedback. -/
structure Expansion (ω : Type) where
  /-- The added terms. -/
  terms : List (ExpansionTerm ω)
  /-- The query for the added terms alone. -/
  expansion : String
  /-- The query that has been evaluated. -/
  query : String
  /-- Its sorted matches. -/
  ranking : Ranking ω

/-- Expands a query by a first ranking, that of the query itself if none is given, and evaluates
it. -/
def Engine.searchWithFeedback (engine : Engine ω) (feedback : Feedback ω) (text : String)
    (first : Option (Ranking ω)) : Except Error (Expansion ω) := do
  let ranking ← match first with
    | some ranking => .ok ranking
    | none => engine.search text
  match feedback.expansionTerms engine.index ranking with
  | .error cause => .error (.index cause)
  | .ok terms =>
      let expansion := expansionQuery terms
      let query := expandedQuery text expansion feedback.queryWeight
      let ranking ← engine.search query
      return { terms, expansion, query, ranking }

/-- First rankings by query number. -/
abbrev FirstRankings (ω : Type) := Std.HashMap String (Ranking ω)

namespace FirstRankings

/-- The query number and the scored document of a line, if it has five columns, its fifth column is a
number and its third one names a document of the index. -/
def ofLine? (index : Index) (line : String) : Option (String × Scored ω) :=
  match Text.columns line with
  | query :: _ :: document :: _ :: score :: _ =>
      match (Arithmetic.read? score : Option ω), index.number document with
      | some score, .ok document => some (query, ⟨document, score⟩)
      | _, _ => none
  | _ => none

/-- The sorted rankings of a ranking file. Lines that cannot be used are passed over. -/
def ofText (index : Index) (text : String) : FirstRankings ω :=
  let rows : List (String × Scored ω) := (Text.lines text).filterMap (ofLine? index)
  let gathered : FirstRankings ω := rows.foldr
    (fun (query, scored) rankings =>
      rankings.insert query (scored :: rankings.getD query [])) ∅
  gathered.map fun _ ranking => Ranking.sort ranking

end FirstRankings

end Retrieval
