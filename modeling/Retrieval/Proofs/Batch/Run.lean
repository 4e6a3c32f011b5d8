import Mathlib
import Retrieval.Proofs.Batch.Outcomes
import Retrieval.Proofs.Batch.Recording

/-!
# Batch runs on file trees

A batch run reads its inputs, makes its files, evaluates all queries, and only then writes. So a run
that cannot read its inputs leaves the tree as it is, a run with a query that fails leaves empty files,
and a run that succeeds leaves the rows of all queries in their order.
-/

namespace Retrieval

variable {ω : Type} [Arithmetic ω]

namespace Batch

/-! ## Inputs -/

/-- What a batch run reads. -/
structure Inputs (ω : Type) where
  /-- The index. -/
  index : Index
  /-- The text of the query file. -/
  text : String
  /-- The queries of its lines that are not blank. -/
  lines : List QueryLine
  /-- The first rankings by query number. -/
  firsts : FirstRankings ω

/-- The inputs of a run can be read from the tree, and they are these. -/
structure Reads (parameters : Parameters ω) (tree : FileTree) (inputs : Inputs ω) : Prop where
  /-- The index opens. -/
  index : tree.ask (openIndex parameters.indexPath) = .ok inputs.index
  /-- The query file is a text. -/
  text : tree.ask (Host.readText parameters.queryFile) = .ok inputs.text
  /-- Its lines that are not blank are queries. -/
  lines : QueryLine.ofText inputs.text = .ok inputs.lines
  /-- The first rankings are those of their file, if it is configured. -/
  firsts : match parameters.feedback.bind (·.rankingFile) with
    | some path => tree.ask (readRankings inputs.index path) = .ok inputs.firsts
    | none => inputs.firsts = ∅

theorem reading_openIndex (path : FilePath) :
    FileTree.Reading (openIndex path : StateM FileTree (Except Error Index)) := by
  refine (FileTree.reading_isDirectory path).bind fun isDirectory => ?_
  refine (FileTree.reading_read _).bind fun bytes => ?_
  split
  · split
    · exact .pure _
    · exact .pure _
  · exact .pure _
  · exact .pure _

theorem reading_readRankings (index : Index) (path : FilePath) :
    FileTree.Reading (readRankings index path :
      StateM FileTree (Except FileError (FirstRankings ω))) :=
  (FileTree.reading_readText path).bind fun _ => .pure _

/-- What opens is the index of some documents, whose lists ascend. -/
theorem ascending_of_openIndex {tree : FileTree} {path : FilePath} {index : Index}
    (opened : tree.ask (openIndex path) = .ok index) : index.Ascending := by
  rw [openIndex, (FileTree.reading_isDirectory path).ask_bind,
    (FileTree.reading_read _).ask_bind] at opened
  split at opened
  · split at opened
    · next collection read =>
        obtain rfl := Except.ok.inj opened
        exact Index.ofDocuments_ascending collection.documents collection.stopwords
    · cases opened
  · cases opened
  · cases opened

theorem Reads.length_lines {parameters : Parameters ω} {tree : FileTree} {inputs : Inputs ω}
    (reads : Reads parameters tree inputs) :
    inputs.lines.length =
      ((Text.lines inputs.text).filter fun line => !Text.isBlankText line).length :=
  (mapM_eq_ok_iff.mp reads.lines).length_eq.symm

variable {parameters : Parameters ω} {tree : FileTree} {inputs : Inputs ω} (printing : Printing)
  {home annex : Place}

/-! ## The whole run -/

/-- The engine of a run. -/
def Inputs.engine (inputs : Inputs ω) (parameters : Parameters ω) : Engine ω :=
  .ofIndex inputs.index parameters.model

/-- The part of a run that evaluates and writes. -/
def evaluateAndWrite (parameters : Parameters ω) (printing : Printing) (inputs : Inputs ω) :
    ExceptT Failure (StateM FileTree) Summary := do
  let outcomes ←
    match evaluateAll (inputs.engine parameters) parameters inputs.firsts inputs.lines with
    | .ok outcomes => pure outcomes
    | .error failure => throw failure
  record parameters printing 0 "" outcomes
  return ⟨inputs.lines.length, (outcomes.flatMap (·.rows)).length⟩

/-- The part of a run that follows the reading of its inputs. -/
def produce (parameters : Parameters ω) (printing : Printing) (inputs : Inputs ω) :
    ExceptT Failure (StateM FileTree) Summary := do
  attempt (.create parameters.rankingFile) (Host.create parameters.rankingFile)
  if let some path := parameters.feedback.bind (·.expansionFile) then
    attempt (.create path) (Host.create path)
  evaluateAndWrite parameters printing inputs

theorem onTree_readQueries {path : FilePath} {text : String} {lines : List QueryLine}
    (read : tree.ask (Host.readText path) = .ok text)
    (isQueries : QueryLine.ofText text = .ok lines) :
    onTree (readQueries path) tree = (.ok lines, tree) := by
  have reads := FileTree.reading_readText path tree
  rw [read] at reads
  rw [readQueries, onTree_bind _ (onTree_attempt reads), isQueries]
  rfl

theorem onTree_run (reads : Reads parameters tree inputs) :
    onTree (run parameters printing) tree = onTree (produce parameters printing inputs) tree := by
  have opens := reading_openIndex parameters.indexPath tree
  rw [reads.index] at opens
  have asked := reads.firsts
  rw [run, onTree_bind _ (onTree_lift opens)]
  simp only [pure_bind]
  rw [onTree_bind _ (onTree_readQueries reads.text reads.lines)]
  cases configured : parameters.feedback.bind (·.rankingFile) with
  | none =>
      rw [configured] at asked
      rw [produce, evaluateAndWrite, asked]
      rfl
  | some path =>
      rw [configured] at asked
      have ranks : (readRankings inputs.index path : StateM FileTree _).run tree =
          (.ok inputs.firsts, tree) := by rw [reading_readRankings, asked]
      exact onTree_bind _ (onTree_attempt ranks)

theorem onTree_readQueries_unread {path : FilePath}
    (unread : ¬ ∃ text lines, tree.ask (Host.readText path) = .ok text ∧
      QueryLine.ofText text = .ok lines) :
    ∃ failure, onTree (readQueries path) tree = (.error failure, tree) := by
  have reads := FileTree.reading_readText path tree
  cases isText : tree.ask (Host.readText path) with
  | error cause =>
      rw [isText] at reads
      exact ⟨_, onTree_bind_error _ (onTree_attempt_error reads)⟩
  | ok text =>
      rw [isText] at reads
      cases isQueries : QueryLine.ofText text with
      | ok lines => exact absurd ⟨text, lines, isText, isQueries⟩ unread
      | error cause =>
          rw [readQueries, onTree_bind _ (onTree_attempt reads), isQueries]
          exact ⟨_, rfl⟩

/-- A run that cannot read its inputs changes nothing. -/
theorem onTree_run_unread (unread : ¬ ∃ inputs, Reads parameters tree inputs) :
    ∃ failure, onTree (run parameters printing) tree = (.error failure, tree) := by
  have opens := reading_openIndex parameters.indexPath tree
  cases isIndex : tree.ask (openIndex parameters.indexPath) with
  | error cause =>
      rw [isIndex] at opens
      rw [run, onTree_bind _ (onTree_lift opens)]
      exact ⟨_, rfl⟩
  | ok index =>
      rw [isIndex] at opens
      rw [run, onTree_bind _ (onTree_lift opens)]
      simp only [pure_bind]
      by_cases readable : ∃ text lines, tree.ask (Host.readText parameters.queryFile) = .ok text ∧
          QueryLine.ofText text = .ok lines
      · obtain ⟨text, lines, isText, isQueries⟩ := readable
        have others (firsts : FirstRankings ω) :
            ¬ Reads parameters tree ⟨index, text, lines, firsts⟩ := fun reads => unread ⟨_, reads⟩
        rw [onTree_bind _ (onTree_readQueries isText isQueries)]
        cases configured : parameters.feedback.bind (·.rankingFile) with
        | none => exact absurd ⟨isIndex, isText, isQueries, by rw [configured]⟩ (others ∅)
        | some path =>
            let reading : StateM FileTree (Except FileError (FirstRankings ω)) :=
              readRankings index path
            have ranks : reading.run tree = (tree.ask reading, tree) :=
              reading_readRankings index path tree
            cases isRankings : tree.ask reading with
            | error cause =>
                rw [isRankings] at ranks
                exact ⟨_, onTree_bind_error _ (onTree_attempt_error ranks)⟩
            | ok firsts =>
                exact absurd ⟨isIndex, isText, isQueries, by rw [configured]; exact isRankings⟩
                  (others firsts)
      · obtain ⟨failure, failed⟩ := onTree_readQueries_unread readable
        exact ⟨failure, onTree_bind_error _ failed⟩

/-- The files are made empty before the queries are evaluated. -/
theorem onTree_produce (writable : Writable parameters tree home annex) :
    ∃ made, Standing parameters made home annex "" "" ∧
      onTree (produce parameters printing inputs) tree =
        onTree (evaluateAndWrite parameters printing inputs) made := by
  have makes : (Host.create parameters.rankingFile : StateM FileTree _).run tree =
      (.ok (), tree.write home "".toUTF8) := FileTree.run_change writable.ranking.create_eq
  have made := writable.ranking.holds_write ""
  rw [produce, onTree_bind _ (onTree_attempt makes)]
  split
  · next path configured =>
      obtain ⟨opens, apart⟩ := writable.added path configured
      have opens := writable.ranking.write opens "".toUTF8
      have makesAlso : (Host.create path : StateM FileTree _).run (tree.write home "".toUTF8) =
          (.ok (), (tree.write home "".toUTF8).write annex "".toUTF8) :=
        FileTree.run_change opens.create_eq
      refine ⟨_, ⟨made.write_apart opens apart.symm "".toUTF8, fun other isFile => ?_⟩,
        onTree_bind _ (onTree_attempt makesAlso)⟩
      obtain rfl := Option.some.inj (configured.symm.trans isFile)
      exact ⟨opens.holds_write "", apart⟩
  · next unconfigured =>
      exact ⟨_, ⟨made, fun path configured => absurd configured (unconfigured path)⟩, rfl⟩

/-- All queries are evaluated if and only if each one is. -/
theorem evaluateAll_eq_ok_iff {engine : Engine ω} {firsts : FirstRankings ω}
    {lines : List QueryLine} {outcomes : List (Outcome ω)} :
    evaluateAll engine parameters firsts lines = .ok outcomes ↔
      List.Forall₂ (fun line outcome => evaluate engine parameters firsts line = .ok outcome) lines
        outcomes := by
  rw [evaluateAll, mapM_eq_ok_iff]
  refine iff_of_eq (congrArg (List.Forall₂ · lines outcomes) ?_)
  funext line outcome
  cases evaluate engine parameters firsts line <;> simp

/-- A run whose queries are all evaluated succeeds and writes all outcomes. -/
theorem onTree_run_of_ok (reads : Reads parameters tree inputs)
    (writable : Writable parameters tree home annex) {outcomes : List (Outcome ω)}
    (evaluated : evaluateAll (inputs.engine parameters) parameters inputs.firsts inputs.lines =
      .ok outcomes) :
    ∃ after, onTree (run parameters printing) tree =
        (.ok ⟨inputs.lines.length, (outcomes.flatMap (·.rows)).length⟩, after) ∧
      Standing parameters after home annex (Row.writeAll (outcomes.flatMap (·.rows)))
        (String.join (outcomes.map (·.line))) := by
  obtain ⟨made, standing, produces⟩ := @onTree_produce _ _ _ _ inputs printing _ _ writable
  obtain ⟨after, recorded, standing⟩ := standing.record printing outcomes ""
  refine ⟨after, ?_, by simpa only [String.empty_append] using standing⟩
  rw [onTree_run printing reads, produces, evaluateAndWrite, evaluated]
  exact onTree_bind _ recorded

/-- A run with a query that fails leaves both files empty. -/
theorem onTree_run_of_error (reads : Reads parameters tree inputs)
    (writable : Writable parameters tree home annex) {failure : Failure}
    (failed : evaluateAll (inputs.engine parameters) parameters inputs.firsts inputs.lines =
      .error failure) :
    ∃ after, onTree (run parameters printing) tree = (.error failure, after) ∧
      Standing parameters after home annex "" "" := by
  obtain ⟨made, standing, produces⟩ := @onTree_produce _ _ _ _ inputs printing _ _ writable
  refine ⟨made, ?_, standing⟩
  rw [onTree_run printing reads, produces, evaluateAndWrite, failed]
  rfl

theorem exists_outcomes {engine : Engine ω} {firsts : FirstRankings ω} {lines : List QueryLine}
    (evaluable : ∀ line ∈ lines, ∃ outcome, evaluate engine parameters firsts line = .ok outcome) :
    ∃ outcomes, evaluateAll engine parameters firsts lines = .ok outcomes := by
  obtain ⟨outcomes, evaluated, -⟩ := exists_mapM_eq_ok fun line member => by
    obtain ⟨outcome, succeeded⟩ := evaluable line member
    exact ⟨outcome, succeeded, trivial⟩
  exact ⟨outcomes, evaluateAll_eq_ok_iff.mpr (mapM_eq_ok_iff.mp evaluated)⟩

theorem exists_failure {engine : Engine ω} {firsts : FirstRankings ω} {lines : List QueryLine}
    (fails : ∃ line ∈ lines, ∃ cause, evaluate engine parameters firsts line = .error cause) :
    ∃ failure, evaluateAll engine parameters firsts lines = .error failure := by
  obtain ⟨line, member, cause, failed⟩ := fails
  cases evaluated : evaluateAll engine parameters firsts lines with
  | error failure => exact ⟨failure, rfl⟩
  | ok outcomes =>
      obtain ⟨outcome, -, succeeded⟩ :=
        exists_of_mem_forall₂ (evaluateAll_eq_ok_iff.mp evaluated) member
      exact absurd (failed.symm.trans succeeded) (by simp)

/-- With feedback every outcome has a line for its added terms. -/
theorem exists_added {feedback : Feedback ω} (on : parameters.feedback = some feedback)
    {engine : Engine ω} {firsts : FirstRankings ω} {lines : List QueryLine}
    {outcomes : List (Outcome ω)}
    (answers : List.Forall₂ (Answers engine parameters firsts) lines outcomes) :
    ∃ added : List String, outcomes.map (·.expansion) = added.map some ∧
      outcomes.map (·.line) =
        List.zipWith (fun line text => QueryLine.write ⟨line.number, text⟩) lines added := by
  induction answers with
  | nil => exact ⟨[], rfl, rfl⟩
  | @cons line outcome lines outcomes answered _ induction =>
      obtain ⟨added, expansions, written⟩ := induction
      obtain ⟨text, found, asks, -, -⟩ := answered.rows
      generalize expanded : outcome.expansion = expansion at asks
      cases asks with
      | plain off => exact absurd (off.symm.trans on) (by simp)
      | @expanded _ found _ _ =>
          refine ⟨found.expansion :: added, by simp [expanded, expansions], ?_⟩
          rw [List.map_cons, written, Outcome.line, expanded, answered.number]
          rfl

/-- What a run has written: the rows of all queries, in the order of the lines that are not blank, and
a line of added terms for each query. -/
structure Complete (parameters : Parameters ω) (inputs : Inputs ω) (outcomes : List (Outcome ω))
    (summary : Summary) (after : FileTree) : Prop where
  /-- The outcomes are those of the queries, in their order. -/
  answers : List.Forall₂ (Answers (inputs.engine parameters) parameters inputs.firsts) inputs.lines
    outcomes
  /-- The queries are those of the lines that are not blank. -/
  queries : summary.queries =
    ((Text.lines inputs.text).filter fun line => !Text.isBlankText line).length
  /-- All rows are counted. -/
  rows : summary.rows = (outcomes.flatMap (·.rows)).length
  /-- The ranking file holds all rows. -/
  ranking : after.read parameters.rankingFile =
    .ok (Row.writeAll (outcomes.flatMap (·.rows))).toUTF8
  /-- The file of the added terms holds a line for each query. -/
  expansions : ∀ path ∈ parameters.expansionFile?, ∃ added : List String,
    outcomes.map (·.expansion) = added.map some ∧
      after.read path = .ok (String.join (List.zipWith
        (fun line text => QueryLine.write ⟨line.number, text⟩) inputs.lines added)).toUTF8

theorem complete_of_standing (reads : Reads parameters tree inputs) {outcomes : List (Outcome ω)}
    (evaluated : evaluateAll (inputs.engine parameters) parameters inputs.firsts inputs.lines =
      .ok outcomes) {after : FileTree}
    (standing : Standing parameters after home annex (Row.writeAll (outcomes.flatMap (·.rows)))
      (String.join (outcomes.map (·.line)))) :
    Complete parameters inputs outcomes
      ⟨inputs.lines.length, (outcomes.flatMap (·.rows)).length⟩ after := by
  have ascending : (inputs.engine parameters).index.Ascending := ascending_of_openIndex reads.index
  have answers : List.Forall₂ (Answers (inputs.engine parameters) parameters inputs.firsts)
      inputs.lines outcomes :=
    (evaluateAll_eq_ok_iff.mp evaluated).imp fun _ _ => answers_of_evaluate ascending
  refine ⟨answers, reads.length_lines, rfl, standing.ranking.read_eq, fun path configured => ?_⟩
  obtain ⟨feedback, on, -⟩ := Option.bind_eq_some_iff.mp configured
  obtain ⟨added, expansions, written⟩ := exists_added on answers
  exact ⟨added, expansions, written ▸ standing.read_added configured⟩

theorem exists_reads_of_run {summary : Summary} {after : FileTree}
    (succeeded : onTree (run parameters printing) tree = (.ok summary, after)) :
    ∃ inputs, Reads parameters tree inputs := by
  by_contra unread
  obtain ⟨failure, failed⟩ := onTree_run_unread printing unread
  rw [failed] at succeeded
  cases succeeded

/-- A run that succeeds has written all rows and lines. -/
theorem exists_complete (reads : Reads parameters tree inputs)
    (writable : Writable parameters tree home annex) {summary : Summary} {after : FileTree}
    (succeeded : onTree (run parameters printing) tree = (.ok summary, after)) :
    ∃ outcomes, Complete parameters inputs outcomes summary after := by
  cases evaluated : evaluateAll (inputs.engine parameters) parameters inputs.firsts inputs.lines with
  | error failure =>
      obtain ⟨left, failed, -⟩ := onTree_run_of_error printing reads writable evaluated
      rw [failed] at succeeded
      cases succeeded
  | ok outcomes =>
      obtain ⟨left, finished, standing⟩ := onTree_run_of_ok printing reads writable evaluated
      rw [finished] at succeeded
      cases succeeded
      exact ⟨outcomes, complete_of_standing reads evaluated standing⟩

/-- A run is all or nothing. If the index, the queries or the first rankings cannot be read, the tree
stays as it is. Otherwise, where both files can be written and are not the same, a run that succeeds
has written all rows and lines; it succeeds if all queries can be evaluated; and if one of them cannot,
it fails and leaves both files empty. -/
theorem run_all_or_nothing (parameters : Parameters ω) (printing : Printing) (tree : FileTree) :
    ((¬ ∃ inputs, Reads parameters tree inputs) →
      ∃ failure, onTree (run parameters printing) tree = (.error failure, tree)) ∧
    ∀ home annex, Writable parameters tree home annex →
      (∀ summary after, onTree (run parameters printing) tree = (.ok summary, after) →
        ∃ inputs outcomes, Reads parameters tree inputs ∧
          Complete parameters inputs outcomes summary after) ∧
      ∀ inputs, Reads parameters tree inputs →
        ((∀ line ∈ inputs.lines, ∃ outcome,
            evaluate (inputs.engine parameters) parameters inputs.firsts line = .ok outcome) →
          ∃ summary after, onTree (run parameters printing) tree = (.ok summary, after)) ∧
        ((∃ line ∈ inputs.lines, ∃ cause,
            evaluate (inputs.engine parameters) parameters inputs.firsts line = .error cause) →
          ∃ failure after, onTree (run parameters printing) tree = (.error failure, after) ∧
            after.read parameters.rankingFile = .ok .empty ∧
            ∀ path ∈ parameters.expansionFile?, after.read path = .ok .empty) := by
  refine ⟨onTree_run_unread printing, fun home annex writable => ⟨fun summary after succeeded => ?_,
    fun inputs reads => ⟨fun evaluable => ?_, fun fails => ?_⟩⟩⟩
  · obtain ⟨inputs, reads⟩ := exists_reads_of_run printing succeeded
    obtain ⟨outcomes, complete⟩ := exists_complete printing reads writable succeeded
    exact ⟨inputs, outcomes, reads, complete⟩
  · obtain ⟨outcomes, evaluated⟩ := exists_outcomes evaluable
    obtain ⟨after, finished, -⟩ := onTree_run_of_ok printing reads writable evaluated
    exact ⟨_, after, finished⟩
  · obtain ⟨failure, failed⟩ := exists_failure fails
    obtain ⟨after, finished, standing⟩ := onTree_run_of_error printing reads writable failed
    exact ⟨failure, after, finished, standing.ranking.read_eq,
      fun path configured => standing.read_added configured⟩

/-! ## Small runs -/

/-- Feedback that notes its added terms. -/
def sampleFeedback : Feedback Float := ⟨10, 10, 0, 0.5, none, some "t"⟩

/-- The settings of small runs. -/
def sample (feedback : Option (Feedback Float)) : Parameters Float :=
  ⟨"i", "q", "r", "run", .unrankedBoolean, feedback⟩

/-- A tree with an index, the queries of a run and the ranking file of an earlier one. -/
def sampleTree (queries : String) : FileTree :=
  ⟨[(["i"], "[[],[]]".toUTF8), (["q"], queries.toUTF8), (["r"], "stale".toUTF8)], ""⟩

/-- What is read from such a tree. -/
def sampleInputs (queries : String) (lines : List QueryLine) : Inputs Float :=
  ⟨.ofDocuments [] [], queries, lines, ∅⟩

theorem ask_openIndex_sampleTree (queries : String) :
    (sampleTree queries).ask (openIndex "i") = .ok (.ofDocuments [] []) := by
  have isDirectory : (sampleTree queries).ask (Host.isDirectory "i") = false := by cbv
  have bytes : (sampleTree queries).ask (Host.read "i") = .ok "[[],[]]".toUTF8 := by cbv
  have collection : Collection.ofBytes? "[[],[]]".toUTF8 = some ⟨[], []⟩ := by cbv
  rw [openIndex, (FileTree.reading_isDirectory _).ask_bind, isDirectory]
  dsimp only
  rw [(FileTree.reading_read _).ask_bind]
  simp only [Bool.false_eq_true, if_false, bytes, collection]
  rfl

theorem reads_sampleTree {feedback : Option (Feedback Float)}
    (off : feedback.bind (·.rankingFile) = none) {queries : String}
    (isText : String.fromUTF8? queries.toUTF8 = some queries)
    {lines : List QueryLine} (isQueries : QueryLine.ofText queries = .ok lines) :
    Reads (sample feedback) (sampleTree queries) (sampleInputs queries lines) := by
  have bytes : (sampleTree queries).ask (Host.read "q") = .ok queries.toUTF8 := by cbv
  refine ⟨ask_openIndex_sampleTree queries, ?_, isQueries, ?_⟩
  · change (sampleTree queries).ask (Host.readText "q") = _
    rw [Host.readText, (FileTree.reading_read _).ask_bind, bytes]
    simp only [isText]
    rfl
  · change (match feedback.bind (·.rankingFile) with | some path => _ | none => _)
    rw [off]
    rfl

theorem writable_sampleTree {feedback : Option (Feedback Float)}
    (file : ∀ path ∈ feedback.bind (·.expansionFile), path = "t") (queries : String) :
    Writable (sample feedback) (sampleTree queries) ["r"] ["t"] := by
  have leads {name : String} (isName : name = "r" ∨ name = "t") :
      (sampleTree queries).Leads name [] name [] := by
    rcases isName with rfl | rfl
    · exact ⟨rfl, by cbv, by decide, by decide, by cbv, rfl, Entry.noConfusion⟩
    · exact ⟨rfl, by cbv, by decide, by decide, by cbv, rfl, Entry.noConfusion⟩
  refine ⟨FileTree.opens_iff.mpr ⟨_, _, _, leads (.inl rfl), rfl⟩, fun path configured => ?_⟩
  obtain rfl := file path configured
  exact ⟨FileTree.opens_iff.mpr ⟨_, _, _, leads (.inr rfl), rfl⟩, by decide⟩

/-- The engine of such a run. -/
def sampleEngine : Engine Float := .ofIndex (.ofDocuments [] []) .unrankedBoolean

/-- A query without words has the placeholder row. -/
theorem evaluate_sample_blank (number : String) :
    evaluate sampleEngine (sample none) ∅ ⟨number, ""⟩ =
      .ok ⟨number, [⟨number, placeholderDocument, 1, 0, "run"⟩], none⟩ := by
  have planned : sampleEngine.plan "" = .ok none := by rfl
  have searched : sampleEngine.search "" = .ok [] := by
    rw [Engine.search, planned]
    rfl
  have answered : answer sampleEngine (sample none) ∅ ⟨number, ""⟩ = .ok ([], none) := by
    simp only [answer, sample, searched]
    rfl
  rw [evaluate, answered]
  rfl

/-- A query that is not closed fails, also with feedback. -/
theorem evaluate_sample_unclosed (number : String) :
    evaluate sampleEngine (sample (some sampleFeedback)) ∅ ⟨number, "#and("⟩ =
      .error (.query (.unbalancedParentheses "#or(#and()")) := by
  have planned : sampleEngine.plan "#and(" =
      .error (.query (.unbalancedParentheses "#or(#and()")) := by rfl
  have searched : sampleEngine.search "#and(" =
      .error (.query (.unbalancedParentheses "#or(#and()")) := by
    rw [Engine.search, planned]
    rfl
  have answered : answer sampleEngine (sample (some sampleFeedback)) ∅ ⟨number, "#and("⟩ =
      .error (.query (.unbalancedParentheses "#or(#and()")) := by
    simp only [answer, sample, Std.HashMap.getElem?_empty, Engine.searchWithFeedback_eq,
      Engine.firstRanking, searched]
    rfl
  rw [evaluate, answered]
  rfl

/-- Without an index nothing is changed, queries without words have rows, and a query that is not
closed leaves both files empty. -/
theorem run_all_or_nothing_sample :
    (∃ failure, onTree (run (sample none) ⟨false, false⟩) .empty = (.error failure, .empty)) ∧
    (∃ summary after inputs outcomes,
      onTree (run (sample none) ⟨false, false⟩) (sampleTree "1:\n\n2:\n") = (.ok summary, after) ∧
        Reads (sample none) (sampleTree "1:\n\n2:\n") inputs ∧
        Complete (sample none) inputs outcomes summary after) ∧
    ∃ failure after,
      onTree (run (sample (some sampleFeedback)) ⟨false, false⟩) (sampleTree "1:\n2:#and(\n") =
          (.error failure, after) ∧
        after.read "r" = .ok .empty ∧ after.read "t" = .ok .empty := by
  refine ⟨?_, ?_, ?_⟩
  · obtain ⟨unread, -⟩ := run_all_or_nothing (sample none) ⟨false, false⟩ .empty
    refine unread fun ⟨inputs, reads⟩ => ?_
    have missing : FileTree.empty.ask (openIndex "i") =
        .error (.index (.unreadable "i" .notFound)) := by cbv
    exact absurd (missing.symm.trans reads.index) (by simp)
  · have reads : Reads (sample none) (sampleTree "1:\n\n2:\n")
        (sampleInputs "1:\n\n2:\n" [⟨"1", ""⟩, ⟨"2", ""⟩]) :=
      reads_sampleTree rfl (by decide +kernel) rfl
    obtain ⟨-, whole⟩ :=
      run_all_or_nothing (sample none) ⟨false, false⟩ (sampleTree "1:\n\n2:\n")
    obtain ⟨complete, each⟩ := whole ["r"] ["t"] (writable_sampleTree (by simp) _)
    obtain ⟨summary, after, succeeded⟩ := (each _ reads).1 fun line member => by
      rcases List.mem_pair.mp member with rfl | rfl
      · exact ⟨_, evaluate_sample_blank "1"⟩
      · exact ⟨_, evaluate_sample_blank "2"⟩
    obtain ⟨inputs, outcomes, reads, complete⟩ := complete summary after succeeded
    exact ⟨summary, after, inputs, outcomes, succeeded, reads, complete⟩
  · have reads : Reads (sample (some sampleFeedback)) (sampleTree "1:\n2:#and(\n")
        (sampleInputs "1:\n2:#and(\n" [⟨"1", ""⟩, ⟨"2", "#and("⟩]) :=
      reads_sampleTree rfl (by decide +kernel) rfl
    obtain ⟨-, whole⟩ := run_all_or_nothing (sample (some sampleFeedback)) ⟨false, false⟩
      (sampleTree "1:\n2:#and(\n")
    obtain ⟨-, each⟩ := whole ["r"] ["t"] (writable_sampleTree (by simp [sampleFeedback]) _)
    obtain ⟨failure, after, failed, ranking, added⟩ := (each _ reads).2
      ⟨⟨"2", "#and("⟩, List.mem_pair.mpr (.inr rfl), _, evaluate_sample_unclosed "2"⟩
    exact ⟨failure, after, failed, ranking, added "t" rfl⟩

end Batch

end Retrieval
