import Retrieval.Proofs.Batch.QueryLines
import Retrieval.Proofs.Batch.Run
import Retrieval.Proofs.Feedback.AddedTerms
import Retrieval.Proofs.Query.Expansion
import Retrieval.Proofs.Query.Spelling

/-!
# The file of the added terms

A run with feedback leaves a query file: for each query of the batch, under its number and in its place, the
query for the terms that were added to it. This needs a file of its own, since the rows of the ranking are
written over what stands in their file.
-/

namespace Retrieval

/-! ## Queries for added terms -/

theorem Text.notMem_intercalate {character : Char} {separator : String} {texts : List String}
    (apart : character ∉ separator.toList) (each : ∀ text ∈ texts, character ∉ text.toList) :
    character ∉ (separator.intercalate texts).toList := by
  induction texts with
  | nil => simp
  | cons text later induction =>
      obtain ⟨here, others⟩ := List.forall_mem_cons.mp each
      cases later with
      | nil => simpa using here
      | cons next later =>
          rw [String.intercalate_cons_cons]
          simpa [here, apart] using induction others

theorem Number.feed_notMem_writeFloat (number : Float) : '\n' ∉ (writeFloat number).toList := by
  intro member
  rcases (isNumeral_writeFloat number).2 _ member with isDigit | sign
  · exact absurd isDigit (by decide)
  · exact absurd sign (by decide)

theorem trim_expansionQuery {ω : Type} [Arithmetic ω] (terms : List (ExpansionTerm ω)) :
    Text.trim (expansionQuery terms) = expansionQuery terms := by
  rw [Text.trim_eq_self_iff, expansionQuery]
  have sign : Text.isBlank '#' = false := by decide
  have close : Text.isBlank ')' = false := by decide
  exact ⟨fun nonempty => by simpa using sign, fun nonempty => by simpa using close⟩

theorem feed_notMem_expansionQuery {terms : List (ExpansionTerm Float)}
    (noFeed : ∀ term ∈ terms, '\n' ∉ term.term.toList) : '\n' ∉ (expansionQuery terms).toList := by
  have inner : '\n' ∉ (" ".intercalate
      (terms.map fun term => Arithmetic.write term.weight ++ " " ++ term.term)).toList := by
    refine Text.notMem_intercalate (by decide) (List.forall_mem_map.mpr fun term member => ?_)
    simpa using ⟨Number.feed_notMem_writeFloat term.weight, noFeed term member⟩
  rw [expansionQuery]
  simpa using inner

/-- No token of a body holds a line feed. -/
def Index.IsFeedFree (index : Index) : Prop :=
  ∀ number document, index.document number = .ok document →
    ∀ token ∈ document.fields.get .body, '\n' ∉ token.toList

namespace Feedback

variable {ω : Type} [Arithmetic ω] {feedback : Feedback ω} {index : Index} {ranking : Ranking ω}
  {terms : List (ExpansionTerm ω)}

/-- An added term is a token of the body of some document. -/
theorem exists_token_of_mem_expansionTerms
    (found : feedback.expansionTerms index ranking = .ok terms) {term : ExpansionTerm ω}
    (member : term ∈ terms) : ∃ number document, index.document number = .ok document ∧
      term.term ∈ document.fields.get .body := by
  obtain ⟨relevant, read, ⟨source, among, inside⟩, -⟩ := exists_of_mem_expansionTerms found member
  obtain ⟨scored, -, vector, isVector, rfl⟩ := (mem_relevant_iff read).mp among
  obtain ⟨document, isDocument, -, stems⟩ := Index.exists_of_termVector isVector
  refine ⟨scored.document, document, isDocument, mem_firstOccurrences.mp ?_⟩
  rwa [← stems]

end Feedback

/-- The query for the added terms fits into a line of a query file. -/
theorem Engine.expansion_fits {engine : Engine Float} (feedFree : engine.index.IsFeedFree)
    {feedback : Feedback Float} {text : String} {first : Option (Ranking Float)}
    {expansion : Expansion Float}
    (found : engine.searchWithFeedback feedback text first = .ok expansion) :
    Text.trim expansion.expansion = expansion.expansion ∧ '\n' ∉ expansion.expansion.toList := by
  rw [searchWithFeedback_eq] at found
  obtain ⟨ranking, -, found⟩ := bind_eq_ok_iff.mp found
  split at found
  · cases found
  · next terms isTerms =>
      obtain ⟨last, -, rfl⟩ := map_eq_ok_iff.mp found
      refine ⟨trim_expansionQuery terms, feed_notMem_expansionQuery fun term member => ?_⟩
      obtain ⟨number, document, isDocument, inside⟩ :=
        Feedback.exists_token_of_mem_expansionTerms isTerms member
      exact feedFree number document isDocument _ inside

/-- The two paths lead to one file, which stands in the tree or can be made there. -/
def FileTree.SameFile (tree : FileTree) (path other : FilePath) : Prop :=
  ∃ place, tree.Opens path place ∧ tree.Opens other place

namespace Batch

/-! ## Files of a run that succeeds -/

section Files

variable {ω : Type} [Arithmetic ω] {parameters : Parameters ω} {printing : Printing}
  {tree after : FileTree} {inputs : Inputs ω} {summary : Summary}

/-- What is written could be opened before the run. -/
theorem opens_of_produce
    (succeeded : onTree (produce parameters printing inputs) tree = (.ok summary, after)) :
    ∃ home, tree.Opens parameters.rankingFile home ∧
      ∀ path ∈ parameters.expansionFile?, ∃ annex, tree.Opens path annex := by
  obtain ⟨⟨⟩, made, creates, succeeded⟩ := exists_of_onTree_bind succeeded
  obtain ⟨home, opens, rfl⟩ := FileTree.exists_opens_of_create
    (FileTree.eq_ok_of_run_change (run_of_onTree_attempt creates))
  refine ⟨home, opens, fun path configured => ?_⟩
  have isFile : parameters.feedback.bind (·.expansionFile) = some path := configured
  simp only [isFile] at succeeded
  obtain ⟨⟨⟩, madeAlso, createsAlso, -⟩ := exists_of_onTree_bind succeeded
  obtain ⟨annex, opensAlso, -⟩ := FileTree.exists_opens_of_create
    (FileTree.eq_ok_of_run_change (run_of_onTree_attempt createsAlso))
  exact ⟨annex, opens.of_write opensAlso⟩

/-- The files of a run that succeeds can be written if they are not the same. -/
theorem exists_writable (reads : Reads parameters tree inputs)
    (succeeded : onTree (run parameters printing) tree = (.ok summary, after))
    (apart : ∀ path ∈ parameters.expansionFile?, ¬ tree.SameFile parameters.rankingFile path) :
    ∃ home annex, Writable parameters tree home annex := by
  rw [onTree_run printing reads] at succeeded
  obtain ⟨home, opens, opensAlso⟩ := opens_of_produce succeeded
  cases configured : parameters.expansionFile? with
  | none => exact ⟨home, [], opens, by simp [configured]⟩
  | some path =>
      obtain ⟨annex, opensPath⟩ := opensAlso path configured
      refine ⟨home, annex, opens, fun other isFile => ?_⟩
      obtain rfl := Option.some.inj (configured.symm.trans isFile)
      exact ⟨opensPath, fun same => apart path configured ⟨home, opens, same ▸ opensPath⟩⟩

end Files

/-! ## Entries -/

/-- The entry stands for a query of the batch. -/
structure Expands {ω : Type} [Arithmetic ω] (engine : Engine ω) (feedback : Feedback ω)
    (firsts : FirstRankings ω) (line entry : QueryLine) : Prop where
  /-- It has the number of the query. -/
  number : entry.number = line.number
  /-- Its text is the query for the terms that are added to the query. -/
  text : ∃ expansion,
    engine.searchWithFeedback feedback line.text firsts[line.number]? = .ok expansion ∧
      entry.text = expansion.expansion

/-- The added lines are those of entries that stand beside the queries. -/
theorem exists_entries {ω : Type} [Arithmetic ω] {parameters : Parameters ω} {feedback : Feedback ω}
    (on : parameters.feedback = some feedback) {engine : Engine ω} {firsts : FirstRankings ω}
    {lines : List QueryLine} {outcomes : List (Outcome ω)}
    (answers : List.Forall₂ (Answers engine parameters firsts) lines outcomes) {added : List String}
    (expansions : outcomes.map (·.expansion) = added.map some) :
    ∃ entries : List QueryLine,
      List.zipWith (fun line text => QueryLine.write ⟨line.number, text⟩) lines added =
        entries.map QueryLine.write ∧
      List.Forall₂ (Expands engine feedback firsts) lines entries := by
  induction answers generalizing added with
  | nil => exact ⟨[], rfl, .nil⟩
  | @cons line outcome lines outcomes answered _ induction =>
      cases added with
      | nil => simp at expansions
      | cons text added =>
          rw [List.map_cons, List.map_cons, List.cons.injEq] at expansions
          obtain ⟨entries, written, expands⟩ := induction expansions.2
          obtain ⟨searched, found, asks, -, -⟩ := answered.rows
          rw [expansions.1] at asks
          cases asks with
          | @expanded _ expansion onAlso searchedAlso =>
              obtain rfl := Option.some.inj (on.symm.trans onAlso)
              refine ⟨⟨line.number, expansion.expansion⟩ :: entries, ?_,
                .cons ⟨rfl, expansion, searchedAlso, rfl⟩ expands⟩
              rw [List.zipWith_cons_cons, written, List.map_cons]

theorem Expands.isPlain {engine : Engine Float} (feedFree : engine.index.IsFeedFree)
    {feedback : Feedback Float} {firsts : FirstRankings Float} {line entry : QueryLine}
    (plain : line.IsPlain) (expands : Expands engine feedback firsts line entry) :
    entry.IsPlain := by
  obtain ⟨number, expansion, found, text⟩ := expands
  obtain ⟨trimmed, noFeed⟩ := Engine.expansion_fits feedFree found
  exact ⟨number ▸ plain.number_trimmed, text ▸ trimmed, number ▸ plain.colon_notMem,
    number ▸ plain.feed_notMem_number, text ▸ noFeed⟩

/-- The file of the added terms is a query file: where it is another file than that of the ranking and the
tokens hold no line feed, reading it after a run that succeeds gives one entry for each query of the batch, in
their order, with the number of the query and the query for the terms that were added to it. -/
theorem readQueries_expansionFile {parameters : Parameters Float} {feedback : Feedback Float}
    (on : parameters.feedback = some feedback) {path : FilePath}
    (configured : feedback.expansionFile = some path) {tree : FileTree}
    (apart : ¬ tree.SameFile parameters.rankingFile path) {printing : Printing} {summary : Summary}
    {after : FileTree}
    (succeeded : onTree (run parameters printing) tree = (.ok summary, after)) :
    ∃ inputs, Reads parameters tree inputs ∧
      (inputs.index.IsFeedFree →
        ∃ entries, onTree (readQueries path) after = (.ok entries, after) ∧
          List.Forall₂ (Expands (inputs.engine parameters) feedback inputs.firsts) inputs.lines
            entries) := by
  obtain ⟨inputs, reads⟩ := exists_reads_of_run printing succeeded
  refine ⟨inputs, reads, fun feedFree => ?_⟩
  have isFile : parameters.expansionFile? = some path := by
    rw [Parameters.expansionFile?, on]
    exact configured
  obtain ⟨home, annex, writable⟩ := exists_writable reads succeeded fun other isOther => by
    obtain rfl := Option.some.inj (isFile.symm.trans isOther)
    exact apart
  obtain ⟨outcomes, complete⟩ := exists_complete printing reads writable succeeded
  obtain ⟨added, expansions, holds⟩ := complete.expansions path isFile
  obtain ⟨entries, written, expands⟩ := exists_entries on complete.answers expansions
  rw [written] at holds
  have plain : ∀ entry ∈ entries, entry.IsPlain := by
    intro entry member
    obtain ⟨line, among, expandsLine⟩ := exists_of_mem_forall₂ expands.flip member
    exact expandsLine.isPlain feedFree (QueryLine.isPlain_of_ofText reads.lines among)
  exact ⟨entries, onTree_readQueries (FileTree.ask_readText holds) (QueryLine.ofText_write plain),
    expands⟩

/-! ## A shared file -/

section Shared

variable {ω : Type} [Arithmetic ω] {parameters : Parameters ω} {printing : Printing}
  {tree : FileTree} {home : Place}

theorem onTree_produce_shared (shared : parameters.expansionFile? = some parameters.rankingFile)
    (opens : tree.Opens parameters.rankingFile home) (inputs : Inputs ω) :
    ∃ made, made.Holds parameters.rankingFile home "" ∧
      onTree (produce parameters printing inputs) tree =
        onTree (evaluateAndWrite parameters printing inputs) made := by
  have made := opens.holds_write ""
  have isFile : parameters.feedback.bind (·.expansionFile) = some parameters.rankingFile := shared
  have makes {place : Place} {before : FileTree} (opens : before.Opens parameters.rankingFile place) :
      (Host.create parameters.rankingFile : StateM FileTree _).run before =
        (.ok (), before.write place "".toUTF8) := FileTree.run_change opens.create_eq
  refine ⟨_, made.opens.holds_write "", ?_⟩
  rw [produce, onTree_bind _ (onTree_attempt (makes opens))]
  simp only [isFile]
  rw [onTree_bind _ (onTree_attempt (makes made.opens))]

/-- Rows that wait until the end are written over the line of added terms. -/
theorem onTree_record_shared (shared : parameters.expansionFile? = some parameters.rankingFile)
    (quiet : printing.enabled = false) (holds : tree.Holds parameters.rankingFile home "")
    {outcome : Outcome ω} {expansion : String} (expanded : outcome.expansion = some expansion)
    (waits : (Buffer.addAll ⟨"", ""⟩ (outcome.rows.flatMap Row.parts)).released = "")
    (covers : outcome.line.utf8ByteSize < (Row.writeAll outcome.rows).utf8ByteSize) :
    ∃ after, onTree (record parameters printing 0 "" [outcome]) tree = (.ok (), after) ∧
      after.Holds parameters.rankingFile home (Row.writeAll outcome.rows) := by
  have isFile : parameters.feedback.bind (·.expansionFile) = some parameters.rankingFile := shared
  have waiting : (Buffer.addAll ⟨"", ""⟩ (outcome.rows.flatMap Row.parts)).waiting =
      Row.writeAll outcome.rows := by
    have buffered := text_buffered "" outcome.rows
    rwa [Buffer.text, waits, String.empty_append, String.empty_append] at buffered
  have line : QueryLine.write ⟨outcome.number, expansion⟩ = outcome.line := by
    rw [Outcome.line, expanded, Option.elim_some]
  have appends : (Host.append parameters.rankingFile outcome.line : StateM FileTree _).run tree =
      (.ok (), tree.write home ("" ++ outcome.line).toUTF8) :=
    FileTree.run_change (holds.append_eq outcome.line)
  have noted := holds.opens.holds_write ("" ++ outcome.line)
  generalize tree.write home ("" ++ outcome.line).toUTF8 = middle at appends noted
  have writes : (Host.writeAt parameters.rankingFile 0 (Row.writeAll outcome.rows) :
      StateM FileTree _).run middle =
        (.ok (), middle.write home (Row.writeAll outcome.rows).toUTF8) :=
    FileTree.run_change (noted.writeAt_start (by simpa using covers.le))
  have occupied : ¬ (Row.writeAll outcome.rows).isEmpty = true := by
    intro empty
    have empty : Row.writeAll outcome.rows = "" := by simpa using empty
    simp [empty] at covers
  have nothing : onTree (writeRanking parameters 0 "") tree = (.ok (), tree) := rfl
  refine ⟨_, ?_, noted.opens.holds_write _⟩
  rw [record_cons, waits, waiting, onTree_bind _ nothing]
  simp only [quiet, noteAndRecord, isFile, expanded, line, Bool.false_eq_true, if_false]
  rw [onTree_bind _ (onTree_lift appends)]
  simp only [record]
  rw [writeRanking, if_neg occupied]
  exact onTree_attempt writes

end Shared

/-! ## Small runs -/

/-- The settings of a run with feedback that notes its added terms in a file. -/
def expandingSample (file : FilePath) : Parameters Float :=
  ⟨"i", "q", "r", "run", .indri .usual, some ⟨10, 10, 0, 0.5, none, some file⟩⟩

theorem reads_expandingSample (file : FilePath) {queries : String} {lines : List QueryLine}
    (isQueries : QueryLine.ofText queries = .ok lines) :
    Reads (expandingSample file) (sampleTree queries) (sampleInputs queries lines) := by
  have reads := @reads_sampleTree (expandingSample file).feedback rfl queries
    (FileTree.fromUTF8?_toUTF8 queries) lines isQueries
  exact ⟨reads.index, reads.text, reads.lines, reads.firsts⟩

theorem isFeedFree_sample : (Index.ofDocuments [] []).IsFeedFree := by
  intro number document isDocument
  exact absurd (Index.mem_of_document isDocument) List.not_mem_nil

/-- The engine of such a run. -/
def expandingEngine : Engine Float := .ofIndex (.ofDocuments [] []) (.indri .usual)

/-- A query without words has no terms to add, and the placeholder row. -/
theorem evaluate_expandingSample (file : FilePath) (number : String) :
    evaluate expandingEngine (expandingSample file) ∅ ⟨number, ""⟩ =
      .ok ⟨number, [⟨number, placeholderDocument, 1, 0, "run"⟩], some "#wand()"⟩ := by
  let none : List (ExpansionTerm Float) := []
  have parsed : expandingEngine.parse "" = .ok (.apply (.scoring .and) [] []) := by rfl
  have searched : expandingEngine.search "" = .ok [] := by
    rw [Engine.search, Engine.plan, parsed]
    rfl
  have expanded := @Engine.parse_expandedQuery expandingEngine .usual rfl "" _ parsed none
    (by simp [none]) (by simp [none]) 0.5 (by decide) (by decide +kernel)
  have searchedAlso : expandingEngine.search (expandedQuery "" (expansionQuery none) 0.5) =
      .ok [] := by
    rw [Engine.search, Engine.plan, expanded]
    rfl
  have unadded (feedback : Feedback Float) :
      feedback.expansionTerms expandingEngine.index [] = .ok none := by
    have noTokens : expandingEngine.index.tokenCount .body = 0 := by rfl
    rw [Feedback.expansionTerms, if_pos noTokens]
  have answered : answer expandingEngine (expandingSample file) ∅ ⟨number, ""⟩ =
      .ok ([], some "#wand()") := by
    simp only [answer, expandingSample, Std.HashMap.getElem?_empty, Engine.searchWithFeedback_eq,
      Engine.firstRanking, searched, bind, Except.bind, unadded, searchedAlso]
    rfl
  rw [evaluate, answered]
  rfl

/-- The file of the added terms is read back after a run that notes them in a file of their own. -/
theorem readQueries_expansionFile_sample :
    ∃ summary after inputs entries,
      ¬ (sampleTree "1:\n\n2:\n").SameFile "r" "t" ∧
      onTree (run (expandingSample "t") ⟨false, false⟩) (sampleTree "1:\n\n2:\n") =
        (.ok summary, after) ∧
      Reads (expandingSample "t") (sampleTree "1:\n\n2:\n") inputs ∧ inputs.index.IsFeedFree ∧
      onTree (readQueries "t") after = (.ok entries, after) ∧
      List.Forall₂ (Expands (inputs.engine (expandingSample "t")) ⟨10, 10, 0, 0.5, none, some "t"⟩
        inputs.firsts) inputs.lines entries := by
  have reads : Reads (expandingSample "t") (sampleTree "1:\n\n2:\n")
      (sampleInputs "1:\n\n2:\n" [⟨"1", ""⟩, ⟨"2", ""⟩]) := reads_expandingSample "t" rfl
  obtain ⟨ranking, added⟩ :=
    @writable_sampleTree (expandingSample "t").feedback (by simp [expandingSample]) "1:\n\n2:\n"
  have writable : Writable (expandingSample "t") (sampleTree "1:\n\n2:\n") ["r"] ["t"] :=
    ⟨ranking, added⟩
  have evaluated : evaluateAll expandingEngine (expandingSample "t") ∅ [⟨"1", ""⟩, ⟨"2", ""⟩] =
      .ok [⟨"1", [⟨"1", placeholderDocument, 1, 0, "run"⟩], some "#wand()"⟩,
        ⟨"2", [⟨"2", placeholderDocument, 1, 0, "run"⟩], some "#wand()"⟩] :=
    evaluateAll_eq_ok_iff.mpr
      (.cons (evaluate_expandingSample "t" "1") (.cons (evaluate_expandingSample "t" "2") .nil))
  obtain ⟨after, succeeded, -⟩ := onTree_run_of_ok ⟨false, false⟩ reads writable evaluated
  have apart : ¬ (sampleTree "1:\n\n2:\n").SameFile "r" "t" := by
    rintro ⟨place, opensRanking, opensAdded⟩
    exact absurd ((opensRanking.unique ranking).symm.trans (opensAdded.unique (added "t" rfl).1))
      (by decide)
  obtain ⟨inputs, readsAlso, complete⟩ := readQueries_expansionFile rfl rfl apart succeeded
  have sameIndex : inputs.index = .ofDocuments [] [] :=
    Except.ok.inj (readsAlso.index.symm.trans reads.index)
  have feedFree : inputs.index.IsFeedFree := sameIndex ▸ isFeedFree_sample
  obtain ⟨entries, readBack, expands⟩ := complete feedFree
  exact ⟨_, after, inputs, entries, apart, succeeded, readsAlso, feedFree, readBack, expands⟩

/-- Where the ranking goes into the file of the added terms as well, a run that succeeds leaves a file that
cannot be read as a query file. -/
theorem readQueries_sharedFile :
    ∃ after,
      Reads (expandingSample "r") (sampleTree "1:\n") (sampleInputs "1:\n" [⟨"1", ""⟩]) ∧
      (Index.ofDocuments [] []).IsFeedFree ∧
      onTree (run (expandingSample "r") ⟨false, false⟩) (sampleTree "1:\n") = (.ok ⟨1, 1⟩, after) ∧
      onTree (readQueries "r") after =
        (.error (.query (.missingNumber "1\tQ0\tdummy\t1\t0\trun")), after) := by
  let inputs := sampleInputs "1:\n" [⟨"1", ""⟩]
  let outcome : Outcome Float :=
    ⟨"1", [⟨"1", placeholderDocument, 1, 0, "run"⟩], some "#wand()"⟩
  have reads : Reads (expandingSample "r") (sampleTree "1:\n") inputs := reads_expandingSample "r" rfl
  have opens : (sampleTree "1:\n").Opens (expandingSample "r").rankingFile ["r"] :=
    (@writable_sampleTree none (by simp) "1:\n").ranking
  have evaluated : evaluateAll (inputs.engine (expandingSample "r")) (expandingSample "r")
      inputs.firsts inputs.lines = .ok [outcome] :=
    evaluateAll_eq_ok_iff.mpr (.cons (evaluate_expandingSample "r" "1") .nil)
  obtain ⟨made, holds, produces⟩ :=
    @onTree_produce_shared _ _ (expandingSample "r") ⟨false, false⟩ _ _ rfl opens inputs
  obtain ⟨after, recorded, rows⟩ := @onTree_record_shared _ _ (expandingSample "r") ⟨false, false⟩
    _ _ rfl rfl holds outcome _ rfl (by decide +kernel) (by decide +kernel)
  refine ⟨after, reads, isFeedFree_sample, ?_, ?_⟩
  · rw [onTree_run _ reads, produces, evaluateAndWrite, evaluated]
    exact onTree_bind _ recorded
  · have found : after.ask (Host.readText "r") = .ok (Row.writeAll outcome.rows) :=
      FileTree.ask_readText rows.read_eq
    have read := FileTree.reading_readText "r" after
    rw [found] at read
    have unread : QueryLine.ofText (Row.writeAll outcome.rows) =
        .error (.missingNumber "1\tQ0\tdummy\t1\t0\trun") := by
      decide +kernel
    rw [readQueries, onTree_bind _ (onTree_attempt read), unread]
    rfl

end Batch

end Retrieval
