import Retrieval.Batch
import Retrieval.Proofs.Batch.Files

/-!
# Recording the outcomes of a run

The rows of an outcome go to the ranking file through a buffer, and its added terms to their own
file. While outcomes are recorded, what stands in the ranking file and what waits in the buffer are
together the rows so far; so in the end both files hold what belongs to all outcomes, in their order.
-/

namespace Retrieval

variable {ω : Type} [Arithmetic ω]

/-- The file of the added terms, if there is feedback and the file is configured. -/
def Parameters.expansionFile? {ω : Type} (parameters : Parameters ω) : Option FilePath :=
  parameters.feedback.bind (·.expansionFile)

/-- The line that an outcome has in the file of the added terms. -/
def Outcome.line {ω : Type} (outcome : Outcome ω) : String :=
  outcome.expansion.elim "" fun expansion => QueryLine.write ⟨outcome.number, expansion⟩

theorem Row.writeAll_append (front back : List (Row ω)) :
    Row.writeAll (front ++ back) = Row.writeAll front ++ Row.writeAll back := by
  simp [Row.writeAll]

namespace Batch

/-! ## Actions on a tree -/

/-- The result of an action on a tree, and the tree that it leaves. -/
def onTree {α : Type} (action : ExceptT Failure (StateM FileTree) α) (tree : FileTree) :
    Except Failure α × FileTree :=
  action.run.run tree

section Actions

variable {α β : Type} {tree after : FileTree}

theorem onTree_bind {action : ExceptT Failure (StateM FileTree) α} {value : α}
    (next : α → ExceptT Failure (StateM FileTree) β)
    (done : onTree action tree = (.ok value, after)) :
    onTree (action >>= next) tree = onTree (next value) after := by
  rw [onTree] at done ⊢
  rw [ExceptT.run_bind, StateT.run_bind, done]
  rfl

theorem onTree_bind_error {action : ExceptT Failure (StateM FileTree) α} {failure : Failure}
    (next : α → ExceptT Failure (StateM FileTree) β)
    (failed : onTree action tree = (.error failure, after)) :
    onTree (action >>= next) tree = (.error failure, after) := by
  rw [onTree] at failed ⊢
  rw [ExceptT.run_bind, StateT.run_bind, failed]
  rfl

/-- What succeeds as a whole has succeeded in its first part. -/
theorem exists_of_onTree_bind {action : ExceptT Failure (StateM FileTree) α}
    {next : α → ExceptT Failure (StateM FileTree) β} {value : β}
    (done : onTree (action >>= next) tree = (.ok value, after)) :
    ∃ found middle, onTree action tree = (.ok found, middle) ∧
      onTree (next found) middle = (.ok value, after) := by
  cases first : onTree action tree with
  | mk result middle =>
      cases result with
      | error failure =>
          rw [onTree_bind_error next first] at done
          cases done
      | ok found =>
          rw [onTree_bind next first] at done
          exact ⟨found, middle, rfl, done⟩

theorem onTree_lift {action : StateM FileTree α} {value : α}
    (done : action.run tree = (value, after)) :
    onTree (liftM action : ExceptT Failure (StateM FileTree) α) tree = (.ok value, after) := by
  change (StateT.run (Except.ok <$> action) tree : Except Failure α × FileTree) = _
  rw [StateT.run_map, done]
  rfl

theorem onTree_attempt {purpose : Purpose} {action : StateM FileTree (Except FileError α)}
    {value : α} (done : action.run tree = (.ok value, after)) :
    onTree (attempt purpose action) tree = (.ok value, after) := by
  rw [attempt, onTree_bind _ (onTree_lift done)]
  rfl

theorem onTree_attempt_error {purpose : Purpose} {action : StateM FileTree (Except FileError α)}
    {cause : FileError} (done : action.run tree = (.error cause, after)) :
    onTree (attempt purpose action) tree = (.error (.during purpose (.file cause)), after) := by
  rw [attempt, onTree_bind _ (onTree_lift done)]
  rfl

theorem run_of_onTree_attempt {purpose : Purpose} {action : StateM FileTree (Except FileError α)}
    {value : α} (done : onTree (attempt purpose action) tree = (.ok value, after)) :
    action.run tree = (.ok value, after) := by
  cases first : action.run tree with
  | mk result middle =>
      cases result with
      | error cause =>
          rw [onTree_attempt_error first] at done
          cases done
      | ok found =>
          rw [onTree_attempt first] at done
          cases done
          rfl

end Actions

variable {parameters : Parameters ω} {tree : FileTree} (printing : Printing)

/-! ## The files of a run -/

/-- The files of a run can be written and are not the same: the ranking file stands or is to stand at
the one place, the file of the added terms at the other. -/
structure Writable (parameters : Parameters ω) (tree : FileTree) (home annex : Place) : Prop where
  /-- The ranking file can be written. -/
  ranking : tree.Opens parameters.rankingFile home
  /-- The file of the added terms can be written, and is another one. -/
  added : ∀ path ∈ parameters.expansionFile?, tree.Opens path annex ∧ annex ≠ home

/-- The files of a run stand at these places and hold these texts. -/
structure Standing (parameters : Parameters ω) (tree : FileTree) (home annex : Place)
    (rows lines : String) : Prop where
  /-- The ranking file holds the rows. -/
  ranking : tree.Holds parameters.rankingFile home rows
  /-- The file of the added terms, which is another one, holds the lines. -/
  added : ∀ path ∈ parameters.expansionFile?, tree.Holds path annex lines ∧ annex ≠ home

variable {home annex : Place} {rows lines : String}

omit [Arithmetic ω] in
theorem Standing.read_added (standing : Standing parameters tree home annex rows lines)
    {path : FilePath} (configured : parameters.expansionFile? = some path) :
    tree.read path = .ok lines.toUTF8 :=
  (standing.added path configured).1.read_eq

omit [Arithmetic ω] in
theorem Standing.print (standing : Standing parameters tree home annex rows lines)
    (printed : String) : Standing parameters ⟨tree.files, printed⟩ home annex rows lines :=
  ⟨standing.ranking.print printed, fun path configured =>
    ⟨(standing.added path configured).1.print printed, (standing.added path configured).2⟩⟩

omit [Arithmetic ω] in
/-- What is written into the ranking file comes after the rows. -/
theorem Standing.writeRanking (standing : Standing parameters tree home annex rows lines)
    (text : String) :
    ∃ after, onTree (writeRanking parameters rows.utf8ByteSize text) tree = (.ok (), after) ∧
      Standing parameters after home annex (rows ++ text) lines := by
  rw [Batch.writeRanking]
  split
  · next empty =>
      have empty : text = "" := by simpa using empty
      exact ⟨tree, rfl, by rwa [empty, String.append_empty]⟩
  · refine ⟨_, onTree_attempt (FileTree.run_change (standing.ranking.writeAt_eq text)),
      standing.ranking.opens.holds_write _, fun path configured => ?_⟩
    obtain ⟨holds, apart⟩ := standing.added path configured
    exact ⟨holds.write_apart standing.ranking.opens apart _, apart⟩

omit [Arithmetic ω] in
/-- What is added to the file of the added terms comes after the lines. -/
theorem Standing.append (standing : Standing parameters tree home annex rows lines)
    {path : FilePath} (configured : parameters.expansionFile? = some path) (text : String) :
    ∃ after, (Host.append path text : StateM FileTree (Except FileError Unit)).run tree =
        (.ok (), after) ∧
      Standing parameters after home annex rows (lines ++ text) := by
  obtain ⟨holds, apart⟩ := standing.added path configured
  refine ⟨_, FileTree.run_change (holds.append_eq text), ?_, fun other isFile => ?_⟩
  · exact standing.ranking.write_apart holds.opens apart.symm _
  · obtain rfl := Option.some.inj (configured.symm.trans isFile)
    exact ⟨holds.opens.holds_write _, apart⟩

theorem text_buffered (waiting : String) (rows : List (Row ω)) :
    (Buffer.addAll ⟨"", waiting⟩ (rows.flatMap Row.parts)).text = waiting ++ Row.writeAll rows := by
  have joined : String.join (rows.flatMap Row.parts) = Row.writeAll rows := by
    induction rows with
    | nil => rfl
    | cons row later induction =>
        rw [List.flatMap_cons, String.join_append, induction, Row.join_parts]
        simp [Row.writeAll]
  rw [Buffer.text_addAll, joined, Buffer.text, String.empty_append]

/-- Printing changes no file. -/
theorem onTree_print (enabled : Bool) (text : String) (tree : FileTree) {α : Type}
    (next : Unit → ExceptT Failure (StateM FileTree) α) :
    ∃ printed, onTree (if enabled = true then do
        next (← (Host.print text : StateM FileTree Unit))
      else next ()) tree = onTree (next ()) ⟨tree.files, printed⟩ := by
  split
  · exact ⟨_, onTree_bind _ (onTree_lift rfl)⟩
  · exact ⟨_, rfl⟩

/-- Notes the added terms of an outcome and records the later ones. -/
def noteAndRecord (parameters : Parameters ω) (printing : Printing) (position : Nat)
    (waiting : String) (outcome : Outcome ω) (later : List (Outcome ω)) :
    ExceptT Failure (StateM FileTree) Unit := do
  match parameters.feedback.bind (·.expansionFile), outcome.expansion with
  | some path, some expansion =>
      match ← (Host.append path (QueryLine.write ⟨outcome.number, expansion⟩) :
          StateM FileTree (Except FileError Unit)) with
      | .ok () => record parameters printing position waiting later
      | .error cause =>
          writeRanking parameters position waiting
          throw (.during (.append path) (.file cause))
  | _, _ => record parameters printing position waiting later

theorem record_cons (parameters : Parameters ω) (printing : Printing) (position : Nat)
    (waiting : String) (outcome : Outcome ω) (later : List (Outcome ω)) :
    let buffer := Buffer.addAll ⟨"", waiting⟩ (outcome.rows.flatMap Row.parts)
    (record parameters printing position waiting (outcome :: later) :
        ExceptT Failure (StateM FileTree) Unit) = (do
      writeRanking parameters position buffer.released
      if printing.enabled then
        (Host.print (Row.display printing.highlighted outcome.rows) : StateM FileTree Unit)
      noteAndRecord parameters printing (position + buffer.released.utf8ByteSize) buffer.waiting
        outcome later) :=
  rfl

theorem Standing.note (standing : Standing parameters tree home annex rows lines) (position : Nat)
    (waiting : String) (outcome : Outcome ω) (later : List (Outcome ω)) :
    ∃ after, onTree (noteAndRecord parameters printing position waiting outcome later) tree =
        onTree (record parameters printing position waiting later) after ∧
      Standing parameters after home annex rows (lines ++ outcome.line) := by
  rw [noteAndRecord]
  split
  · next path expansion configured expanded =>
      obtain ⟨after, appended, standing⟩ :=
        standing.append configured (QueryLine.write ⟨outcome.number, expansion⟩)
      rw [onTree_bind _ (onTree_lift appended)]
      exact ⟨after, rfl, by rwa [Outcome.line, expanded]⟩
  · next others =>
      refine ⟨tree, rfl, standing.ranking, fun path configured => ?_⟩
      have unexpanded : outcome.expansion = none :=
        Option.eq_none_iff_forall_ne_some.mpr fun expansion => others path expansion configured
      rw [Outcome.line, unexpanded, Option.elim_none, String.append_empty]
      exact standing.added path configured

/-- All outcomes are recorded in their order. -/
theorem Standing.record (standing : Standing parameters tree home annex rows lines)
    (outcomes : List (Outcome ω)) (waiting : String) :
    ∃ after, onTree (record parameters printing rows.utf8ByteSize waiting outcomes) tree =
        (.ok (), after) ∧
      Standing parameters after home annex
        (rows ++ (waiting ++ Row.writeAll (outcomes.flatMap (·.rows))))
        (lines ++ String.join (outcomes.map (·.line))) := by
  induction outcomes generalizing tree rows lines waiting with
  | nil =>
      obtain ⟨after, written, standing⟩ := standing.writeRanking waiting
      exact ⟨after, written, by simpa [Row.writeAll] using standing⟩
  | cons outcome later induction =>
      let buffer := Buffer.addAll ⟨"", waiting⟩ (outcome.rows.flatMap Row.parts)
      -- What is released and what waits are the rows of this outcome after what waited.
      have split : buffer.released ++ buffer.waiting = waiting ++ Row.writeAll outcome.rows :=
        text_buffered waiting outcome.rows
      obtain ⟨middle, written, standing⟩ := standing.writeRanking buffer.released
      obtain ⟨printed, continues⟩ := onTree_print printing.enabled
        (Row.display printing.highlighted outcome.rows) middle fun _ =>
          noteAndRecord parameters printing (rows.utf8ByteSize + buffer.released.utf8ByteSize)
            buffer.waiting outcome later
      obtain ⟨noted, notes, standing⟩ :=
        (standing.print printed).note printing _ buffer.waiting outcome later
      obtain ⟨after, recorded, standing⟩ := induction standing buffer.waiting
      rw [String.utf8ByteSize_append] at recorded
      refine ⟨after, ?_, ?_⟩
      · rw [record_cons, onTree_bind _ written, continues, notes, recorded]
      · have shown : rows ++ buffer.released ++
            (buffer.waiting ++ Row.writeAll (later.flatMap (·.rows))) =
            rows ++ (waiting ++ Row.writeAll ((outcome :: later).flatMap (·.rows))) :=
          calc rows ++ buffer.released ++ (buffer.waiting ++ Row.writeAll (later.flatMap (·.rows)))
            _ = rows ++ (buffer.released ++ buffer.waiting ++
                  Row.writeAll (later.flatMap (·.rows))) := by simp only [String.append_assoc]
            _ = rows ++ (waiting ++ (Row.writeAll outcome.rows ++
                  Row.writeAll (later.flatMap (·.rows)))) := by rw [split, String.append_assoc]
            _ = rows ++ (waiting ++ Row.writeAll ((outcome :: later).flatMap (·.rows))) := by
                  rw [List.flatMap_cons, Row.writeAll_append]
        rw [shown, String.append_assoc, ← String.join_cons] at standing
        exact standing

end Batch

end Retrieval
