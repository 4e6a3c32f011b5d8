import Mathlib.Data.List.Infix
import Retrieval.FileTree
import Retrieval.Proofs.Evaluation.Traversal

/-!
# Files of a tree

A file that is written stands at its place, and nothing changes at the other places: the directories
remain the same, since the file goes into one of them. So every path leads where it led before, and
the paths of other files still give what those files hold.
-/

namespace Retrieval

/-- The bytes of a file. -/
def Entry.bytes? : Entry → Option ByteArray
  | .file bytes => some bytes
  | _ => none

namespace FileTree

variable {tree : FileTree}

/-! ## Directories -/

theorem isTop_of_above {above place : Place} (lies : above <+: place) (top : isTop place = true) :
    isTop above = true := by
  simp only [isTop, Bool.or_eq_true, decide_eq_true_eq, List.all_eq_true] at top ⊢
  rcases top with rfl | dots
  · rcases List.prefix_cons_iff.mp lies with rfl | ⟨rest, rfl, nothing⟩
    · exact .inr fun name member => absurd member List.not_mem_nil
    · rw [List.prefix_nil.mp nothing]
      exact .inl rfl
  · exact .inr fun name member => dots name (lies.subset member)

theorem hasDirectory_iff {place : Place} :
    tree.hasDirectory place = true ↔
      isTop place = true ∨ ∃ file ∈ tree.files, place <+: file.1 ∧ file.1 ≠ place := by
  simp [hasDirectory]

theorem hasDirectory_of_above {above place : Place} (lies : above <+: place)
    (directory : tree.hasDirectory place = true) : tree.hasDirectory above = true := by
  rw [hasDirectory_iff] at directory ⊢
  rcases directory with top | ⟨file, member, below, differs⟩
  · exact .inl (isTop_of_above lies top)
  · refine .inr ⟨file, member, lies.trans below, fun same => differs ?_⟩
    have shorter : file.1.length ≤ place.length := same ▸ lies.length_le
    exact (below.eq_of_length_le shorter).symm

/-- A file in a directory makes no new directory. -/
theorem hasDirectory_write {parent : Place} (directory : tree.hasDirectory parent = true)
    (name : String) (bytes : ByteArray) (place : Place) :
    (tree.write (parent ++ [name]) bytes).hasDirectory place = tree.hasDirectory place := by
  rw [Bool.eq_iff_iff]
  constructor
  · intro below
    rcases hasDirectory_iff.mp below with top | ⟨file, member, lies, differs⟩
    · exact hasDirectory_iff.mpr (.inl top)
    rcases List.mem_cons.mp member with rfl | kept
    · rcases List.prefix_concat_iff.mp lies with same | above
      · exact absurd same.symm differs
      · exact hasDirectory_of_above above directory
    · exact hasDirectory_iff.mpr (.inr ⟨file, (List.mem_filter.mp kept).1, lies, differs⟩)
  · intro below
    rcases hasDirectory_iff.mp below with top | ⟨file, member, lies, differs⟩
    · exact hasDirectory_iff.mpr (.inl top)
    refine hasDirectory_iff.mpr (.inr ?_)
    by_cases replaced : file.1 = parent ++ [name]
    · exact ⟨_, List.mem_cons_self, replaced ▸ lies, replaced ▸ differs⟩
    · exact ⟨file, List.mem_cons_of_mem _ (List.mem_filter.mpr ⟨member, by simpa using replaced⟩),
        lies, differs⟩

/-! ## Entries -/

theorem lookup_write (place : Place) (bytes : ByteArray) (other : Place) :
    (tree.write place bytes).files.lookup other =
      if other = place then some bytes else tree.files.lookup other := by
  rw [write, List.lookup_cons]
  split
  · next same => rw [if_pos (by simpa using same)]
  · next differs =>
      have differs : other ≠ place := by simpa using differs
      rw [if_neg differs]
      induction tree.files with
      | nil => rfl
      | cons file later induction =>
          obtain ⟨first, content⟩ := file
          by_cases kept : first = place
          · subst kept
            rw [List.filter_cons_of_neg (by simp), induction, List.lookup_cons,
              beq_false_of_ne differs]
          · rw [List.filter_cons_of_pos (by simpa using kept), List.lookup_cons, List.lookup_cons,
              induction]

theorem hasDirectory_of_entry {place : Place} (stands : tree.entry place = .directory) :
    tree.hasDirectory place = true := by
  unfold entry at stands
  split at stands
  · cases stands
  · split at stands
    · assumption
    · cases stands

/-- Writing a file changes the entry of its place only. -/
theorem entry_write {parent : Place} (directory : tree.entry parent = .directory) (name : String)
    (bytes : ByteArray) (place : Place) :
    (tree.write (parent ++ [name]) bytes).entry place =
      if place = parent ++ [name] then .file bytes else tree.entry place := by
  rw [entry, lookup_write, hasDirectory_write (hasDirectory_of_entry directory)]
  split
  · next same =>
      split at same
      · next here => rw [if_pos here, Option.some.inj same]
      · next other => rw [if_neg other, entry, same]
  · next missing =>
      split at missing
      · cases missing
      · next other => rw [if_neg other, entry, missing]

/-! ## Paths -/

/-- Names lead to the same places of trees with the same directories. -/
theorem follow_eq_ok_of_directories {other : FileTree}
    (same : ∀ place, tree.entry place = .directory → other.entry place = .directory)
    {place found : Place} {names : List String} (leads : tree.follow place names = .ok found) :
    other.follow place names = .ok found := by
  induction names generalizing place with
  | nil => exact leads
  | cons name later induction =>
      rw [follow] at leads ⊢
      split at leads
      · next directory =>
          rw [same place directory]
          split at leads
          · cases leads
          · next short =>
              simp only [if_neg short]
              exact induction leads
      · cases leads
      · cases leads

theorem follow_append {place middle : Place} {front back : List String}
    (leads : tree.follow place front = .ok middle) :
    tree.follow place (front ++ back) = tree.follow middle back := by
  induction front generalizing place with
  | nil =>
      cases leads
      rfl
  | cons name later induction =>
      rw [follow] at leads
      rw [List.cons_append, follow]
      split at leads
      · split at leads
        · cases leads
        · next short =>
            rw [if_neg short]
            exact induction leads
      · cases leads
      · cases leads

/-- The path leads into a directory, and its last name is that of a file. -/
structure Leads (tree : FileTree) (path : FilePath) (above : List String) (last : String)
    (parent : Place) : Prop where
  /-- A system takes it for a path. -/
  checked : checkPath path = .ok ()
  /-- Its names are these. -/
  spelled : names path = above ++ [last]
  /-- The last name does not stay in place. -/
  named : last ≠ "" ∧ last ≠ "." ∧ last ≠ ".."
  /-- The last name is not too long. -/
  short : last.utf8ByteSize ≤ maximalNameLength
  /-- The other names lead to the directory. -/
  follows : tree.follow (start path) above = .ok parent
  /-- The directory exists. -/
  directory : tree.entry parent = .directory
  /-- No directory has the name of the file. -/
  free : tree.entry (parent ++ [last]) ≠ .directory

/-- Without an empty name at the end, nothing is dropped there. -/
theorem eq_append_of_dropWhile {names : List String} {last : String} {above : List String}
    (found : names.reverse.dropWhile String.isEmpty = last :: above)
    (ends : names.reverse.head? ≠ some "") : names = above.reverse ++ [last] ∧ last ≠ "" := by
  cases backwards : names.reverse with
  | nil => simp [backwards] at found
  | cons first later =>
      rw [backwards] at found ends
      have named : first ≠ "" := fun empty => ends (by rw [empty, List.head?_cons])
      rw [List.dropWhile_cons_of_neg (by simpa using named)] at found
      obtain ⟨rfl, rfl⟩ := List.cons.inj found
      exact ⟨by rw [← List.reverse_cons, ← backwards, List.reverse_reverse], named⟩

theorem leads_of_openForWriting {path : FilePath} {place : Place} {bytes : Option ByteArray}
    (opened : tree.openForWriting path = .ok (place, bytes)) :
    ∃ above last parent, tree.Leads path above last parent ∧ place = parent ++ [last] := by
  rw [openForWriting] at opened
  obtain ⟨⟨⟩, checked, opened⟩ := bind_eq_ok_iff.mp opened
  dsimp only at opened
  split at opened
  · cases opened
  next last above found =>
  obtain ⟨parent, follows, opened⟩ := bind_eq_ok_iff.mp opened
  split at opened
  · cases opened
  · cases opened
  next directory =>
  split at opened
  · cases opened
  next ends =>
  split at opened
  · cases opened
  next short =>
  simp only [Bool.or_eq_true, decide_eq_true_eq, not_or] at ends
  obtain ⟨⟨ends, notDot⟩, notDots⟩ := ends
  obtain ⟨names, named⟩ := eq_append_of_dropWhile found ends
  have leads (free : tree.entry (parent ++ [last]) ≠ .directory) :
      tree.Leads path above.reverse last parent :=
    ⟨checked, names, ⟨named, notDot, notDots⟩, Nat.le_of_not_lt short, follows, directory, free⟩
  split at opened
  · cases opened
  · next file =>
      cases opened
      exact ⟨_, _, _, leads (by rw [file]; exact Entry.noConfusion), rfl⟩
  · next absent =>
      cases opened
      exact ⟨_, _, _, leads (by rw [absent]; exact Entry.noConfusion), rfl⟩

theorem Leads.openForWriting_eq {path : FilePath} {above : List String} {last : String}
    {parent : Place} (leads : tree.Leads path above last parent) :
    tree.openForWriting path =
      .ok (parent ++ [last], (tree.entry (parent ++ [last])).bytes?) := by
  obtain ⟨named, notDot, notDots⟩ := leads.named
  have kept : (names path).reverse.dropWhile String.isEmpty = last :: above.reverse := by
    rw [leads.spelled, List.reverse_concat, List.dropWhile_cons_of_neg (by simpa using named)]
  have ends : (names path).reverse.head? = some last := by
    rw [leads.spelled, List.reverse_concat, List.head?_cons]
  have free := leads.free
  rw [openForWriting, leads.checked]
  simp only [bind, Except.bind, kept, List.reverse_reverse, leads.follows, leads.directory, ends,
    Option.some.injEq, named, notDot, notDots, decide_false, Bool.or_self, Bool.false_eq_true,
    if_false, if_neg (Nat.not_lt.mpr leads.short)]
  cases stands : tree.entry (parent ++ [last]) with
  | directory => exact absurd stands free
  | file bytes => rfl
  | absent => rfl

theorem Leads.find_eq {path : FilePath} {above : List String} {last : String} {parent : Place}
    (leads : tree.Leads path above last parent) :
    tree.find path = .ok (parent ++ [last], tree.entry (parent ++ [last])) := by
  obtain ⟨named, notDot, notDots⟩ := leads.named
  have steps : step parent last = parent ++ [last] := by
    simp [step, named, notDot, notDots]
  have follows : tree.follow (start path) (names path) = .ok (parent ++ [last]) := by
    rw [leads.spelled, follow_append leads.follows, follow, leads.directory]
    simp only [if_neg (Nat.not_lt.mpr leads.short), steps, follow]
  rw [find, leads.checked]
  simp only [bind, Except.bind, follows, pure, Except.pure]

/-- Writing a file leads no path astray. -/
theorem Leads.write {path other : FilePath} {above others : List String} {last name : String}
    {parent directory : Place} (leads : tree.Leads path above last parent)
    (found : tree.Leads other others name directory) (bytes : ByteArray) :
    (tree.write (parent ++ [last]) bytes).Leads other others name directory := by
  have kept {place : Place} (stands : tree.entry place = .directory) :
      (tree.write (parent ++ [last]) bytes).entry place = .directory := by
    have apart : place ≠ parent ++ [last] := by
      rintro rfl
      exact leads.free stands
    rw [entry_write leads.directory, if_neg apart, stands]
  refine { found with follows := ?_, directory := kept found.directory, free := ?_ }
  · exact follow_eq_ok_of_directories (fun _ => kept) found.follows
  · rw [entry_write leads.directory]
    split
    · exact Entry.noConfusion
    · exact found.free

/-- Writing a file leads no path to a new place. -/
theorem Leads.of_write {path other : FilePath} {above others : List String} {last name : String}
    {parent directory : Place} {bytes : ByteArray} (leads : tree.Leads path above last parent)
    (found : (tree.write (parent ++ [last]) bytes).Leads other others name directory) :
    tree.Leads other others name directory := by
  have before {place : Place}
      (stands : (tree.write (parent ++ [last]) bytes).entry place = .directory) :
      tree.entry place = .directory := by
    rw [entry_write leads.directory] at stands
    split at stands
    · cases stands
    · exact stands
  refine { found with
    follows := follow_eq_ok_of_directories (fun _ => before) found.follows
    directory := before found.directory
    free := fun stands => ?_ }
  have free := found.free
  rw [entry_write leads.directory] at free
  split at free
  · next same => exact leads.free (same ▸ stands)
  · exact free stands

/-! ## Files that can be written -/

/-- The path can be opened for writing, and its file stands at the place or is to stand there. -/
def Opens (tree : FileTree) (path : FilePath) (place : Place) : Prop :=
  ∃ bytes, tree.openForWriting path = .ok (place, bytes)

/-- The path can be opened for writing, and its file stands at the place and holds the text. -/
structure Holds (tree : FileTree) (path : FilePath) (place : Place) (text : String) : Prop where
  /-- The path can be opened for writing. -/
  opens : tree.Opens path place
  /-- The file stands at the place. -/
  stands : tree.entry place = .file text.toUTF8

variable {path other : FilePath} {place there : Place} {text : String}

theorem opens_iff :
    tree.Opens path place ↔
      ∃ above last parent, tree.Leads path above last parent ∧ place = parent ++ [last] := by
  constructor
  · rintro ⟨bytes, opened⟩
    exact leads_of_openForWriting opened
  · rintro ⟨above, last, parent, leads, rfl⟩
    exact ⟨_, leads.openForWriting_eq⟩

theorem Opens.openForWriting_eq (opens : tree.Opens path place) :
    tree.openForWriting path = .ok (place, (tree.entry place).bytes?) := by
  obtain ⟨above, last, parent, leads, rfl⟩ := opens_iff.mp opens
  exact leads.openForWriting_eq

theorem Opens.unique (opens : tree.Opens path place) (opensAlso : tree.Opens path there) :
    place = there := by
  have same := opens.openForWriting_eq.symm.trans opensAlso.openForWriting_eq
  exact congrArg Prod.fst (Except.ok.inj same)

theorem Opens.write (opens : tree.Opens path place) (found : tree.Opens other there)
    (bytes : ByteArray) : (tree.write place bytes).Opens other there := by
  obtain ⟨above, last, parent, leads, rfl⟩ := opens_iff.mp opens
  obtain ⟨others, name, directory, leadsThere, rfl⟩ := opens_iff.mp found
  exact opens_iff.mpr ⟨_, _, _, leads.write leadsThere bytes, rfl⟩

theorem Opens.of_write {bytes : ByteArray} (opens : tree.Opens path place)
    (found : (tree.write place bytes).Opens other there) : tree.Opens other there := by
  obtain ⟨above, last, parent, leads, rfl⟩ := opens_iff.mp opens
  obtain ⟨others, name, directory, leadsThere, rfl⟩ := opens_iff.mp found
  exact opens_iff.mpr ⟨_, _, _, leads.of_write leadsThere, rfl⟩

theorem Opens.holds_write (opens : tree.Opens path place) (text : String) :
    (tree.write place text.toUTF8).Holds path place text := by
  refine ⟨opens.write opens _, ?_⟩
  obtain ⟨above, last, parent, leads, rfl⟩ := opens_iff.mp opens
  rw [entry_write leads.directory, if_pos rfl]

theorem Opens.create_eq (opens : tree.Opens path place) :
    tree.create path = .ok (tree.write place "".toUTF8) := by
  rw [create, opens.openForWriting_eq]
  rfl

/-- A file that has been made could be opened for writing. -/
theorem exists_opens_of_create {after : FileTree} (made : tree.create path = .ok after) :
    ∃ place, tree.Opens path place ∧ after = tree.write place .empty := by
  rw [create] at made
  obtain ⟨⟨place, bytes⟩, opened, written⟩ := bind_eq_ok_iff.mp made
  exact ⟨place, ⟨bytes, opened⟩, (Except.ok.inj written).symm⟩

/-- A file keeps its text while another one is written. -/
theorem Holds.write_apart (holds : tree.Holds path place text) (opens : tree.Opens other there)
    (apart : place ≠ there) (bytes : ByteArray) :
    (tree.write there bytes).Holds path place text := by
  refine ⟨opens.write holds.opens _, ?_⟩
  obtain ⟨above, last, parent, leads, rfl⟩ := opens_iff.mp opens
  rw [entry_write leads.directory, if_neg apart, holds.stands]

theorem Holds.append_eq (holds : tree.Holds path place text) (more : String) :
    tree.append path more = .ok (tree.write place (text ++ more).toUTF8) := by
  rw [append, holds.opens.openForWriting_eq, holds.stands]
  simp [bind, Except.bind, pure, Except.pure, Entry.bytes?]

theorem overwrite_end (text : String) (bytes : ByteArray) :
    overwrite text.toByteArray text.utf8ByteSize bytes = text.toByteArray ++ bytes := by
  have front : text.toByteArray.extract 0 text.utf8ByteSize = text.toByteArray := by
    rw [← String.size_toByteArray, ByteArray.extract_zero_size]
  have back : text.toByteArray.extract (text.utf8ByteSize + bytes.size) text.toByteArray.size =
      .empty := ByteArray.extract_eq_empty_iff.mpr (by simp)
  rw [overwrite, front, back, ByteArray.append_empty]

/-- What is not longer than the bytes that are written over it is lost. -/
theorem overwrite_start {content bytes : ByteArray} (covers : content.size ≤ bytes.size) :
    overwrite content 0 bytes = bytes := by
  have nothing : content.extract (0 + bytes.size) content.size = .empty :=
    ByteArray.extract_eq_empty_iff.mpr (by simpa using covers)
  rw [overwrite, nothing, ByteArray.extract_same, ByteArray.empty_append, ByteArray.append_empty]

theorem Holds.writeAt_eq (holds : tree.Holds path place text) (more : String) :
    tree.writeAt path text.utf8ByteSize more = .ok (tree.write place (text ++ more).toUTF8) := by
  rw [writeAt, holds.opens.openForWriting_eq, holds.stands]
  simp [bind, Except.bind, pure, Except.pure, Entry.bytes?, overwrite_end]

/-- A text that is written from the beginning on replaces a text that is not longer. -/
theorem Holds.writeAt_start (holds : tree.Holds path place text) {more : String}
    (covers : text.utf8ByteSize ≤ more.utf8ByteSize) :
    tree.writeAt path 0 more = .ok (tree.write place more.toUTF8) := by
  have covered : overwrite text.toUTF8 0 more.toUTF8 = more.toUTF8 :=
    overwrite_start (by simpa using covers)
  rw [writeAt, holds.opens.openForWriting_eq, holds.stands]
  exact congrArg (fun bytes => Except.ok (tree.write place bytes)) covered

theorem Holds.read_eq (holds : tree.Holds path place text) : tree.read path = .ok text.toUTF8 := by
  obtain ⟨above, last, parent, leads, rfl⟩ := opens_iff.mp holds.opens
  rw [read, leads.find_eq, holds.stands]
  rfl

/-- Printing leaves all files as they are. -/
theorem Holds.print (holds : tree.Holds path place text) (printed : String) :
    FileTree.Holds ⟨tree.files, printed⟩ path place text := by
  obtain ⟨above, last, parent, leads, rfl⟩ := opens_iff.mp holds.opens
  have follows : FileTree.follow ⟨tree.files, printed⟩ (start path) above = .ok parent := by
    refine follow_eq_ok_of_directories ?_ leads.follows
    exact fun _ directory => directory
  exact ⟨opens_iff.mpr ⟨above, last, parent, { leads with follows }, rfl⟩, holds.stands⟩

/-! ## Actions -/

section Actions

variable {α β : Type}

/-- What an action finds in a tree. -/
def ask (tree : FileTree) (action : StateM FileTree α) : α :=
  (action.run tree : α × FileTree).1

/-- The action leaves every tree as it is. -/
def Reading (action : StateM FileTree α) : Prop :=
  ∀ tree : FileTree, action.run tree = (tree.ask action, tree)

theorem Reading.pure (value : α) : Reading (Pure.pure value) := fun _ => rfl

theorem Reading.run_bind {action : StateM FileTree α} (reading : Reading action)
    (next : α → StateM FileTree β) (tree : FileTree) :
    (action >>= next).run tree = (next (tree.ask action)).run tree := by
  rw [StateT.run_bind, reading tree]
  rfl

theorem Reading.bind {action : StateM FileTree α} {next : α → StateM FileTree β}
    (reading : Reading action) (later : ∀ value, Reading (next value)) :
    Reading (action >>= next) := by
  intro tree
  rw [ask, reading.run_bind, later]

theorem Reading.ask_bind {action : StateM FileTree α} (reading : Reading action)
    (next : α → StateM FileTree β) (tree : FileTree) :
    tree.ask (action >>= next) = tree.ask (next (tree.ask action)) := by
  rw [ask, reading.run_bind]
  rfl

theorem run_change {edit : FileTree → Except FileError FileTree} {tree after : FileTree}
    (done : edit tree = .ok after) : (change edit).run tree = (.ok (), after) := by
  rw [change, StateT.run_bind, StateT.run_get]
  simp only [pure_bind, done]
  rfl

theorem eq_ok_of_run_change {edit : FileTree → Except FileError FileTree} {tree after : FileTree}
    (done : (change edit).run tree = (.ok (), after)) : edit tree = .ok after := by
  rw [change, StateT.run_bind, StateT.run_get] at done
  simp only [pure_bind] at done
  split at done
  · next edited same =>
      cases done
      exact same
  · cases done

theorem reading_isDirectory (path : FilePath) :
    Reading (Host.isDirectory path : StateM FileTree Bool) := by
  have reads : Reading (get : StateM FileTree FileTree) := fun _ => rfl
  refine reads.bind fun tree => ?_
  split
  · exact .pure _
  · exact .pure _

theorem reading_read (path : FilePath) :
    Reading (Host.read path : StateM FileTree (Except FileError ByteArray)) := fun _ => rfl

theorem reading_readText (path : FilePath) :
    Reading (Host.readText path : StateM FileTree (Except FileError String)) := by
  refine (reading_read path).bind fun bytes => ?_
  cases bytes with
  | error cause => exact .pure _
  | ok bytes =>
      dsimp only
      split
      · exact .pure _
      · exact .pure _

theorem fromUTF8?_toUTF8 (text : String) : String.fromUTF8? text.toUTF8 = some text :=
  dif_pos text.isValidUTF8

/-- A file that holds a text is read as that text. -/
theorem ask_readText {tree : FileTree} {path : FilePath} {text : String}
    (read : tree.read path = .ok text.toUTF8) : tree.ask (Host.readText path) = .ok text := by
  have asked : tree.ask (Host.read path) = .ok text.toUTF8 := read
  rw [Host.readText, (reading_read path).ask_bind, asked]
  dsimp only
  rw [fromUTF8?_toUTF8]
  rfl

end Actions

end FileTree

end Retrieval
