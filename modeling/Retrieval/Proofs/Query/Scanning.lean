import Mathlib.Data.List.TakeWhile
import Retrieval.Proofs.Query.Tokens

/-!
# Reading token by token

A text is read by taking one token after the other: separators are passed over, and what stands behind
them is a closing parenthesis or a word, which goes as far as its characters do. Each token makes the
rest of the text shorter, so the reading ends; it drops the separators and nothing else.
-/

namespace Retrieval.Token

variable {characters gap front back later : List Char} {token : Token} {tokens : List Token}

/-- The first token of a text, and the text behind it. -/
def next? (characters : List Char) : Option (Token × List Char) :=
  match characters.dropWhile isSeparator with
  | [] => none
  | first :: later =>
      if first = ')' then some (.close, later)
      else
        let rest := first :: later
        some (.word (String.ofList (rest.takeWhile (IsPlain ·))), rest.dropWhile (IsPlain ·))

/-- The tokens are taken from the text one after the other, until there is none. -/
inductive Takes : List Char → List Token → Prop
  | ended {characters : List Char} (none : next? characters = none) : Takes characters []
  | taken {characters later : List Char} {token : Token} {tokens : List Token}
      (first : next? characters = some (token, later)) (rest : Takes later tokens) :
      Takes characters (token :: tokens)

/-! ## One token -/

/-- The characters only divide. -/
def IsGap (gap : List Char) : Prop := ∀ character ∈ gap, isSeparator character = true

/-- The token is a closing parenthesis or a word. -/
def IsWhole (token : Token) : Prop := token = .close ∨ ∃ word, token = .word word ∧ IsWord word

/-- No word goes on into the text. -/
def Divides (characters : List Char) : Prop :=
  ∀ character, characters.head? = some character → ¬IsPlain character

/-- The token stands at the beginning of the text, behind separators, and the other text follows. -/
structure Begins (characters : List Char) (token : Token) (later : List Char) : Prop where
  /-- Separators, the token and the other text make up the text. -/
  parts : ∃ gap, IsGap gap ∧ characters = gap ++ token.characters ++ later
  /-- The token is whole. -/
  whole : IsWhole token
  /-- A word has all its characters. -/
  ends : token ≠ .close → Divides later

theorem scanAfter_gap (isGap : IsGap gap) (back : List Char) :
    scanAfter [] (gap ++ back) = scanAfter [] back := by
  induction gap with
  | nil => rfl
  | cons separator gap induction =>
      obtain ⟨separates, others⟩ := List.forall_mem_cons.mp isGap
      have passed : scanAfter [] ([] ++ separator :: (gap ++ back)) = scanAfter [] (gap ++ back) :=
        scanAfter_separator separates
      exact passed.trans (induction others)

/-- Where no word goes on into a text, its tokens are its own. -/
theorem scanAfter_eq_finish_scanAfter (divides : Divides back) (run : List Char) :
    scanAfter run back = finish run (scanAfter [] back) := by
  cases back with
  | nil => rfl
  | cons character back =>
      have ends := divides character rfl
      rw [scanAfter, scanAfter]
      by_cases separates : isSeparator character = true
      · rw [if_pos separates, if_pos separates]
        rfl
      · have isClose : character = ')' := by
          by_contra other
          exact ends ⟨Bool.eq_false_iff.mpr separates, other⟩
        rw [if_neg separates, if_neg separates, if_pos isClose, if_pos isClose]
        rfl

/-- The token with which a text begins is the first one that is read. -/
theorem Begins.scanAfter_eq (begins : Begins characters token later) :
    scanAfter [] characters = token :: scanAfter [] later := by
  obtain ⟨⟨gap, isGap, rfl⟩, whole, ends⟩ := begins
  rw [List.append_assoc, scanAfter_gap isGap]
  rcases whole with rfl | ⟨word, rfl, isWord⟩
  · have closed : scanAfter [] ([] ++ ')' :: later) = .close :: scanAfter [] later := scanAfter_close
    exact closed
  · have read : scanAfter [] word.toList = [.word word] := scan_word isWord
    change scanAfter [] (word.toList ++ later) = _
    rw [scanAfter_append (scanAfter_eq_finish_scanAfter (ends (by simp))), read]
    rfl

theorem isGap_of_next?_eq_none (none : next? characters = none) : IsGap characters := by
  rw [next?] at none
  split at none
  · next passed => exact List.dropWhile_eq_nil_iff.mp passed
  · split at none <;> simp at none

theorem begins_of_next? (taken : next? characters = some (token, later)) :
    Begins characters token later := by
  have isGap : IsGap (characters.takeWhile isSeparator) := fun _ => List.mem_takeWhile_imp
  have parts := List.takeWhile_append_dropWhile (p := isSeparator) (l := characters)
  rw [next?] at taken
  split at taken
  · simp at taken
  · next first rest passed =>
      have stops : isSeparator first = false := by
        have head := List.head?_dropWhile_not isSeparator characters
        simpa [passed] using head
      split at taken
      · next isClose =>
          subst isClose
          obtain ⟨rfl, rfl⟩ := Prod.mk.inj (Option.some.inj taken)
          refine ⟨⟨_, isGap, ?_⟩, .inl rfl, fun other => absurd rfl other⟩
          rw [List.append_assoc]
          exact parts.symm.trans (congrArg _ passed)
      · next differs =>
          have plain : IsPlain first := ⟨stops, differs⟩
          obtain ⟨rfl, rfl⟩ := Prod.mk.inj (Option.some.inj taken)
          refine ⟨⟨_, isGap, ?_⟩, .inr ⟨_, rfl, ?_, fun character member => ?_⟩, ?_⟩
          · rw [List.append_assoc, Token.characters, String.toList_ofList,
              List.takeWhile_append_dropWhile]
            exact parts.symm.trans (congrArg _ passed)
          · simp [plain]
          · rw [String.toList_ofList] at member
            have kept : decide (IsPlain character) = true :=
              List.mem_takeWhile_imp (p := fun character => decide (IsPlain character)) member
            exact of_decide_eq_true kept
          · intro _ character head
            have stop := List.head?_dropWhile_not (fun character => decide (IsPlain character))
              (first :: rest)
            simpa [head] using stop

/-- What is left behind a token is shorter. -/
theorem Begins.length_lt (begins : Begins characters token later) :
    later.length < characters.length := by
  obtain ⟨⟨gap, -, rfl⟩, whole, -⟩ := begins
  have spelled : 0 < token.characters.length := by
    rcases whole with rfl | ⟨word, rfl, isWord⟩
    · exact Nat.zero_lt_one
    · exact List.length_pos_iff.mpr isWord.1
  simp only [List.length_append]
  omega

/-! ## All tokens -/

/-- The tokens that are taken one by one are those that are scanned. -/
theorem Takes.scanAfter_eq (takes : Takes characters tokens) : scanAfter [] characters = tokens := by
  induction takes with
  | @ended characters none =>
      have passed := scanAfter_gap (isGap_of_next?_eq_none none) []
      rwa [List.append_nil] at passed
  | taken first _ induction => rw [(begins_of_next? first).scanAfter_eq, induction]

/-- The text behind each token is shorter, so there is a last one. -/
theorem exists_takes (characters : List Char) : ∃ tokens, Takes characters tokens := by
  induction length : characters.length using Nat.strong_induction_on generalizing characters with
  | _ bound induction =>
      subst length
      cases first : next? characters with
      | none => exact ⟨[], .ended first⟩
      | some taken =>
          obtain ⟨token, later⟩ := taken
          obtain ⟨tokens, rest⟩ := induction _ (begins_of_next? first).length_lt later rfl
          exact ⟨token :: tokens, .taken first rest⟩

theorem takes_scanAfter (characters : List Char) : Takes characters (scanAfter [] characters) := by
  obtain ⟨tokens, takes⟩ := exists_takes characters
  exact takes.scanAfter_eq ▸ takes

theorem Takes.isWhole (takes : Takes characters tokens) : ∀ token ∈ tokens, IsWhole token := by
  induction takes with
  | ended => simp
  | taken first _ induction =>
      exact List.forall_mem_cons.mpr ⟨(begins_of_next? first).whole, induction⟩

theorem IsWhole.isSeparator_eq_false (whole : IsWhole token) :
    ∀ character ∈ token.characters, isSeparator character = false := by
  rcases whole with rfl | ⟨word, rfl, isWord⟩
  · exact List.forall_mem_singleton.mpr (by decide)
  · exact fun character member => (isWord.2 character member).1

/-- The tokens hold all characters that are no separators. -/
theorem Takes.flatMap_characters (takes : Takes characters tokens) :
    tokens.flatMap Token.characters = characters.filter fun character => !isSeparator character := by
  have dropped {gap : List Char} (isGap : IsGap gap) :
      gap.filter (fun character => !isSeparator character) = [] :=
    List.filter_eq_nil_iff.mpr fun character member => by simp [isGap character member]
  induction takes with
  | ended none => rw [dropped (isGap_of_next?_eq_none none), List.flatMap_nil]
  | taken first _ induction =>
      obtain ⟨⟨gap, isGap, rfl⟩, whole, -⟩ := begins_of_next? first
      have kept := List.filter_eq_self.mpr fun character member =>
        Bool.not_eq_true' _ ▸ whole.isSeparator_eq_false character member
      rw [List.flatMap_cons, List.filter_append, List.filter_append, dropped isGap, kept, induction,
        List.nil_append]

/-- A word that follows another word in a text does so behind separators. -/
theorem Begins.exists_gap {word : String} (begins : Begins characters (.word word) later)
    (divides : Divides characters) :
    ∃ gap, gap ≠ [] ∧ IsGap gap ∧ characters = gap ++ word.toList ++ later := by
  obtain ⟨⟨gap, isGap, parts⟩, whole, -⟩ := begins
  refine ⟨gap, ?_, isGap, parts⟩
  rintro rfl
  obtain ⟨_, same, isWord⟩ := whole.resolve_left (by simp)
  obtain rfl := Token.word.inj same
  obtain ⟨first, others, spelled⟩ := List.exists_cons_of_ne_nil isWord.1
  have plain : IsPlain first := isWord.2 first (spelled ▸ List.mem_cons_self)
  exact divides first (by simp [parts, Token.characters, spelled]) plain

/-- Where two words stand beside each other among the tokens, separators cut the text between them. -/
theorem Takes.exists_cut {before after : List Token} {first second : String}
    (takes : Takes characters (before ++ .word first :: .word second :: after)) :
    ∃ front gap back, characters = front ++ first.toList ++ gap ++ second.toList ++ back ∧
      gap ≠ [] ∧ IsGap gap ∧ scanAfter [] front = before ∧ scanAfter [] back = after := by
  induction before generalizing characters with
  | nil =>
      cases takes with
      | taken taken rest =>
          obtain ⟨⟨front, isGap, rfl⟩, -, ends⟩ := begins_of_next? taken
          cases rest with
          | @taken _ back _ _ taken rest =>
              obtain ⟨gap, nonempty, isGapBetween, rfl⟩ :=
                (begins_of_next? taken).exists_gap (ends (by simp))
              refine ⟨front, gap, back, by simp [Token.characters], nonempty, isGapBetween, ?_,
                rest.scanAfter_eq⟩
              have passed := scanAfter_gap isGap []
              rwa [List.append_nil] at passed
  | cons token before induction =>
      cases takes with
      | taken taken rest =>
          obtain ⟨front, gap, back, rfl, nonempty, isGap, read, readBack⟩ := induction rest
          obtain ⟨⟨lead, isLead, rfl⟩, whole, ends⟩ := begins_of_next? taken
          have begins : Begins (lead ++ token.characters ++ front) token front := by
            refine ⟨⟨lead, isLead, rfl⟩, whole, fun isWord character head =>
              ends isWord character ?_⟩
            simp [List.head?_append, head]
          exact ⟨lead ++ token.characters ++ front, gap, back, by simp, nonempty, isGap,
            begins.scanAfter_eq.trans (congrArg _ read), readBack⟩

/-- The tokens of a text are those that are taken one by one until there is none. Each is a closing
parenthesis or a word, and together they hold all characters of the text that are no separators. Two
words beside each other come from places with separators between them. A text that is cut by a separator
or a closing parenthesis has the tokens of both parts. -/
theorem scan_compositional (text : String) :
    Takes text.toList (scan text) ∧
      (∀ token ∈ scan text, token = .close ∨ ∃ word, token = .word word ∧ IsWord word) ∧
      (scan text).flatMap Token.characters =
        text.toList.filter (fun character => !isSeparator character) ∧
      (∀ before first second after, scan text = before ++ .word first :: .word second :: after →
        ∃ front gap back, text = front ++ first ++ gap ++ second ++ back ∧ gap ≠ "" ∧
          (∀ character ∈ gap.toList, isSeparator character = true) ∧
          scan front = before ∧ scan back = after) ∧
      (∀ separator other, isSeparator separator = true →
        scan (text ++ String.singleton separator ++ other) = scan text ++ scan other) ∧
      ∀ other, scan (text ++ ")" ++ other) = scan text ++ .close :: scan other := by
  have takes : Takes text.toList (scan text) := takes_scanAfter text.toList
  refine ⟨takes, takes.isWhole, takes.flatMap_characters, ?_, ?_, ?_⟩
  · intro before first second after read
    obtain ⟨front, gap, back, cut, nonempty, isGap, readFront, readBack⟩ :=
      (read ▸ takes).exists_cut
    refine ⟨String.ofList front, String.ofList gap, String.ofList back, ?_, by simpa using nonempty,
      by simpa [IsGap] using isGap, by simpa [scan] using readFront, by simpa [scan] using readBack⟩
    rw [← String.toList_inj, cut]
    simp
  · intro separator other separates
    have cut : (text ++ String.singleton separator ++ other).toList =
        text.toList ++ separator :: other.toList := by simp
    rw [scan, cut, scanAfter_separator separates]
    rfl
  · intro other
    have cut : (text ++ ")" ++ other).toList = text.toList ++ ')' :: other.toList := by simp
    rw [scan, cut, scanAfter_close]
    rfl

/-- The operands of an operator: a comma and a blank divide them, and further operands may follow. -/
theorem scan_compositional_operands :
    Token.word "dog" ∈ scan "#or(cat, dog)" ∧
      (∃ front gap back, "#or(cat, dog)" = front ++ "cat" ++ gap ++ "dog" ++ back ∧ gap ≠ "" ∧
        (∀ character ∈ gap.toList, isSeparator character = true) ∧
        scan front = [.word "#or"] ∧ scan back = [.close]) ∧
      isSeparator ',' = true ∧
      scan ("#or(cat, dog)" ++ String.singleton ',' ++ "red") =
        [.word "#or", .word "cat", .word "dog", .close, .word "red"] := by
  have read : scan "#or(cat, dog)" =
      [.word "#or"] ++ .word "cat" :: .word "dog" :: [.close] := by decide
  have readOther : scan "red" = [.word "red"] := by decide
  obtain ⟨-, -, -, cut, append, -⟩ := scan_compositional "#or(cat, dog)"
  refine ⟨by simp [read], cut _ _ _ _ read, by decide, ?_⟩
  rw [append ',' "red" (by decide), read, readOther]
  rfl

end Retrieval.Token
