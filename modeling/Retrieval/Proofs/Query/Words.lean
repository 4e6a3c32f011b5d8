import Retrieval.Model
import Retrieval.Proofs.Query.Tokens
import Retrieval.Query.Parse

/-!
# What words of a query text mean

A word names an operator, writes a weight or stands for terms. Each is said here by what the word looks
like; the readers of words accept exactly these and return what they mean.
-/

namespace Retrieval

/-! ## Names of operators -/

namespace Operator

/-- In small letters the word is the label followed by digits, which write a distance. -/
def IsDistanceWord (label word : String) (distance : Nat) : Prop :=
  ∃ digits : List Char, (Text.lowerAscii word).toList = label.toList ++ digits ∧ digits ≠ [] ∧
    Number.digitsValue? digits = some distance ∧ distance ≤ maximalDistance

/-- The word names the operator, in letters of any case. The negation and the score of a list have no
name. -/
def IsNamed (word : String) : Operator → Prop
  | .list .syn => Text.lowerAscii word = "#syn"
  | .list (.near distance) => IsDistanceWord "#near/" word distance
  | .list (.window size) => IsDistanceWord "#window/" word size
  | .scoring .and => Text.lowerAscii word = "#and"
  | .scoring .or => Text.lowerAscii word = "#or"
  | .scoring .sum => Text.lowerAscii word = "#sum"
  | .scoring .wand => Text.lowerAscii word = "#wand"
  | .scoring .wsum => Text.lowerAscii word = "#wsum"
  | .scoring .not => False
  | .scoring .score => False

theorem distance?_eq_some_iff {digits : List Char} {distance : Nat} :
    distance? digits = some distance ↔
      digits ≠ [] ∧ Number.digitsValue? digits = some distance ∧ distance ≤ maximalDistance := by
  rw [distance?]
  cases digits with
  | nil => simp
  | cons digit digits => simp [Option.filter_eq_some_iff]

theorem isNamed_of_ofWord {word : String} {operator : Operator}
    (named : ofWord word = .ok operator) : operator.IsNamed word := by
  have lowered : ∀ {letters : List Char}, (Text.lowerAscii word).toList = letters →
      Text.lowerAscii word = String.ofList letters := by
    intro letters same
    rw [← same, String.ofList_toList]
  rw [ofWord] at named
  split at named
  · next letters => obtain rfl := Except.ok.inj named; exact lowered letters
  · next letters => obtain rfl := Except.ok.inj named; exact lowered letters
  · next letters => obtain rfl := Except.ok.inj named; exact lowered letters
  · next letters => obtain rfl := Except.ok.inj named; exact lowered letters
  · next letters => obtain rfl := Except.ok.inj named; exact lowered letters
  · next letters => obtain rfl := Except.ok.inj named; exact lowered letters
  · next digits letters =>
      split at named
      · next distance written =>
          obtain rfl := Except.ok.inj named
          exact ⟨digits, letters, distance?_eq_some_iff.mp written⟩
      · simp at named
  · simp at named
  · next digits letters =>
      split at named
      · next size written =>
          obtain rfl := Except.ok.inj named
          exact ⟨digits, letters, distance?_eq_some_iff.mp written⟩
      · simp at named
  · simp at named
  · simp at named

theorem ofWord_of_isNamed {word : String} {operator : Operator} (named : operator.IsNamed word) :
    ofWord word = .ok operator := by
  cases operator with
  | list operator =>
      cases operator with
      | syn =>
          have lowered : Text.lowerAscii word = "#syn" := named
          simp only [ofWord, lowered]
          rfl
      | near distance =>
          obtain ⟨digits, letters, written⟩ := named
          simp only [ofWord, letters]
          simp [distance?_eq_some_iff.mpr written]
      | window size =>
          obtain ⟨digits, letters, written⟩ := named
          simp only [ofWord, letters]
          simp [distance?_eq_some_iff.mpr written]
  | scoring operator =>
      cases operator with
      | and | or | sum | wand | wsum =>
          have lowered : Text.lowerAscii word = _ := named
          simp only [ofWord, lowered]
          rfl
      | not | score => exact named.elim

theorem toLower_eq_sign {character : Char} (lowered : character.toLower = '#') : character = '#' := by
  by_cases capital : character.val ≥ 'A'.val ∧ character.val ≤ 'Z'.val
  · have shift : character.toLower.val = character.val + ('a'.val - 'A'.val) :=
      congrArg Char.val (dif_pos capital)
    have least : 'A'.val.toNat ≤ character.val.toNat := UInt32.le_iff_toNat_le.mp capital.1
    have greatest : character.val.toNat ≤ 'Z'.val.toNat := UInt32.le_iff_toNat_le.mp capital.2
    have sum := congrArg UInt32.toNat shift
    rw [lowered, UInt32.toNat_add] at sum
    simp at sum least greatest
    omega
  · have same : character.toLower = character := dif_neg capital
    rw [← same, lowered]

/-- A word that names an operator begins with a number sign. -/
theorem head?_of_isNamed {word : String} {operator : Operator} (named : operator.IsNamed word) :
    word.toList.head? = some '#' := by
  have sign : (Text.lowerAscii word).toList.head? = some '#' := by
    cases operator with
    | list operator =>
        cases operator with
        | syn => rw [show Text.lowerAscii word = "#syn" from named]; rfl
        | near distance =>
            obtain ⟨digits, letters, -⟩ := named
            rw [letters]
            rfl
        | window size =>
            obtain ⟨digits, letters, -⟩ := named
            rw [letters]
            rfl
    | scoring operator =>
        cases operator with
        | and | or | sum | wand | wsum =>
            rw [IsNamed] at named
            rw [named]
            rfl
        | not | score => exact named.elim
  rw [Text.lowerAscii, String.toList_ofList, List.head?_map] at sign
  obtain ⟨character, head, lowered⟩ := Option.map_eq_some_iff.mp sign
  rw [head, toLower_eq_sign lowered]

theorem ofWord_eq_ok_iff {word : String} {operator : Operator} :
    ofWord word = .ok operator ↔ operator.IsNamed word :=
  ⟨isNamed_of_ofWord, ofWord_of_isNamed⟩

/-! ## Labels -/

theorem digitsValue?_eq_some {digits : List Char} (areDigits : ∀ digit ∈ digits, digit.isDigit = true) :
    Number.digitsValue? digits = some (Nat.ofDigitChars 10 digits 0) := by
  have read : ∀ (later : List Char) (value : Nat), (∀ digit ∈ later, digit.isDigit = true) →
      later.foldlM (fun value digit => (Number.digitValue? digit).map (10 * value + ·)) value =
        some (Nat.ofDigitChars 10 later value) := by
    intro later
    induction later with
    | nil => simp
    | cons digit later induction =>
        intro value areDigits
        rw [List.forall_mem_cons] at areDigits
        have isDigit : '0' ≤ digit ∧ digit ≤ '9' := by
          rw [Char.isDigit, Bool.and_eq_true, decide_eq_true_eq, decide_eq_true_eq] at areDigits
          exact areDigits.1
        rw [List.foldlM_cons, Number.digitValue?, if_pos isDigit, Nat.ofDigitChars_cons,
          ← induction _ areDigits.2]
        rfl
  exact read digits 0 areDigits

theorem toLower_of_isDigit {digit : Char} (isDigit : digit.isDigit = true) : digit.toLower = digit := by
  rw [Char.isDigit, Bool.and_eq_true, decide_eq_true_eq, decide_eq_true_eq] at isDigit
  exact dif_neg fun capital => absurd (UInt32.le_trans capital.1 isDigit.2) (by decide)

theorem comma_lt_of_isDigit {digit : Char} (isDigit : digit.isDigit = true) : ',' < digit := by
  rw [Char.isDigit, Bool.and_eq_true, decide_eq_true_eq, decide_eq_true_eq] at isDigit
  exact UInt32.lt_of_lt_of_le (by decide : ','.val < '0'.val) isDigit.1

/-- A label with a distance is read as the distance, which has to be within bounds. -/
theorem isDistanceWord_label {label : String} {distance : Nat} (lower : Text.lowerAscii label = label)
    (bounded : distance ≤ maximalDistance) :
    IsDistanceWord label (label ++ Number.writeNat distance) distance := by
  have areDigits : ∀ digit ∈ Nat.toDigits 10 distance, digit.isDigit = true :=
    fun digit member => Nat.isDigit_of_mem_toDigits (by decide) (by decide) member
  have lowerDigits : (Nat.toDigits 10 distance).map Char.toLower = Nat.toDigits 10 distance :=
    List.map_congr_left (fun digit member => toLower_of_isDigit (areDigits digit member)) |>.trans
      (List.map_id _)
  refine ⟨Nat.toDigits 10 distance, ?_, Nat.toDigits_ne_nil, ?_, bounded⟩
  · have lowerLabel : label.toList.map Char.toLower = label.toList := by
      rw [← String.toList_inj, Text.lowerAscii, String.toList_ofList] at lower
      exact lower
    rw [Text.lowerAscii, String.toList_ofList, String.toList_append, List.map_append, lowerLabel,
      Number.writeNat, String.toList_ofList, lowerDigits]
  · rw [digitsValue?_eq_some areDigits, Nat.ofDigitChars_ten_toDigits]

theorem isNamed_label (word : String) {operator : Operator} (named : operator.IsNamed word) :
    operator.IsNamed operator.label := by
  cases operator with
  | list operator =>
      cases operator with
      | syn => rfl
      | near distance =>
          obtain ⟨-, -, -, -, bounded⟩ := named
          exact isDistanceWord_label rfl bounded
      | window size =>
          obtain ⟨-, -, -, -, bounded⟩ := named
          exact isDistanceWord_label rfl bounded
  | scoring operator =>
      cases operator with
      | and | or | sum | wand | wsum => rfl
      | not | score => exact named.elim

theorem isNamed_label_defaultOperator {ω : Type} [Arithmetic ω] (model : Model ω) :
    model.defaultOperator.IsNamed model.defaultOperator.label := by
  cases model with
  | unrankedBoolean | rankedBoolean => exact isNamed_label "#or" rfl
  | bm25 => exact isNamed_label "#sum" rfl
  | indri => exact isNamed_label "#and" rfl

theorem isWord_label (operator : Operator) : Token.IsWord operator.label := by
  have isWord_distance : ∀ {name : String} (distance : Nat), Token.IsWord name →
      Token.IsWord (name ++ Number.writeNat distance) := by
    intro name distance isWord
    refine ⟨by simp [isWord.1], ?_⟩
    rw [String.toList_append, Number.writeNat, String.toList_ofList]
    intro character member
    rcases List.mem_append.mp member with ofName | ofDigits
    · exact isWord.2 character ofName
    · have isDigit := Nat.isDigit_of_mem_toDigits (by decide) (by decide) ofDigits
      exact Token.isPlain_of_comma_lt (comma_lt_of_isDigit isDigit)
  cases operator with
  | list operator =>
      cases operator with
      | syn => decide
      | near distance => exact isWord_distance distance (by decide)
      | window size => exact isWord_distance size (by decide)
  | scoring operator => cases operator <;> decide

end Operator

namespace Query

variable {ω : Type}

/-! ## Weights -/

section Weights

variable [Arithmetic ω]

/-- The word writes the weight: a finite number that is not negative. -/
def IsWeight (word : String) (weight : ω) : Prop :=
  Arithmetic.read? word = some weight ∧ Arithmetic.isFinite weight = true ∧ 0 ≤ weight

theorem readWeight_eq_ok_iff {word : String} {weight : ω} :
    readWeight word = .ok weight ↔ IsWeight word weight := by
  rw [readWeight, IsWeight]
  cases read : (Arithmetic.read? word : Option ω) with
  | none => simp
  | some number =>
      simp only [Bool.and_eq_true, decide_eq_true_eq, Option.some.injEq]
      split
      · next good =>
          constructor
          · intro same
            obtain rfl := Except.ok.inj same
            exact ⟨rfl, good⟩
          · rintro ⟨rfl, -⟩
            rfl
      · next bad =>
          constructor
          · simp
          · rintro ⟨rfl, good⟩
            exact absurd good bad

end Weights

/-! ## Terms -/

/-- The word stands for the terms: those that analysis finds in it, or those that it finds before the
first point, in the field that stands behind it. -/
def StandsFor (analyzer : Analyzer) (word : String) (terms : List (Query ω)) : Prop :=
  ('.' ∉ word.toList ∧ terms = (analyzer.analyze word).map fun term => .term term .body) ∨
    ∃ (text name : String) (field : Field), word = text ++ "." ++ name ∧ '.' ∉ text.toList ∧
      Text.lowerAscii name = field.name ∧
      terms = (analyzer.analyze text).map fun term => .term term field

theorem StandsFor.exists_eq_term {terms : List (Query ω)} {analyzer : Analyzer} {word : String}
    (standsFor : StandsFor analyzer word terms) {query : Query ω} (member : query ∈ terms) :
    ∃ text field, query = .term text field := by
  rcases standsFor with ⟨-, rfl⟩ | ⟨written, name, field, -, -, -, rfl⟩
  · obtain ⟨term, -, rfl⟩ := List.mem_map.mp member
    exact ⟨term, .body, rfl⟩
  · obtain ⟨term, -, rfl⟩ := List.mem_map.mp member
    exact ⟨term, field, rfl⟩

theorem ofQuery?_eq_some_iff {name : String} {field : Field} :
    Field.ofQuery? name = some field ↔ Text.lowerAscii name = field.name := by
  rw [Field.ofQuery?, Field.ofName?]
  constructor
  · intro found
    have named := List.find?_some found
    rw [decide_eq_true_eq] at named
    exact named.symm
  · intro same
    rw [same]
    cases field <;> rfl

theorem cutCharacters_eq_none_iff {separator : Char} {characters : List Char} :
    Text.cutCharacters separator characters = none ↔ separator ∉ characters := by
  induction characters with
  | nil => simp [Text.cutCharacters]
  | cons character later induction =>
      rw [Text.cutCharacters, List.mem_cons, not_or, ← induction]
      split
      · next same => simp [same]
      · next differs => simp [Ne.symm differs]

theorem cutCharacters_append {separator : Char} {before : List Char} (after : List Char)
    (absent : separator ∉ before) :
    Text.cutCharacters separator (before ++ separator :: after) = some (before, after) := by
  induction before with
  | nil => simp [Text.cutCharacters]
  | cons character before induction =>
      rw [List.mem_cons, not_or] at absent
      rw [List.cons_append, Text.cutCharacters, if_neg (Ne.symm absent.1), induction absent.2]
      rfl

theorem notMem_of_cutCharacters {separator : Char} {characters before after : List Char}
    (cut : Text.cutCharacters separator characters = some (before, after)) : separator ∉ before := by
  induction characters generalizing before with
  | nil => simp [Text.cutCharacters] at cut
  | cons character later induction =>
      rw [Text.cutCharacters] at cut
      split at cut
      · simp only [Option.some.injEq, Prod.mk.injEq] at cut
        simp [← cut.1]
      · next differs =>
          obtain ⟨⟨first, second⟩, found, same⟩ := Option.map_eq_some_iff.mp cut
          simp only [Prod.mk.injEq] at same
          obtain ⟨rfl, rfl⟩ := same
          rw [List.mem_cons, not_or]
          exact ⟨Ne.symm differs, induction found⟩

theorem cut_eq_none_iff {separator : Char} {word : String} :
    Text.cut separator word = none ↔ separator ∉ word.toList := by
  rw [Text.cut, Option.map_eq_none_iff, cutCharacters_eq_none_iff]

theorem cut_eq_some_iff {separator : Char} {word text name : String} :
    Text.cut separator word = some (text, name) ↔
      word = text ++ String.singleton separator ++ name ∧ separator ∉ text.toList := by
  rw [Text.cut, Option.map_eq_some_iff]
  constructor
  · rintro ⟨⟨before, after⟩, cut, same⟩
    simp only [Prod.mk.injEq] at same
    obtain ⟨rfl, rfl⟩ := same
    refine ⟨?_, by simpa using notMem_of_cutCharacters cut⟩
    rw [← String.toList_inj]
    simpa using Text.eq_of_cutCharacters cut
  · rintro ⟨rfl, absent⟩
    refine ⟨(text.toList, name.toList), ?_, by simp⟩
    simpa using cutCharacters_append name.toList absent

theorem termsOfWord_eq_ok_iff {analyzer : Analyzer} {word : String} {terms : List (Query ω)} :
    termsOfWord analyzer word = .ok terms ↔ StandsFor analyzer word terms := by
  constructor
  · intro read
    rw [termsOfWord] at read
    split at read
    · next uncut => exact .inl ⟨cut_eq_none_iff.mp uncut, (Except.ok.inj read).symm⟩
    · next text name cut =>
        obtain ⟨same, absent⟩ := cut_eq_some_iff.mp cut
        split at read
        · next field found =>
            exact .inr ⟨text, name, field, same, absent, ofQuery?_eq_some_iff.mp found,
              (Except.ok.inj read).symm⟩
        · simp at read
  · rintro (⟨absent, rfl⟩ | ⟨text, name, field, same, absent, named, rfl⟩)
    · rw [termsOfWord, cut_eq_none_iff.mpr absent]
    · have parts : Text.cut '.' word = some (text, name) := cut_eq_some_iff.mpr ⟨same, absent⟩
      rw [termsOfWord, parts]
      simp only [ofQuery?_eq_some_iff.mpr named]

end Query

end Retrieval
