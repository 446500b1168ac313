import Precedence.Proofs.Lexeme.Scan

/-!
# Cutting and classifying agree

Cutting a line and classifying its fragments use two tables of patterns for the same tokens. What
cutting takes for a string literal, white space or an operator is classified as just that. A word
has no blank, does not begin with an operator and is no string literal, so it is a reserved word, a
number, a name or nothing at all, as its characters alone decide.

The tests of a pattern are stated here as shapes: how a text is put together from runs of
characters. The shapes of words exclude each other, except that a reserved word has the shape of a
name.
-/

namespace Precedence

open Text (isBlank)

namespace Pattern

/-! ## Shapes -/

/-- A non-empty run of decimal digits. -/
def Digits (text : List Char) : Prop :=
  text ≠ [] ∧ ∀ character ∈ text, character.isDigit = true

/-- Two non-empty runs of decimal digits with a point between them. -/
def Decimal (text : List Char) : Prop :=
  ∃ whole fraction, text = whole ++ '.' :: fraction ∧ Digits whole ∧ Digits fraction

/-- A letter or a low line, and letters, digits and low lines after it. -/
def Name (text : List Char) : Prop :=
  ∃ first rest, text = first :: rest ∧ (first.isAlpha = true ∨ first = '_') ∧
    ∀ character ∈ rest, character.isAlphanum = true ∨ character = '_'

/-- A text between two double quotes that holds no other. -/
def Quoted (text : List Char) : Prop :=
  ∃ inside, text = '"' :: inside ++ ['"'] ∧ '"' ∉ inside

variable {text : List Char}

/-- The test for an integer finds its shape. -/
theorem isInteger_iff : isInteger text = true ↔ Digits text := by
  simp [isInteger, Digits]

/-- The test for a real number finds its shape: the first run goes up to the point, which is no
digit. -/
theorem isReal_iff : isReal text = true ↔ Decimal text := by
  constructor
  · intro real
    unfold isReal at real
    split at real
    · rename_i fraction isRest
      rw [Bool.and_eq_true, isInteger_iff, isInteger_iff] at real
      refine ⟨text.takeWhile Char.isDigit, fraction, ?_, real.1, real.2⟩
      rw [← isRest, List.takeWhile_append_dropWhile]
    · cases real
  · rintro ⟨whole, fraction, rfl, digits, alsoDigits⟩
    have upTo : (whole ++ '.' :: fraction).takeWhile Char.isDigit = whole :=
      Fragment.takeWhile_append_eq digits.2 (by simp)
    have after : (whole ++ '.' :: fraction).dropWhile Char.isDigit = '.' :: fraction := by
      rw [List.dropWhile_append_of_pos digits.2]
      rfl
    rw [isReal, after]
    simp only [upTo, Bool.and_eq_true, isInteger_iff]
    exact ⟨digits, alsoDigits⟩

/-- A character may stand in a name if it may begin one or is a digit. -/
theorem beginsName_or_isDigit (character : Char) :
    (beginsName character || character.isDigit) = true ↔
      character.isAlphanum = true ∨ character = '_' := by
  simp only [beginsName, Char.isAlphanum, Bool.or_eq_true, beq_iff_eq]
  exact or_right_comm

/-- The test for a name finds its shape. -/
theorem isName_iff : isName text = true ↔ Name text := by
  cases text with
  | nil => simp [isName, Name]
  | cons first rest =>
    rw [isName, Bool.and_eq_true, List.all_eq_true]
    simp only [beginsName_or_isDigit]
    constructor
    · rintro ⟨begins, others⟩
      exact ⟨first, rest, rfl, by simpa [beginsName] using begins, others⟩
    · rintro ⟨_, _, isText, begins, others⟩
      obtain ⟨rfl, rfl⟩ := List.cons.inj isText
      exact ⟨by simpa [beginsName] using begins, others⟩

/-- The test for a string literal finds its shape. -/
theorem isStringLiteral_iff : isStringLiteral text = true ↔ Quoted text := by
  constructor
  · intro literal
    unfold isStringLiteral at literal
    split at literal
    · rename_i rest
      rw [beq_iff_eq] at literal
      refine ⟨rest.takeWhile (· != '"'), ?_, ?_⟩
      · rw [List.cons_append, ← literal, List.takeWhile_append_dropWhile]
      · intro held
        have different := List.all_eq_true.mp List.all_takeWhile _ held
        simp at different
    · cases literal
  · rintro ⟨inside, rfl, closed⟩
    have plain : ∀ character ∈ inside, (character != '"') = true := by
      intro character held
      rw [bne_iff_ne]
      rintro rfl
      exact closed held
    rw [List.cons_append, isStringLiteral, List.dropWhile_append_of_pos plain]
    rfl

/-! ## Shapes that exclude each other -/

/-- A run of digits begins with a digit. -/
theorem Digits.head? (digits : Digits text) :
    ∃ first ∈ text.head?, first.isDigit = true := by
  obtain ⟨first, rest, rfl⟩ := List.exists_cons_of_ne_nil digits.1
  exact ⟨first, rfl, digits.2 first List.mem_cons_self⟩

/-- A decimal number begins with a digit. -/
theorem Decimal.head? (decimal : Decimal text) :
    ∃ first ∈ text.head?, first.isDigit = true := by
  obtain ⟨whole, fraction, rfl, digits, _⟩ := decimal
  obtain ⟨first, isFirst, isDigit⟩ := digits.head?
  exact ⟨first, List.mem_head?_append_of_mem_head? isFirst, isDigit⟩

/-- A letter is no digit: letters have greater codes. -/
theorem isDigit_of_isAlpha {character : Char} (letter : character.isAlpha = true) :
    character.isDigit = false := by
  refine Bool.eq_false_iff.mpr fun digit => ?_
  have most : character.val ≤ 57 := of_decide_eq_true (Bool.and_eq_true_iff.mp digit).2
  rcases Bool.or_eq_true_iff.mp letter with upper | lower
  · have least : 65 ≤ character.val := (of_decide_eq_true upper).1
    exact absurd (UInt32.le_trans least most) (by decide)
  · have least : 97 ≤ character.val := of_decide_eq_true (Bool.and_eq_true_iff.mp lower).1
    exact absurd (UInt32.le_trans least most) (by decide)

/-- A name does not begin with a digit. -/
theorem Name.head? (name : Name text) : ∀ first ∈ text.head?, first.isDigit = false := by
  obtain ⟨first, rest, rfl, begins, _⟩ := name
  intro _ isFirst
  obtain rfl := Option.some.inj isFirst
  rcases begins with letter | rfl
  · exact isDigit_of_isAlpha letter
  · rfl

/-- A run of digits is no decimal number, for it holds no point. -/
theorem Digits.not_decimal (digits : Digits text) : ¬ Decimal text := by
  rintro ⟨whole, fraction, rfl, _, _⟩
  have point := digits.2 '.' (by simp)
  cases point

/-- A name is no run of digits. -/
theorem Name.not_digits (name : Name text) : ¬ Digits text := by
  intro digits
  obtain ⟨first, isFirst, isDigit⟩ := digits.head?
  rw [name.head? first isFirst] at isDigit
  cases isDigit

/-- A name is no decimal number. -/
theorem Name.not_decimal (name : Name text) : ¬ Decimal text := by
  intro decimal
  obtain ⟨first, isFirst, isDigit⟩ := decimal.head?
  rw [name.head? first isFirst] at isDigit
  cases isDigit

/-! ## The words and signs listed -/

/-- The words that are classified as reserved are the reserved words of the language. -/
theorem mem_reserved_iff {word : String} : word ∈ reserved ↔ word ∈ reservedWords := by
  have listed : reserved ⊆ reservedWords := by decide
  have covered : reservedWords ⊆ reserved := by decide
  exact ⟨fun held => listed held, fun held => covered held⟩

/-- The signs that lines are cut at are those classified as operators and as special signs. -/
theorem mem_operators_iff {sign : String} :
    sign ∈ operators ↔ sign ∈ operatorSigns ∨ sign ∈ specialSigns := by
  have listed : operators ⊆ operatorSigns ++ specialSigns := by decide
  have covered : operatorSigns ++ specialSigns ⊆ operators := by decide
  rw [← List.mem_append]
  exact ⟨fun held => listed held, fun held => covered held⟩

/-- A reserved word has the shape of a name. -/
theorem name_of_reserved : ∀ word ∈ reservedWords, Name word.toList := by
  have checked : (reservedWords.all fun word => isName word.toList) = true := by decide +kernel
  exact fun word reserved => isName_iff.mp (List.all_eq_true.mp checked word reserved)

/-- No number and no name holds a double quote. -/
theorem quote_not_mem (shaped : Decimal text ∨ Digits text ∨ Name text) : '"' ∉ text := by
  rcases shaped with ⟨whole, fraction, rfl, digits, alsoDigits⟩ | digits |
    ⟨first, rest, rfl, begins, others⟩
  · rw [List.mem_append, List.mem_cons]
    rintro (held | isPoint | held)
    · cases digits.2 _ held
    · cases isPoint
    · cases alsoDigits.2 _ held
  · intro held
    cases digits.2 _ held
  · rw [List.mem_cons]
    rintro (rfl | held)
    · rcases begins with letter | isLine
      · cases letter
      · cases isLine
    · rcases others _ held with letter | isLine
      · cases letter
      · cases isLine

end Pattern

open Pattern (Decimal Digits Name Quoted isBlankRun isInteger isInteger_iff isName isName_iff isReal
  isReal_iff isStringLiteral isStringLiteral_iff mem_operators_iff mem_reserved_iff
  name_of_reserved)

/-! ## What is classified -/

/-- What a word is by its shape. -/
inductive WordClass (text : List Char) : Classification → Prop
  /-- Two runs of digits around a point. -/
  | real (decimal : Decimal text) : WordClass text (.token ⟨.literal, "real"⟩)
  /-- A run of digits. -/
  | integer (digits : Digits text) : WordClass text (.token ⟨.literal, "integer"⟩)
  /-- A reserved word. -/
  | reserved (listed : String.ofList text ∈ reservedWords) :
      WordClass text (.token ⟨.reserved, String.ofList text⟩)
  /-- A name that is not reserved. -/
  | name (name : Name text) (free : String.ofList text ∉ reservedWords) :
      WordClass text (.token ⟨.identifier, "id"⟩)
  /-- Nothing of these. -/
  | unknown (notReal : ¬ Decimal text) (notInteger : ¬ Digits text) (notName : ¬ Name text) :
      WordClass text .uncategorized

namespace Classification

variable {text : List Char}

/-- A run of blanks is white space. -/
theorem ofText_blank (nonempty : text ≠ [])
    (blank : ∀ character ∈ text, isBlank character = true) : ofText text = .whitespace := by
  have isRun : isBlankRun text = true := by simpa [isBlankRun] using ⟨nonempty, blank⟩
  simp only [ofText, isRun, if_true]

/-- A text between two double quotes is a string literal. -/
theorem ofText_quoted (quoted : Quoted text) : ofText text = .token ⟨.literal, "string"⟩ := by
  have literal := isStringLiteral_iff.mpr quoted
  obtain ⟨inside, rfl, _⟩ := quoted
  have noRun : isBlankRun ('"' :: inside ++ ['"']) = false := by
    rw [isBlankRun, Bool.and_eq_false_iff]
    exact Or.inr rfl
  simp only [ofText, noRun, literal, if_true, Bool.false_eq_true, if_false]

/-- An operator is the operator or the special sign that it spells. -/
theorem ofText_operator : ∀ operator ∈ operators,
    ofText operator.toList = .token ⟨.operator, operator⟩ ∨
      ofText operator.toList = .token ⟨.special, operator⟩ := by
  have checked : (operators.all fun operator =>
      ofText operator.toList = .token ⟨.operator, operator⟩ ||
        ofText operator.toList = .token ⟨.special, operator⟩) = true := by
    decide +kernel
  intro operator listed
  simpa using List.all_eq_true.mp checked operator listed

/-- A text that is no run of blanks, no string literal and no operator is what its shape says. -/
theorem wordClass_ofText (notBlank : isBlankRun text = false) (notQuoted : ¬ Quoted text)
    (notOperator : String.ofList text ∉ operators) : WordClass text (ofText text) := by
  rw [mem_operators_iff, not_or] at notOperator
  have notLiteral : isStringLiteral text = false :=
    Bool.eq_false_iff.mpr (mt isStringLiteral_iff.mp notQuoted)
  simp only [ofText, notBlank, notLiteral, Bool.false_eq_true, if_false, if_neg notOperator.1,
    if_neg notOperator.2]
  split
  · rename_i real
    exact .real (isReal_iff.mp real)
  rename_i notReal
  split
  · rename_i integer
    exact .integer (isInteger_iff.mp integer)
  rename_i notInteger
  split
  · rename_i listed
    exact .reserved (mem_reserved_iff.mp listed)
  rename_i free
  split
  · rename_i name
    exact .name (isName_iff.mp name) (mt mem_reserved_iff.mpr free)
  · rename_i notName
    exact .unknown (mt isReal_iff.mpr notReal) (mt isInteger_iff.mpr notInteger)
      (mt isName_iff.mpr notName)

end Classification

namespace Fragment

variable {text rest : List Char}

/-- A word holds no blank, is no string literal and no operator. -/
theorem Taken.word_plain (taken : Taken ⟨.word, text⟩ rest) :
    isBlankRun text = false ∧ ¬ Quoted text ∧ String.ofList text ∉ operators := by
  cases taken with
  | word nonempty unbroken _ =>
    have without := unbroken text nonempty (List.suffix_refl text)
    rw [BeginsDelimiter, not_or, not_or] at without
    obtain ⟨noLiteral, noBlank, noOperator⟩ := without
    refine ⟨?_, ?_, ?_⟩
    · obtain ⟨first, others, rfl⟩ := List.exists_cons_of_ne_nil nonempty
      have unblank : isBlank first = false :=
        Bool.eq_false_iff.mpr fun blank => noBlank ⟨first, rfl, blank⟩
      simp [isBlankRun, unblank]
    · rintro ⟨inside, rfl, _⟩
      exact noLiteral ⟨inside ++ ['"'] ++ rest, by simp, by simp⟩
    · intro listed
      exact noOperator ⟨_, listed, by simp⟩

/-- A word is what its shape says. -/
theorem Taken.wordClass (taken : Taken ⟨.word, text⟩ rest) :
    WordClass text (Classification.ofText text) := by
  obtain ⟨notBlank, notQuoted, notOperator⟩ := taken.word_plain
  exact Classification.wordClass_ofText notBlank notQuoted notOperator

/-- Fragments taken one after another are each taken before some rest. -/
theorem Scanned.taken {fragments : List Fragment} (scanned : Scanned text fragments rest) :
    ∀ fragment ∈ fragments, ∃ after, Taken fragment after := by
  induction scanned with
  | nil => exact List.forall_mem_nil _
  | @cons _ middle _ _ taken _ ih =>
    intro other held
    rcases List.mem_cons.mp held with rfl | held
    · exact ⟨middle, taken⟩
    · exact ih other held

/-- Every fragment of a line is classified as what it was cut as: a string literal as one, white
space as such, an operator as the operator or special sign that it spells. A word is a reserved
word, a real number, an integer or a name exactly if it has that shape, reserved words being no
names, and is uncategorized exactly if it has none of them; it is never anything else. -/
theorem classified_as_cut (line : List Char) : ∀ fragment ∈ ofLine line,
    let text := fragment.text
    let found := Classification.ofText text
    match fragment.kind with
    | .stringLiteral => found = .token ⟨.literal, "string"⟩
    | .whitespace => found = .whitespace
    | .operator =>
      found = .token ⟨.operator, String.ofList text⟩ ∨
        found = .token ⟨.special, String.ofList text⟩
    | .word =>
      (found = .token ⟨.reserved, String.ofList text⟩ ↔ String.ofList text ∈ reservedWords) ∧
        (found = .token ⟨.literal, "real"⟩ ↔ Decimal text) ∧
        (found = .token ⟨.literal, "integer"⟩ ↔ Digits text) ∧
        (found = .token ⟨.identifier, "id"⟩ ↔ Name text ∧ String.ofList text ∉ reservedWords) ∧
        (found = .uncategorized ↔
          String.ofList text ∉ reservedWords ∧ ¬ Decimal text ∧ ¬ Digits text ∧ ¬ Name text) ∧
        found ≠ .whitespace ∧ found ≠ .token ⟨.literal, "string"⟩ ∧
        ∀ token, found = .token token →
          token.tokenClass ≠ .operator ∧ token.tokenClass ≠ .special := by
  intro fragment held
  obtain ⟨rest, taken⟩ := (scanned_ofLine line).taken fragment held
  cases taken with
  | @stringLiteral inside _ closed => exact Classification.ofText_quoted ⟨inside, rfl, closed⟩
  | whitespace nonempty blank => exact Classification.ofText_blank nonempty blank
  | operator listed =>
    simp only [String.ofList_toList]
    exact Classification.ofText_operator _ (listed ▸ List.mem_append_cons_self)
  | @word text _ nonempty unbroken maximal =>
    have shaped := (Taken.word nonempty unbroken maximal).wordClass
    have reservedName : String.ofList text ∈ reservedWords → Name text := by
      intro listed
      simpa using name_of_reserved _ listed
    simp only
    -- One shape is given; the others are excluded, and with them the other classifications.
    generalize Classification.ofText text = found at shaped
    cases shaped with
    | real decimal =>
      have notDigits : ¬ Digits text := fun digits => digits.not_decimal decimal
      have notName : ¬ Name text := fun name => name.not_decimal decimal
      simp [decimal, notDigits, notName, mt reservedName notName]
    | integer digits =>
      have notName : ¬ Name text := fun name => name.not_digits digits
      simp [digits, digits.not_decimal, notName, mt reservedName notName]
    | reserved listed =>
      have name := reservedName listed
      simp [listed, name.not_decimal, name.not_digits]
    | name name free => simp [name, free, name.not_decimal, name.not_digits]
    | unknown notReal notInteger notName =>
      simp [notReal, notInteger, notName, mt reservedName notName]

/-- A number right after a string literal that holds an operator and a blank is a word of its own,
and a real number. -/
theorem classified_as_cut_after_literal :
    ⟨.word, ['2', '.', '5']⟩ ∈ ofLine ['x', '=', '"', '+', ' ', '"', '2', '.', '5', ';'] ∧
      Classification.ofText ['2', '.', '5'] = .token ⟨.literal, "real"⟩ := by
  have held : ⟨.word, ['2', '.', '5']⟩ ∈
      ofLine ['x', '=', '"', '+', ' ', '"', '2', '.', '5', ';'] := by
    decide +kernel
  have decimal : Decimal ['2', '.', '5'] :=
    ⟨['2'], ['5'], rfl, by simp [Digits], by simp [Digits]⟩
  exact ⟨held, (classified_as_cut _ _ held).2.1.mpr decimal⟩

end Fragment

end Precedence
