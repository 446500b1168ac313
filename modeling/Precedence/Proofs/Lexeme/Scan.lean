import Precedence.Lexeme.Scan
import Mathlib.Data.List.Chain

/-!
# Cutting in passes and scanning

Cutting a line in three passes gives the fragments that a single scan from left to right takes. A
scan looks at all that is left of the line, a pass only at the gap that it cuts. The two agree
because a gap ends where the line does or where something begins that the pass before looked for,
and nothing that a later pass looks for reaches over such a place.

`Taken` says what may be taken from a text by the characters alone: which fragment, and what must
follow it. A text has only one list of fragments that are taken from it one after another.
-/

namespace Precedence

open Text (isBlank)

namespace Fragment

/-! ## What begins a text -/

/-- A text begins with a double quote and holds another one. -/
def BeginsLiteral (text : List Char) : Prop :=
  ∃ rest, text = '"' :: rest ∧ '"' ∈ rest

/-- A text begins with a blank. -/
def BeginsBlank (text : List Char) : Prop :=
  ∃ character ∈ text.head?, isBlank character = true

/-- A text begins with an operator. -/
def BeginsOperator (text : List Char) : Prop :=
  ∃ operator ∈ operators, operator.toList <+: text

/-- A text begins with something that ends a word. -/
def BeginsDelimiter (text : List Char) : Prop :=
  BeginsLiteral text ∨ BeginsBlank text ∨ BeginsOperator text

/-- An operator has a character, and holds neither double quotes nor blanks. -/
theorem operator_characters : ∀ operator ∈ operators, operator.toList ≠ [] ∧
    ∀ character ∈ operator.toList, character ≠ '"' ∧ isBlank character = false := by
  have checked : (operators.all fun operator => !operator.toList.isEmpty &&
      operator.toList.all fun character => character != '"' && !isBlank character) = true := by
    decide +kernel
  intro operator listed
  have plain := List.all_eq_true.mp checked operator listed
  simpa using plain

/-- The characters that meet a condition go up to the first that does not. -/
theorem takeWhile_append_eq {condition : Char → Bool} {run rest : List Char}
    (met : ∀ character ∈ run, condition character = true)
    (stops : ∀ character ∈ rest.head?, condition character = false) :
    (run ++ rest).takeWhile condition = run := by
  rw [List.takeWhile_append_of_pos met]
  cases rest with
  | nil => exact List.append_nil run
  | cons next rest => rw [List.takeWhile_cons_of_neg (by simp [stops next rfl]), List.append_nil]

/-- The length of a string literal goes up to the next double quote. -/
theorem stringLiteralLength_append {inside : List Char} (closed : '"' ∉ inside)
    (rest : List Char) :
    stringLiteralLength ('"' :: inside ++ ['"'] ++ rest) = ('"' :: inside ++ ['"']).length := by
  have upTo : (inside ++ '"' :: rest).takeWhile (· != '"') = inside := by
    refine takeWhile_append_eq (fun character held => ?_) (by simp)
    rw [bne_iff_ne]
    rintro rfl
    exact closed held
  simp [stringLiteralLength, upTo]

/-- A string literal is found where one begins. -/
theorem stringLiteralLength_pos_iff {text : List Char} :
    0 < stringLiteralLength text ↔ BeginsLiteral text := by
  constructor
  · intro found
    unfold stringLiteralLength at found
    split at found
    · rename_i rest
      split at found
      · rename_i closed
        exact ⟨rest, rfl, by simpa using closed⟩
      · cases found
    · cases found
  · rintro ⟨rest, rfl, closed⟩
    rw [stringLiteralLength, if_pos (by simpa using closed)]
    omega

/-- A run of blanks is found where a blank begins a text. -/
theorem blankRunLength_pos_iff {text : List Char} :
    0 < blankRunLength text ↔ BeginsBlank text := by
  cases text with
  | nil => simp [blankRunLength, BeginsBlank]
  | cons character rest =>
    cases blank : isBlank character <;> simp [blankRunLength, BeginsBlank, blank]

/-- The run of blanks at the front of a text goes up to a character that is not blank. -/
theorem exists_blankRun (text : List Char) :
    ∃ run rest, text = run ++ rest ∧ blankRunLength text = run.length ∧
      (∀ character ∈ run, isBlank character = true) ∧ ¬ BeginsBlank rest := by
  refine ⟨text.takeWhile isBlank, text.dropWhile isBlank, List.takeWhile_append_dropWhile.symm, rfl,
    List.all_eq_true.mp List.all_takeWhile, ?_⟩
  rintro ⟨character, isHead, blank⟩
  have unblank := List.head?_dropWhile_not isBlank text
  rw [isHead] at unblank
  exact absurd blank (by simpa using unblank)

/-- A string literal at the front of a text goes up to the next double quote. -/
theorem BeginsLiteral.exists_inside {text : List Char} (literal : BeginsLiteral text) :
    ∃ inside rest, text = '"' :: inside ++ ['"'] ++ rest ∧ '"' ∉ inside := by
  obtain ⟨others, rfl, held⟩ := literal
  obtain ⟨inside, rest, rfl, closed⟩ := List.eq_append_cons_of_mem held
  exact ⟨inside, rest, by simp, closed⟩

/-- A text that begins with a string literal does not begin with a blank. -/
theorem BeginsLiteral.not_beginsBlank {text : List Char} (literal : BeginsLiteral text) :
    ¬ BeginsBlank text := by
  obtain ⟨rest, rfl, _⟩ := literal
  rintro ⟨_, ⟨⟩, blank⟩
  cases blank

/-- An operator is found where one begins, and it is the first in the list of those that do. -/
theorem operatorLength_cases (text : List Char) :
    (operatorLength text = 0 ∧ ¬ BeginsOperator text) ∨
      ∃ earlier operator later, operators = earlier ++ operator :: later ∧
        operatorLength text = operator.toList.length ∧ operator.toList <+: text ∧
        ∀ other ∈ earlier, ¬ other.toList <+: text := by
  rw [operatorLength]
  cases found : operators.find? fun operator => operator.toList.isPrefixOf text with
  | none =>
    left
    rw [List.find?_eq_none] at found
    refine ⟨rfl, ?_⟩
    rintro ⟨operator, listed, begins⟩
    exact found operator listed (List.isPrefixOf_iff_prefix.mpr begins)
  | some operator =>
    right
    obtain ⟨begins, earlier, later, listed, first⟩ := List.find?_eq_some_iff_append.mp found
    refine ⟨earlier, operator, later, listed, rfl, List.isPrefixOf_iff_prefix.mp begins, ?_⟩
    intro other held isPrefix
    simpa [List.isPrefixOf_iff_prefix.mpr isPrefix] using first other held

/-- An operator is found where one begins. -/
theorem operatorLength_pos_iff {text : List Char} :
    0 < operatorLength text ↔ BeginsOperator text := by
  rcases operatorLength_cases text with ⟨none, without⟩ | ⟨earlier, operator, later, listed, size,
    begins, _⟩
  · simp [none, without]
  · have held : operator ∈ operators := listed ▸ List.mem_append_cons_self
    have nonempty := List.length_pos_iff.mpr (operator_characters operator held).1
    exact iff_of_true (size ▸ nonempty) ⟨operator, held, begins⟩

/-- The length of an operator that begins a text is found, if none before it in the list does. -/
theorem operatorLength_append {earlier later : List String} {operator : String}
    {rest : List Char} (listed : operators = earlier ++ operator :: later)
    (first : ∀ other ∈ earlier, ¬ other.toList <+: operator.toList ++ rest) :
    operatorLength (operator.toList ++ rest) = operator.toList.length := by
  have found : (operators.find? fun candidate =>
      candidate.toList.isPrefixOf (operator.toList ++ rest)) = some operator := by
    refine List.find?_eq_some_iff_append.mpr
      ⟨List.isPrefixOf_iff_prefix.mpr (List.prefix_append _ _), earlier, later, listed, ?_⟩
    intro other among
    simpa [← List.isPrefixOf_iff_prefix] using first other among
  rw [operatorLength, found]

/-- A text that begins with an operator begins with neither a string literal nor a blank. -/
theorem not_begins_of_operator {operator : String} (listed : operator ∈ operators)
    (rest : List Char) :
    ¬ BeginsLiteral (operator.toList ++ rest) ∧ ¬ BeginsBlank (operator.toList ++ rest) := by
  obtain ⟨nonempty, plain⟩ := operator_characters operator listed
  obtain ⟨character, others, isOperator⟩ := List.exists_cons_of_ne_nil nonempty
  rw [isOperator] at plain ⊢
  have isFirst := plain character List.mem_cons_self
  constructor
  · rintro ⟨_, isQuote, _⟩
    exact isFirst.1 (List.cons.inj isQuote).1
  · rintro ⟨_, ⟨⟩, blank⟩
    rw [isFirst.2] at blank
    cases blank

/-- The test for a delimiter finds what ends a word. -/
theorem beginsDelimiter_iff {text : List Char} :
    beginsDelimiter text = true ↔ BeginsDelimiter text := by
  simp only [beginsDelimiter, Bool.or_eq_true, decide_eq_true_eq, stringLiteralLength_pos_iff,
    blankRunLength_pos_iff, operatorLength_pos_iff, BeginsDelimiter, or_assoc]

/-- A blank at the front of a text stays there when the text goes on. -/
theorem beginsBlank_append {text : List Char} (nonempty : text ≠ []) (rest : List Char) :
    BeginsBlank (text ++ rest) ↔ BeginsBlank text := by
  cases text with
  | nil => exact absurd rfl nonempty
  | cons character others => simp [BeginsBlank]

/-- An operator that begins a text does not reach over a double quote or a blank after the text. -/
theorem operator_prefix_append_iff {operator : String} (listed : operator ∈ operators)
    {text after : List Char} (bounded : after ≠ [] → BeginsLiteral after ∨ BeginsBlank after) :
    operator.toList <+: text ++ after ↔ operator.toList <+: text := by
  refine ⟨fun begins => ?_, fun begins => begins.trans (List.prefix_append _ _)⟩
  rcases List.prefix_or_prefix_of_prefix begins (List.prefix_append text after) with
    within | ⟨extra, isOperator⟩
  · exact within
  cases extra with
  | nil => exact ⟨[], by simpa using isOperator.symm⟩
  | cons character extra =>
    -- The first character of the operator after the text is the quote or the blank.
    rw [← isOperator, List.prefix_append_right_inj] at begins
    obtain ⟨rest, rfl⟩ := begins
    have plain := (operator_characters operator listed).2 character (by simp [← isOperator])
    rcases bounded (by simp) with ⟨_, isQuote, _⟩ | ⟨_, isFirst, blank⟩
    · exact absurd (List.cons.inj isQuote).1 plain.1
    · rw [← Option.some.inj isFirst, plain.2] at blank
      cases blank

/-! ## Taking fragments one after another -/

/-- No text that begins inside a run and goes on to what follows the run meets a condition. -/
def Nowhere (condition : List Char → Prop) (run rest : List Char) : Prop :=
  ∀ tail, tail ≠ [] → tail <:+ run → ¬ condition (tail ++ rest)

/-- An empty run has no text that begins inside it. -/
theorem nowhere_nil (condition : List Char → Prop) (rest : List Char) :
    Nowhere condition [] rest :=
  fun _ nonempty isSuffix => absurd (List.suffix_nil.mp isSuffix) nonempty

/-- A condition that is met nowhere in a run is met nowhere in its parts. -/
theorem Nowhere.append {condition : List Char → Prop} {first second rest : List Char}
    (nowhere : Nowhere condition (first ++ second) rest) :
    Nowhere condition first (second ++ rest) ∧ Nowhere condition second rest := by
  constructor
  · rintro tail nonempty ⟨before, rfl⟩ met
    refine nowhere (tail ++ second) (by simp [nonempty]) ⟨before, by simp⟩ ?_
    rwa [List.append_assoc]
  · intro tail nonempty isSuffix
    exact nowhere tail nonempty (isSuffix.trans (List.suffix_append _ _))

/-- A condition that is met nowhere in a run is met nowhere in the run with a character after it,
if it is not met there either. -/
theorem Nowhere.concat {condition : List Char → Prop} {run rest : List Char} {character : Char}
    (nowhere : Nowhere condition run (character :: rest))
    (unmet : ¬ condition (character :: rest)) :
    Nowhere condition (run ++ [character]) rest := by
  rintro tail nonempty ⟨before, isRun⟩
  rcases List.eq_nil_or_concat tail with none | ⟨earlier, last, rfl⟩
  · exact absurd none nonempty
  rw [List.concat_eq_append, ← List.append_assoc] at isRun
  obtain ⟨rfl, isLast⟩ := List.append_inj' isRun rfl
  obtain rfl : last = character := (List.cons.inj isLast).1
  rw [List.concat_eq_append, List.append_assoc, List.singleton_append]
  cases earlier with
  | nil => exact unmet
  | cons => exact nowhere _ (List.cons_ne_nil _ _) (List.suffix_append _ _)

/-- A fragment may be taken from the front of a text with the given rest after it. -/
inductive Taken : Fragment → List Char → Prop
  /-- A double quote, the characters up to the next one, and that one. -/
  | stringLiteral {inside rest : List Char} (closed : '"' ∉ inside) :
      Taken ⟨.stringLiteral, '"' :: inside ++ ['"']⟩ rest
  /-- All blanks up to a character that is not blank. -/
  | whitespace {run rest : List Char} (nonempty : run ≠ [])
      (blank : ∀ character ∈ run, isBlank character = true) (maximal : ¬ BeginsBlank rest) :
      Taken ⟨.whitespace, run⟩ rest
  /-- An operator such that none before it in the list begins the text. -/
  | operator {earlier later : List String} {operator : String} {rest : List Char}
      (listed : operators = earlier ++ operator :: later)
      (first : ∀ other ∈ earlier, ¬ other.toList <+: operator.toList ++ rest) :
      Taken ⟨.operator, operator.toList⟩ rest
  /-- All characters up to the first place where something else begins. -/
  | word {run rest : List Char} (nonempty : run ≠ [])
      (unbroken : Nowhere BeginsDelimiter run rest)
      (maximal : rest ≠ [] → BeginsDelimiter rest) : Taken ⟨.word, run⟩ rest

/-- Fragments taken one after another from the front of a text leave the given rest. -/
inductive Scanned : List Char → List Fragment → List Char → Prop
  /-- Nothing is taken. -/
  | nil (rest : List Char) : Scanned rest [] rest
  /-- A first fragment is taken, and others from what follows it. -/
  | cons {fragment : Fragment} {middle rest : List Char} {fragments : List Fragment}
      (first : Taken fragment middle) (others : Scanned middle fragments rest) :
      Scanned (fragment.text ++ middle) (fragment :: fragments) rest

/-- Fragments taken after others are taken together with them. -/
theorem Scanned.trans {text middle rest : List Char} {earlier later : List Fragment}
    (first : Scanned text earlier middle) (second : Scanned middle later rest) :
    Scanned text (earlier ++ later) rest := by
  induction first with
  | nil => exact second
  | cons taken _ ih => exact .cons taken (ih second)

/-- A fragment that is taken has a character. -/
theorem Taken.text_ne_nil {fragment : Fragment} {rest : List Char}
    (taken : Taken fragment rest) : fragment.text ≠ [] := by
  cases taken with
  | stringLiteral => exact List.cons_ne_nil _ _
  | whitespace nonempty => exact nonempty
  | operator listed => exact (operator_characters _ (listed ▸ List.mem_append_cons_self)).1
  | word nonempty => exact nonempty

/-! ## The scan takes the fragments -/

/-- A word goes up to the first delimiter. -/
theorem wordLength_append {run rest : List Char} (unbroken : Nowhere BeginsDelimiter run rest)
    (maximal : rest ≠ [] → BeginsDelimiter rest) : wordLength (run ++ rest) = run.length := by
  induction run with
  | nil =>
    cases rest with
    | nil => rfl
    | cons character rest =>
      have begins := beginsDelimiter_iff.mpr (maximal (List.cons_ne_nil _ _))
      rw [List.nil_append, wordLength, if_pos begins, List.length_nil]
  | cons character run ih =>
    have without : ¬ BeginsDelimiter (character :: (run ++ rest)) :=
      unbroken (character :: run) (List.cons_ne_nil _ _) (List.suffix_refl _)
    have parts : Nowhere BeginsDelimiter ([character] ++ run) rest := unbroken
    rw [List.cons_append, wordLength, if_neg (mt beginsDelimiter_iff.mp without),
      ih parts.append.2, List.length_cons]

/-- The first fragment of a text is the one that may be taken from it. -/
theorem Taken.first_eq {fragment : Fragment} {rest : List Char} (taken : Taken fragment rest) :
    first (fragment.text ++ rest) = (fragment.kind, fragment.text.length) := by
  rw [first]
  cases taken with
  | @stringLiteral inside _ closed =>
    have begins : BeginsLiteral ('"' :: inside ++ ['"'] ++ rest) := ⟨_, rfl, by simp⟩
    rw [if_pos (stringLiteralLength_pos_iff.mpr begins), stringLiteralLength_append closed]
  | @whitespace run _ nonempty blank maximal =>
    obtain ⟨character, others, rfl⟩ := List.exists_cons_of_ne_nil nonempty
    have isFirst := blank character List.mem_cons_self
    have begins : BeginsBlank (character :: others ++ rest) := ⟨character, rfl, isFirst⟩
    have upTo : (character :: others ++ rest).takeWhile isBlank = character :: others := by
      refine takeWhile_append_eq blank fun next isNext => ?_
      exact Bool.eq_false_iff.mpr fun isBlank => maximal ⟨next, isNext, isBlank⟩
    rw [if_neg fun found => (stringLiteralLength_pos_iff.mp found).not_beginsBlank begins,
      if_pos (blankRunLength_pos_iff.mpr begins), blankRunLength, upTo]
  | @operator _ _ operator _ listed isFirst =>
    have held : operator ∈ operators := listed ▸ List.mem_append_cons_self
    have without := not_begins_of_operator held rest
    rw [if_neg (mt stringLiteralLength_pos_iff.mp without.1),
      if_neg (mt blankRunLength_pos_iff.mp without.2),
      if_pos (operatorLength_pos_iff.mpr ⟨_, held, List.prefix_append _ _⟩),
      operatorLength_append listed isFirst]
  | @word run _ nonempty unbroken maximal =>
    have without := unbroken run nonempty (List.suffix_refl run)
    rw [BeginsDelimiter, not_or, not_or] at without
    rw [if_neg (mt stringLiteralLength_pos_iff.mp without.1),
      if_neg (mt blankRunLength_pos_iff.mp without.2.1),
      if_neg (mt operatorLength_pos_iff.mp without.2.2), wordLength_append unbroken maximal]

/-- Fragments taken one after another up to the end of a text are those of its scan. -/
theorem Scanned.eq_scan {text : List Char} {fragments : List Fragment}
    (scanned : Scanned text fragments []) : fragments = scan text := by
  generalize isEnd : ([] : List Char) = rest at scanned
  induction scanned with
  | nil =>
    subst isEnd
    rw [scan]
  | @cons fragment middle _ fragments taken _ ih =>
    have isFirst := taken.first_eq
    obtain ⟨character, others, isText⟩ :=
      List.exists_cons_of_ne_nil (List.append_ne_nil_of_left_ne_nil taken.text_ne_nil middle)
    rw [isText] at isFirst ⊢
    rw [scan, isFirst, ← isText]
    simp only [List.take_left, List.drop_left, ih isEnd]

/-! ## Cutting around matches -/

/-- Pieces of a text, matches and the gaps between them. Where a match stands the pattern is found,
and nowhere in a gap; a gap ends where the text does or where a match begins. -/
inductive IsCut (matchLength : List Char → Nat) : List Char → List Piece → Prop
  /-- No text has no pieces. -/
  | nil : IsCut matchLength [] []
  /-- A match comes first. -/
  | found {text : List Char} {pieces : List Piece} (found : 0 < matchLength text)
      (others : IsCut matchLength (text.drop (matchLength text)) pieces) :
      IsCut matchLength text (⟨text.take (matchLength text), true⟩ :: pieces)
  /-- A gap comes first. -/
  | gap {gap rest : List Char} {pieces : List Piece} (nonempty : gap ≠ [])
      (unmatched : Nowhere (0 < matchLength ·) gap rest)
      (maximal : rest ≠ [] → 0 < matchLength rest) (others : IsCut matchLength rest pieces) :
      IsCut matchLength (gap ++ rest) (⟨gap, false⟩ :: pieces)

variable {matchLength : List Char → Nat}

/-- The gap before a match, if there is any, is a piece of its own. -/
theorem isCut_gapBefore {reversed rest : List Char} {pieces : List Piece}
    (unmatched : Nowhere (0 < matchLength ·) reversed.reverse rest)
    (maximal : rest ≠ [] → 0 < matchLength rest) (others : IsCut matchLength rest pieces) :
    IsCut matchLength (reversed.reverse ++ rest) (gapBefore reversed ++ pieces) := by
  cases reversed with
  | nil => exact others
  | cons character reversed => exact .gap (by simp) unmatched maximal others

/-- Cutting a text after a gap in which nothing is found gives the pieces of both. -/
theorem isCut_cutFrom {gap text : List Char}
    (unmatched : Nowhere (0 < matchLength ·) gap.reverse text) :
    IsCut matchLength (gap.reverse ++ text) (cutFrom matchLength gap text) := by
  fun_induction cutFrom matchLength gap text with
  | case1 gap =>
    have cut := isCut_gapBefore unmatched (fun nonempty => absurd rfl nonempty) .nil
    rwa [List.append_nil (gapBefore gap)] at cut
  | case2 gap character rest none ih =>
    rw [List.reverse_cons, List.append_assoc] at ih
    exact ih (unmatched.concat (by simp [none]))
  | case3 gap character rest length isLength ih =>
    have found : 0 < matchLength (character :: rest) := by omega
    have later : IsCut matchLength ((character :: rest).drop (matchLength (character :: rest)))
        (cutFrom matchLength [] (rest.drop length)) := by
      rw [isLength]
      exact ih (nowhere_nil _ _)
    have cut := IsCut.found found later
    rw [isLength] at cut
    exact isCut_gapBefore unmatched (fun _ => found) cut

/-- Cutting a text gives its pieces. -/
theorem isCut_cut (matchLength : List Char → Nat) (text : List Char) :
    IsCut matchLength text (cut matchLength text) :=
  isCut_cutFrom (show Nowhere (0 < matchLength ·) [].reverse text from nowhere_nil _ _)

/-! ## The three passes -/

variable {text after : List Char} {pieces : List Piece}

/-- Pieces around operators are the operators and words that a scan takes from a text without string
literals and blanks, if it ends before one of these or with the line. -/
theorem scanned_of_operators (isCut : IsCut operatorLength text pieces)
    (noLiteral : Nowhere BeginsLiteral text after) (noBlank : Nowhere BeginsBlank text after)
    (bounded : after ≠ [] → BeginsLiteral after ∨ BeginsBlank after) :
    Scanned (text ++ after)
      (pieces.map fun piece => ⟨if piece.isMatch then .operator else .word, piece.text⟩) after := by
  induction isCut with
  | nil => exact .nil after
  | @found text pieces found _ ih =>
    rcases operatorLength_cases text with
      ⟨none, _⟩ | ⟨earlier, operator, later, listed, size, ⟨rest, rfl⟩, first⟩
    · omega
    rw [size, List.drop_left] at ih
    rw [size, List.take_left, List.append_assoc]
    refine .cons (.operator listed fun other among => ?_)
      (ih noLiteral.append.2 noBlank.append.2)
    rw [← List.append_assoc, operator_prefix_append_iff (by simp [listed, among]) bounded]
    exact first other among
  | @gap gap rest pieces nonempty unmatched maximal _ ih =>
    rw [List.append_assoc]
    refine .cons (.word nonempty ?_ ?_) (ih noLiteral.append.2 noBlank.append.2)
    · rintro tail isTail isSuffix (literal | blank | ⟨operator, listed, begins⟩)
      · exact noLiteral.append.1 tail isTail isSuffix literal
      · exact noBlank.append.1 tail isTail isSuffix blank
      · rw [← List.append_assoc, operator_prefix_append_iff listed bounded] at begins
        exact unmatched tail isTail isSuffix (operatorLength_pos_iff.mpr ⟨operator, listed, begins⟩)
    · intro more
      cases rest with
      | nil => exact (bounded more).imp_right Or.inl
      | cons character rest =>
        obtain ⟨operator, listed, begins⟩ :=
          operatorLength_pos_iff.mp (maximal (List.cons_ne_nil _ _))
        exact Or.inr (Or.inr ⟨operator, listed, begins.trans (List.prefix_append _ _)⟩)

/-- Pieces around runs of blanks are cut to the fragments that a scan takes from a text without
string literals, if it ends before one of these or with the line. -/
theorem scanned_of_blanks (isCut : IsCut blankRunLength text pieces)
    (noLiteral : Nowhere BeginsLiteral text after) (bounded : after ≠ [] → BeginsLiteral after) :
    Scanned (text ++ after)
      (pieces.flatMap fun piece =>
        if piece.isMatch then [⟨.whitespace, piece.text⟩] else ofSolid piece.text) after := by
  induction isCut with
  | nil => exact .nil after
  | @found text pieces found _ ih =>
    obtain ⟨run, rest, rfl, size, blank, stops⟩ := exists_blankRun text
    rw [size, List.drop_left] at ih
    rw [size, List.take_left, List.append_assoc]
    refine .cons (.whitespace (List.length_pos_iff.mp (size ▸ found)) blank ?_)
      (ih noLiteral.append.2)
    cases rest with
    | nil =>
      intro begins
      cases after with
      | nil => obtain ⟨_, ⟨⟩, _⟩ := begins
      | cons => exact (bounded (List.cons_ne_nil _ _)).not_beginsBlank begins
    | cons => exact stops
  | @gap gap rest pieces nonempty unmatched maximal _ ih =>
    rw [List.append_assoc]
    refine Scanned.trans (scanned_of_operators (isCut_cut _ _) noLiteral.append.1 ?_ ?_)
      (ih noLiteral.append.2)
    · intro tail isTail isSuffix begins
      rw [beginsBlank_append isTail, ← beginsBlank_append isTail rest] at begins
      exact unmatched tail isTail isSuffix (blankRunLength_pos_iff.mpr begins)
    · intro more
      cases rest with
      | nil => exact Or.inl (bounded more)
      | cons =>
        have begins := blankRunLength_pos_iff.mp (maximal (List.cons_ne_nil _ _))
        exact Or.inr ((beginsBlank_append (List.cons_ne_nil _ _) after).mpr begins)

/-- Pieces around string literals are cut to the fragments that a scan takes. -/
theorem scanned_of_literals (isCut : IsCut stringLiteralLength text pieces) :
    Scanned text
      (pieces.flatMap fun piece =>
        if piece.isMatch then [⟨.stringLiteral, piece.text⟩] else ofUnquoted piece.text) [] := by
  induction isCut with
  | nil => exact .nil []
  | @found text pieces found _ ih =>
    obtain ⟨inside, rest, rfl, closed⟩ := (stringLiteralLength_pos_iff.mp found).exists_inside
    rw [stringLiteralLength_append closed, List.drop_left] at ih
    rw [stringLiteralLength_append closed, List.take_left]
    exact .cons (.stringLiteral closed) ih
  | @gap gap rest pieces nonempty unmatched maximal _ ih =>
    refine Scanned.trans (scanned_of_blanks (isCut_cut _ _) ?_ ?_) ih
    · intro tail isTail isSuffix begins
      exact unmatched tail isTail isSuffix (stringLiteralLength_pos_iff.mpr begins)
    · exact fun more => stringLiteralLength_pos_iff.mp (maximal more)

/-- The fragments of a line are taken from it one after another. -/
theorem scanned_ofLine (line : List Char) : Scanned line (ofLine line) [] :=
  scanned_of_literals (isCut_cut _ _)

/-! ## Neighbours -/

/-- Two neighbouring fragments are not both words and not both white space. -/
def Apart (fragment next : Fragment) : Prop :=
  fragment.kind = next.kind → fragment.kind ≠ .word ∧ fragment.kind ≠ .whitespace

/-- Words and white space go as far as they can, so what is taken next is something else. -/
theorem Taken.apart {fragment next : Fragment} {rest : List Char}
    (taken : Taken fragment (next.text ++ rest)) (takenNext : Taken next rest) :
    Apart fragment next := by
  intro same
  cases taken with
  | stringLiteral => simp
  | operator => simp
  | whitespace _ _ stops =>
    cases takenNext with
    | @whitespace run _ nonempty blank =>
      obtain ⟨character, others, rfl⟩ := List.exists_cons_of_ne_nil nonempty
      exact absurd ⟨character, rfl, blank character List.mem_cons_self⟩ stops
    | _ => cases same
  | word _ _ maximal =>
    cases takenNext with
    | @word run _ nonempty unbroken =>
      exact absurd (maximal (List.append_ne_nil_of_left_ne_nil nonempty _))
        (unbroken run nonempty (List.suffix_refl run))
    | _ => cases same

/-- Fragments taken one after another have characters, and no two neighbours among them are both
words or both white space. -/
theorem Scanned.isChain {text rest : List Char} {fragments : List Fragment}
    (scanned : Scanned text fragments rest) :
    [] ∉ fragments.map Fragment.text ∧ fragments.IsChain Apart := by
  induction scanned with
  | nil => exact ⟨List.not_mem_nil, .nil⟩
  | @cons fragment middle rest fragments taken others ih =>
    refine ⟨?_, ?_⟩
    · rw [List.map_cons, List.mem_cons, not_or]
      exact ⟨taken.text_ne_nil.symm, ih.1⟩
    · cases others with
      | nil => exact .singleton _
      | cons takenNext => exact .cons_cons (taken.apart takenNext) ih.2

/-- The fragments of a line are those of its scan, and the only ones that are taken from it one
after another. They spell the line, each has a character, and no two neighbours are both words or
both white space. -/
theorem ofLine_eq_scan (line : List Char) :
    ofLine line = scan line ∧
      (∀ fragments, Scanned line fragments [] ↔ fragments = ofLine line) ∧
      (ofLine line).flatMap Fragment.text = line ∧
      [] ∉ (ofLine line).map Fragment.text ∧ (ofLine line).IsChain Apart := by
  have scanned := scanned_ofLine line
  have isScan : ofLine line = scan line := scanned.eq_scan
  refine ⟨isScan, fun fragments => ?_, flatMap_ofLine line, scanned.isChain⟩
  constructor
  · intro other
    rw [isScan, other.eq_scan]
  · rintro rfl
    exact scanned

/-- A string literal holds an operator and a blank, and a last quote without another after it
belongs to a word. -/
example : ofLine ['x', '=', '"', '+', ' ', '"', '"', 'y'] =
    [⟨.word, ['x']⟩, ⟨.operator, ['=']⟩, ⟨.stringLiteral, ['"', '+', ' ', '"']⟩,
      ⟨.word, ['"', 'y']⟩] := by
  decide +kernel

end Fragment

end Precedence
