import Precedence.Lexeme.Lexicon

/-!
# Lexemes of a source

A lexeme that a source is read to has the token of its text. So its kind is one of the kinds that
the patterns give, and its text has a character, which makes the characters of a source a bound on
its lexemes.
-/

namespace Precedence

open Text (splitLines)

/-- Whether a lexeme has the token of its text. -/
def Lexeme.IsClassified (lexeme : Lexeme) : Prop :=
  Classification.ofText lexeme.text.toList = .token lexeme.token

/-- The kinds that fragments can have. -/
def fragmentKinds : List String :=
  Pattern.reserved ++ Pattern.operatorSigns ++ Pattern.specialSigns ++ ["id", "num", "text"]

/-- The kind of a lexeme with the token of its text is one that fragments can have. -/
theorem Lexeme.IsClassified.kind_mem {lexeme : Lexeme} (classified : lexeme.IsClassified) :
    lexeme.kind ∈ fragmentKinds := by
  obtain ⟨text, line, column, token, entry⟩ := lexeme
  simp only [Lexeme.IsClassified, Lexeme.token, Classification.ofText,
    String.ofList_toList] at classified
  simp only [Lexeme.kind, Lexeme.token, fragmentKinds, List.mem_append]
  split at classified
  · cases classified
  split at classified
  · cases classified
    exact Or.inr (by decide)
  split at classified
  · cases classified
    exact Or.inr (by decide)
  split at classified
  · cases classified
    exact Or.inr (by decide)
  split at classified
  · rename_i reserved
    cases classified
    exact Or.inl (Or.inl (Or.inl reserved))
  split at classified
  · rename_i operator
    cases classified
    exact Or.inl (Or.inl (Or.inr operator))
  split at classified
  · rename_i special
    cases classified
    exact Or.inl (Or.inr special)
  split at classified
  · cases classified
    exact Or.inr (by decide)
  · cases classified

namespace Lexicon

variable {line column : Nat} {lexicon next : Lexicon} {lexemes : List Lexeme}

/-! ## Lines -/

/-- Fragments that are read begin with white space, or with a fragment that has a token, and the
first lexeme holds the token handed out for it. -/
theorem readFragments_cons_ok {fragment : Fragment} {fragments : List Fragment}
    (read : readFragments line (fragment :: fragments) column lexicon = (.ok lexemes, next)) :
    readFragments line fragments (column + fragment.width) lexicon = (.ok lexemes, next) ∨
      ∃ token others, Classification.ofText fragment.text = .token token ∧
        readFragments line fragments (column + fragment.width) (lexicon.intern token).2 =
          (.ok others, next) ∧
        lexemes =
          ⟨String.ofList fragment.text, line, column, (lexicon.intern token).1⟩ :: others := by
  rw [readFragments] at read
  cases isKind : Classification.ofText fragment.text with
  | whitespace =>
    simp only [isKind] at read
    exact Or.inl read
  | uncategorized => simp [isKind] at read
  | token token =>
    simp only [isKind] at read
    cases later : readFragments line fragments (column + fragment.width)
        (lexicon.intern token).2 with
    | mk outcome after =>
      cases outcome with
      | error error => simp [later] at read
      | ok others =>
        simp only [later, Prod.mk.injEq, Except.ok.injEq] at read
        obtain ⟨rfl, rfl⟩ := read
        exact Or.inr ⟨token, others, rfl, later, rfl⟩

/-- The lexemes of fragments have the tokens of their texts. -/
theorem classified_of_readFragments {fragments : List Fragment}
    (read : readFragments line fragments column lexicon = (.ok lexemes, next)) :
    ∀ lexeme ∈ lexemes, lexeme.IsClassified := by
  induction fragments generalizing column lexicon lexemes with
  | nil =>
    rw [readFragments] at read
    cases read
    exact List.forall_mem_nil _
  | cons fragment fragments ih =>
    rcases readFragments_cons_ok read with later | ⟨token, others, isToken, later, rfl⟩
    · exact ih later
    · intro lexeme held
      rcases List.mem_cons.mp held with rfl | held
      · rw [Lexeme.IsClassified, String.toList_ofList, Lexeme.token, token_intern]
        exact isToken
      · exact ih later lexeme held

/-- Fragments have at most one lexeme for each character. -/
theorem length_le_of_readFragments {fragments : List Fragment}
    (read : readFragments line fragments column lexicon = (.ok lexemes, next)) :
    lexemes.length ≤ (fragments.flatMap Fragment.text).length := by
  induction fragments generalizing column lexicon lexemes with
  | nil =>
    rw [readFragments] at read
    cases read
    exact Nat.le_refl 0
  | cons fragment fragments ih =>
    rw [List.flatMap_cons, List.length_append]
    rcases readFragments_cons_ok read with later | ⟨token, others, isToken, later, rfl⟩
    · have shorter := ih later
      omega
    · have shorter := ih later
      have positive : 0 < fragment.text.length := by
        refine List.length_pos_iff.mpr ?_
        intro empty
        have unknown : Classification.ofText [] = .uncategorized := by decide
        rw [empty, unknown] at isToken
        cases isToken
      rw [List.length_cons]
      omega

/-! ## Sources -/

/-- The lexemes of lines are those of the first line and then those of the others. -/
theorem readLines_cons (line : Nat) (text : List Char) (texts : List (List Char))
    (lexicon : Lexicon) :
    (readLines line (text :: texts) lexicon).1 =
      (lexicon.readLine line text).1.bind fun lexemes =>
        (readLines (line + 1) texts (lexicon.readLine line text).2).1.map (lexemes ++ ·) := by
  rw [readLines]
  cases first : lexicon.readLine line text with
  | mk outcome after =>
    cases outcome with
    | error error => rfl
    | ok lexemes =>
      simp only [Except.bind]
      cases readLines (line + 1) texts after with
      | mk outcome last => cases outcome <;> rfl

/-- The lexemes of a line have the tokens of their texts. -/
theorem classified_of_readLine {text : List Char}
    (read : (lexicon.readLine line text).1 = .ok lexemes) :
    ∀ lexeme ∈ lexemes, lexeme.IsClassified :=
  classified_of_readFragments (Prod.ext read rfl)

/-- A line has at most one lexeme for each character. -/
theorem length_le_of_readLine {text : List Char}
    (read : (lexicon.readLine line text).1 = .ok lexemes) : lexemes.length ≤ text.length := by
  have bounded := length_le_of_readFragments (Prod.ext read rfl)
  rwa [Fragment.flatMap_ofLine] at bounded

/-- Lines have at most one lexeme for each character. -/
theorem length_le_of_readLines {texts : List (List Char)}
    (read : (readLines line texts lexicon).1 = .ok lexemes) :
    lexemes.length ≤ texts.flatten.length := by
  induction texts generalizing line lexicon lexemes with
  | nil =>
    cases read
    exact Nat.le_refl 0
  | cons text texts ih =>
    rw [readLines_cons] at read
    cases first : (lexicon.readLine line text).1 with
    | error error => simp [first, Except.bind] at read
    | ok earlier =>
      simp only [first, Except.bind] at read
      cases later : (readLines (line + 1) texts (lexicon.readLine line text).2).1 with
      | error error => simp [later, Except.map] at read
      | ok others =>
        simp only [later, Except.map, Except.ok.injEq] at read
        have firstBound := length_le_of_readLine first
        have laterBound := ih later
        rw [← read, List.length_append, List.flatten_cons, List.length_append]
        omega

/-- The lines of a text have no more characters than the text. -/
theorem length_flatten_splitLines (text : List Char) :
    (splitLines text).flatten.length ≤ text.length := by
  fun_induction splitLines text with
  | case1 => exact Nat.le_refl 0
  | case2 rest ih =>
    rw [List.flatten_cons, List.nil_append, List.length_cons]
    omega
  | case3 rest ih =>
    rw [List.flatten_cons, List.nil_append, List.length_cons, List.length_cons]
    omega
  | case4 character rest _ _ none ih =>
    simp
  | case5 character rest _ _ line lines split ih =>
    simp_all

/-- A source has at most one lexeme for each character. -/
theorem length_le_of_readSource {source : String}
    (read : (lexicon.readSource source).1 = .ok lexemes) : lexemes.length ≤ source.length := by
  have bounded := Nat.le_trans (length_le_of_readLines read) (length_flatten_splitLines _)
  rwa [String.length_toList] at bounded

end Lexicon

end Precedence
