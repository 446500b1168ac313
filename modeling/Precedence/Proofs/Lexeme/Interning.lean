import Precedence.Distinct
import Precedence.Proofs.Lexeme.LineByLine
import Mathlib.Data.List.Nodup

/-!
# Interning tokens

A lexicon keeps a list of tokens and an index of their places in step. It hands out a token from
the one entry that holds it, whether the entry is new or not, and entries never move. So tokens that
are handed out one after another have the same entry only if they are the same.

Reading fragments, a line or lines has the tokens of their fragments handed out in order, and gives
each lexeme the token handed out for its own fragment. Reading that fails has the tokens before the
failing fragment handed out all the same, and gives no lexeme. What is handed out is told by the
lines that are read: `lineTokens` for each of them.
-/

namespace Precedence

open Text (splitLines)

/-- The token of a fragment, if it has one. -/
def Classification.token? : Classification → Option Token
  | .token found => some found
  | .whitespace | .uncategorized => none

/-- The token of a fragment has a category. -/
theorem Classification.isUncategorized_of_ofText {fragment : List Char} {token : Token}
    (isToken : Classification.ofText fragment = .token token) : token.isUncategorized = false := by
  simp only [Classification.ofText] at isToken
  repeat' split at isToken
  all_goals
    cases isToken
    try rfl

/-- Whether a lexeme has the token of its text, and holds it as one of those handed out. -/
def Lexeme.IsHandedFrom (lexeme : Lexeme) (handed : List SharedToken) : Prop :=
  lexeme.IsClassified ∧ lexeme.shared ∈ handed

/-- What a lexeme holds stays among those handed out when others follow. -/
theorem Lexeme.IsHandedFrom.append_left {lexeme : Lexeme} {handed : List SharedToken}
    (isHanded : lexeme.IsHandedFrom handed) (later : List SharedToken) :
    lexeme.IsHandedFrom (handed ++ later) :=
  isHanded.imp_right (List.mem_append_left later)

/-- What a lexeme holds stays among those handed out when others come before. -/
theorem Lexeme.IsHandedFrom.append_right {lexeme : Lexeme} {handed : List SharedToken}
    (isHanded : lexeme.IsHandedFrom handed) (earlier : List SharedToken) :
    lexeme.IsHandedFrom (earlier ++ handed) :=
  isHanded.imp_right (List.mem_append_right earlier)

namespace Lexicon

/-! ## Entering a token -/

/-- Whether the index gives the place of each token in the list, and of no other token. -/
def Indexed (lexicon : Lexicon) : Prop :=
  ∀ token place, lexicon.position? token = some place ↔ lexicon.tokens[place]? = some token

variable {lexicon : Lexicon}

/-- A lexicon that has met no token is indexed. -/
theorem indexed_empty : empty.Indexed := by
  intro token place
  simp [empty, position?]

/-- The index of a lexicon lacks exactly the tokens that the list lacks. -/
theorem Indexed.position?_eq_none_iff (indexed : lexicon.Indexed) {token : Token} :
    lexicon.position? token = none ↔ token ∉ lexicon.tokens := by
  rw [Option.eq_none_iff_forall_ne_some, List.mem_iff_getElem?, not_exists]
  exact forall_congr' fun place => not_congr (indexed token place)

/-- A token that the index has is handed out from its place. -/
theorem intern_of_some {token : Token} {place : Nat}
    (found : lexicon.position? token = some place) :
    lexicon.intern token = (⟨token, some place⟩, lexicon) := by
  rw [intern, found]

/-- A token that the index lacks is entered at the end of the list and handed out from there. -/
theorem intern_of_none {token : Token} (none : lexicon.position? token = none) :
    lexicon.intern token = (⟨token, some lexicon.tokens.length⟩,
      ⟨lexicon.tokens ++ [token], (token, lexicon.tokens.length) :: lexicon.index⟩) := by
  rw [intern, none]

/-- Entering a token keeps the tokens before it where they are. -/
theorem tokens_prefix_intern (lexicon : Lexicon) (token : Token) :
    lexicon.tokens <+: (lexicon.intern token).2.tokens := by
  cases found : lexicon.position? token with
  | some place => simp only [intern_of_some found, List.prefix_refl]
  | none =>
    rw [intern_of_none found]
    exact List.prefix_append _ _

/-- Entering a token keeps the index and the list in step. -/
theorem Indexed.intern (indexed : lexicon.Indexed) (token : Token) :
    (lexicon.intern token).2.Indexed := by
  cases found : lexicon.position? token with
  | some place =>
    rw [intern_of_some found]
    exact indexed
  | none =>
    rw [intern_of_none found]
    intro other place
    have missing := indexed.position?_eq_none_iff.mp found
    rw [position?, List.lookup_cons]
    by_cases same : other = token
    · subst same
      have absent : lexicon.tokens[place]? ≠ some other :=
        fun stands => missing (List.mem_of_getElem? stands)
      rw [beq_self_eq_true]
      grind
    · have distinct : (other == token) = false := beq_false_of_ne same
      have earlier := indexed other place
      rw [position?] at earlier
      rw [distinct]
      grind

/-- Entering a token adds it to the list if the list lacks it. -/
theorem Indexed.tokens_intern (indexed : lexicon.Indexed) (token : Token) :
    (lexicon.intern token).2.tokens = addMissing lexicon.tokens token := by
  rw [addMissing]
  cases found : lexicon.position? token with
  | some place =>
    have held := List.mem_of_getElem? ((indexed token place).mp found)
    rw [intern_of_some found, if_pos held]
  | none => rw [intern_of_none found, if_neg (indexed.position?_eq_none_iff.mp found)]

/-- The entry of a token that is handed out is the place that the index has for it afterwards. -/
theorem entry_intern (lexicon : Lexicon) (token : Token) :
    ∃ place, (lexicon.intern token).1 = ⟨token, some place⟩ ∧
      (lexicon.intern token).2.position? token = some place := by
  cases found : lexicon.position? token with
  | some place => exact ⟨place, by rw [intern_of_some found], by rw [intern_of_some found, found]⟩
  | none =>
    refine ⟨lexicon.tokens.length, by rw [intern_of_none found], ?_⟩
    rw [intern_of_none found, position?, List.lookup_cons, beq_self_eq_true]

/-- A token that a lexicon has stands at the same place in every lexicon that goes on from it. -/
theorem Indexed.position?_of_prefix {after : Lexicon} (indexed : lexicon.Indexed)
    (indexedAfter : after.Indexed) (goesOn : lexicon.tokens <+: after.tokens) {token : Token}
    {place : Nat} (found : lexicon.position? token = some place) :
    after.position? token = some place := by
  obtain ⟨others, same⟩ := goesOn
  have stands := (indexed token place).mp found
  have within := (List.getElem?_eq_some_iff.mp stands).1
  rw [indexedAfter token place, ← same, List.getElem?_append_left within, stands]

/-! ## Entering tokens one after another -/

/-- The tokens handed out for tokens entered one after another, and the lexicon after them. -/
def internAll (lexicon : Lexicon) : List Token → List SharedToken × Lexicon
  | [] => ([], lexicon)
  | token :: tokens =>
    let (first, lexicon) := lexicon.intern token
    let (others, lexicon) := lexicon.internAll tokens
    (first :: others, lexicon)

/-- The tokens handed out are those asked for. -/
theorem map_token_internAll (lexicon : Lexicon) (tokens : List Token) :
    (lexicon.internAll tokens).1.map SharedToken.token = tokens := by
  induction tokens generalizing lexicon with
  | nil => rfl
  | cons token tokens ih => exact congrArg₂ List.cons (lexicon.token_intern token) (ih _)

/-- Tokens are entered in two parts, the second into the lexicon that the first leads to. -/
theorem internAll_append (lexicon : Lexicon) (first second : List Token) :
    lexicon.internAll (first ++ second) =
      ((lexicon.internAll first).1 ++ ((lexicon.internAll first).2.internAll second).1,
        ((lexicon.internAll first).2.internAll second).2) := by
  induction first generalizing lexicon with
  | nil => rfl
  | cons token first ih => simp only [List.cons_append, internAll, ih]

/-- Entering tokens keeps those before them where they are. -/
theorem tokens_prefix_internAll (lexicon : Lexicon) (tokens : List Token) :
    lexicon.tokens <+: (lexicon.internAll tokens).2.tokens := by
  induction tokens generalizing lexicon with
  | nil => exact List.prefix_refl _
  | cons token tokens ih => exact (lexicon.tokens_prefix_intern token).trans (ih _)

/-- Entering tokens keeps the index and the list in step. -/
theorem Indexed.internAll (indexed : lexicon.Indexed) (tokens : List Token) :
    (lexicon.internAll tokens).2.Indexed := by
  induction tokens generalizing lexicon with
  | nil => exact indexed
  | cons token tokens ih => exact ih (indexed.intern token)

/-- Entering tokens adds each that the list lacks, in order. -/
theorem Indexed.tokens_internAll (indexed : lexicon.Indexed) (tokens : List Token) :
    (lexicon.internAll tokens).2.tokens = tokens.foldl addMissing lexicon.tokens := by
  induction tokens generalizing lexicon with
  | nil => rfl
  | cons token tokens ih =>
    rw [List.foldl_cons, ← indexed.tokens_intern token]
    exact ih (indexed.intern token)

/-- Each token that is handed out has the place where it stands after all of them. -/
theorem Indexed.entry_of_mem_internAll (indexed : lexicon.Indexed) {tokens : List Token}
    {shared : SharedToken} (handed : shared ∈ (lexicon.internAll tokens).1) :
    ∃ place, shared.entry = some place ∧
      (lexicon.internAll tokens).2.position? shared.token = some place := by
  induction tokens generalizing lexicon with
  | nil => cases handed
  | cons token tokens ih =>
    have next := indexed.intern token
    rcases List.mem_cons.mp handed with same | later
    · obtain ⟨place, isFirst, found⟩ := lexicon.entry_intern token
      obtain rfl := same.trans isFirst
      exact ⟨place, rfl, next.position?_of_prefix (next.internAll tokens)
        (tokens_prefix_internAll _ tokens) found⟩
    · exact ih next later

/-! ## What reading enters -/

/-- The tokens of fragments, up to the first fragment without a pattern. -/
def fragmentTokens (fragments : List Fragment) : List Token :=
  ((fragments.map fun fragment => Classification.ofText fragment.text).takeWhile
    (· ≠ .uncategorized)).filterMap Classification.token?

/-- The tokens of a line, up to its first fragment without a pattern. -/
def lineTokens (text : List Char) : List Token :=
  fragmentTokens (Fragment.ofLine text)

/-- Whether some fragment matches no pattern. -/
def hasUnknown (fragments : List Fragment) : Bool :=
  fragments.any fun fragment => Classification.ofText fragment.text = .uncategorized

/-- Whether a line has a fragment without a pattern. -/
def lineFails (text : List Char) : Bool :=
  hasUnknown (Fragment.ofLine text)

/-- The lines up to and including the first one that meets a condition; all lines if none does. -/
def throughFirst (condition : List Char → Bool) (texts : List (List Char)) : List (List Char) :=
  texts.take (texts.findIdx condition + 1)

/-- The first line is the last one taken if it meets the condition. -/
theorem throughFirst_cons (condition : List Char → Bool) (text : List Char)
    (texts : List (List Char)) :
    throughFirst condition (text :: texts) =
      text :: if condition text then [] else throughFirst condition texts := by
  cases met : condition text <;> simp [throughFirst, List.findIdx_cons, met]

/-- Every token of fragments has a category. -/
theorem isUncategorized_of_mem_fragmentTokens {fragments : List Fragment} {token : Token}
    (held : token ∈ fragmentTokens fragments) : token.isUncategorized = false := by
  obtain ⟨classification, among, isToken⟩ := List.mem_filterMap.mp held
  obtain ⟨fragment, _, rfl⟩ := List.mem_map.mp ((List.takeWhile_sublist _).subset among)
  cases isKind : Classification.ofText fragment.text with
  | token found =>
    rw [isKind] at isToken
    cases isToken
    exact Classification.isUncategorized_of_ofText isKind
  | whitespace => simp [isKind, Classification.token?] at isToken
  | uncategorized => simp [isKind, Classification.token?] at isToken

/-- The tokens of fragments begin with the token of the first one, if it has one, and end before it,
if it matches no pattern. -/
theorem fragmentTokens_cons (fragment : Fragment) (fragments : List Fragment) :
    fragmentTokens (fragment :: fragments) =
      match Classification.ofText fragment.text with
      | .whitespace => fragmentTokens fragments
      | .uncategorized => []
      | .token token => token :: fragmentTokens fragments := by
  rw [fragmentTokens, List.map_cons, List.takeWhile_cons]
  cases Classification.ofText fragment.text <;> rfl

/-- Reading fragments has their tokens handed out and gives a lexeme for each of them, or fails if
there is a fragment without a pattern. -/
theorem readFragments_cases (line : Nat) (fragments : List Fragment) (column : Nat)
    (lexicon : Lexicon) :
    (∃ lexemes, readFragments line fragments column lexicon =
        (.ok lexemes, (lexicon.internAll (fragmentTokens fragments)).2) ∧
      hasUnknown fragments = false ∧
      lexemes.map Lexeme.shared = (lexicon.internAll (fragmentTokens fragments)).1) ∨
    ∃ error, readFragments line fragments column lexicon =
        (.error error, (lexicon.internAll (fragmentTokens fragments)).2) ∧
      hasUnknown fragments = true := by
  induction fragments generalizing column lexicon with
  | nil => exact Or.inl ⟨[], rfl, rfl, rfl⟩
  | cons fragment fragments ih =>
    rw [readFragments, fragmentTokens_cons, hasUnknown, List.any_cons]
    cases isKind : Classification.ofText fragment.text with
    | whitespace => exact ih (column + fragment.width) lexicon
    | uncategorized => exact Or.inr ⟨_, rfl, rfl⟩
    | token found =>
      rcases ih (column + fragment.width) (lexicon.intern found).2 with
        ⟨lexemes, read, known, isHanded⟩ | ⟨error, failed, unknown⟩
      · left
        refine ⟨_, by simp only [read]; rfl, known, ?_⟩
        rw [List.map_cons, isHanded]
        rfl
      · right
        exact ⟨error, by simp only [failed]; rfl, unknown⟩

/-- Reading a line has its tokens handed out and gives a lexeme for each of them, or fails. -/
theorem readLine_cases (lexicon : Lexicon) (line : Nat) (text : List Char) :
    (∃ lexemes, lexicon.readLine line text =
        (.ok lexemes, (lexicon.internAll (lineTokens text)).2) ∧
      lineFails text = false ∧
      lexemes.map Lexeme.shared = (lexicon.internAll (lineTokens text)).1) ∨
    ∃ error, lexicon.readLine line text =
        (.error error, (lexicon.internAll (lineTokens text)).2) ∧ lineFails text = true :=
  readFragments_cases line (Fragment.ofLine text) 0 lexicon

/-- Reading lines has the tokens of all lines up to the first one that fails handed out and, unless
one does, gives a lexeme for each of them. -/
theorem readLines_cases (line : Nat) (texts : List (List Char)) (lexicon : Lexicon) :
    let tokens := (throughFirst lineFails texts).flatMap lineTokens
    (readLines line texts lexicon).2 = (lexicon.internAll tokens).2 ∧
      ∀ lexemes, (readLines line texts lexicon).1 = .ok lexemes →
        lexemes.map Lexeme.shared = (lexicon.internAll tokens).1 := by
  induction texts generalizing line lexicon with
  | nil =>
    refine ⟨rfl, fun lexemes read => ?_⟩
    cases read
    rfl
  | cons text texts ih =>
    simp only [readLines, throughFirst_cons]
    rcases lexicon.readLine_cases line text with
      ⟨earlier, read, known, isHanded⟩ | ⟨error, failed, unknown⟩
    · obtain ⟨sameLexicon, sameTokens⟩ :=
        ih (line + 1) (lexicon.internAll (lineTokens text)).2
      rw [known, if_neg Bool.false_ne_true, List.flatMap_cons, internAll_append]
      cases later : readLines (line + 1) texts (lexicon.internAll (lineTokens text)).2 with
      | mk outcome after =>
        rw [later] at sameLexicon sameTokens
        cases outcome with
        | ok others =>
          simp only [read, later]
          refine ⟨sameLexicon, fun lexemes isOk => ?_⟩
          cases isOk
          rw [List.map_append, isHanded, sameTokens others rfl]
        | error error =>
          simp only [read, later]
          exact ⟨sameLexicon, fun lexemes isOk => by cases isOk⟩
    · rw [unknown, if_pos rfl, List.flatMap_cons, List.flatMap_nil, List.append_nil]
      simp only [failed]
      exact ⟨trivial, fun lexemes isOk => by cases isOk⟩

/-- Reading a line enters its tokens. The lexemes that it gives hold tokens handed out for it. -/
theorem readLine_enters (lexicon : Lexicon) (line : Nat) (text : List Char) :
    let entered := lexicon.internAll (lineTokens text)
    (lexicon.readLine line text).2 = entered.2 ∧
      ∀ lexeme ∈ (lexicon.readLine line text).1.toOption.getD [],
        lexeme.IsHandedFrom entered.1 := by
  rcases lexicon.readLine_cases line text with
    ⟨lexemes, read, _, isHanded⟩ | ⟨error, failed, _⟩
  · have classified := classified_of_readLine (congrArg Prod.fst read)
    simp only [read, ← isHanded]
    exact ⟨trivial, fun lexeme given => ⟨classified lexeme given, List.mem_map_of_mem given⟩⟩
  · simp only [failed]
    exact ⟨trivial, List.forall_mem_nil _⟩

/-- Reading a source at once enters the tokens of its lines up to the first one that fails. The
lexemes that it gives hold tokens handed out for those. -/
theorem readSource_enters (lexicon : Lexicon) (source : String) :
    let texts := throughFirst lineFails (splitLines source.toList)
    let entered := lexicon.internAll (texts.flatMap lineTokens)
    (lexicon.readSource source).2 = entered.2 ∧
      ∀ lexeme ∈ (lexicon.readSource source).1.toOption.getD [],
        lexeme.IsHandedFrom entered.1 := by
  intro texts entered
  obtain ⟨sameLexicon, isHanded⟩ := readLines_cases 0 (splitLines source.toList) lexicon
  refine ⟨sameLexicon, ?_⟩
  cases read : (lexicon.readSource source).1 with
  | ok lexemes =>
    have classified := classified_of_readLines (Prod.ext read rfl)
    have handed : lexemes.map Lexeme.shared = entered.1 := isHanded lexemes read
    exact fun lexeme given => ⟨classified lexeme given, handed ▸ List.mem_map_of_mem given⟩
  | error error => exact List.forall_mem_nil _

end Lexicon

namespace SourceSupply

open Lexicon (lineFails lineTokens throughFirst)

/-- Whether a line ends a pull: it fails, or it has a token. -/
def endsPull (text : List Char) : Bool :=
  lineFails text || !(lineTokens text).isEmpty

/-- Pulling from lines with nothing pending has the tokens of all lines up to the first one that
fails or has a token handed out. The lexemes given and pending afterwards hold the tokens of their
texts, as handed out for those lines. -/
theorem nextOfLines_enters (supply : SourceSupply) (texts : List (List Char))
    (none : supply.pending = []) :
    let entered := supply.lexicon.internAll ((throughFirst endsPull texts).flatMap lineTokens)
    (supply.nextOfLines texts).2.lexicon = entered.2 ∧
      ∀ lexeme ∈ (handedLexeme? (supply.nextOfLines texts).1).toList ++
          (supply.nextOfLines texts).2.pending,
        lexeme.IsHandedFrom entered.1 := by
  induction texts generalizing supply with
  | nil =>
    rw [nextOfLines]
    exact ⟨rfl, by simp [handedLexeme?, none]⟩
  | cons text texts ih =>
    simp only [nextOfLines, Lexicon.throughFirst_cons]
    rcases supply.lexicon.readLine_cases supply.line text with
      ⟨lexemes, read, known, isHanded⟩ | ⟨error, failed, unknown⟩
    · have isTokens := supply.lexicon.map_token_internAll (lineTokens text)
      rw [← isHanded] at isTokens
      cases lexemes with
      | nil =>
        have noTokens : lineTokens text = [] := isTokens.symm
        have goesOn : endsPull text = false := by simp [endsPull, known, noTokens]
        rw [goesOn, if_neg Bool.false_ne_true, List.flatMap_cons, noTokens, List.nil_append]
        simp only [read, noTokens]
        exact ih { supply with lines := texts, line := supply.line + 1 } none
      | cons lexeme pending =>
        have isLast : endsPull text = true := by simp [endsPull, ← isTokens]
        rw [isLast, if_pos rfl, List.flatMap_cons, List.flatMap_nil, List.append_nil]
        simp only [read, ← isHanded]
        exact ⟨trivial, fun other held =>
          ⟨Lexicon.classified_of_readLine (congrArg Prod.fst read) other held,
            List.mem_map_of_mem held⟩⟩
    · have isLast : endsPull text = true := by simp [endsPull, unknown]
      rw [isLast, if_pos rfl, List.flatMap_cons, List.flatMap_nil, List.append_nil]
      simp only [failed]
      exact ⟨trivial, by simp [handedLexeme?, none]⟩

/-- A pull enters the tokens of the lines that it reads: none if a lexeme is pending. The lexemes
given and pending afterwards were pending before it, or hold tokens handed out for those lines. -/
theorem next_enters (supply : SourceSupply) :
    let texts := if supply.pending = [] then throughFirst endsPull supply.lines else []
    let entered := supply.lexicon.internAll (texts.flatMap lineTokens)
    supply.next.2.lexicon = entered.2 ∧
      ∀ lexeme ∈ (handedLexeme? supply.next.1).toList ++ supply.next.2.pending,
        lexeme ∈ supply.pending ∨ lexeme.IsHandedFrom entered.1 := by
  rw [next]
  cases waits : supply.pending with
  | nil =>
    obtain ⟨sameLexicon, handed⟩ := supply.nextOfLines_enters supply.lines waits
    exact ⟨sameLexicon, fun lexeme held => Or.inr (handed lexeme held)⟩
  | cons first pending => exact ⟨rfl, fun lexeme held => Or.inl held⟩

end SourceSupply

end Precedence
