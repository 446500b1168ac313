import Precedence.Proofs.Lexeme.Placement

/-!
# Spacing does not matter

The texts of the lexemes of a line can be written one after another with any blanks between them and
are read to the same texts with the same tokens. A lexeme depends on what follows it only through
two things: a longer operator could begin where it stands, or a quote after it could close one that
it holds. Blanks rule out the first, since no operator reaches over a blank, and the second does not
arise, since no lexeme but a string literal holds a quote.
-/

namespace Precedence

open Text (isBlank)

/-- Texts written one after another, each with blanks after it: at least one between two texts, any
number after the last one. -/
inductive Spaced : List (List Char) → List Char → Prop
  /-- No texts are written as nothing. -/
  | nil : Spaced [] []
  /-- The last text may have no blank after it. -/
  | last (text : List Char) {gap : List Char}
      (blank : ∀ character ∈ gap, isBlank character = true) : Spaced [text] (text ++ gap)
  /-- Some blanks stand between a text and the next one. -/
  | cons (text : List Char) {gap rest : List Char} {texts : List (List Char)} (nonempty : gap ≠ [])
      (blank : ∀ character ∈ gap, isBlank character = true) (others : Spaced texts rest) :
      Spaced (text :: texts) (text ++ (gap ++ rest))

namespace Fragment

variable {text rest : List Char} {fragment : Fragment}

/-! ## Fragments before blanks -/

/-- A fragment that is no white space may be taken wherever a blank follows it or nothing does. -/
structure Detached (fragment : Fragment) : Prop where
  /-- It is no white space. -/
  kind_ne : fragment.kind ≠ .whitespace
  /-- A blank after it, or nothing, does not change it. -/
  taken : ∀ rest, (rest ≠ [] → BeginsBlank rest) → Taken fragment rest

/-- A word that has a token holds no quote. -/
theorem Taken.quote_not_mem_word (taken : Taken ⟨.word, text⟩ rest) {token : Token}
    (isToken : Classification.ofText text = .token token) : '"' ∉ text := by
  have shaped := taken.wordClass
  rw [isToken] at shaped
  cases shaped with
  | real decimal => exact Pattern.quote_not_mem (Or.inl decimal)
  | integer digits => exact Pattern.quote_not_mem (Or.inr (Or.inl digits))
  | reserved listed =>
    have name := Pattern.name_of_reserved _ listed
    rw [String.toList_ofList] at name
    exact Pattern.quote_not_mem (Or.inr (Or.inr name))
  | name name => exact Pattern.quote_not_mem (Or.inr (Or.inr name))

/-- A fragment that has a token does not depend on what follows it, if that begins with a blank. -/
theorem Taken.detached (taken : Taken fragment rest) {token : Token}
    (isToken : Classification.ofText fragment.text = .token token) : fragment.Detached := by
  cases id taken with
  | stringLiteral closed => exact ⟨by simp, fun _ _ => .stringLiteral closed⟩
  | whitespace nonempty blank =>
    rw [Classification.ofText_blank nonempty blank] at isToken
    cases isToken
  | @operator earlier later operator _ listed first =>
    refine ⟨by simp, fun after bounded => .operator listed fun other among begins => ?_⟩
    have known : other ∈ operators := by simp [listed, among]
    rw [operator_prefix_append_iff known fun more => Or.inr (bounded more)] at begins
    exact first other among (begins.trans (List.prefix_append _ _))
  | @word text _ nonempty unbroken _ =>
    have noQuote := taken.quote_not_mem_word isToken
    refine ⟨by simp, fun after bounded => .word nonempty ?_ fun more =>
      Or.inr (Or.inl (bounded more))⟩
    -- Without quotes and blanks inside, only an operator that reaches over the end could break it.
    rintro tail isTail isSuffix (⟨others, isQuote, _⟩ | blank | ⟨operator, listed, begins⟩)
    · obtain ⟨first, tail, rfl⟩ := List.exists_cons_of_ne_nil isTail
      obtain rfl : first = '"' := (List.cons.inj isQuote).1
      exact noQuote (isSuffix.subset List.mem_cons_self)
    · rw [beginsBlank_append isTail, ← beginsBlank_append isTail rest] at blank
      exact unbroken tail isTail isSuffix (Or.inr (Or.inl blank))
    · rw [operator_prefix_append_iff listed fun more => Or.inr (bounded more)] at begins
      exact unbroken tail isTail isSuffix
        (Or.inr (Or.inr ⟨operator, listed, begins.trans (List.prefix_append _ _)⟩))

/-- A text from which something else than white space is taken does not begin with a blank. -/
theorem Taken.not_beginsBlank (taken : Taken fragment rest)
    (notSpace : fragment.kind ≠ .whitespace) : ¬ BeginsBlank (fragment.text ++ rest) := by
  cases taken with
  | stringLiteral => exact BeginsLiteral.not_beginsBlank ⟨_, rfl, by simp⟩
  | whitespace => exact absurd rfl notSpace
  | operator listed => exact (not_begins_of_operator (listed ▸ List.mem_append_cons_self) rest).2
  | @word text _ nonempty unbroken _ =>
    exact fun blank => unbroken text nonempty (List.suffix_refl _) (Or.inr (Or.inl blank))

/-- A detached fragment comes first on a line that goes on with a blank, or not at all. -/
theorem Detached.ofLine_append (detached : fragment.Detached)
    (bounded : rest ≠ [] → BeginsBlank rest) :
    ofLine (fragment.text ++ rest) = fragment :: ofLine rest :=
  (Scanned.cons (detached.taken rest bounded) (scanned_ofLine rest)).eq_ofLine.symm

/-- White space comes first on a line that goes on with something else. -/
theorem ofLine_append_blanks {run : List Char} (nonempty : run ≠ [])
    (blank : ∀ character ∈ run, isBlank character = true) (stops : ¬ BeginsBlank rest) :
    ofLine (run ++ rest) = ⟨.whitespace, run⟩ :: ofLine rest :=
  (Scanned.cons (.whitespace nonempty blank stops) (scanned_ofLine rest)).eq_ofLine.symm

/-! ## What fragments are read to -/

/-- The text and the token of a fragment that has a token. -/
def reading? (fragment : Fragment) : Option (String × Token) :=
  (Classification.ofText fragment.text).token?.map (String.ofList fragment.text, ·)

/-- The texts and tokens of fragments are those of their lexemes. -/
theorem map_lexemesOf (line : Nat) (fragments : List Fragment) (column : Nat) (lexicon : Lexicon) :
    (Lexicon.lexemesOf line fragments column lexicon).map
        (fun lexeme => (lexeme.text, lexeme.token)) =
      fragments.filterMap reading? := by
  induction fragments generalizing column lexicon with
  | nil => rfl
  | cons fragment fragments ih =>
    rw [Lexicon.lexemesOf, List.filterMap_cons, reading?]
    cases Classification.ofText fragment.text with
    | whitespace => exact ih _ _
    | uncategorized => exact ih _ _
    | token token =>
      have isToken := lexicon.token_intern token
      exact congrArg₂ List.cons (congrArg (Prod.mk _) isToken) (ih _ _)

/-- A line is read to texts and tokens: all its fragments match a pattern, and those that have a
token have these. -/
def ReadsTo (line : List Char) (readings : List (String × Token)) : Prop :=
  Lexicon.hasUnknown (ofLine line) = false ∧ (ofLine line).filterMap reading? = readings

/-- An empty line is read to nothing. -/
theorem readsTo_nil : ReadsTo [] [] := by
  rw [ReadsTo, ← (Scanned.nil []).eq_ofLine]
  exact ⟨rfl, rfl⟩

/-- Blanks before a line that begins with something else do not matter. -/
theorem readsTo_append_blanks {run : List Char}
    (blank : ∀ character ∈ run, isBlank character = true) (stops : ¬ BeginsBlank rest)
    {readings : List (String × Token)} :
    ReadsTo (run ++ rest) readings ↔ ReadsTo rest readings := by
  by_cases nonempty : run = []
  · rw [nonempty, List.nil_append]
  · have isSpace := Classification.ofText_blank nonempty blank
    rw [ReadsTo, ofLine_append_blanks nonempty blank stops, Lexicon.hasUnknown, List.any_cons,
      List.filterMap_cons, reading?]
    simp only [isSpace]
    rfl

/-- A detached fragment that has a token is read before what follows it. -/
theorem Detached.readsTo_append (detached : fragment.Detached) {token : Token}
    (isToken : Classification.ofText fragment.text = .token token)
    (bounded : rest ≠ [] → BeginsBlank rest) {readings : List (String × Token)}
    (read : ReadsTo rest readings) :
    ReadsTo (fragment.text ++ rest) ((String.ofList fragment.text, token) :: readings) := by
  obtain ⟨known, rfl⟩ := read
  rw [ReadsTo, detached.ofLine_append bounded, Lexicon.hasUnknown, List.any_cons,
    List.filterMap_cons, reading?]
  simp only [isToken]
  exact ⟨known, rfl⟩

/-- A lexeme is made of a detached fragment that has its token. -/
def IsMadeInto (fragment : Fragment) (lexeme : Lexeme) : Prop :=
  fragment.Detached ∧ Classification.ofText fragment.text = .token lexeme.token ∧
    String.ofList fragment.text = lexeme.text

/-- The lexemes of fragments that are taken one after another are made of detached fragments. -/
theorem isMadeInto_of_lexemesOf {fragments : List Fragment} (scanned : Scanned text fragments rest)
    (line column : Nat) (lexicon : Lexicon) :
    ∀ lexeme ∈ Lexicon.lexemesOf line fragments column lexicon,
      ∃ fragment : Fragment, fragment.IsMadeInto lexeme := by
  induction scanned generalizing column lexicon with
  | nil => exact List.forall_mem_nil _
  | @cons fragment _ _ fragments taken _ ih =>
    rw [Lexicon.lexemesOf]
    cases isKind : Classification.ofText fragment.text with
    | whitespace => exact ih _ _
    | uncategorized => exact ih _ _
    | token token =>
      intro lexeme held
      rcases List.mem_cons.mp held with rfl | held
      · refine ⟨fragment, taken.detached isKind, ?_, rfl⟩
        rw [isKind, Lexeme.token, Lexicon.token_intern]
      · exact ih _ _ lexeme held

/-- Lexemes made of detached fragments and written one after another with blanks between them are
read to their texts and tokens. -/
theorem readsTo_of_spaced {lexemes : List Lexeme}
    (made : ∀ lexeme ∈ lexemes, ∃ fragment : Fragment, fragment.IsMadeInto lexeme)
    (spaced : Spaced (lexemes.map (·.text.toList)) rest) :
    ¬ BeginsBlank rest ∧
      ReadsTo rest (lexemes.map fun lexeme => (lexeme.text, lexeme.token)) := by
  generalize isTexts : lexemes.map (·.text.toList) = texts at spaced
  induction spaced generalizing lexemes with
  | nil =>
    obtain rfl := List.map_eq_nil_iff.mp isTexts
    exact ⟨by simp [BeginsBlank], readsTo_nil⟩
  | @last _ gap blank =>
    obtain ⟨lexeme, rfl, rfl⟩ := List.map_eq_singleton_iff.mp isTexts
    obtain ⟨fragment, detached, isToken, isText⟩ := made lexeme List.mem_cons_self
    have bounded : gap ≠ [] → BeginsBlank gap := by
      intro more
      rw [← List.append_nil gap]
      exact beginsBlank_of_run more blank []
    have nothing : ReadsTo gap [] := by
      have read := (readsTo_append_blanks blank (by simp [BeginsBlank])).mpr readsTo_nil
      rwa [List.append_nil] at read
    rw [← isText, String.toList_ofList]
    refine ⟨(detached.taken gap bounded).not_beginsBlank detached.kind_ne, ?_⟩
    simpa [isText] using detached.readsTo_append isToken bounded nothing
  | @cons _ gap rest _ nonempty blank _ ih =>
    obtain ⟨lexeme, lexemes, rfl, rfl, rfl⟩ := List.map_eq_cons_iff.mp isTexts
    obtain ⟨fragment, detached, isToken, isText⟩ := made lexeme List.mem_cons_self
    obtain ⟨stops, read⟩ := ih (fun other held => made other (List.mem_cons_of_mem _ held)) rfl
    have bounded : gap ++ rest ≠ [] → BeginsBlank (gap ++ rest) :=
      fun _ => beginsBlank_of_run nonempty blank rest
    have later := (readsTo_append_blanks blank stops).mpr read
    rw [← isText, String.toList_ofList]
    refine ⟨(detached.taken _ bounded).not_beginsBlank detached.kind_ne, ?_⟩
    simpa [isText] using detached.readsTo_append isToken bounded later

end Fragment

/-- The texts of the lexemes of a line, written one after another with any blanks before, between
and after them, at least one between neighbours, are read to as many lexemes with the same texts and
tokens, whatever lexicon and line number they are read with. -/
theorem Lexicon.readLine_spaced {lexicon after : Lexicon} {line : Nat} {text : List Char}
    {lexemes : List Lexeme} (read : lexicon.readLine line text = (.ok lexemes, after))
    {lead rest : List Char} (blank : ∀ character ∈ lead, isBlank character = true)
    (spaced : Spaced (lexemes.map (·.text.toList)) rest) (other : Lexicon) (number : Nat) :
    ∃ respaced last, other.readLine number (lead ++ rest) = (.ok respaced, last) ∧
      respaced.map Lexeme.text = lexemes.map Lexeme.text ∧
      respaced.map Lexeme.token = lexemes.map Lexeme.token := by
  have known : hasUnknown (Fragment.ofLine text) = false := by
    rcases lexicon.readLine_cases line text with ⟨_, _, known, _⟩ | ⟨_, failed, _⟩
    · exact known
    · rw [failed] at read
      cases read
  have isRead := readFragments_known known line 0 lexicon
  obtain rfl : lexemesOf line (Fragment.ofLine text) 0 lexicon = lexemes := by
    rw [← readLine, read] at isRead
    cases isRead
    rfl
  obtain ⟨stops, reads⟩ := Fragment.readsTo_of_spaced
    (Fragment.isMadeInto_of_lexemesOf (Fragment.scanned_ofLine text) line 0 lexicon) spaced
  obtain ⟨alsoKnown, same⟩ := (Fragment.readsTo_append_blanks blank stops).mpr reads
  rw [← Fragment.map_lexemesOf number _ 0 other] at same
  have texts := congrArg (List.map Prod.fst) same
  have tokens := congrArg (List.map Prod.snd) same
  rw [List.map_map, List.map_map] at texts tokens
  exact ⟨_, _, readFragments_known alsoKnown number 0 other, texts, tokens⟩

/-- A name, an operator, a string literal with an operator and a blank in it, and a number stand
next to each other on a line. With blanks between them they are read again. -/
theorem Lexicon.readLine_spaced_neighbours :
    let text := ['x', '=', '=', '"', '=', ' ', '"', '1']
    let lexemes : List Lexeme := [⟨"x", 0, 0, ⟨⟨.identifier, "id"⟩, some 0⟩⟩,
      ⟨"==", 0, 1, ⟨⟨.operator, "=="⟩, some 1⟩⟩,
      ⟨"\"= \"", 0, 3, ⟨⟨.literal, "string"⟩, some 2⟩⟩,
      ⟨"1", 0, 7, ⟨⟨.literal, "integer"⟩, some 3⟩⟩]
    let rest := ['x', ' ', '=', '=', ' ', '"', '=', ' ', '"', '\t', '1']
    (empty.readLine 0 text).1.toOption = some lexemes ∧
      Spaced (lexemes.map (·.text.toList)) rest ∧
      ∃ respaced last, empty.readLine 3 (' ' :: rest) = (.ok respaced, last) ∧
        respaced.map Lexeme.text = lexemes.map Lexeme.text ∧
        respaced.map Lexeme.token = lexemes.map Lexeme.token := by
  intro text lexemes rest
  have isRead : (empty.readLine 0 text).1.toOption = some lexemes := by decide +kernel
  have read : empty.readLine 0 text = (.ok lexemes, (empty.readLine 0 text).2) := by
    refine Prod.ext ?_ rfl
    cases outcome : (empty.readLine 0 text).1 with
    | error error => simp [outcome, Except.toOption] at isRead
    | ok others => simpa [outcome, Except.toOption] using isRead
  have blank : ∀ character ∈ [' '], isBlank character = true := List.forall_mem_singleton.mpr rfl
  have tab : ∀ character ∈ ['\t'], isBlank character = true := List.forall_mem_singleton.mpr rfl
  have spaced : Spaced (lexemes.map (·.text.toList)) rest :=
    .cons ['x'] (List.cons_ne_nil ' ' []) blank <|
      .cons ['=', '='] (List.cons_ne_nil ' ' []) blank <|
        .cons ['"', '=', ' ', '"'] (List.cons_ne_nil '\t' []) tab <|
          .last ['1'] (List.forall_mem_nil _)
  exact ⟨isRead, spaced, readLine_spaced read blank spaced empty 3⟩

end Precedence
