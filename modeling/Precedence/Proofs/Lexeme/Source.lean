import Precedence.Proofs.Lexeme.LineByLine

/-!
# Reading a source on demand

What a source supply has left is what reading the rest of its source at once gives. If that can be
read, its lexemes are what pulling gives; if not, pulling comes to the error. So reading on demand
until the end marker comes next gives the lexemes that reading at once gives, and they are the ones
recorded as consumed.
-/

namespace Precedence.SourceSupply

open Lexicon (readEachLine readLines)

/-- The lexemes not handed out yet: those pending and those that reading the lines left gives. -/
def remaining (supply : SourceSupply) : Except LexicalError (List Lexeme) :=
  (readLines supply.line supply.lines supply.lexicon).1.map (supply.pending ++ ·)

/-- Whether the pending lexemes have the tokens of their texts. -/
def Classified (supply : SourceSupply) : Prop :=
  ∀ lexeme ∈ supply.pending, lexeme.IsClassified

/-- Putting no lexemes before what is left changes nothing. -/
theorem map_nil_append (left : Except LexicalError (List Lexeme)) :
    left.map (([] : List Lexeme) ++ ·) = left := by
  cases left <;> rfl

/-! ## What is left, and what pulling gives -/

/-- If what is left can be read, pulling gives its lexemes. -/
theorem outcomes_of_remaining {supply : SourceSupply} {lexemes : List Lexeme}
    (isLeft : supply.remaining = .ok lexemes) : supply.outcomes = handedOut (.ok lexemes) := by
  rw [remaining] at isLeft
  cases read : readLines supply.line supply.lines supply.lexicon with
  | mk outcome after =>
    rw [read] at isLeft
    cases outcome with
    | error error => cases isLeft
    | ok later =>
      cases isLeft
      obtain ⟨groups, isLater, each⟩ := Lexicon.readEachLine_of_readLines read
      rw [outcomes, each, flatMap_handedOut, isLater]
      exact (List.map_append).symm

/-- If what is left fails, pulling comes to the error. -/
theorem error_mem_outcomes {supply : SourceSupply} {error : LexicalError}
    (isLeft : supply.remaining = .error error) : .error error ∈ supply.outcomes := by
  rw [remaining] at isLeft
  cases read : readLines supply.line supply.lines supply.lexicon with
  | mk outcome after =>
    rw [read] at isLeft
    cases outcome with
    | ok later => cases isLeft
    | error other =>
      cases isLeft
      have held : Except.error error ∈
          (readEachLine supply.line supply.lines supply.lexicon).1 :=
        Lexicon.error_mem_readEachLine read
      exact List.mem_append_right _
        (List.mem_flatMap.mpr ⟨.error error, held, List.mem_cons_self⟩)

/-- What pulling gives without an error are lexemes with the tokens of their texts. -/
theorem classified_of_mem_outcomes {supply : SourceSupply} (classified : supply.Classified)
    {element : Element} (held : .ok element ∈ supply.outcomes) :
    ∃ lexeme : Lexeme, element = .lexeme lexeme ∧ lexeme.IsClassified := by
  have ofGroup : ∀ lexemes : List Lexeme, (∀ lexeme ∈ lexemes, lexeme.IsClassified) →
      .ok element ∈ handedOut (.ok lexemes) →
        ∃ lexeme : Lexeme, element = .lexeme lexeme ∧ lexeme.IsClassified := by
    intro lexemes all among
    obtain ⟨lexeme, isLexeme, same⟩ := List.mem_map.mp among
    exact ⟨lexeme, (Except.ok.inj same).symm, all lexeme isLexeme⟩
  rcases List.mem_append.mp held with isPending | isLater
  · exact ofGroup supply.pending classified isPending
  · obtain ⟨outcome, isOutcome, among⟩ := List.mem_flatMap.mp isLater
    cases outcome with
    | error error => cases List.mem_singleton.mp among
    | ok lexemes => exact ofGroup lexemes (Lexicon.classified_of_readEachLine isOutcome) among

/-! ## Reading to the end marker -/

/-- Of lexemes and an end marker, the lexemes are handed out. -/
theorem filterMap_handedLexeme? (lexemes : List Lexeme) (endMarker : String) :
    ((lexemes.map Element.lexeme ++ [Element.symbol endMarker]).map .ok).filterMap
      handedLexeme? = lexemes := by
  rw [List.map_append, List.filterMap_append, ← handedOut_ok, filterMap_handedOut]
  exact List.append_nil lexemes

/-- What a supply has left can be read until the end marker comes next, and is then consumed. -/
theorem reads_remaining {supply : SourceSupply} {lexemes : List Lexeme}
    (isLeft : supply.remaining = .ok lexemes) :
    ∃ (lookahead : Element) (rest final : SourceSupply),
      Supply.next supply = (.ok lookahead, rest) ∧
        Supply.Reads lookahead rest (lexemes.map .lexeme) (.symbol supply.endMarker) final ∧
        final.consumed.toList = supply.consumed.toList ++ lexemes := by
  obtain ⟨given, consumed, _, _⟩ := pulls_outcomes (lexemes.length + 1) supply
  have isGiven : (Supply.pulls (lexemes.length + 1) supply).1 =
      (lexemes.map Element.lexeme ++ [Element.symbol supply.endMarker]).map .ok := by
    have size : (handedOut (.ok lexemes)).length = lexemes.length := List.length_map _
    rw [given, outcomes_of_remaining isLeft, ← size, List.take_length_add_append,
      List.replicate_succ, List.take_succ_cons, List.take_zero, handedOut_ok, List.map_append]
    rfl
  have whole : Supply.pulls ((lexemes.map Element.lexeme).length + 1) supply =
      ((lexemes.map Element.lexeme ++ [Element.symbol supply.endMarker]).map .ok,
        (Supply.pulls (lexemes.length + 1) supply).2) := by
    rw [List.length_map]
    exact Prod.ext isGiven rfl
  obtain ⟨lookahead, rest, pulled, read⟩ := Supply.reads_of_pulls whole
  refine ⟨lookahead, rest, _, pulled, read, ?_⟩
  rw [consumed, isGiven, filterMap_handedLexeme?]

/-- When the end marker comes next, the elements read before it are the lexemes that a supply had
left, and they are consumed, if no lexeme consumed has the end marker for its kind. -/
theorem remaining_of_reads {supply rest final : SourceSupply} (classified : supply.Classified)
    (fresh : ∀ lexeme ∈ final.consumed.toList, lexeme.IsClassified →
      lexeme.kind ≠ supply.endMarker)
    {lookahead last : Element} {elements : List Element}
    (pulled : Supply.next supply = (.ok lookahead, rest))
    (read : Supply.Reads lookahead rest elements last final)
    (unended : ∀ element ∈ elements, element.kind ≠ supply.endMarker)
    (isEnd : last.kind = supply.endMarker) :
    ∃ lexemes, supply.remaining = .ok lexemes ∧ elements = lexemes.map .lexeme ∧
      final.consumed.toList = supply.consumed.toList ++ lexemes := by
  obtain ⟨given, consumed, _, _⟩ := pulls_outcomes (elements.length + 1) supply
  rw [read.pulls pulled] at given consumed
  have isGiven : elements.map .ok ++ [.ok last] =
      (supply.outcomes ++ List.replicate (elements.length + 1)
        (Except.ok (Element.symbol supply.endMarker))).take (elements.length + 1) := by
    rw [← given, List.map_append]
    rfl
  have isConsumed : final.consumed.toList =
      supply.consumed.toList ++ ((elements ++ [last]).map .ok).filterMap handedLexeme? := consumed
  have unread : Except.ok (Element.symbol supply.endMarker) ∉
      elements.map (Except.ok : Element → Except LexicalError Element) := by
    intro held
    obtain ⟨element, isRead, same⟩ := List.mem_map.mp held
    exact unended element isRead (congrArg Element.kind (Except.ok.inj same))
  rcases Supply.next_of_take_padded (List.length_map _) isGiven unread with
    isLast | ⟨isOutcomes, isMarker⟩
  · -- A lexeme that comes next has been consumed by being pulled.
    obtain ⟨lexeme, rfl, isClassified⟩ :=
      classified_of_mem_outcomes classified (List.mem_of_getElem? isLast)
    have held : lexeme ∈ final.consumed.toList := by
      rw [isConsumed, List.map_append, List.filterMap_append]
      exact List.mem_append_right _ (List.mem_append_right _ List.mem_cons_self)
    exact absurd isEnd (fresh lexeme held isClassified)
  cases isLeft : supply.remaining with
  | error error =>
    have held := error_mem_outcomes isLeft
    rw [isOutcomes] at held
    obtain ⟨element, _, isError⟩ := List.mem_map.mp held
    cases isError
  | ok lexemes =>
    rw [outcomes_of_remaining isLeft, handedOut_ok] at isOutcomes
    have isElements : elements = lexemes.map .lexeme :=
      ((List.map_inj_right fun _ _ => Except.ok.inj).mp isOutcomes).symm
    refine ⟨lexemes, rfl, isElements, ?_⟩
    rw [isConsumed, isElements, Except.ok.inj isMarker, filterMap_handedLexeme?]

end Precedence.SourceSupply
