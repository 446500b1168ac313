import Precedence.Proofs.Lexeme.Classified
import Precedence.Proofs.Lexeme.Supply

/-!
# Reading a source line by line

Reading a source at once stops at the first line that fails. Reading it on demand does not: the
pull after an error goes on with the line below. What the supply of a source gives, however often
it is pulled, is what each of its lines is read to, in order, and then the end marker for ever. The
lexemes it has recorded as consumed are always those it has handed out.

Every pull takes the first outcome of those left, or gives the end marker when none is left, and
neither the outcomes after it nor the lexicon that reading all lines leads to are changed by it.
-/

namespace Precedence

open Text (splitLines)

namespace Lexicon

/-- What reading each of some lines gives, numbered from the one given, and the lexicon after them.
A line that fails does not keep the lines below it from being read. -/
def readEachLine (line : Nat) :
    List (List Char) → Lexicon → List (Except LexicalError (List Lexeme)) × Lexicon
  | [], lexicon => ([], lexicon)
  | text :: texts, lexicon =>
    let (outcome, lexicon) := lexicon.readLine line text
    let (outcomes, lexicon) := readEachLine (line + 1) texts lexicon
    (outcome :: outcomes, lexicon)

/-! ## Lines that fail, and lines without lexemes -/

/-- Fragments that fail do so at a fragment on their line. -/
theorem line_of_readFragments {line column : Nat} {fragments : List Fragment}
    {lexicon next : Lexicon} {error : LexicalError}
    (failed : readFragments line fragments column lexicon = (.error error, next)) :
    error.lexeme.line = line := by
  induction fragments generalizing column lexicon with
  | nil => cases failed
  | cons fragment fragments ih =>
    rw [readFragments] at failed
    cases isKind : Classification.ofText fragment.text with
    | whitespace =>
      simp only [isKind] at failed
      exact ih failed
    | uncategorized =>
      simp only [isKind, Prod.mk.injEq, Except.error.injEq] at failed
      rw [← failed.1]
    | token token =>
      simp only [isKind] at failed
      cases later : readFragments line fragments (column + fragment.width)
          (lexicon.intern token).2 with
      | mk outcome after =>
        cases outcome with
        | ok others => simp [later] at failed
        | error other =>
          simp only [later, Prod.mk.injEq, Except.error.injEq] at failed
          obtain ⟨rfl, rfl⟩ := failed
          exact ih later

/-- Fragments without lexemes enter no token. -/
theorem lexicon_of_readFragments_nil {line column : Nat} {fragments : List Fragment}
    {lexicon next : Lexicon}
    (read : readFragments line fragments column lexicon = (.ok [], next)) : next = lexicon := by
  induction fragments generalizing column with
  | nil =>
    cases read
    rfl
  | cons fragment fragments ih =>
    rcases readFragments_cons_ok read with later | ⟨token, others, _, _, isNil⟩
    · exact ih later
    · cases isNil

/-- Lines that can be read are read one by one to the same lexemes and the same lexicon. -/
theorem readEachLine_of_readLines {line : Nat} {texts : List (List Char)}
    {lexicon after : Lexicon} {lexemes : List Lexeme}
    (read : readLines line texts lexicon = (.ok lexemes, after)) :
    ∃ groups : List (List Lexeme), groups.flatten = lexemes ∧
      readEachLine line texts lexicon = (groups.map .ok, after) := by
  induction texts generalizing line lexicon lexemes with
  | nil =>
    cases read
    exact ⟨[], rfl, rfl⟩
  | cons text texts ih =>
    rw [readLines] at read
    cases first : lexicon.readLine line text with
    | mk outcome middle =>
      cases outcome with
      | error error => simp [first] at read
      | ok earlier =>
        cases later : readLines (line + 1) texts middle with
        | mk others last =>
          cases others with
          | error error => simp [first, later] at read
          | ok others =>
            simp only [first, later, Prod.mk.injEq, Except.ok.injEq] at read
            obtain ⟨rfl, rfl⟩ := read
            obtain ⟨groups, rfl, each⟩ := ih later
            refine ⟨earlier :: groups, List.flatten_cons, ?_⟩
            rw [readEachLine, first]
            simp only [each, List.map_cons]

/-- Lines that fail have lines that can be read above the one that fails, and the error is on
that one. -/
theorem exists_of_readLines_error {line : Nat} {texts : List (List Char)}
    {lexicon after : Lexicon} {error : LexicalError}
    (failed : readLines line texts lexicon = (.error error, after)) :
    ∃ above text below lexemes middle, texts = above ++ text :: below ∧
      error.lexeme.line = line + above.length ∧
      readLines line above lexicon = (.ok lexemes, middle) ∧
      middle.readLine error.lexeme.line text = (.error error, after) := by
  induction texts generalizing line lexicon with
  | nil => cases failed
  | cons text texts ih =>
    rw [readLines] at failed
    cases first : lexicon.readLine line text with
    | mk outcome middle =>
      cases outcome with
      | error other =>
        simp only [first, Prod.mk.injEq, Except.error.injEq] at failed
        obtain ⟨rfl, rfl⟩ := failed
        have isLine : other.lexeme.line = line := line_of_readFragments first
        exact ⟨[], text, texts, [], lexicon, rfl, isLine, rfl, isLine ▸ first⟩
      | ok earlier =>
        cases later : readLines (line + 1) texts middle with
        | mk others last =>
          cases others with
          | ok others => simp [first, later] at failed
          | error other =>
            simp only [first, later, Prod.mk.injEq, Except.error.injEq] at failed
            obtain ⟨rfl, rfl⟩ := failed
            obtain ⟨above, failing, below, lexemes, before, rfl, isLine, read, isFailing⟩ :=
              ih later
            refine ⟨text :: above, failing, below, earlier ++ lexemes, before, rfl, ?_, ?_,
              isFailing⟩
            · rw [isLine, List.length_cons]
              omega
            · rw [readLines, first]
              simp only [read]

/-- Lines are read one by one in two parts, the second with the lexicon that the first leads to. -/
theorem readEachLine_append (line : Nat) (above below : List (List Char)) (lexicon : Lexicon) :
    (readEachLine line (above ++ below) lexicon).1 =
      (readEachLine line above lexicon).1 ++
        (readEachLine (line + above.length) below (readEachLine line above lexicon).2).1 := by
  induction above generalizing line lexicon with
  | nil => rfl
  | cons text above ih =>
    have later := ih (line + 1) (lexicon.readLine line text).2
    rw [show line + 1 + above.length = line + (text :: above).length by simp; omega] at later
    exact congrArg (_ :: ·) later

/-- Lines that fail give their error when they are read one by one. -/
theorem error_mem_readEachLine {line : Nat} {texts : List (List Char)} {lexicon after : Lexicon}
    {error : LexicalError} (failed : readLines line texts lexicon = (.error error, after)) :
    .error error ∈ (readEachLine line texts lexicon).1 := by
  obtain ⟨above, text, below, lexemes, middle, rfl, isLine, read, isFailing⟩ :=
    exists_of_readLines_error failed
  obtain ⟨groups, _, each⟩ := readEachLine_of_readLines read
  rw [isLine] at isFailing
  rw [readEachLine_append, each, readEachLine, isFailing]
  exact List.mem_append_right _ List.mem_cons_self

/-- The lexemes that a line is read to have the tokens of their texts. -/
theorem classified_of_readEachLine {line : Nat} {texts : List (List Char)} {lexicon : Lexicon}
    {lexemes : List Lexeme} (held : .ok lexemes ∈ (readEachLine line texts lexicon).1) :
    ∀ lexeme ∈ lexemes, lexeme.IsClassified := by
  induction texts generalizing line lexicon with
  | nil => cases held
  | cons text texts ih =>
    rw [readEachLine] at held
    rcases List.mem_cons.mp held with isFirst | isLater
    · exact classified_of_readLine isFirst.symm
    · exact ih isLater

/-- The lexemes that lines are read to at once have the tokens of their texts. -/
theorem classified_of_readLines {line : Nat} {texts : List (List Char)}
    {lexicon after : Lexicon} {lexemes : List Lexeme}
    (read : readLines line texts lexicon = (.ok lexemes, after)) :
    ∀ lexeme ∈ lexemes, lexeme.IsClassified := by
  obtain ⟨groups, rfl, each⟩ := readEachLine_of_readLines read
  intro lexeme held
  obtain ⟨group, isGroup, among⟩ := List.mem_flatten.mp held
  have isOutcome : .ok group ∈ (readEachLine line texts lexicon).1 := by
    rw [each]
    exact List.mem_map_of_mem isGroup
  exact classified_of_readEachLine isOutcome lexeme among

end Lexicon

namespace SourceSupply

open Lexicon (readEachLine readLines)

/-- What a line is handed out as: its lexemes one by one, or the one error it fails with. -/
def handedOut : Except LexicalError (List Lexeme) → List (Except LexicalError Element)
  | .ok lexemes => lexemes.map fun lexeme => .ok (.lexeme lexeme)
  | .error error => [.error error]

/-- The lexeme that a pull hands out, if it hands out one. -/
def handedLexeme? : Except LexicalError Element → Option Lexeme
  | .ok (.lexeme lexeme) => some lexeme
  | _ => none

/-- The lexemes of a line are what is handed out for it. -/
theorem filterMap_handedOut (lexemes : List Lexeme) :
    (handedOut (.ok lexemes)).filterMap handedLexeme? = lexemes := by
  rw [handedOut, List.filterMap_map]
  exact List.filterMap_some

/-- What pulling a supply gives before the end marker: the lexemes pending, and what each of the
lines left is handed out as. -/
def outcomes (supply : SourceSupply) : List (Except LexicalError Element) :=
  handedOut (.ok supply.pending) ++
    (readEachLine supply.line supply.lines supply.lexicon).1.flatMap handedOut

/-- The lexicon that reading all lines left leads to. -/
def lastLexicon (supply : SourceSupply) : Lexicon :=
  (readEachLine supply.line supply.lines supply.lexicon).2

/-- Lines that nothing is handed out for enter no token. -/
theorem lexicon_of_handedOut_nil {line : Nat} {texts : List (List Char)} {lexicon : Lexicon}
    (none : (readEachLine line texts lexicon).1.flatMap handedOut = []) :
    (readEachLine line texts lexicon).2 = lexicon := by
  induction texts generalizing line lexicon with
  | nil => rfl
  | cons text texts ih =>
    rw [readEachLine] at none ⊢
    cases first : lexicon.readLine line text with
    | mk outcome after =>
      simp only [first, List.flatMap_cons, List.append_eq_nil_iff] at none ⊢
      obtain ⟨noneFirst, noneLater⟩ := none
      cases outcome with
      | error error => cases noneFirst
      | ok lexemes =>
        have isNil : lexemes = [] := List.map_eq_nil_iff.mp noneFirst
        subst isNil
        have same : after = lexicon := Lexicon.lexicon_of_readFragments_nil first
        rw [ih noneLater]
        exact same

/-- A supply that has nothing left to hand out has met all tokens of its lines. -/
theorem lexicon_of_outcomes_nil {supply : SourceSupply} (none : supply.outcomes = []) :
    supply.lexicon = supply.lastLexicon :=
  (lexicon_of_handedOut_nil (List.append_eq_nil_iff.mp none).2).symm

/-! ## One pull -/

/-- What a pull gives and leaves: the first of the outcomes left, or the end marker if none is. -/
structure TakesFirst (supply : SourceSupply) (given : Except LexicalError Element)
    (rest : SourceSupply) : Prop where
  /-- The outcomes before the pull are the one given and those after the pull. -/
  outcomes : supply.outcomes = given :: rest.outcomes ∨
    supply.outcomes = [] ∧ rest.outcomes = [] ∧ given = .ok (.symbol supply.endMarker)
  /-- The end marker stays. -/
  endMarker : rest.endMarker = supply.endMarker
  /-- A lexeme given is consumed, and nothing else is. -/
  consumed : rest.consumed.toList = supply.consumed.toList ++ [given].filterMap handedLexeme?
  /-- Reading all lines leads to the same lexicon. -/
  lastLexicon : rest.lastLexicon = supply.lastLexicon

/-- The first pending lexeme is handed out. -/
theorem takesFirst_of_pending {supply : SourceSupply} {lexeme : Lexeme} {pending : List Lexeme}
    (isPending : supply.pending = lexeme :: pending) :
    TakesFirst supply (.ok (.lexeme lexeme))
      { supply with pending, consumed := supply.consumed.push lexeme } where
  outcomes := Or.inl (by rw [outcomes, isPending]; rfl)
  endMarker := rfl
  consumed := by simp [handedLexeme?]
  lastLexicon := rfl

/-- Pulling from lines with nothing pending takes the first outcome of the lines. -/
theorem takesFirst_nextOfLines (supply : SourceSupply) (texts : List (List Char))
    (isLines : supply.lines = texts) (none : supply.pending = []) :
    TakesFirst supply (supply.nextOfLines texts).1 (supply.nextOfLines texts).2 := by
  induction texts generalizing supply with
  | nil =>
    rw [nextOfLines]
    have nothing : supply.outcomes = [] := by
      rw [outcomes, none, isLines]
      rfl
    exact
      { outcomes := Or.inr ⟨nothing, by rw [outcomes, none]; rfl, rfl⟩
        endMarker := rfl
        consumed := by simp [handedLexeme?]
        lastLexicon := by rw [lastLexicon, lastLexicon, isLines] }
  | cons text texts ih =>
    rw [nextOfLines]
    cases first : supply.lexicon.readLine supply.line text with
    | mk outcome after =>
      have each : readEachLine supply.line supply.lines supply.lexicon =
          (outcome :: (readEachLine (supply.line + 1) texts after).1,
            (readEachLine (supply.line + 1) texts after).2) := by
        rw [isLines, readEachLine, first]
      cases outcome with
      | error error =>
        exact
          { outcomes := Or.inl (by rw [outcomes, outcomes, none, each]; rfl)
            endMarker := rfl
            consumed := by simp [handedLexeme?]
            lastLexicon := by rw [lastLexicon, lastLexicon, each] }
      | ok lexemes =>
        cases lexemes with
        | nil =>
          -- A line without lexemes hands nothing out, so the outcomes are those of the lines below.
          let below : SourceSupply :=
            { supply with lines := texts, line := supply.line + 1, lexicon := after }
          have later := ih below rfl none
          have sameOutcomes : supply.outcomes = below.outcomes := by
            rw [outcomes, outcomes, none, each]
            rfl
          have sameLexicon : supply.lastLexicon = below.lastLexicon := by
            rw [lastLexicon, lastLexicon, each]
          exact ⟨sameOutcomes ▸ later.outcomes, later.endMarker, later.consumed,
            sameLexicon ▸ later.lastLexicon⟩
        | cons lexeme pending =>
          exact
            { outcomes := Or.inl (by
                rw [outcomes, outcomes, none, each]
                simp [handedOut])
              endMarker := rfl
              consumed := by simp [handedLexeme?]
              lastLexicon := by rw [lastLexicon, lastLexicon, each] }

/-- A pull takes the first of the outcomes left. -/
theorem takesFirst_next {supply rest : SourceSupply} {given : Except LexicalError Element}
    (pulled : Supply.next supply = (given, rest)) : TakesFirst supply given rest := by
  have isNext : supply.next = (given, rest) := pulled
  rw [next] at isNext
  cases isPending : supply.pending with
  | nil =>
    have taken := takesFirst_nextOfLines supply supply.lines rfl isPending
    rw [isPending] at isNext
    rwa [show supply.nextOfLines supply.lines = (given, rest) from isNext] at taken
  | cons lexeme pending =>
    rw [isPending] at isNext
    cases isNext
    exact takesFirst_of_pending isPending

/-! ## Any number of pulls -/

/-- Pulling so many times gives the outcomes of a supply and then its end marker, records the
lexemes given as consumed, and leaves the outcomes after those given. -/
theorem pulls_outcomes (count : Nat) (supply : SourceSupply) :
    (Supply.pulls count supply).1 =
        (supply.outcomes ++
          List.replicate count (Except.ok (Element.symbol supply.endMarker))).take count ∧
      (Supply.pulls count supply).2.consumed.toList =
        supply.consumed.toList ++ (Supply.pulls count supply).1.filterMap handedLexeme? ∧
      (Supply.pulls count supply).2.outcomes = supply.outcomes.drop count ∧
      (Supply.pulls count supply).2.lastLexicon = supply.lastLexicon := by
  induction count generalizing supply with
  | zero => simp [Supply.pulls]
  | succ count ih =>
    rw [Supply.pulls]
    cases pulled : Supply.next supply with
    | mk given rest =>
      have taken := takesFirst_next pulled
      obtain ⟨givenLater, consumedLater, outcomesLater, lexiconLater⟩ := ih rest
      rw [taken.endMarker] at givenLater
      rw [taken.consumed] at consumedLater
      rw [taken.lastLexicon] at lexiconLater
      refine ⟨?_, ?_, ?_, lexiconLater⟩
      · show given :: (Supply.pulls count rest).1 = _
        rw [givenLater]
        rcases taken.outcomes with isFirst | ⟨isNone, restNone, isMarker⟩
        · rw [isFirst, List.cons_append, List.take_succ_cons, Supply.take_append_replicate_succ]
        · rw [isNone, restNone, isMarker, List.replicate_succ]
          rfl
      · show (Supply.pulls count rest).2.consumed.toList =
          _ ++ (given :: (Supply.pulls count rest).1).filterMap handedLexeme?
        rw [consumedLater, List.append_assoc, ← List.filterMap_append, List.singleton_append]
      · show (Supply.pulls count rest).2.outcomes = _
        rw [outcomesLater]
        rcases taken.outcomes with isFirst | ⟨isNone, restNone, _⟩
        · rw [isFirst, List.drop_succ_cons]
        · rw [isNone, restNone, List.drop_nil, List.drop_nil]

/-- Supplies that have consumed the same lexemes still have after pulls that gave the same. -/
theorem consumed_of_pulls {count : Nat} {supply other : SourceSupply}
    (same : (Supply.pulls count supply).1 = (Supply.pulls count other).1)
    (consumed : supply.consumed = other.consumed) :
    (Supply.pulls count supply).2.consumed = (Supply.pulls count other).2.consumed := by
  obtain ⟨_, isConsumed, _, _⟩ := pulls_outcomes count supply
  obtain ⟨_, isOther, _, _⟩ := pulls_outcomes count other
  rw [same, consumed] at isConsumed
  exact Array.toList_inj.mp (isConsumed.trans isOther.symm)

/-- Once all outcomes have been given, the tokens of all lines have been met. -/
theorem lexicon_of_pulls {count : Nat} {supply : SourceSupply}
    (enough : supply.outcomes.length ≤ count) :
    (Supply.pulls count supply).2.lexicon = supply.lastLexicon := by
  obtain ⟨_, _, left, sameLexicon⟩ := pulls_outcomes count supply
  rw [List.drop_eq_nil_of_le enough] at left
  rw [lexicon_of_outcomes_nil left, sameLexicon]

/-! ## Sources -/

/-- Lines read to groups of lexemes hand the lexemes out one by one. -/
theorem flatMap_handedOut (groups : List (List Lexeme)) :
    (groups.map Except.ok).flatMap handedOut = handedOut (.ok groups.flatten) := by
  rw [List.flatMap_map, List.flatMap_def]
  exact List.map_flatten.symm

/-- A line that is read is handed out as its lexemes without error. -/
theorem handedOut_ok (lexemes : List Lexeme) :
    handedOut (.ok lexemes) = (lexemes.map Element.lexeme).map .ok := by
  rw [List.map_map]
  rfl

/-- A source that can be read has its lexemes for outcomes, and its lexicon last. -/
theorem outcomes_of_readSource (endMarker : String) {source : String} {lexicon after : Lexicon}
    {lexemes : List Lexeme} (read : lexicon.readSource source = (.ok lexemes, after)) :
    (ofSource source lexicon endMarker).outcomes = handedOut (.ok lexemes) ∧
      (ofSource source lexicon endMarker).lastLexicon = after := by
  obtain ⟨groups, isLexemes, each⟩ := Lexicon.readEachLine_of_readLines read
  have eachLine : readEachLine 0 (splitLines source.toList) lexicon = (groups.map .ok, after) :=
    each
  constructor
  · rw [outcomes]
    simp only [ofSource, eachLine, flatMap_handedOut, isLexemes]
    rfl
  · simp only [lastLexicon, ofSource, eachLine]

/-- A source whose first lines can be read has their lexemes for its first outcomes, and then those
of the lines below. -/
theorem outcomes_of_take (endMarker : String) {source : String} {lexicon middle : Lexicon}
    {count : Nat} {lexemes : List Lexeme}
    (read : readLines 0 ((splitLines source.toList).take count) lexicon = (.ok lexemes, middle)) :
    (ofSource source lexicon endMarker).outcomes =
      handedOut (.ok lexemes) ++
        (readEachLine ((splitLines source.toList).take count).length
          ((splitLines source.toList).drop count) middle).1.flatMap handedOut := by
  obtain ⟨groups, isLexemes, each⟩ := Lexicon.readEachLine_of_readLines read
  have parts := Lexicon.readEachLine_append 0 ((splitLines source.toList).take count)
    ((splitLines source.toList).drop count) lexicon
  rw [List.take_append_drop, each, Nat.zero_add] at parts
  rw [outcomes]
  simp only [ofSource, parts]
  rw [List.flatMap_append, flatMap_handedOut, isLexemes]
  rfl

/-- A source that fails has for its first outcomes the lexemes above the line that fails, and then
the error. -/
theorem outcomes_of_readSource_error (endMarker : String) {source : String}
    {lexicon after : Lexicon} {error : LexicalError}
    (failed : lexicon.readSource source = (.error error, after)) :
    ∃ lexemes middle later,
      readLines 0 ((splitLines source.toList).take error.lexeme.line) lexicon =
        (.ok lexemes, middle) ∧
      (ofSource source lexicon endMarker).outcomes =
        handedOut (.ok lexemes) ++ .error error :: later := by
  obtain ⟨above, text, below, lexemes, middle, isLines, isLine, read, isFailing⟩ :=
    Lexicon.exists_of_readLines_error failed
  rw [Nat.zero_add] at isLine
  have isAbove : (splitLines source.toList).take error.lexeme.line = above := by
    rw [isLines, isLine, List.take_left]
  have isBelow : (splitLines source.toList).drop error.lexeme.line = text :: below := by
    rw [isLines, isLine, List.drop_left]
  rw [← isAbove] at read
  refine ⟨lexemes, middle, (readEachLine (above.length + 1) below after).1.flatMap handedOut,
    read, ?_⟩
  rw [isLine] at isFailing
  rw [outcomes_of_take endMarker read, isAbove, isBelow, readEachLine, isFailing]
  rfl

/-- A source that can be read gives its lexemes and then the end marker. -/
theorem gives_ofSource (endMarker : String) {source : String} {lexicon after : Lexicon}
    {lexemes : List Lexeme} (read : lexicon.readSource source = (.ok lexemes, after)) :
    Supply.Gives (ofSource source lexicon endMarker) (lexemes.map .lexeme) endMarker := by
  intro count
  obtain ⟨given, _, _, _⟩ := pulls_outcomes count (ofSource source lexicon endMarker)
  rw [(outcomes_of_readSource endMarker read).1] at given
  rw [given, handedOut_ok, List.map_take, List.map_append, List.map_replicate]
  rfl

/-- Pulling from a source gives what each of its lines is handed out as and then the end marker, and
records the lexemes given. So it gives the lexemes that the source is read to, with the same tokens
met; or, if reading the source fails, the lexemes above the line that fails and the same error. -/
theorem pulls_ofSource (source endMarker : String) (lexicon : Lexicon) :
    (∀ count,
      (Supply.pulls count (ofSource source lexicon endMarker)).1 =
        ((readEachLine 0 (splitLines source.toList) lexicon).1.flatMap handedOut ++
          List.replicate count (Except.ok (Element.symbol endMarker))).take count ∧
      (Supply.pulls count (ofSource source lexicon endMarker)).2.consumed.toList =
        (Supply.pulls count (ofSource source lexicon endMarker)).1.filterMap handedLexeme?) ∧
    (∀ lexemes after, lexicon.readSource source = (.ok lexemes, after) →
      Supply.Gives (ofSource source lexicon endMarker) (lexemes.map .lexeme) endMarker ∧
      ∀ count, lexemes.length ≤ count →
        (Supply.pulls count (ofSource source lexicon endMarker)).2.lexicon.tokens =
          after.tokens) ∧
    ∀ error after, lexicon.readSource source = (.error error, after) →
      ∃ lexemes,
        (readLines 0 ((splitLines source.toList).take error.lexeme.line) lexicon).1 =
          .ok lexemes ∧
        (Supply.pulls (lexemes.length + 1) (ofSource source lexicon endMarker)).1 =
          handedOut (.ok lexemes) ++ [.error error] := by
  refine ⟨fun count => ?_, fun lexemes after read => ⟨?_, fun count enough => ?_⟩,
    fun error after failed => ?_⟩
  · obtain ⟨given, consumed, _, _⟩ := pulls_outcomes count (ofSource source lexicon endMarker)
    exact ⟨given, consumed⟩
  · exact gives_ofSource endMarker read
  · obtain ⟨isOutcomes, isLast⟩ := outcomes_of_readSource endMarker read
    rw [lexicon_of_pulls (by rw [isOutcomes, handedOut, List.length_map]; exact enough), isLast]
  · obtain ⟨lexemes, middle, later, above, isOutcomes⟩ :=
      outcomes_of_readSource_error endMarker failed
    obtain ⟨given, _, _, _⟩ :=
      pulls_outcomes (lexemes.length + 1) (ofSource source lexicon endMarker)
    refine ⟨lexemes, congrArg Prod.fst above, ?_⟩
    have size : (handedOut (.ok lexemes)).length = lexemes.length := List.length_map _
    rw [given, isOutcomes, List.append_assoc, List.cons_append, ← size,
      List.take_length_add_append, List.take_succ_cons, List.take_zero]

/-- A blank line is passed over, and the last line fails after its first fragment: what is handed
out is the lexeme of the first line, and then the error. -/
theorem pulls_ofSource_failing :
    ∃ error after, Lexicon.empty.readSource "x\n\n; @" = (.error error, after) ∧
      error.lexeme.line = 2 ∧
      ∃ lexemes,
        (readLines 0 ((splitLines "x\n\n; @".toList).take error.lexeme.line) .empty).1 =
          .ok lexemes ∧
        (Supply.pulls (lexemes.length + 1) (ofSource "x\n\n; @" .empty "$")).1 =
          handedOut (.ok lexemes) ++ [.error error] := by
  have failsAt : (match (Lexicon.empty.readSource "x\n\n; @").1 with
      | .error error => error.lexeme.line
      | .ok _ => 0) = 2 := by decide +kernel
  cases failed : Lexicon.empty.readSource "x\n\n; @" with
  | mk outcome after =>
    rw [failed] at failsAt
    cases outcome with
    | ok lexemes => cases failsAt
    | error error =>
      exact ⟨error, after, rfl, failsAt,
        (pulls_ofSource "x\n\n; @" "$" .empty).2.2 error after failed⟩

end SourceSupply

end Precedence
