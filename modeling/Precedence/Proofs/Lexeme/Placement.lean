import Precedence.Proofs.Lexeme.Agreement
import Precedence.Proofs.Lexeme.Interning

/-!
# Where lexemes stand

The lexemes of a line stand where their texts stand in it, each after the one before it, and every
character outside them is blank. A line that fails is sound up to the fragment that it fails at: the
text before that fragment is read to lexemes, and to the lexicon that the failing line leads to.

For that the text before a fragment must be cut as it is cut within the line. It is: a fragment may
still be taken when the text ends after some fragment that follows it, because nothing begins in the
shorter text that does not begin in the longer one, and what ended a word before still ends it.
-/

namespace Precedence

open Text (isBlank)

namespace Fragment

variable {text middle rest after : List Char} {fragment next : Fragment}

/-! ## The fragments of the front of a line -/

/-- Fragments taken from a text and what they leave spell the text. -/
theorem Scanned.spells {fragments : List Fragment} (scanned : Scanned text fragments rest) :
    text = fragments.flatMap Fragment.text ++ rest := by
  induction scanned with
  | nil => rfl
  | cons _ _ ih => rw [List.flatMap_cons, List.append_assoc, ← ih]

/-- The first of some fragments is taken from the front of the text, and the others from what
follows it. -/
theorem Scanned.uncons {fragments : List Fragment}
    (scanned : Scanned text (fragment :: fragments) rest) :
    ∃ middle, text = fragment.text ++ middle ∧ Taken fragment middle ∧
      Scanned middle fragments rest := by
  cases scanned with
  | cons taken others => exact ⟨_, rfl, taken, others⟩

/-- Fragments taken one after another up to the end of a text are the fragments of the text. -/
theorem Scanned.eq_ofLine {fragments : List Fragment} (scanned : Scanned text fragments []) :
    fragments = ofLine text :=
  scanned.eq_scan.trans (scanned_ofLine text).eq_scan.symm

/-- A blank at the front of a text stays there when the text goes on. -/
theorem BeginsBlank.append (begins : BeginsBlank text) (after : List Char) :
    BeginsBlank (text ++ after) := by
  obtain ⟨character, isFirst, blank⟩ := begins
  exact ⟨character, List.mem_head?_append_of_mem_head? isFirst, blank⟩

/-- What begins a text still begins it when the text goes on. -/
theorem BeginsDelimiter.append (begins : BeginsDelimiter text) (after : List Char) :
    BeginsDelimiter (text ++ after) := by
  rcases begins with ⟨others, rfl, closed⟩ | blank | ⟨operator, listed, isPrefix⟩
  · exact Or.inl ⟨others ++ after, rfl, List.mem_append_left after closed⟩
  · exact Or.inr (Or.inl (blank.append after))
  · exact Or.inr (Or.inr ⟨operator, listed, isPrefix.trans (List.prefix_append text after)⟩)

/-- A text that begins with a run of blanks begins with a blank. -/
theorem beginsBlank_of_run {run : List Char} (nonempty : run ≠ [])
    (blank : ∀ character ∈ run, isBlank character = true) (rest : List Char) :
    BeginsBlank (run ++ rest) := by
  obtain ⟨first, others, rfl⟩ := List.exists_cons_of_ne_nil nonempty
  exact ⟨first, rfl, blank first List.mem_cons_self⟩

/-- A fragment that is no word begins the text that it is taken from with a delimiter. -/
theorem Taken.beginsDelimiter (taken : Taken fragment rest) (notWord : fragment.kind ≠ .word) :
    BeginsDelimiter (fragment.text ++ rest) := by
  cases taken with
  | stringLiteral => exact Or.inl ⟨_, rfl, by simp⟩
  | whitespace nonempty blank => exact Or.inr (Or.inl (beginsBlank_of_run nonempty blank rest))
  | operator listed =>
    exact Or.inr (Or.inr ⟨_, listed ▸ List.mem_append_cons_self, List.prefix_append _ _⟩)
  | word => exact absurd rfl notWord

/-- A fragment may still be taken when the rest ends sooner, if a delimiter still ends a word. -/
theorem Taken.of_append (taken : Taken fragment (rest ++ after))
    (ended : fragment.kind = .word → rest ≠ [] → BeginsDelimiter rest) : Taken fragment rest := by
  cases taken with
  | stringLiteral closed => exact .stringLiteral closed
  | whitespace nonempty blank maximal =>
    exact .whitespace nonempty blank fun begins => maximal (begins.append after)
  | operator listed first =>
    refine .operator listed fun other among isPrefix => first other among ?_
    rw [← List.append_assoc]
    exact isPrefix.trans (List.prefix_append _ after)
  | word nonempty unbroken _ =>
    refine .word nonempty (fun tail isTail isSuffix begins => ?_) (ended rfl)
    refine unbroken tail isTail isSuffix ?_
    rw [← List.append_assoc]
    exact begins.append after

/-- The fragments at the front of those of a text are taken from what they spell alone. -/
theorem Scanned.front {front back : List Fragment} (scanned : Scanned text (front ++ back) rest) :
    Scanned (front.flatMap Fragment.text) front [] := by
  induction front generalizing text with
  | nil => exact .nil []
  | cons fragment front ih =>
    rw [List.cons_append] at scanned
    obtain ⟨middle, _, taken, others⟩ := scanned.uncons
    have shorter := ih others
    -- What follows a word is no word, so it begins the shorter text with a delimiter as well.
    have ended : fragment.kind = .word → front.flatMap Fragment.text ≠ [] →
        BeginsDelimiter (front.flatMap Fragment.text) := by
      intro isWord more
      cases front with
      | nil => exact absurd rfl more
      | cons next front =>
        obtain ⟨_, rfl, takenNext, _⟩ := others.uncons
        have notWord : next.kind ≠ .word :=
          fun alsoWord => (taken.apart takenNext (isWord.trans alsoWord.symm)).1 isWord
        obtain ⟨_, isFront, takenFront, _⟩ := shorter.uncons
        exact isFront ▸ takenFront.beginsDelimiter notWord
    have isMiddle := others.spells
    rw [List.flatMap_append, List.append_assoc] at isMiddle
    rw [isMiddle] at taken
    exact .cons (taken.of_append ended) shorter

end Fragment

/-- White space is made of blanks. -/
theorem Classification.blank_of_ofText {text : List Char}
    (isSpace : Classification.ofText text = .whitespace) :
    ∀ character ∈ text, isBlank character = true := by
  simp only [Classification.ofText] at isSpace
  split at isSpace
  · rename_i run
    rw [Pattern.isBlankRun, Bool.and_eq_true, List.all_eq_true] at run
    exact run.2
  · repeat' split at isSpace
    all_goals cases isSpace

/-! ## The lexemes of fragments -/

namespace Lexicon

/-- The lexemes of fragments from a column on: one for each fragment that has a token, which is
handed out by a lexicon. -/
def lexemesOf (line : Nat) : List Fragment → Nat → Lexicon → List Lexeme
  | [], _, _ => []
  | fragment :: fragments, column, lexicon =>
    match Classification.ofText fragment.text with
    | .token token =>
      ⟨String.ofList fragment.text, line, column, (lexicon.intern token).1⟩ ::
        lexemesOf line fragments (column + fragment.width) (lexicon.intern token).2
    | .whitespace | .uncategorized => lexemesOf line fragments (column + fragment.width) lexicon

/-- Fragments that all match a pattern are read to their lexemes, and those after them from there
on. -/
theorem readFragments_append {known : List Fragment} (allKnown : hasUnknown known = false)
    (line : Nat) (others : List Fragment) (column : Nat) (lexicon : Lexicon) :
    readFragments line (known ++ others) column lexicon =
      let read := readFragments line others
        (column + (known.flatMap Fragment.text).length)
        (lexicon.internAll (fragmentTokens known)).2
      (read.1.map (lexemesOf line known column lexicon ++ ·), read.2) := by
  induction known generalizing column lexicon with
  | nil =>
    show readFragments line others column lexicon =
      ((readFragments line others column lexicon).1.map ([] ++ ·),
        (readFragments line others column lexicon).2)
    cases readFragments line others column lexicon with
    | mk outcome after => cases outcome <;> rfl
  | cons fragment known ih =>
    rw [hasUnknown, List.any_cons, Bool.or_eq_false_iff] at allKnown
    have columns : column + fragment.width + (known.flatMap Fragment.text).length =
        column + ((fragment :: known).flatMap Fragment.text).length := by
      rw [List.flatMap_cons, List.length_append, Fragment.width, Nat.add_assoc]
    rw [List.cons_append, readFragments, fragmentTokens_cons, lexemesOf, ← columns]
    cases isKind : Classification.ofText fragment.text with
    | whitespace => exact ih allKnown.2 _ _
    | uncategorized => simp [isKind] at allKnown
    | token token =>
      simp only [ih allKnown.2, internAll]
      cases readFragments line others
          (column + fragment.width + (known.flatMap Fragment.text).length)
          ((lexicon.intern token).2.internAll (fragmentTokens known)).2 with
      | mk outcome after => cases outcome <;> rfl

/-- Fragments that all match a pattern are read to their lexemes. -/
theorem readFragments_known {fragments : List Fragment} (allKnown : hasUnknown fragments = false)
    (line column : Nat) (lexicon : Lexicon) :
    readFragments line fragments column lexicon =
      (.ok (lexemesOf line fragments column lexicon),
        (lexicon.internAll (fragmentTokens fragments)).2) := by
  have read := readFragments_append allKnown line [] column lexicon
  rw [List.append_nil] at read
  simpa [readFragments, Except.map] using read

/-- Fragments that do not all match a pattern begin with some that do, before one that does not. -/
theorem exists_unknown {fragments : List Fragment} (unknown : hasUnknown fragments = true) :
    ∃ known failing others, fragments = known ++ failing :: others ∧ hasUnknown known = false ∧
      Classification.ofText failing.text = .uncategorized := by
  rw [hasUnknown, List.any_eq_true, ← List.find?_isSome, Option.isSome_iff_exists] at unknown
  obtain ⟨failing, found⟩ := unknown
  obtain ⟨fails, known, others, rfl, before⟩ := List.find?_eq_some_iff_append.mp found
  refine ⟨known, failing, others, rfl, ?_, of_decide_eq_true fails⟩
  rw [hasUnknown, List.any_eq_false]
  intro fragment held
  simpa using before fragment held

end Lexicon

/-! ## Places on a line -/

namespace Lexeme

/-- The column after the last character of a lexeme. -/
def stop (lexeme : Lexeme) : Nat :=
  lexeme.column + lexeme.text.length

/-- A lexeme takes the place of one of its characters. -/
def Takes (lexeme : Lexeme) (place : Nat) : Prop :=
  lexeme.column ≤ place ∧ place < lexeme.stop

/-- A lexeme stands in a text: it has a character, and its text is what stands there from its column
on. -/
def StandsIn (lexeme : Lexeme) (text : List Char) : Prop :=
  lexeme.text ≠ "" ∧ lexeme.text.toList <+: text.drop lexeme.column

variable {lexeme : Lexeme} {text : List Char}

/-- A lexeme that stands in a text ends in it. -/
theorem StandsIn.stop_le (stands : lexeme.StandsIn text) : lexeme.stop ≤ text.length := by
  have nonempty : 0 < lexeme.text.length := by
    rw [← String.length_toList, List.length_pos_iff]
    exact fun none => stands.1 (String.toList_eq_nil_iff.mp none)
  have fits := stands.2.length_le
  rw [List.length_drop, String.length_toList] at fits
  rw [stop]
  omega

/-- A lexeme that stands in a text still stands in it when the text goes on. -/
theorem StandsIn.append (stands : lexeme.StandsIn text) (after : List Char) :
    lexeme.StandsIn (text ++ after) := by
  refine ⟨stands.1, stands.2.trans ?_⟩
  rw [List.drop_append]
  exact List.prefix_append _ _

/-- A lexeme made of the text that goes on at its column stands in the longer text. -/
theorem standsIn_append {item : List Char} (nonempty : item ≠ []) (line : Nat)
    (shared : SharedToken) (after : List Char) :
    StandsIn ⟨String.ofList item, line, text.length, shared⟩ (text ++ item ++ after) := by
  refine ⟨fun none => nonempty ?_, ?_⟩
  · simpa using congrArg String.toList none
  · rw [List.append_assoc, List.drop_left, String.toList_ofList]
    exact List.prefix_append _ _

end Lexeme

/-- Lexemes lie on a line of text, from left to right, and take everything on it but blanks. -/
structure LieOn (lexemes : List Lexeme) (line : Nat) (text : List Char) : Prop where
  /-- Each has the number of the line. -/
  line_eq : ∀ lexeme ∈ lexemes, lexeme.line = line
  /-- Each has a character, and its text stands at its column. -/
  standsIn : ∀ lexeme ∈ lexemes, lexeme.StandsIn text
  /-- Each ends before the column where a later one begins. -/
  apart : lexemes.Pairwise fun earlier later => earlier.stop ≤ later.column
  /-- A character that no lexeme takes is blank. -/
  blank : ∀ place character, text[place]? = some character →
    (∀ lexeme ∈ lexemes, ¬ lexeme.Takes place) → isBlank character = true

namespace LieOn

variable {lexemes : List Lexeme} {line : Nat} {text : List Char}

/-- No lexemes lie on an empty text. -/
theorem nil (line : Nat) : LieOn [] line [] :=
  ⟨List.forall_mem_nil _, List.forall_mem_nil _, .nil, fun _ _ stands => by simp at stands⟩

/-- Lexemes on a text lie on it when blanks follow. -/
theorem append_blanks (lie : LieOn lexemes line text) {run : List Char}
    (blank : ∀ character ∈ run, isBlank character = true) : LieOn lexemes line (text ++ run) where
  line_eq := lie.line_eq
  standsIn lexeme held := (lie.standsIn lexeme held).append run
  apart := lie.apart
  blank place character stands free := by
    by_cases within : place < text.length
    · rw [List.getElem?_append_left within] at stands
      exact lie.blank place character stands free
    · rw [List.getElem?_append_right (Nat.le_of_not_lt within)] at stands
      exact blank character (List.mem_of_getElem? stands)

/-- Lexemes on a text and one made of what follows it lie on the longer text. -/
theorem append_lexeme (lie : LieOn lexemes line text) {item : List Char} (nonempty : item ≠ [])
    (shared : SharedToken) :
    LieOn (lexemes ++ [⟨String.ofList item, line, text.length, shared⟩]) line (text ++ item) where
  line_eq lexeme held := by
    rcases List.mem_append.mp held with earlier | last
    · exact lie.line_eq lexeme earlier
    · rw [List.mem_singleton.mp last]
  standsIn lexeme held := by
    rcases List.mem_append.mp held with earlier | last
    · exact (lie.standsIn lexeme earlier).append item
    · rw [List.mem_singleton.mp last]
      simpa using Lexeme.standsIn_append nonempty line shared []
  apart := by
    rw [List.pairwise_append]
    refine ⟨lie.apart, List.pairwise_singleton _ _, ?_⟩
    intro earlier held last isLast
    rw [List.mem_singleton.mp isLast]
    exact (lie.standsIn earlier held).stop_le
  blank place character stands free := by
    by_cases within : place < text.length
    · rw [List.getElem?_append_left within] at stands
      exact lie.blank place character stands fun lexeme held =>
        free lexeme (List.mem_append_left _ held)
    · have placed := (List.getElem?_eq_some_iff.mp stands).1
      rw [List.length_append] at placed
      let last : Lexeme := ⟨String.ofList item, line, text.length, shared⟩
      have stop : last.stop = text.length + item.length := by
        rw [Lexeme.stop, String.length_ofList]
      have taken : last.Takes place := ⟨Nat.le_of_not_lt within, stop ▸ placed⟩
      exact absurd taken (free last (List.mem_append_right _ List.mem_cons_self))

/-- Lexemes on a text and those of the fragments that follow it lie on all of it. -/
theorem append_fragments {fragments : List Fragment} (lie : LieOn lexemes line text)
    (nonempty : [] ∉ fragments.map Fragment.text)
    (known : Lexicon.hasUnknown fragments = false) (lexicon : Lexicon) :
    LieOn (lexemes ++ Lexicon.lexemesOf line fragments text.length lexicon) line
      (text ++ fragments.flatMap Fragment.text) := by
  induction fragments generalizing lexemes text lexicon with
  | nil => simpa [Lexicon.lexemesOf] using lie
  | cons fragment fragments ih =>
    rw [List.map_cons, List.mem_cons, not_or] at nonempty
    rw [Lexicon.hasUnknown, List.any_cons, Bool.or_eq_false_iff] at known
    have columns : text.length + fragment.width = (text ++ fragment.text).length := by
      rw [List.length_append, Fragment.width]
    rw [Lexicon.lexemesOf, List.flatMap_cons, ← List.append_assoc, columns]
    cases isKind : Classification.ofText fragment.text with
    | whitespace =>
      have blank := Classification.blank_of_ofText isKind
      exact ih (lie.append_blanks blank) nonempty.2 known.2 lexicon
    | uncategorized => simp [isKind] at known
    | token token =>
      have longer := ih (lie.append_lexeme (Ne.symm nonempty.1) (lexicon.intern token).1) nonempty.2
        known.2 (lexicon.intern token).2
      rw [List.append_assoc, List.singleton_append] at longer
      exact longer

/-- The lexemes of a line whose fragments all match a pattern lie on it. -/
theorem of_fragments {fragments : List Fragment} {rest : List Char}
    (scanned : Fragment.Scanned text fragments rest)
    (known : Lexicon.hasUnknown fragments = false) (line : Nat) (lexicon : Lexicon) :
    LieOn (Lexicon.lexemesOf line fragments 0 lexicon) line (fragments.flatMap Fragment.text) :=
  (LieOn.nil line).append_fragments scanned.isChain.1 known lexicon

end LieOn

/-- A line that is read gives lexemes that lie on it. A line that fails does so at a fragment that
stands at its column and matches no pattern, and the text before that column is read, to lexemes
that lie on it and to the lexicon that the failing line leads to. -/
theorem Lexicon.readLine_placed (lexicon : Lexicon) (line : Nat) (text : List Char) :
    (∃ lexemes after, lexicon.readLine line text = (.ok lexemes, after) ∧
        LieOn lexemes line text) ∨
      ∃ failing after, lexicon.readLine line text = (.error ⟨failing⟩, after) ∧
        failing.line = line ∧ failing.token = .uncategorized ∧ failing.StandsIn text ∧
        Classification.ofText failing.text.toList = .uncategorized ∧
        ∃ lexemes, lexicon.readLine line (text.take failing.column) = (.ok lexemes, after) ∧
          LieOn lexemes line (text.take failing.column) := by
  have scanned := Fragment.scanned_ofLine text
  cases unknown : hasUnknown (Fragment.ofLine text) with
  | false =>
    left
    have lie := LieOn.of_fragments scanned unknown line lexicon
    rw [Fragment.flatMap_ofLine] at lie
    exact ⟨_, _, readFragments_known unknown line 0 lexicon, lie⟩
  | true =>
    right
    obtain ⟨known, failing, others, isLine, allKnown, fails⟩ := exists_unknown unknown
    rw [isLine] at scanned
    let front := known.flatMap Fragment.text
    -- The failing fragment stands right after what the fragments before it spell.
    have spelled : text = front ++ failing.text ++ others.flatMap Fragment.text := by
      simpa using scanned.spells
    have isFront : text.take front.length = front := by
      rw [spelled, List.append_assoc, List.take_left]
    have frontScanned : Fragment.Scanned front known [] := scanned.front
    have frontRead : lexicon.readLine line front =
        (.ok (lexemesOf line known 0 lexicon), (lexicon.internAll (fragmentTokens known)).2) := by
      rw [readLine, ← frontScanned.eq_ofLine]
      exact readFragments_known allKnown line 0 lexicon
    have failed : lexicon.readLine line text =
        (.error ⟨⟨String.ofList failing.text, line, front.length, Token.uncategorized⟩⟩,
          (lexicon.internAll (fragmentTokens known)).2) := by
      rw [readLine, isLine, readFragments_append allKnown, Nat.zero_add, readFragments, fails]
      rfl
    have nonempty : failing.text ≠ [] := by
      obtain ⟨_, taken⟩ := scanned.taken failing (by simp)
      exact taken.text_ne_nil
    refine ⟨_, _, failed, rfl, rfl, ?_, ?_, lexemesOf line known 0 lexicon, ?_, ?_⟩
    · rw [spelled]
      exact Lexeme.standsIn_append nonempty line Token.uncategorized _
    · rw [String.toList_ofList]
      exact fails
    · rw [isFront]
      exact frontRead
    · rw [isFront]
      exact LieOn.of_fragments frontScanned allKnown line lexicon

/-- The sign in the third column matches no pattern. -/
example : (Lexicon.empty.readLine 3 ['x', '=', '@', ';']).1 =
    .error ⟨⟨"@", 3, 2, Token.uncategorized⟩⟩ := by
  decide +kernel

end Precedence
