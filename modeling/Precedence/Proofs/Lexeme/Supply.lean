import Precedence.Lexeme.Supply

/-!
# Reading from a supply

A reader holds the element that comes next and the rest of the input. Reading an element pulls the
next one, so the elements read, and the one that comes next after them, are what has been pulled.
An input that gives some elements and then the end marker lets exactly those elements be read
before the end marker comes next.
-/

namespace Precedence.Supply

variable {σ : Type} [Supply σ]

/-- Reading some elements leads from an element that comes next, with the rest of the input, to
another. -/
inductive Reads : Element → σ → List Element → Element → σ → Prop
  /-- Nothing is read. -/
  | refl (lookahead : Element) (input : σ) : Reads lookahead input [] lookahead input
  /-- The element that comes next is read, and then the others. -/
  | read {lookahead next last : Element} {input rest final : σ} {elements : List Element}
      (pulled : Supply.next input = (.ok next, rest))
      (others : Reads next rest elements last final) :
      Reads lookahead input (lookahead :: elements) last final

/-- Elements read one after another are read together. -/
theorem Reads.trans {lookahead middle last : Element} {input rest final : σ}
    {earlier later : List Element} (first : Reads lookahead input earlier middle rest)
    (second : Reads middle rest later last final) :
    Reads lookahead input (earlier ++ later) last final := by
  induction first with
  | refl => exact second
  | read pulled _ ih => exact .read pulled (ih second)

/-- Elements read together are read one part after the other. -/
theorem Reads.split {lookahead last : Element} {input final : σ} {earlier later : List Element}
    (read : Reads lookahead input (earlier ++ later) last final) :
    ∃ middle rest, Reads lookahead input earlier middle rest ∧
      Reads middle rest later last final := by
  induction earlier generalizing lookahead input with
  | nil => exact ⟨lookahead, input, .refl _ _, read⟩
  | cons first earlier ih =>
    cases read with
    | read pulled others =>
      obtain ⟨middle, rest, before, after⟩ := ih others
      exact ⟨middle, rest, .read pulled before, after⟩

/-- The element that comes next is the first one read, or the last one if none is read. -/
theorem Reads.head?_eq {lookahead last : Element} {input final : σ} {elements : List Element}
    (read : Reads lookahead input elements last final) :
    (elements ++ [last]).head? = some lookahead := by
  cases read <;> rfl

/-- The elements read and the one that comes next are what has been pulled. -/
theorem Reads.pulls {lookahead last : Element} {input rest final : σ} {elements : List Element}
    (pulled : Supply.next input = (.ok lookahead, rest))
    (read : Reads lookahead rest elements last final) :
    pulls (elements.length + 1) input = ((elements ++ [last]).map .ok, final) := by
  induction read generalizing input with
  | refl => simp [Supply.pulls, pulled]
  | read later _ ih =>
    have others := ih later
    rw [List.length_cons, Supply.pulls, pulled]
    simp only [others, List.cons_append, List.map_cons]

/-- What has been pulled without an error can be read up to the last element. -/
theorem reads_of_pulls {input final : σ} {elements : List Element} {last : Element}
    (pulled : pulls (elements.length + 1) input = ((elements ++ [last]).map .ok, final)) :
    ∃ lookahead rest, Supply.next input = (.ok lookahead, rest) ∧
      Reads lookahead rest elements last final := by
  induction elements generalizing input with
  | nil =>
    simp only [pulls, List.length_nil, List.nil_append, List.map_cons, List.map_nil,
      Prod.mk.injEq, List.cons.injEq, and_true] at pulled
    exact ⟨last, final, Prod.ext pulled.1 pulled.2, .refl _ _⟩
  | cons first others ih =>
    rw [List.length_cons, pulls, List.cons_append, List.map_cons, Prod.mk.injEq,
      List.cons.injEq] at pulled
    obtain ⟨⟨isFirst, later⟩, isFinal⟩ := pulled
    obtain ⟨next, rest, nextPulled, read⟩ := ih (Prod.ext later isFinal)
    exact ⟨first, _, Prod.ext isFirst rfl, .read nextPulled read⟩

/-- An input that gives elements lets them be read until the end marker comes next. -/
theorem Gives.reads {input : σ} {elements : List Element} {endMarker : String}
    (gives : Gives input elements endMarker) :
    ∃ lookahead rest final, Supply.next input = (.ok lookahead, rest) ∧
      Reads lookahead rest elements (.symbol endMarker) final := by
  have taken : (elements ++ List.replicate (elements.length + 1) (Element.symbol endMarker)).take
      (elements.length + 1) = elements ++ [Element.symbol endMarker] := by
    rw [List.take_length_add_append, List.take_replicate]
    simp
  have pulled := gives (elements.length + 1)
  rw [taken] at pulled
  obtain ⟨lookahead, rest, first, read⟩ := reads_of_pulls (Prod.ext pulled rfl)
  exact ⟨lookahead, rest, _, first, read⟩

/-- At most so many elements can be read from an element that comes next before the end marker
comes next or pulling fails. -/
inductive EndsWithin (endMarker : String) : Nat → Element → σ → Prop
  /-- The end marker comes next. -/
  | marker {remaining : Nat} {lookahead : Element} {input : σ}
      (isEnd : lookahead.kind = endMarker) : EndsWithin endMarker remaining lookahead input
  /-- Pulling fails when the element that comes next is read. -/
  | error {remaining : Nat} {lookahead : Element} {input rest : σ} {failure : LexicalError}
      (failed : Supply.next input = (.error failure, rest)) :
      EndsWithin endMarker remaining lookahead input
  /-- One element can be read before the others. -/
  | more {remaining : Nat} {lookahead next : Element} {input rest : σ}
      (pulled : Supply.next input = (.ok next, rest))
      (later : EndsWithin endMarker remaining next rest) :
      EndsWithin endMarker (remaining + 1) lookahead input

/-- Elements that are read before the end marker comes next are all that can be read. -/
theorem Reads.endsWithin {lookahead last : Element} {input final : σ} {elements : List Element}
    {endMarker : String} (read : Reads lookahead input elements last final)
    (isEnd : last.kind = endMarker) :
    EndsWithin endMarker elements.length lookahead input := by
  induction read with
  | refl => exact .marker isEnd
  | read pulled _ ih => exact .more pulled (ih isEnd)

/-- Whether an input gives the end marker or fails once it has given at most so many elements. -/
def EndsBy (endMarker : String) (size : Nat) (input : σ) : Prop :=
  ∃ outcome ∈ (pulls (size + 1) input).1, ∀ element, outcome = .ok element →
    element.kind = endMarker

/-- What is pulled in fewer pulls is what is pulled first. -/
theorem pulls_take {count more : Nat} (fewer : count ≤ more) (input : σ) :
    ((pulls more input).1).take count = (pulls count input).1 := by
  induction count generalizing more input with
  | zero => rfl
  | succ count ih =>
    cases more with
    | zero => cases fewer
    | succ more => exact congrArg (_ :: ·) (ih (Nat.le_of_succ_le_succ fewer) _)

/-- An input that ends by a size ends by any greater one. -/
theorem EndsBy.mono {endMarker : String} {size greater : Nat} {input : σ}
    (ends : EndsBy endMarker size input) (le : size ≤ greater) :
    EndsBy endMarker greater input := by
  obtain ⟨outcome, held, isEnd⟩ := ends
  rw [← pulls_take (Nat.succ_le_succ le)] at held
  exact ⟨outcome, List.mem_of_mem_take held, isEnd⟩

/-- What is left of an input that ends by a size, once its first element has been pulled, ends
within the size. -/
theorem EndsBy.endsWithin {endMarker : String} {size : Nat} {input rest : σ} {lookahead : Element}
    (ends : EndsBy endMarker size input) (pulled : Supply.next input = (.ok lookahead, rest)) :
    EndsWithin endMarker size lookahead rest := by
  induction size generalizing input rest lookahead with
  | zero =>
    obtain ⟨outcome, held, isEnd⟩ := ends
    rw [pulls, pulled] at held
    have isFirst : outcome = .ok lookahead := by simpa [pulls] using held
    exact .marker (isEnd lookahead isFirst)
  | succ size ih =>
    obtain ⟨outcome, held, isEnd⟩ := ends
    rw [pulls, pulled] at held
    rcases List.mem_cons.mp held with isFirst | later
    · exact .marker (isEnd lookahead isFirst)
    cases nextPulled : Supply.next rest with
    | mk result after =>
      cases result with
      | error failure => exact .error nextPulled
      | ok next => exact .more nextPulled (ih ⟨outcome, later, isEnd⟩ nextPulled)

/-- An input that gives some elements and then the end marker ends by their number. -/
theorem Gives.endsBy {input : σ} {elements : List Element} {endMarker : String}
    (gives : Gives input elements endMarker) : EndsBy endMarker elements.length input := by
  obtain ⟨lookahead, rest, final, pulled, read⟩ := gives.reads
  refine ⟨.ok (.symbol endMarker), ?_, fun element same => Except.ok.inj same ▸ rfl⟩
  rw [read.pulls pulled]
  simp

/-- What is taken from items with padding after them, up to an item that comes next, are items with
another one next or, where no padding is taken, all items with the padding next. -/
theorem next_of_take_padded {α : Type} {items taken : List α} {next padding : α} {count : Nat}
    (size : taken.length = count)
    (isTaken : taken ++ [next] =
      (items ++ List.replicate (count + 1) padding).take (count + 1))
    (unpadded : padding ∉ taken) :
    items[count]? = some next ∨ items = taken ∧ next = padding := by
  subst size
  have isNext : (items ++ List.replicate (taken.length + 1) padding)[taken.length]? =
      some next := by
    rw [← List.getElem?_take_of_lt (Nat.lt_succ_self taken.length), ← isTaken]
    exact List.getElem?_concat_length
  rcases Nat.lt_trichotomy taken.length items.length with within | atEnd | beyond
  · left
    rwa [List.getElem?_append_left within] at isNext
  · right
    rw [atEnd, List.take_length_add_append, List.replicate_succ, List.take_succ_cons,
      List.take_zero] at isTaken
    obtain ⟨sameItems, sameNext⟩ := List.append_inj isTaken atEnd
    exact ⟨sameItems.symm, (List.cons.inj sameNext).1⟩
  · -- The padding after the items would have been taken.
    have isPadding : (taken ++ [next])[items.length]? = some padding := by
      rw [isTaken, List.getElem?_take_of_lt (Nat.lt_succ_of_lt beyond),
        List.getElem?_append_right (Nat.le_refl _), Nat.sub_self]
      rfl
    rw [List.getElem?_append_left beyond] at isPadding
    exact absurd (List.mem_of_getElem? isPadding) unpadded

/-- After some elements that are not the end marker, an input that gives elements gives the next one
of them, or the end marker once all have been given. -/
theorem Gives.after {input : σ} {elements read : List Element} {last : Element}
    {endMarker : String} (gives : Gives input elements endMarker)
    (pulled : (pulls (read.length + 1) input).1 = (read ++ [last]).map .ok)
    (unended : ∀ element ∈ read, element.kind ≠ endMarker) :
    elements[read.length]? = some last ∨ elements = read ∧ last = .symbol endMarker := by
  have given : read ++ [last] =
      (elements ++ List.replicate (read.length + 1) (Element.symbol endMarker)).take
        (read.length + 1) := by
    have same := pulled.symm.trans (gives (read.length + 1))
    exact (List.map_inj_right fun _ _ => Except.ok.inj).mp same
  exact next_of_take_padded rfl given fun held => unended _ held rfl

/-- The kinds of symbols are the symbols. -/
theorem map_kind_symbol (word : List String) :
    (word.map Element.symbol).map Element.kind = word := by
  rw [List.map_map]
  exact List.map_id word

/-- The kinds of lexemes as elements are their kinds. -/
theorem map_kind_lexeme (lexemes : List Lexeme) :
    (lexemes.map Element.lexeme).map Element.kind = lexemes.map Lexeme.kind :=
  List.map_map

/-- The symbols of a supply of symbols can be read until its end marker comes next. -/
theorem reads_symbols (word : List String) (endMarker : String) :
    ∃ (lookahead : Element) (rest : SymbolSupply),
      Supply.next (SymbolSupply.mk word endMarker) = (.ok lookahead, rest) ∧
        Reads lookahead rest (word.map .symbol) (.symbol endMarker)
          (SymbolSupply.mk [] endMarker) := by
  induction word with
  | nil => exact ⟨_, _, rfl, .refl _ _⟩
  | cons symbol word ih =>
    obtain ⟨lookahead, rest, pulled, read⟩ := ih
    exact ⟨.symbol symbol, _, rfl, .read pulled read⟩

/-- As many items as are taken from a list that goes on for ever do not depend on how far it is
written out. -/
theorem take_append_replicate_succ {α : Type} (items : List α) (item : α) (count : Nat) :
    (items ++ List.replicate (count + 1) item).take count =
      (items ++ List.replicate count item).take count := by
  rw [List.replicate_succ', ← List.append_assoc]
  exact List.take_append_of_le_length (by simp)

/-- A supply of symbols gives its symbols and then its end marker. -/
theorem gives_symbols (word : List String) (endMarker : String) :
    Gives (SymbolSupply.mk word endMarker) (word.map .symbol) endMarker := by
  intro count
  induction count generalizing word with
  | zero => rfl
  | succ count ih =>
    cases word with
    | nil =>
      have later := ih []
      rw [List.map_nil, List.nil_append, List.take_replicate, Nat.min_self] at later
      rw [pulls, List.map_nil, List.nil_append, List.take_replicate, Nat.min_self,
        List.replicate_succ, List.map_cons, ← later]
      rfl
    | cons symbol word =>
      have later := ih word
      rw [pulls, List.map_cons, List.cons_append, List.take_succ_cons, List.map_cons,
        take_append_replicate_succ, ← later]
      rfl

/-- A supply of symbols ends by their number. -/
theorem endsBy_symbols (word : List String) (endMarker : String) :
    EndsBy endMarker word.length (SymbolSupply.mk word endMarker) := by
  have ends := (gives_symbols word endMarker).endsBy
  rwa [List.length_map] at ends

/-- When the end marker of a supply of symbols comes next, the elements read before it are the
symbols, if none of those is the end marker. -/
theorem elements_of_reads_symbols {word : List String} {endMarker : String}
    (fresh : endMarker ∉ word) {lookahead last : Element} {rest final : SymbolSupply}
    {elements : List Element}
    (pulled : Supply.next (SymbolSupply.mk word endMarker) = (.ok lookahead, rest))
    (read : Reads lookahead rest elements last final)
    (unended : ∀ element ∈ elements, element.kind ≠ endMarker) (isEnd : last.kind = endMarker) :
    elements = word.map .symbol := by
  induction word generalizing lookahead rest elements with
  | nil =>
    cases pulled
    cases read with
    | refl => rfl
    | read => exact absurd rfl (unended _ List.mem_cons_self)
  | cons symbol word ih =>
    cases pulled
    cases read with
    | refl => exact absurd (isEnd ▸ List.mem_cons_self) fresh
    | read later others =>
      have rest := ih (fun held => fresh (List.mem_cons_of_mem _ held)) later others
        fun element held => unended element (List.mem_cons_of_mem _ held)
      rw [rest, List.map_cons]

end Precedence.Supply
