import Precedence.Parser.Basic
import Precedence.Proofs.ActionTable

/-!
# Moves and handles of an accepted parser

The parser of an accepted ruleset reads an element, or puts the empty symbol on its stack, only
after a symbol that may stand before it, and reduces only when the symbol on top takes over another
one. So whatever is read or covered stands in a body. On a stack of such symbols a key belongs to
one body alone, and the handle found is the longest body on top.
-/

namespace Precedence

namespace Parser

/-- What holds of the parser of an accepted ruleset, whatever its limit on empty symbols. -/
def Accepted (parser : Parser) : Prop :=
  parser.grammar.Accepted parser.start parser.endMarker

/-- The parser of an accepted ruleset is accepted. It has the productions and the symbols of the
ruleset and may put as many empty symbols on the stack as there are productions. -/
theorem accepted_of_ruleset {ruleset : Ruleset} {parser : Parser}
    (made : ofRuleset ruleset = .ok parser) :
    parser.Accepted ∧ parser.grammar.productions = ruleset.productions ∧
      parser.grammar.emptySymbol = ruleset.empty ∧ parser.start = ruleset.start ∧
      parser.endMarker = ruleset.endMarker ∧
      parser.insertionLimit = some parser.grammar.productions.length := by
  rw [ofRuleset] at made
  cases checked : ruleset.grammar with
  | error error => simp [checked, Except.map] at made
  | ok grammar =>
    simp only [checked, Except.map, Except.ok.injEq] at made
    subst made
    obtain ⟨accepted, productions, empty⟩ := Grammar.accepted_of_ruleset checked
    exact ⟨accepted, productions, empty, rfl, rfl, rfl⟩

variable {parser : Parser}

/-! ## Moves -/

/-- The list of facts of a parser and the index of them are in step. -/
theorem relations_indexed (parser : Parser) : parser.relations.Indexed :=
  parser.relations_eq ▸ Relations.indexed_ofGrammar _ _ _

/-- The relations of a parser are those of its grammar. -/
theorem relations_shifts_iff (accepted : parser.Accepted) {x z : String} :
    parser.relations.shifts x z = true ↔ parser.grammar.Adjacent x z ∨
      (∃ y, parser.grammar.Adjacent x y ∧ parser.grammar.ProperEdgePath .left y z) ∨
        x = parser.endMarker ∧ parser.grammar.ProperEdgePath .left parser.start z := by
  rw [parser.relations_eq]
  exact Relations.shifts_iff accepted.toWellFormed

/-- What may be read after some symbol stands in a body. -/
theorem occurs_of_shifts (accepted : parser.Accepted) {x z : String}
    (shifts : parser.relations.shifts x z = true) : parser.grammar.Occurs z := by
  rw [parser.relations_eq] at shifts
  exact Relations.occurs_of_shifts accepted.toWellFormed shifts

/-- What some symbol may be read after stands in a body or is the end marker. -/
theorem occurs_or_eq_of_shifts (accepted : parser.Accepted) {x z : String}
    (shifts : parser.relations.shifts x z = true) :
    parser.grammar.Occurs x ∨ x = parser.endMarker := by
  rw [parser.relations_eq] at shifts
  exact Relations.occurs_or_eq_of_shifts accepted.toWellFormed shifts

/-- What takes over some symbol stands in a body. -/
theorem occurs_of_takes (accepted : parser.Accepted) {z w : String}
    (takes : parser.relations.holds z .takes w = true) : parser.grammar.Occurs z := by
  rw [parser.relations_eq] at takes
  exact Relations.occurs_of_takes accepted.toWellFormed takes

/-- The table calls for what the relations call for before a terminal, the empty symbol or the end
marker, and for nothing before another symbol. -/
theorem table_action_eq (accepted : parser.Accepted) (top next : String) :
    parser.table.action top next =
      if next ∈ parser.grammar.terminals ∨ parser.grammar.emptySymbol = some next ∨
          next = parser.endMarker then
        ActionTable.decideAction parser.relations top next
      else .undefined := by
  rw [parser.table_eq, parser.relations_eq]
  exact ActionTable.action_eq accepted.toWellFormed

/-- The table calls for reading a terminal or the empty symbol that may be read. -/
theorem action_eq_shift_iff (accepted : parser.Accepted) {top next : String} :
    parser.table.action top next = .shift ↔ parser.relations.shifts top next = true ∧
      (next ∈ parser.grammar.terminals ∨ parser.grammar.emptySymbol = some next) := by
  rw [table_action_eq accepted, ActionTable.decideAction]
  constructor
  · intro isShift
    split at isShift
    · rename_i listed
      split at isShift
      · rename_i shifts
        refine ⟨shifts, ?_⟩
        have notEnd := accepted.ne_endMarker_of_occurs (occurs_of_shifts accepted shifts)
        tauto
      · split at isShift <;> cases isShift
    · cases isShift
  · rintro ⟨shifts, listed⟩
    rw [if_pos (by tauto), if_pos shifts]

/-- The table calls for reducing when the symbol on top takes over a symbol that may not be
read. -/
theorem takes_of_action_reduce (accepted : parser.Accepted) {top next : String}
    (isReduce : parser.table.action top next = .reduce) :
    parser.relations.holds top .takes next = true := by
  rw [table_action_eq accepted, ActionTable.decideAction] at isReduce
  split at isReduce
  · split at isReduce
    · cases isReduce
    · split at isReduce
      · assumption
      · cases isReduce
  · cases isReduce

/-- An element is read when it is a terminal or the empty symbol and may be read after the top. -/
theorem move_eq_read_iff (accepted : parser.Accepted) {top next : String} :
    parser.move top next = .read ↔ parser.relations.shifts top next = true ∧
      (next ∈ parser.grammar.terminals ∨ parser.grammar.emptySymbol = some next) := by
  rw [← action_eq_shift_iff accepted, move]
  constructor
  · intro isMove
    split at isMove
    · assumption
    · cases isMove
    · split at isMove
      · cases isMove
      · split at isMove <;> cases isMove
  · intro isShift
    rw [isShift]

/-- The empty symbol is put on the stack only where it may be read. -/
theorem shifts_of_move_insert (accepted : parser.Accepted) {top next empty : String}
    (isMove : parser.move top next = .insert empty) :
    parser.grammar.emptySymbol = some empty ∧ parser.relations.shifts top empty = true := by
  rw [move] at isMove
  split at isMove
  · cases isMove
  · cases isMove
  · split at isMove
    · cases isMove
    · rename_i declared
      split at isMove
      · rename_i isShift
        cases isMove
        exact ⟨declared, ((action_eq_shift_iff accepted).mp isShift).1⟩
      · cases isMove
      · cases isMove

/-- A reduction is made only when the symbol on top takes over another one. -/
theorem takes_of_move_reduce (accepted : parser.Accepted) {top next : String}
    (isMove : parser.move top next = .reduce) :
    ∃ other, parser.relations.holds top .takes other = true := by
  rw [move] at isMove
  split at isMove
  · cases isMove
  · rename_i isReduce
    exact ⟨next, takes_of_action_reduce accepted isReduce⟩
  · split at isMove
    · cases isMove
    · rename_i empty _
      split at isMove
      · cases isMove
      · rename_i isReduce
        exact ⟨empty, takes_of_action_reduce accepted isReduce⟩
      · cases isMove

/-- A reduction is made when the symbol on top takes over the next one and does not shift to it. -/
theorem move_eq_reduce (accepted : parser.Accepted) {top next : String}
    (takes : parser.relations.holds top .takes next = true)
    (unshifted : parser.relations.shifts top next = false)
    (listed : next ∈ parser.grammar.terminals ∨ next = parser.endMarker) :
    parser.move top next = .reduce := by
  have isReduce : parser.table.action top next = .reduce := by
    rw [table_action_eq accepted, if_pos (by tauto), ActionTable.decideAction, unshifted, takes]
    rfl
  rw [move, isReduce]

/-- Unless an element is refused, the symbol on top stands in a body or is the end marker. -/
theorem occurs_of_move (accepted : parser.Accepted) {top next : String}
    (goesOn : parser.move top next ≠ .reject) :
    parser.grammar.Occurs top ∨ top = parser.endMarker := by
  cases isMove : parser.move top next with
  | read => exact occurs_or_eq_of_shifts accepted ((move_eq_read_iff accepted).mp isMove).1
  | insert empty => exact occurs_or_eq_of_shifts accepted (shifts_of_move_insert accepted isMove).2
  | reduce =>
    obtain ⟨other, takes⟩ := takes_of_move_reduce accepted isMove
    exact Or.inl (occurs_of_takes accepted takes)
  | reject => exact absurd isMove goesOn

/-! ## Handles -/

/-- A production is selected by its key. -/
theorem select_some (accepted : parser.Accepted) {key beneath : String} {production : Production}
    (selected : parser.select key beneath = some production) :
    production ∈ parser.grammar.productions ∧ production.key = key := by
  suffices listed : production ∈ parser.grammar.productionsWithBody key by
    rw [accepted.productionsWithBody_eq] at listed
    simpa using listed
  rw [select] at selected
  split at selected
  · cases selected
  · rename_i first others listed
    rw [listed]
    split at selected
    · rw [Option.or_eq_some_iff] at selected
      rcases selected with found | ⟨_, isFirst⟩
      · exact List.mem_of_find?_eq_some found
      · cases isFirst
        exact List.mem_cons_self
    · cases selected
      exact List.mem_cons_self

/-- A production whose body no other production has is selected, unless it is the empty symbol. -/
theorem select_of_unique (accepted : parser.Accepted) {production : Production}
    (declared : production ∈ parser.grammar.productions)
    (unique : ∀ other ∈ parser.grammar.productions, other.body = production.body →
      other = production)
    (present : parser.grammar.isEmptySymbol production.key = false) (beneath : String) :
    parser.select production.key beneath = some production := by
  have candidate : ∀ other ∈ parser.grammar.productionsWithBody production.key,
      other = production := by
    intro other held
    rw [accepted.productionsWithBody_eq, List.mem_filter, decide_eq_true_eq] at held
    refine unique other held.1 ((accepted.joinWords_eq_key_iff declared ?_).mp held.2)
    exact fun symbol inBody => ⟨other, held.1, inBody⟩
  have listed : production ∈ parser.grammar.productionsWithBody production.key := by
    rw [accepted.productionsWithBody_eq]
    simpa using declared
  rw [select]
  cases candidates : parser.grammar.productionsWithBody production.key with
  | nil => rw [candidates] at listed; cases listed
  | cons first others =>
    have isFirst := candidate first (candidates ▸ List.mem_cons_self)
    simp only [present, isFirst, Bool.false_eq_true, if_false]

/-- No production is selected exactly when none has the key. -/
theorem select_eq_none_iff (accepted : parser.Accepted) {key beneath : String} :
    parser.select key beneath = none ↔
      ∀ production ∈ parser.grammar.productions, production.key ≠ key := by
  have listed := accepted.productionsWithBody_eq key
  rw [select]
  split
  · rename_i none
    rw [none] at listed
    simpa using listed.symm
  · rename_i first others found
    rw [found] at listed
    have held : first ∈ parser.grammar.productions.filter (·.key = key) :=
      listed ▸ List.mem_cons_self
    simp only [List.mem_filter, decide_eq_true_eq] at held
    have some : ¬ ∀ production ∈ parser.grammar.productions, production.key ≠ key :=
      fun all => all first held.1 held.2
    split <;> simp [some]

/-- The handle found is on top of the stack with its key, and no longer top of the stack has the
key of a body. -/
theorem findHandle_eq_some_iff {stack : List Element} {longest : Nat} {production : Production}
    {beneath : List Element} :
    parser.findHandle stack longest = some (production, beneath) ↔
      ∃ length, 0 < length ∧ length ≤ longest ∧ beneath = stack.drop length ∧
        parser.select (topKey stack length) (parser.topKind beneath) = some production ∧
        ∀ longer, length < longer → longer ≤ longest →
          parser.select (topKey stack longer) (parser.topKind (stack.drop longer)) = none := by
  induction longest with
  | zero =>
    simp only [findHandle, reduceCtorEq, false_iff]
    rintro ⟨length, positive, bounded, _⟩
    omega
  | succ longest ih =>
    rw [findHandle]
    cases selected : parser.select (topKey stack (longest + 1))
        (parser.topKind (stack.drop (longest + 1))) with
    | some found =>
      simp only [Option.some.injEq, Prod.mk.injEq]
      constructor
      · rintro ⟨rfl, rfl⟩
        exact ⟨longest + 1, Nat.succ_pos _, Nat.le_refl _, rfl, selected, by omega⟩
      · rintro ⟨length, _, bounded, rfl, isHandle, none⟩
        by_cases full : length = longest + 1
        · subst full
          rw [selected, Option.some.injEq] at isHandle
          exact ⟨isHandle, rfl⟩
        · have := none (longest + 1) (by omega) (Nat.le_refl _)
          rw [selected] at this
          cases this
    | none =>
      simp only
      rw [ih]
      constructor
      · rintro ⟨length, positive, bounded, isBeneath, isHandle, none⟩
        refine ⟨length, positive, by omega, isBeneath, isHandle, ?_⟩
        intro longer exceeds inside
        by_cases full : longer = longest + 1
        · rw [full, selected]
        · exact none longer exceeds (by omega)
      · rintro ⟨length, positive, bounded, isBeneath, isHandle, none⟩
        have short : length ≠ longest + 1 := by
          rintro rfl
          rw [isBeneath, selected] at isHandle
          cases isHandle
        exact ⟨length, positive, by omega, isBeneath, isHandle,
          fun longer exceeds inside => none longer exceeds (by omega)⟩

/-- No handle is found exactly when no top of the stack has the key of a body. -/
theorem findHandle_eq_none_iff {stack : List Element} {longest : Nat} :
    parser.findHandle stack longest = none ↔ ∀ length, 0 < length → length ≤ longest →
      parser.select (topKey stack length) (parser.topKind (stack.drop length)) = none := by
  induction longest with
  | zero =>
    rw [findHandle]
    exact ⟨fun _ length positive bounded => by omega, fun _ => rfl⟩
  | succ longest ih =>
    rw [findHandle]
    cases selected : parser.select (topKey stack (longest + 1))
        (parser.topKind (stack.drop (longest + 1))) with
    | some production =>
      refine ⟨fun found => (by cases found), fun none => ?_⟩
      have unselected := none (longest + 1) (Nat.succ_pos _) (Nat.le_refl _)
      rw [selected] at unselected
      cases unselected
    | none =>
      refine ih.trans ⟨fun none length positive bounded => ?_, fun none length positive bounded =>
        none length positive (by omega)⟩
      rcases Nat.le_succ_iff.mp bounded with shorter | isFull
      · exact none length positive shorter
      · rw [isFull, selected]

/-- The kinds of stacked elements from the deepest to the top. -/
def form (stack : List Element) : List String :=
  (stack.map Element.kind).reverse

/-- An empty stack has no kinds. -/
@[simp]
theorem form_nil : form [] = [] := rfl

/-- The kind of the top comes last. -/
@[simp]
theorem form_cons (top : Element) (stack : List Element) :
    form (top :: stack) = form stack ++ [top.kind] := by
  simp [form]

/-- The kinds of stacked elements in two parts are those of the deeper part and then the other. -/
theorem form_append (tops stack : List Element) :
    form (tops ++ stack) = form stack ++ form tops := by
  simp [form]

/-- The top of a stack that others are put on is the last of them. -/
theorem topKind_append (parser : Parser) (tops stack : List Element) :
    parser.topKind (tops ++ stack) = (form tops).getLast?.getD (parser.topKind stack) := by
  cases tops with
  | nil => rfl
  | cons top tops => simp [topKind]

/-- The kinds of stacked elements are those beneath a height and those above it. -/
theorem form_drop (stack : List Element) (height : Nat) :
    form stack = form (stack.drop height) ++ (stack.take height).reverse.map Element.kind := by
  rw [form, form, ← List.map_reverse, ← List.map_reverse, ← List.map_append,
    ← List.reverse_append, List.take_append_drop]

/-- No body is longer than the longest. -/
theorem length_body_le_longestBody {production : Production}
    (declared : production ∈ parser.grammar.productions) :
    production.body.length ≤ parser.longestBody := by
  rw [parser.longestBody_eq, Grammar.longestBody]
  exact List.le_max?_getD_of_mem (List.mem_map_of_mem declared)

/-- On a stack of symbols of bodies, a top has the key of a body when it is the body. -/
theorem topKey_eq_key_iff (accepted : parser.Accepted) {stack : List Element}
    (occur : ∀ element ∈ stack, parser.grammar.Occurs element.kind) {production : Production}
    (declared : production ∈ parser.grammar.productions) (length : Nat) :
    topKey stack length = production.key ↔
      (stack.take length).reverse.map Element.kind = production.body := by
  refine accepted.joinWords_eq_key_iff declared ?_
  intro symbol held
  obtain ⟨element, taken, rfl⟩ := List.mem_map.mp held
  exact occur element (List.mem_of_mem_take (List.mem_reverse.mp taken))

/-- A body that ends the kinds of a stack is the top of the stack of its length. -/
theorem take_eq_of_form_eq {stack : List Element} {before body : List String}
    (isForm : form stack = before ++ body) :
    (stack.take body.length).reverse.map Element.kind = body ∧ body.length ≤ stack.length := by
  have total : stack.length = before.length + body.length := by
    have lengths := congrArg List.length isForm
    simpa [form] using lengths
  refine ⟨?_, by omega⟩
  have cut := (form_drop stack body.length).symm.trans isForm
  refine (List.append_inj cut ?_).2
  simp only [form, List.length_reverse, List.length_map, List.length_drop]
  omega

/-- A body that ends the kinds of a stack with a body on top is no longer than that body, if the
symbol on top beneath does not stand before the body in it. -/
theorem length_le_of_apart {stack : List Element} {body other : List String}
    (apart : ∀ before symbol, other = before ++ symbol :: body → symbol ≠ parser.topKind stack)
    (ends : other <:+ form stack ++ body) : other.length ≤ body.length := by
  by_contra longer
  obtain ⟨before, isBody⟩ : ∃ before, other = before ++ body :=
    (List.suffix_of_suffix_length_le (List.suffix_append _ _) ends (by omega)).imp
      fun _ same => same.symm
  have isSuffix : before <:+ form stack := by
    rw [isBody] at ends
    exact (List.suffix_append_inj_of_length_eq rfl).mp ends |>.1
  -- The symbol right before the body is the top of the stack.
  obtain ⟨symbol, earlier, rfl⟩ : ∃ symbol earlier, before = earlier ++ [symbol] := by
    rcases List.eq_nil_or_concat before with none | ⟨earlier, symbol, same⟩
    · rw [none, List.nil_append] at isBody
      rw [isBody] at longer
      omega
    · exact ⟨symbol, earlier, by simpa using same⟩
  refine apart earlier symbol (by simpa using isBody) ?_
  cases stack with
  | nil => simp at isSuffix
  | cons top beneath =>
    rw [form_cons] at isSuffix
    obtain ⟨deeper, same⟩ := isSuffix
    rw [← List.append_assoc] at same
    simpa [topKind] using List.append_inj_right' same rfl

/-- The handle found on a stack of symbols of bodies is a body that ends the kinds of the stack,
and no longer body does. -/
theorem findHandle_sound (accepted : parser.Accepted) {stack beneath : List Element}
    (occur : ∀ element ∈ stack, parser.grammar.Occurs element.kind) {production : Production}
    (found : parser.findHandle stack (min stack.length parser.longestBody) =
      some (production, beneath)) :
    production ∈ parser.grammar.productions ∧ beneath = stack.drop production.body.length ∧
      form stack = form beneath ++ production.body ∧
      ∀ other ∈ parser.grammar.productions, other.body <:+ form stack →
        other.body.length ≤ production.body.length := by
  obtain ⟨length, _, bounded, isBeneath, selected, none⟩ := findHandle_eq_some_iff.mp found
  obtain ⟨declared, keyed⟩ := select_some accepted selected
  have isBody := (topKey_eq_key_iff accepted occur declared length).mp keyed.symm
  have isLength : production.body.length = length := by
    rw [← isBody]
    simp only [List.length_map, List.length_reverse, List.length_take]
    omega
  subst isLength
  refine ⟨declared, isBeneath, ?_, ?_⟩
  · rw [isBeneath]
    exact (form_drop stack _).trans (by rw [isBody])
  · rintro other otherDeclared ⟨before, isForm⟩
    obtain ⟨isOther, short⟩ := take_eq_of_form_eq isForm.symm
    by_contra longer
    have unselected := none other.body.length (by omega)
      (Nat.le_min.mpr ⟨short, length_body_le_longestBody otherDeclared⟩)
    refine (select_eq_none_iff accepted).mp unselected other otherDeclared ?_
    exact ((topKey_eq_key_iff accepted occur otherDeclared _).mpr isOther).symm

/-- A body that ends the kinds of a stack of symbols of bodies is the handle found when no longer
body does and its production is the one selected. -/
theorem findHandle_complete (accepted : parser.Accepted) {stack beneath : List Element}
    (occur : ∀ element ∈ stack, parser.grammar.Occurs element.kind) {production : Production}
    (declared : production ∈ parser.grammar.productions)
    (isBeneath : beneath = stack.drop production.body.length)
    (isForm : form stack = form beneath ++ production.body)
    (selected : parser.select production.key (parser.topKind beneath) = some production)
    (longest : ∀ other ∈ parser.grammar.productions, other.body <:+ form stack →
      other.body.length ≤ production.body.length) :
    parser.findHandle stack (min stack.length parser.longestBody) =
      some (production, beneath) := by
  obtain ⟨isBody, short⟩ := take_eq_of_form_eq isForm
  have keyed := (topKey_eq_key_iff accepted occur declared _).mpr isBody
  refine findHandle_eq_some_iff.mpr ⟨production.body.length, ?_, ?_, isBeneath, ?_, ?_⟩
  · exact List.length_pos_of_ne_nil (accepted.body_ne_nil production declared)
  · exact Nat.le_min.mpr ⟨short, length_body_le_longestBody declared⟩
  · rw [keyed, selected]
  · intro longer exceeds inside
    refine (select_eq_none_iff accepted).mpr ?_
    intro other otherDeclared otherKeyed
    have isOther := (topKey_eq_key_iff accepted occur otherDeclared longer).mp otherKeyed.symm
    have isLonger : other.body.length = longer := by
      rw [← isOther]
      simp only [List.length_map, List.length_reverse, List.length_take]
      omega
    have ends : other.body <:+ form stack := ⟨_, isOther ▸ (form_drop stack longer).symm⟩
    have := longest other otherDeclared ends
    omega

end Parser

end Precedence
