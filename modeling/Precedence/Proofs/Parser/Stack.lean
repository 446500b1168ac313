import Precedence.Proofs.Parser.Handle
import Precedence.Proofs.Parser.Transition

/-!
# What a stack holds

Everything beneath the top of a stack stands in a body, and nothing on it is the end marker. The
head of a production need not stand in a body, but nothing is ever read or reduced with such a head
on top, so a handle is only looked for on a stack of symbols of bodies.
-/

namespace Precedence.Parser

variable {parser : Parser}

/-- A configuration is accepted when the start symbol is alone on the stack and the end marker
comes next. -/
theorem accepts_iff {stack : List Element} {lookahead : Element} :
    parser.accepts stack lookahead = true ↔
      form stack = [parser.start] ∧ lookahead.kind = parser.endMarker := by
  match stack with
  | [] => simp [accepts]
  | [element] => simp [accepts]
  | first :: second :: others =>
    simp only [accepts, Bool.false_eq_true, false_iff, not_and]
    intro alone
    have lengths := congrArg List.length alone
    simp at lengths

/-- A configuration with another symbol than the start symbol on top is not accepted. -/
theorem not_accepts_of_topKind {stack : List Element} {lookahead : Element}
    (different : parser.topKind stack ≠ parser.start) :
    parser.accepts stack lookahead = false := by
  rw [Bool.eq_false_iff]
  intro isAccepted
  cases stack with
  | nil => simp [accepts] at isAccepted
  | cons top beneath =>
    have alone := (accepts_iff.mp isAccepted).1
    rw [form_cons, List.append_eq_singleton_iff] at alone
    rcases alone with ⟨_, isTop⟩ | ⟨_, none⟩
    · exact different (List.cons.inj isTop).1
    · cases none

/-- What holds of the stack of every configuration. -/
structure Stacked (parser : Parser) (stack : List Element) : Prop where
  /-- What is covered by another element stands in a body. -/
  covered : ∀ element ∈ stack.tail, parser.grammar.Occurs element.kind
  /-- The end marker is not on the stack. -/
  fresh : ∀ element ∈ stack, element.kind ≠ parser.endMarker

/-- An empty stack holds nothing. -/
theorem stacked_nil (parser : Parser) : parser.Stacked [] where
  covered := List.forall_mem_nil _
  fresh := List.forall_mem_nil _

/-- Unless an element is refused, everything on the stack stands in a body. -/
theorem Stacked.occurs (accepted : parser.Accepted) {stack : List Element} {next : String}
    (stacked : parser.Stacked stack)
    (goesOn : parser.move (parser.topKind stack) next ≠ .reject) :
    ∀ element ∈ stack, parser.grammar.Occurs element.kind := by
  intro element held
  cases stack with
  | nil => exact absurd held List.not_mem_nil
  | cons top beneath =>
    rcases List.mem_cons.mp held with rfl | covered
    · exact (occurs_of_move accepted goesOn).resolve_right
        (stacked.fresh element List.mem_cons_self)
    · exact stacked.covered element covered

/-- An element that is not the end marker may cover symbols of bodies. -/
theorem Stacked.push {stack : List Element} {element : Element}
    (occur : ∀ covered ∈ stack, parser.grammar.Occurs covered.kind)
    (stacked : parser.Stacked stack) (fresh : element.kind ≠ parser.endMarker) :
    parser.Stacked (element :: stack) where
  covered := occur
  fresh _ held := (List.mem_cons.mp held).elim (fun same => same ▸ fresh) (stacked.fresh _)

/-- What is beneath some height of a stack is a stack. -/
theorem Stacked.drop {stack : List Element} (stacked : parser.Stacked stack) (height : Nat) :
    parser.Stacked (stack.drop height) where
  covered element held := by
    rw [List.tail_drop, ← List.drop_tail] at held
    exact stacked.covered element (List.mem_of_mem_drop held)
  fresh element held := stacked.fresh element (List.mem_of_mem_drop held)

/-- An element that is read is a symbol of the grammar, not the end marker. -/
theorem ne_endMarker_of_read (accepted : parser.Accepted) {top next : String}
    (isMove : parser.move top next = .read) : next ≠ parser.endMarker :=
  accepted.ne_endMarker_of_occurs
    (occurs_of_shifts accepted ((move_eq_read_iff accepted).mp isMove).1)

variable {σ : Type} [Supply σ]

/-- The end marker is never read. -/
theorem Leads.ne_endMarker (accepted : parser.Accepted) {configuration last : Configuration σ}
    {elements : List Element} (leads : parser.Leads configuration elements last) :
    ∀ element ∈ elements, element.kind ≠ parser.endMarker := by
  induction leads with
  | refl => exact List.forall_mem_nil _
  | @step configuration _ _ _ _ _ _ ih =>
    intro element held
    rcases List.mem_append.mp held with held | held
    · rw [readBy] at held
      split at held
      · rename_i isMove
        rw [List.mem_singleton.mp held]
        exact ne_endMarker_of_read accepted isMove
      · cases held
    · exact ih element held

/-- What a transition puts on the stack may cover what it leaves there. -/
theorem Stacked.transition (accepted : parser.Accepted) {configuration next : Configuration σ}
    (stacked : parser.Stacked configuration.stack)
    (transition : parser.Transition configuration next) : parser.Stacked next.stack := by
  cases transition with
  | read isMove _ =>
    have goesOn : parser.nextMove configuration ≠ .reject := by simp [isMove]
    exact stacked.push (stacked.occurs accepted goesOn) (ne_endMarker_of_read accepted isMove)
  | insert isMove _ =>
    have goesOn : parser.nextMove configuration ≠ .reject := by simp [isMove]
    have inserted := (shifts_of_move_insert accepted isMove).2
    exact stacked.push (stacked.occurs accepted goesOn)
      (accepted.ne_endMarker_of_occurs (occurs_of_shifts accepted inserted))
  | reduce isMove found =>
    have goesOn : parser.nextMove configuration ≠ .reject := by simp [isMove]
    have occur := stacked.occurs accepted goesOn
    obtain ⟨declared, rfl, _, _⟩ := findHandle_sound accepted occur found
    exact (stacked.drop _).push (fun element held => occur element (List.mem_of_mem_drop held))
      (accepted.ne_endMarker_of_isNonTerminal (accepted.isNonTerminal_head declared))

end Precedence.Parser
