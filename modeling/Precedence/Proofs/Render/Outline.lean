import Mathlib.Data.List.Basic
import Mathlib.Data.Option.Basic
import Precedence.Proofs.SyntaxTree.Attachment
import Precedence.Proofs.Text.Quoted
import Precedence.Render.Outline

/-!
# Reading an outline back

An outline tells the shape of a tree, its symbols, and the text and place of each lexeme, if no
symbol holds a blank. A label is taken apart at its first space, which ends the symbol, and at the
end of the quoted text. The lines below a child begin with its indent, and no line after them does,
so the lines of a subtree are told from those that follow without counting.
-/

namespace Precedence

open Text (IsUnbroken append_mark_inj isBlank joinLines_inj)

/-! ## Places -/

/-- A place is written as two numbers with a colon between them. -/
theorem Lexeme.place_toList (lexeme : Lexeme) :
    lexeme.place.toList =
      Nat.toDigits 10 (lexeme.line + 1) ++ ':' :: Nat.toDigits 10 (lexeme.column + 1) := by
  simp only [Lexeme.place, String.toList_append, Nat.toString_eq_ofList_toDigits,
    String.toList_ofList, List.append_assoc]
  rfl

/-- The digits of a number are digits. -/
theorem ne_of_mem_decimal {number : Nat} {character : Char}
    (held : character ∈ Nat.toDigits 10 number) :
    character ≠ ':' ∧ character ≠ '\n' ∧ character ≠ '\r' := by
  have digit : character.isDigit = true :=
    Nat.isDigit_of_mem_toDigits (by decide) (by decide) held
  refine ⟨?_, ?_, ?_⟩ <;> rintro rfl <;> exact absurd digit (by decide)

/-- A number is known by its decimal digits. -/
theorem decimal_inj {number other : Nat}
    (same : Nat.toDigits 10 number = Nat.toDigits 10 other) : number = other := by
  calc
    number = Nat.ofDigitChars 10 (Nat.toDigits 10 number) 0 :=
      Nat.ofDigitChars_ten_toDigits.symm
    _ = Nat.ofDigitChars 10 (Nat.toDigits 10 other) 0 := by rw [same]
    _ = other := Nat.ofDigitChars_ten_toDigits

/-- A place is known by how it is written. -/
theorem Lexeme.place_inj {lexeme other : Lexeme} (same : lexeme.place = other.place) :
    lexeme.line = other.line ∧ lexeme.column = other.column := by
  have spelled := congrArg String.toList same
  rw [place_toList, place_toList] at spelled
  obtain ⟨sameLine, sameColumn⟩ := append_mark_inj (fun held => (ne_of_mem_decimal held).1 rfl)
    (fun held => (ne_of_mem_decimal held).1 rfl) spelled
  have lines := decimal_inj sameLine
  have columns := decimal_inj sameColumn
  omega

/-- A place is not broken into lines. -/
theorem Lexeme.isUnbroken_place (lexeme : Lexeme) : IsUnbroken lexeme.place.toList := by
  rw [place_toList]
  intro character held
  rcases List.mem_append.mp held with held | held
  · exact (ne_of_mem_decimal held).2
  · rcases List.mem_cons.mp held with rfl | held
    · decide
    · exact (ne_of_mem_decimal held).2

namespace SyntaxTree

/-- Two lexemes have the same text at the same place. -/
def SameSpot (lexeme other : Lexeme) : Prop :=
  lexeme.text = other.text ∧ lexeme.line = other.line ∧ lexeme.column = other.column

/-- Two trees have the same shape and the same symbol at every node, and at every node either both
have no lexeme or both have lexemes with the same text at the same place. -/
inductive SameShown : SyntaxTree → SyntaxTree → Prop
  /-- The roots agree, and so do the children in order. -/
  | node (symbol : String) {lexeme otherLexeme : Option Lexeme}
      {children otherChildren : List SyntaxTree} (lexemes : Option.Rel SameSpot lexeme otherLexeme)
      (below : List.Forall₂ SameShown children otherChildren) :
      SameShown (.node symbol lexeme children) (.node symbol otherLexeme otherChildren)

/-- No symbol of a tree holds a blank. -/
def Unspaced (tree : SyntaxTree) : Prop :=
  ∀ node ∈ tree.preOrder, ∀ character ∈ node.symbol.toList, isBlank character = false

instance (tree : SyntaxTree) : Decidable tree.Unspaced :=
  decidable_of_iff (tree.preOrder.all fun node => node.symbol.toList.all (!isBlank ·))
    (by simp [Unspaced])

/-- The root of a tree without blanks in its symbols has none in its own. -/
theorem Unspaced.root {symbol : String} {lexeme : Option Lexeme} {children : List SyntaxTree}
    (unspaced : (node symbol lexeme children).Unspaced) :
    ∀ character ∈ symbol.toList, isBlank character = false :=
  unspaced (node symbol lexeme children) (by rw [preOrder_node]; exact List.mem_cons_self)

/-- The children of a tree without blanks in its symbols have none either. -/
theorem Unspaced.child {symbol : String} {lexeme : Option Lexeme} {children : List SyntaxTree}
    (unspaced : (node symbol lexeme children).Unspaced) {child : SyntaxTree}
    (held : child ∈ children) : child.Unspaced := by
  intro inner below
  apply unspaced inner
  rw [preOrder_node]
  exact List.mem_cons_of_mem _ (List.mem_flatMap.mpr ⟨child, held, below⟩)

/-! ## Labels -/

/-- A text without blanks does not hold a space. -/
theorem space_not_mem {symbol : String}
    (unspaced : ∀ character ∈ symbol.toList, isBlank character = false) : ' ' ∉ symbol.toList := by
  intro held
  exact absurd (unspaced ' ' held) (by decide)

/-- A node is known by its label, up to the token of its lexeme. -/
theorem label_inj {symbol other : String} {lexeme otherLexeme : Option Lexeme}
    (unspaced : ∀ character ∈ symbol.toList, isBlank character = false)
    (otherUnspaced : ∀ character ∈ other.toList, isBlank character = false)
    (same : label symbol lexeme = label other otherLexeme) :
    symbol = other ∧ Option.Rel SameSpot lexeme otherLexeme := by
  have noSpace := space_not_mem unspaced
  have otherNoSpace := space_not_mem otherUnspaced
  cases lexeme with
  | none =>
    cases otherLexeme with
    | none => exact ⟨String.toList_inj.mp same, .none⟩
    | some found =>
      rw [label, label] at same
      exact absurd (same ▸ List.mem_append_right _ List.mem_cons_self) noSpace
  | some lexeme =>
    cases otherLexeme with
    | none =>
      rw [label, label] at same
      exact absurd (same ▸ List.mem_append_right _ List.mem_cons_self) otherNoSpace
    | some found =>
      rw [label, label, List.append_assoc, List.append_assoc] at same
      obtain ⟨sameSymbol, sameRest⟩ := append_mark_inj noSpace otherNoSpace same
      obtain ⟨sameText, samePlace⟩ := Text.quoteCharacters_append_inj sameRest
      have place := Lexeme.place_inj (String.toList_inj.mp (List.tail_eq_of_cons_eq samePlace))
      exact ⟨String.toList_inj.mp sameSymbol, .some ⟨String.toList_inj.mp sameText, place⟩⟩

/-- Nodes that agree have the same label. -/
theorem label_eq (symbol : String) {lexeme otherLexeme : Option Lexeme}
    (lexemes : Option.Rel SameSpot lexeme otherLexeme) :
    label symbol lexeme = label symbol otherLexeme := by
  cases lexemes with
  | none => rfl
  | some spot =>
    obtain ⟨text, line, column⟩ := spot
    rw [label, label, Lexeme.place, Lexeme.place, text, line, column]

/-- A label is not broken into lines. -/
theorem isUnbroken_label {symbol : String} (lexeme : Option Lexeme)
    (unspaced : ∀ character ∈ symbol.toList, isBlank character = false) :
    IsUnbroken (label symbol lexeme) := by
  have ofSymbol : IsUnbroken symbol.toList := Text.isUnbroken_of_nonblank unspaced
  cases lexeme with
  | none => exact ofSymbol
  | some lexeme =>
    have space : IsUnbroken [' '] := by simp [IsUnbroken]
    have ofText := space.append (Text.isUnbroken_quoteCharacters lexeme.text.toList)
    have ofPlace := space.append lexeme.isUnbroken_place
    simpa [label] using ofSymbol.append (ofText.append ofPlace)

/-! ## Lines of children -/

/-- The first line of the outline of children, and the lines after it. -/
theorem outlineChildren_cons (indent : List Char) (symbol : String) (lexeme : Option Lexeme)
    (below children : List SyntaxTree) :
    outlineChildren indent (.node symbol lexeme below :: children) =
      (indent ++ connector children.isEmpty ++ label symbol lexeme) ::
        (outlineChildren (indent ++ continuation children.isEmpty) below ++
          outlineChildren indent children) := by
  rw [outlineChildren, outlineChild, List.cons_append]

/-- The lines of children are not broken if those of each child are not. -/
theorem isUnbroken_outlineChildren {indent : List Char} {children : List SyntaxTree}
    (each : ∀ child ∈ children, ∀ isLast, ∀ line ∈ outlineChild indent isLast child,
      IsUnbroken line) : ∀ line ∈ outlineChildren indent children, IsUnbroken line := by
  induction children with
  | nil => exact List.forall_mem_nil _
  | cons child children ih =>
    intro line held
    rw [outlineChildren] at held
    rcases List.mem_append.mp held with held | held
    · exact each child List.mem_cons_self _ line held
    · exact ih (fun other inside => each other (List.mem_cons_of_mem _ inside)) line held

/-- No line of the outline of a child is broken if the indent is not. -/
theorem isUnbroken_outlineChild {child : SyntaxTree} (unspaced : child.Unspaced)
    {indent : List Char} (ofIndent : IsUnbroken indent) (isLast : Bool) :
    ∀ line ∈ outlineChild indent isLast child, IsUnbroken line := by
  induction child using SyntaxTree.induction generalizing indent isLast with
  | node symbol lexeme children ih =>
    have ofConnector : IsUnbroken (connector isLast) := by
      cases isLast <;> simp [IsUnbroken, connector]
    have ofContinuation : IsUnbroken (continuation isLast) := by
      cases isLast <;> simp [IsUnbroken, continuation]
    have ofDeeper := ofIndent.append ofContinuation
    have below := isUnbroken_outlineChildren fun child held =>
      ih child held (unspaced.child held) ofDeeper
    intro line held
    rw [outlineChild] at held
    rcases List.mem_cons.mp held with rfl | held
    · exact (ofIndent.append ofConnector).append (isUnbroken_label lexeme unspaced.root)
    · exact below line held

/-- No line of an outline is broken. -/
theorem isUnbroken_outlineLines {tree : SyntaxTree} (unspaced : tree.Unspaced) :
    ∀ line ∈ tree.outlineLines, IsUnbroken line := by
  obtain ⟨symbol, lexeme, children⟩ := tree
  have noIndent : IsUnbroken [] := List.forall_mem_nil _
  have below := isUnbroken_outlineChildren fun child held =>
    isUnbroken_outlineChild (unspaced.child held) noIndent
  intro line held
  rcases List.mem_cons.mp held with rfl | held
  · exact isUnbroken_label lexeme unspaced.root
  · exact below line held

/-! ## What follows the lines of children -/

/-- The first of some lines, if any, does not begin with an indent. -/
def Outside (indent : List Char) (lines : List (List Char)) : Prop :=
  ∀ line ∈ lines.head?, ¬ indent <+: line

/-- The first line of children begins with their indent, so it does not stand outside. -/
theorem Outside.ne_outlineChildren {indent : List Char} {lines : List (List Char)}
    (outside : Outside indent lines) (child : SyntaxTree) (children : List SyntaxTree)
    (rest : List (List Char)) :
    lines ≠ outlineChildren indent (child :: children) ++ rest := by
  rintro rfl
  obtain ⟨symbol, lexeme, below⟩ := child
  rw [outlineChildren_cons] at outside
  apply outside _ rfl
  rw [List.append_assoc]
  exact List.prefix_append _ _

/-- The lines after those below a child are outside its indent: they are those of its next sibling
or, after the last child, lines that are outside the indent of all children. -/
theorem Outside.below {indent : List Char} {rest : List (List Char)}
    (outside : Outside indent rest) (siblings : List SyntaxTree) :
    Outside (indent ++ continuation siblings.isEmpty)
      (outlineChildren indent siblings ++ rest) := by
  intro line isFirst begins
  cases siblings with
  | nil => exact outside line isFirst ((List.prefix_append _ _).trans begins)
  | cons sibling siblings =>
    obtain ⟨symbol, lexeme, below⟩ := sibling
    rw [outlineChildren_cons] at isFirst
    obtain rfl := Option.some.inj isFirst
    rw [List.append_assoc, List.prefix_append_right_inj] at begins
    -- A continuation for more siblings begins with a bar, and a connector does not.
    cases siblings <;> simp [continuation, connector] at begins

/-! ## Reading the tree off the lines -/

/-- A connector tells the last child from the others. -/
theorem connector_append_inj {isLast other : Bool} {label otherLabel : List Char}
    (same : connector isLast ++ label = connector other ++ otherLabel) :
    isLast = other ∧ label = otherLabel := by
  cases isLast <;> cases other <;> simp_all [connector]

/-- Whether the lines below a tree, with any lines outside their indent after them, tell its
children. -/
def Readable (tree : SyntaxTree) : Prop :=
  ∀ ⦃indent : List Char⦄ ⦃others : List SyntaxTree⦄ ⦃rest otherRest : List (List Char)⦄,
    (∀ other ∈ others, other.Unspaced) → Outside indent rest → Outside indent otherRest →
    outlineChildren indent tree.children ++ rest = outlineChildren indent others ++ otherRest →
    List.Forall₂ SameShown tree.children others ∧ rest = otherRest

/-- The lines of children tell the children and where their lines end, if the lines below each
child tell what is below it. -/
theorem sameShown_of_outlineChildren {indent : List Char} {children others : List SyntaxTree}
    {rest otherRest : List (List Char)} (readable : ∀ child ∈ children, child.Readable)
    (unspaced : ∀ child ∈ children, child.Unspaced)
    (otherUnspaced : ∀ other ∈ others, other.Unspaced)
    (outside : Outside indent rest) (otherOutside : Outside indent otherRest)
    (same : outlineChildren indent children ++ rest = outlineChildren indent others ++ otherRest) :
    List.Forall₂ SameShown children others ∧ rest = otherRest := by
  induction children generalizing others with
  | nil =>
    cases others with
    | nil => exact ⟨.nil, same⟩
    | cons other others => exact absurd same (outside.ne_outlineChildren other others otherRest)
  | cons child children ih =>
    cases others with
    | nil => exact absurd same.symm (otherOutside.ne_outlineChildren child children rest)
    | cons other others =>
      have ofChild := unspaced child List.mem_cons_self
      have ofOther := otherUnspaced other List.mem_cons_self
      have readChild := readable child List.mem_cons_self
      obtain ⟨symbol, lexeme, below⟩ := child
      obtain ⟨otherSymbol, otherLexeme, otherBelow⟩ := other
      simp only [outlineChildren_cons, List.cons_append, List.append_assoc] at same
      obtain ⟨sameLine, sameLater⟩ := List.cons.inj same
      -- The first lines agree, so the children are both last or both not.
      obtain ⟨sameLast, sameLabel⟩ := connector_append_inj (List.append_cancel_left sameLine)
      obtain ⟨rfl, lexemes⟩ := label_inj ofChild.root ofOther.root sameLabel
      rw [← sameLast] at sameLater
      have after : Outside (indent ++ continuation children.isEmpty)
          (outlineChildren indent others ++ otherRest) := sameLast ▸ otherOutside.below others
      obtain ⟨sameBelow, sameRest⟩ := readChild (fun _ held => ofOther.child held)
        (outside.below children) after sameLater
      obtain ⟨sameOthers, sameEnd⟩ := ih
        (fun child held => readable child (List.mem_cons_of_mem _ held))
        (fun child held => unspaced child (List.mem_cons_of_mem _ held))
        (fun other held => otherUnspaced other (List.mem_cons_of_mem _ held)) sameRest
      exact ⟨.cons (.node symbol lexemes sameBelow) sameOthers, sameEnd⟩

/-- The lines below every tree tell its children. -/
theorem readable_of_unspaced {tree : SyntaxTree} (unspaced : tree.Unspaced) : tree.Readable := by
  induction tree using SyntaxTree.induction with
  | node symbol lexeme children ih =>
    intro indent others rest otherRest otherUnspaced outside otherOutside same
    exact sameShown_of_outlineChildren (fun child held => ih child held (unspaced.child held))
      (fun child held => unspaced.child held) otherUnspaced outside otherOutside same

/-! ## Trees with the same outline -/

/-- Children that are shown alike have the same lines, if the lines below each child depend only on
what is shown. -/
theorem outlineChildren_eq {children others : List SyntaxTree} (indent : List Char)
    (each : ∀ child ∈ children, ∀ ⦃other⦄, SameShown child other → ∀ indent isLast,
      outlineChild indent isLast child = outlineChild indent isLast other)
    (alike : List.Forall₂ SameShown children others) :
    outlineChildren indent children = outlineChildren indent others := by
  induction alike with
  | nil => rfl
  | @cons child other children others first later ih =>
    have sameEnd : children.isEmpty = others.isEmpty := by
      cases later <;> rfl
    have sameFirst := each child List.mem_cons_self first indent children.isEmpty
    have sameLater := ih fun child held => each child (List.mem_cons_of_mem _ held)
    rw [outlineChildren, outlineChildren, sameFirst, sameEnd, sameLater]

/-- Trees that are shown alike have the same lines as children. -/
theorem outlineChild_eq {tree other : SyntaxTree} (alike : SameShown tree other)
    (indent : List Char) (isLast : Bool) :
    outlineChild indent isLast tree = outlineChild indent isLast other := by
  induction tree using SyntaxTree.induction generalizing other indent isLast with
  | node symbol lexeme children ih =>
    obtain ⟨_, lexemes, below⟩ := alike
    rw [outlineChild, outlineChild, label_eq symbol lexemes, outlineChildren_eq _ ih below]

/-- Two trees without blanks in their symbols have the same outline exactly when they have the same
shape and the same symbol at every node, and at every node either both have no lexeme or both have
lexemes with the same text, line and column. -/
theorem outline_faithful {tree other : SyntaxTree} (unspaced : tree.Unspaced)
    (otherUnspaced : other.Unspaced) : tree.outline = other.outline ↔ SameShown tree other := by
  obtain ⟨symbol, lexeme, children⟩ := tree
  obtain ⟨otherSymbol, otherLexeme, others⟩ := other
  rw [outline, outline, String.ofList_inj, joinLines_inj (isUnbroken_outlineLines unspaced)
    (isUnbroken_outlineLines otherUnspaced)]
  constructor
  · intro same
    obtain ⟨sameLabel, sameLines⟩ := List.cons.inj same
    obtain ⟨rfl, lexemes⟩ := label_inj unspaced.root otherUnspaced.root sameLabel
    have nothing : Outside [] [] := fun _ held => nomatch held
    have below := (readable_of_unspaced unspaced) (fun _ held => otherUnspaced.child held)
      nothing nothing (congrArg (· ++ []) sameLines)
    exact .node symbol lexemes below.1
  · rintro ⟨_, lexemes, below⟩
    have sameLines := outlineChildren_eq [] (fun child _ _ alike => outlineChild_eq alike) below
    have sameLabel := label_eq symbol lexemes
    exact List.cons_eq_cons.mpr ⟨sameLabel, sameLines⟩

/-- Symbols may look like connectors or be empty, and texts may look like lines of an outline. A
token is not shown, so two trees whose lexemes differ in it alone have the same outline. -/
theorem outline_faithful_connectors :
    let text := "\" 1:1\n└─ S"
    let withToken (token : Token) := node "├─" none [
      node "└─1:1" none [node "" (some ⟨text, 0, 3, token⟩) [], leaf "│"], leaf "\"S\""]
    let tree := withToken ⟨.literal, "string"⟩
    let other := withToken ⟨.special, ";"⟩
    tree.Unspaced ∧ other.Unspaced ∧ tree.outline = other.outline ∧ SameShown tree other := by
  intro text withToken tree other
  have unspaced : tree.Unspaced := by decide +kernel
  have otherUnspaced : other.Unspaced := by decide +kernel
  have same : tree.outline = other.outline := by decide +kernel
  exact ⟨unspaced, otherUnspaced, same, (outline_faithful unspaced otherUnspaced).mp same⟩

end SyntaxTree

end Precedence
