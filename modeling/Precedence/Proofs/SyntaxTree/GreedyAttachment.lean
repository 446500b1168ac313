import Mathlib.Order.Bounds.Basic
import Precedence.Proofs.SyntaxTree.Attachment

/-!
# The longest prefix is attached

A leaf takes the lexeme that waits if it can. No other way of giving lexemes to leaves in order
attaches more of them: a leaf that is passed over could not have taken the lexeme that waits, and
one that takes it leaves as much room for the others as any later leaf would. So as many lexemes are
attached as have their kinds, in order, among the symbols of the leaves. Apart from the lexemes at
those leaves the tree stays as it was.
-/

namespace Precedence.SyntaxTree

/-! ## Filling leaves -/

/-- Leaves before and after lexemes are attached to them from left to right, with the lexemes taken
and those left. -/
inductive Filled :
    List SyntaxTree → List Lexeme → List Lexeme → List SyntaxTree → Prop
  /-- No leaf is left. -/
  | done (rest : List Lexeme) : Filled [] [] rest []
  /-- The first leaf takes the lexeme that waits. -/
  | take (next : Lexeme) (earlier : Option Lexeme) {before after : List SyntaxTree}
      {taken rest : List Lexeme} (others : Filled before taken rest after) :
      Filled (node next.kind earlier [] :: before) (next :: taken) rest
        (node next.kind (some next) [] :: after)
  /-- The first leaf cannot take the lexeme that waits, if there is one. -/
  | pass (first : SyntaxTree) {before after : List SyntaxTree} {taken rest : List Lexeme}
      (unfit : ∀ next ∈ (taken ++ rest).head?, next.kind ≠ first.symbol)
      (others : Filled before taken rest after) :
      Filled (first :: before) taken rest (first :: after)

/-- Lexemes attached to leaves one after another fill them. -/
theorem filled_attachAll {leaves : List SyntaxTree} (bare : ∀ leaf ∈ leaves, leaf.isLeaf = true)
    (lexemes : List Lexeme) :
    ∃ taken, lexemes = taken ++ (attachAll leaves lexemes).2 ∧
      Filled leaves taken (attachAll leaves lexemes).2 (attachAll leaves lexemes).1 := by
  induction leaves generalizing lexemes with
  | nil => exact ⟨[], rfl, .done lexemes⟩
  | cons first leaves ih =>
    have others := ih fun leaf held => bare leaf (List.mem_cons_of_mem _ held)
    obtain ⟨name, earlier, children⟩ := first
    obtain rfl : children = [] := List.isEmpty_iff.mp (bare _ List.mem_cons_self)
    cases lexemes with
    | nil =>
      obtain ⟨taken, split, filled⟩ := others []
      rw [attachAll_cons, attach]
      refine ⟨taken, split, .pass _ ?_ filled⟩
      simp [← split]
    | cons next lexemes =>
      rw [attachAll_cons, attach]
      by_cases fits : next.kind = name
      · obtain ⟨taken, split, filled⟩ := others lexemes
        subst fits
        rw [if_pos rfl]
        exact ⟨next :: taken, congrArg (next :: ·) split, .take next earlier filled⟩
      · obtain ⟨taken, split, filled⟩ := others (next :: lexemes)
        rw [if_neg fits]
        refine ⟨taken, split, .pass _ ?_ filled⟩
        rw [← split]
        rintro _ ⟨rfl⟩
        exact fits

variable {before after : List SyntaxTree} {taken rest : List Lexeme}

/-- The kinds of the lexemes taken are among the symbols of the leaves, in order. -/
theorem Filled.sublist (filled : Filled before taken rest after) :
    (taken.map Lexeme.kind).Sublist (before.map symbol) := by
  induction filled with
  | done => exact List.Sublist.refl _
  | take next earlier _ ih => exact ih.cons_cons next.kind
  | pass first _ _ ih => exact ih.cons first.symbol

/-- No longer prefix of the lexemes has its kinds among the symbols of the leaves, in order. -/
theorem Filled.length_le (filled : Filled before taken rest after) {front back : List Lexeme}
    (split : taken ++ rest = front ++ back)
    (among : (front.map Lexeme.kind).Sublist (before.map symbol)) :
    front.length ≤ taken.length := by
  induction filled generalizing front with
  | done =>
    rw [List.map_eq_nil_iff.mp (List.sublist_nil.mp among)]
  | take next earlier _ ih =>
    cases front with
    | nil => exact Nat.zero_le _
    | cons other front =>
      obtain ⟨rfl, later⟩ := List.cons.inj split
      exact Nat.succ_le_succ (ih later among.of_cons_cons)
  | pass first unfit _ ih =>
    cases front with
    | nil => exact Nat.zero_le _
    | cons other front =>
      -- The lexeme that waits does not fit here, so it comes among later symbols.
      have waits : other.kind ≠ first.symbol := unfit other (by rw [split]; rfl)
      exact ih split (List.Sublist.of_cons_of_ne waits among)

/-- Leaves that carried no lexeme carry the lexemes taken, in order. -/
theorem Filled.filterMap_lexeme? (filled : Filled before taken rest after)
    (bare : ∀ leaf ∈ before, leaf.lexeme? = none) : after.filterMap lexeme? = taken := by
  induction filled with
  | done => rfl
  | take next earlier _ ih =>
    exact congrArg (next :: ·) (ih fun leaf held => bare leaf (List.mem_cons_of_mem _ held))
  | pass first _ _ ih =>
    rw [List.filterMap_cons_none (bare first List.mem_cons_self)]
    exact ih fun leaf held => bare leaf (List.mem_cons_of_mem _ held)

/-! ## The places of the lexemes -/

/-- Lexemes sit, in order, at increasing places of leaves whose symbols are their kinds, and the
leaves at other places are those before. -/
structure SitAt (before after : List SyntaxTree) (lexemes : List Lexeme) (places : List Nat) :
    Prop where
  /-- Each lexeme has a place. -/
  length_eq : places.length = lexemes.length
  /-- The places increase. -/
  increasing : places.Pairwise (· < ·)
  /-- At its place a leaf with the kind of the lexeme carries it. -/
  sits : ∀ (i : Nat) (lexeme : Lexeme) (place : Nat),
    lexemes[i]? = some lexeme → places[i]? = some place →
      ∃ earlier, before[place]? = some (node lexeme.kind earlier []) ∧
        after[place]? = some (node lexeme.kind (some lexeme) [])
  /-- The leaves at other places stay. -/
  kept : ∀ place, place ∉ places → after[place]? = before[place]?

/-- No lexeme sits among leaves that stay. -/
theorem sitAt_nil (leaves : List SyntaxTree) : SitAt leaves leaves [] [] where
  length_eq := rfl
  increasing := .nil
  sits _ _ _ isLexeme := by simp at isLexeme
  kept _ _ := rfl

/-- A leaf that stays moves all places by one. -/
theorem SitAt.pass {places : List Nat} (sitAt : SitAt before after taken places)
    (first : SyntaxTree) :
    SitAt (first :: before) (first :: after) taken (places.map (· + 1)) where
  length_eq := by rw [List.length_map, sitAt.length_eq]
  increasing := List.pairwise_map.mpr (sitAt.increasing.imp Nat.succ_lt_succ)
  sits i lexeme place isLexeme isPlace := by
    rw [List.getElem?_map, Option.map_eq_some_iff] at isPlace
    obtain ⟨earlierPlace, isPlace, rfl⟩ := isPlace
    exact sitAt.sits i lexeme earlierPlace isLexeme isPlace
  kept place missing := by
    cases place with
    | zero => rfl
    | succ place =>
      exact sitAt.kept place fun held => missing (List.mem_map_of_mem held)

/-- A leaf that takes a lexeme is a place before all others. -/
theorem SitAt.take {places : List Nat} (sitAt : SitAt before after taken places) (next : Lexeme)
    (earlier : Option Lexeme) :
    SitAt (node next.kind earlier [] :: before) (node next.kind (some next) [] :: after)
      (next :: taken) (0 :: places.map (· + 1)) where
  length_eq := by simp [sitAt.length_eq]
  increasing := by
    have others := List.pairwise_map.mpr (sitAt.increasing.imp Nat.succ_lt_succ)
    exact List.pairwise_cons.mpr ⟨by simp, others⟩
  sits i lexeme place isLexeme isPlace := by
    cases i with
    | zero =>
      obtain rfl := Option.some.inj isLexeme
      obtain rfl := Option.some.inj isPlace
      exact ⟨earlier, rfl, rfl⟩
    | succ i =>
      rw [List.getElem?_cons_succ, List.getElem?_map, Option.map_eq_some_iff] at isPlace
      obtain ⟨earlierPlace, isPlace, rfl⟩ := isPlace
      exact sitAt.sits i lexeme earlierPlace isLexeme isPlace
  kept place missing := by
    cases place with
    | zero => exact absurd List.mem_cons_self missing
    | succ place =>
      refine sitAt.kept place fun held => missing (List.mem_cons_of_mem _ ?_)
      exact List.mem_map_of_mem held

/-- The lexemes taken sit at increasing places. -/
theorem Filled.exists_sitAt (filled : Filled before taken rest after) :
    ∃ places, SitAt before after taken places := by
  induction filled with
  | done => exact ⟨[], sitAt_nil []⟩
  | take next earlier _ ih =>
    obtain ⟨places, sitAt⟩ := ih
    exact ⟨_, sitAt.take next earlier⟩
  | pass first _ _ ih =>
    obtain ⟨places, sitAt⟩ := ih
    exact ⟨_, sitAt.pass first⟩

/-! ## What stays -/

/-- What the nodes with children carry, each before those below it. -/
def innerLexemes (tree : SyntaxTree) : List (Option Lexeme) :=
  (tree.preOrder.filter (!·.isLeaf)).map lexeme?

/-- A node without children is no inner node. -/
theorem innerLexemes_nil (symbol : String) (lexeme : Option Lexeme) :
    (node symbol lexeme []).innerLexemes = [] := by
  rw [innerLexemes, preOrder_node]
  rfl

/-- A node with children carries its own lexeme, and its children theirs. -/
theorem innerLexemes_node (symbol : String) (lexeme : Option Lexeme) {children : List SyntaxTree}
    (inner : children ≠ []) :
    (node symbol lexeme children).innerLexemes = lexeme :: children.flatMap innerLexemes := by
  have isInner : (node symbol lexeme children).isLeaf = false := by
    simpa [isLeaf, SyntaxTree.children] using inner
  rw [innerLexemes, preOrder_node, List.filter_cons_of_pos (by simp [isInner]), List.map_cons,
    List.filter_flatMap, List.map_flatMap]
  rfl

/-- Attaching lexemes to trees one after another changes no inner node that attaching them to each
does not. -/
theorem flatMap_innerLexemes_attachAll {trees : List SyntaxTree}
    (kept : ∀ tree ∈ trees, ∀ lexemes, (tree.attach lexemes).1.innerLexemes = tree.innerLexemes)
    (lexemes : List Lexeme) :
    (attachAll trees lexemes).1.flatMap innerLexemes = trees.flatMap innerLexemes := by
  induction trees generalizing lexemes with
  | nil => rfl
  | cons tree trees ih =>
    rw [attachAll_cons, List.flatMap_cons, List.flatMap_cons, kept tree List.mem_cons_self,
      ih fun other held => kept other (List.mem_cons_of_mem _ held)]

/-- Attaching lexemes changes no inner node. -/
theorem innerLexemes_attach (tree : SyntaxTree) (lexemes : List Lexeme) :
    (tree.attach lexemes).1.innerLexemes = tree.innerLexemes := by
  induction tree using induction generalizing lexemes with
  | node symbol lexeme children ih =>
    by_cases inner : children = []
    · subst inner
      cases lexemes with
      | nil => rw [attach]
      | cons next lexemes =>
        rw [attach]
        split <;> simp only [innerLexemes_nil]
    · rw [attach_node symbol lexeme inner, innerLexemes_node symbol lexeme inner,
        innerLexemes_node symbol lexeme (attachAll_ne_nil inner lexemes),
        flatMap_innerLexemes_attachAll ih]

/-- Attaching lexemes to a tree attaches the longest prefix of them whose kinds are among the
symbols of the leaves, in order. These lexemes sit, in order, at increasing places among the leaves,
each at a leaf of its kind; the other leaves stay as they were, and so do the symbols and children
of all nodes and the lexemes of the inner ones. If the leaves were bare, what can be read off them
afterwards is the prefix. -/
theorem attachLexemes_longest (tree : SyntaxTree) (lexemes : List Lexeme) :
    let attached := (tree.attachLexemes lexemes).1
    let count := (tree.attachLexemes lexemes).2
    IsGreatest {n | n ≤ lexemes.length ∧
      ((lexemes.take n).map Lexeme.kind).Sublist (tree.leaves.map symbol)} count ∧
    (∃ places, SitAt tree.leaves attached.leaves (lexemes.take count) places) ∧
    attached.erase = tree.erase ∧ attached.innerLexemes = tree.innerLexemes ∧
    ((∀ leaf ∈ tree.leaves, leaf.lexeme? = none) →
      attached.leaves.filterMap lexeme? = lexemes.take count) := by
  intro attached count
  have areLeaves : ∀ leaf ∈ tree.leaves, leaf.isLeaf = true := fun leaf held =>
    (List.mem_filter.mp held).2
  obtain ⟨taken, split, filled⟩ := filled_attachAll areLeaves lexemes
  rw [← (tree.attachesByLeaves lexemes).1, ← (tree.attachesByLeaves lexemes).2] at filled
  rw [← (tree.attachesByLeaves lexemes).2] at split
  have isCount : count = taken.length := by
    have lengths := congrArg List.length split
    rw [List.length_append] at lengths
    exact Nat.sub_eq_of_eq_add lengths
  have isTaken : lexemes.take count = taken := by
    rw [isCount, split, List.take_left]
  rw [isTaken]
  refine ⟨⟨⟨?_, ?_⟩, ?_⟩, filled.exists_sitAt, tree.erase_attach lexemes,
    tree.innerLexemes_attach lexemes, filled.filterMap_lexeme?⟩
  · exact Nat.sub_le _ _
  · rw [isTaken]
    exact filled.sublist
  · rintro n ⟨inside, among⟩
    rw [isCount, ← List.length_take_of_le inside]
    exact filled.length_le (split.symm.trans (List.take_append_drop n lexemes).symm) among

/-- Of an identifier, a semicolon and a number, the first two are attached to an assignment: the
semicolon waits for its own leaf, past one that the number could have taken. -/
theorem attachLexemes_longest_assignment :
    let tree := node "<statement>" none
      [leaf "id", leaf "=", node "<factor>" none [leaf "num"], leaf ";"]
    let lexemes : List Lexeme := [⟨"a", 0, 0, ⟨⟨.identifier, "id"⟩, some 0⟩⟩,
      ⟨";", 0, 2, ⟨⟨.special, ";"⟩, some 1⟩⟩, ⟨"1", 0, 4, ⟨⟨.literal, "integer"⟩, some 2⟩⟩]
    (∀ leaf ∈ tree.leaves, leaf.lexeme? = none) ∧ (tree.attachLexemes lexemes).2 = 2 ∧
      (tree.attachLexemes lexemes).1.leaves.filterMap lexeme? = lexemes.take 2 := by
  intro tree lexemes
  have isLeaves : tree.leaves = [leaf "id", leaf "=", leaf "num", leaf ";"] := rfl
  have bare : ∀ leaf ∈ tree.leaves, leaf.lexeme? = none := by
    rw [isLeaves]
    simp [leaf, lexeme?]
  have count : (tree.attachLexemes lexemes).2 = 2 := by decide +kernel
  have read := (tree.attachLexemes_longest lexemes).2.2.2.2 bare
  exact ⟨bare, count, count ▸ read⟩

end Precedence.SyntaxTree
