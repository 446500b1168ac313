import Mathlib.Data.Nat.Digits.Defs
import Precedence.Proofs.Text.Lines
import Precedence.Text.Quoted

/-!
# Quoted text read back

Numbers are known by their digits, and characters by how they are written in a quoted text: no
written character is the beginning of another one, and none begins with the closing quote. So a
text is known by its quoted form, whatever stands after it. A quoted text is never broken into
lines.
-/

namespace Precedence.Text

/-! ## Runs before a mark -/

/-- Two runs that do not hold the mark that ends them are the same, and so is what follows. -/
theorem append_mark_inj {mark : Char} {run other rest otherRest : List Char}
    (unmarked : mark ∉ run) (otherUnmarked : mark ∉ other)
    (same : run ++ mark :: rest = other ++ mark :: otherRest) : run = other ∧ rest = otherRest := by
  induction run generalizing other with
  | nil =>
    cases other with
    | nil => exact ⟨rfl, List.tail_eq_of_cons_eq same⟩
    | cons character other =>
      have isMark : mark = character := List.head_eq_of_cons_eq same
      exact absurd (isMark ▸ List.mem_cons_self) otherUnmarked
  | cons character run ih =>
    cases other with
    | nil =>
      have isMark : character = mark := List.head_eq_of_cons_eq same
      exact absurd (isMark ▸ List.mem_cons_self) unmarked
    | cons otherCharacter other =>
      obtain ⟨sameCharacter, sameRest⟩ := List.cons.inj same
      obtain ⟨sameRun, sameEnd⟩ := ih (fun held => unmarked (List.mem_cons_of_mem _ held))
        (fun held => otherUnmarked (List.mem_cons_of_mem _ held)) sameRest
      exact ⟨by rw [sameCharacter, sameRun], sameEnd⟩

/-! ## Digits -/

/-- Below sixteen every digit has a character of its own, and none closes an escape or a line. -/
theorem digitChar_below_sixteen : ∀ digit < 16,
    (∀ other < 16, digit.digitChar = other.digitChar → digit = other) ∧
      digit.digitChar ≠ '\x7d' ∧ digit.digitChar ≠ '\n' ∧ digit.digitChar ≠ '\r' := by
  decide +kernel

/-- The digits of a number to base sixteen neither close an escape nor end a line. -/
theorem ne_of_mem_toDigits {number : Nat} {character : Char}
    (held : character ∈ Nat.toDigits 16 number) :
    character ≠ '\x7d' ∧ character ≠ '\n' ∧ character ≠ '\r' := by
  induction number using Nat.strongRecOn with
  | ind number ih =>
    rw [Nat.toDigits_eq_if (by decide)] at held
    split at held
    · rename_i small
      rw [List.mem_singleton.mp held]
      exact (digitChar_below_sixteen number small).2
    · rename_i large
      rcases List.mem_append.mp held with held | held
      · exact ih (number / 16) (by omega) held
      · rw [List.mem_singleton.mp held]
        exact (digitChar_below_sixteen (number % 16) (Nat.mod_lt _ (by decide))).2

/-- A number is known by its digits to base sixteen. -/
theorem toDigits_inj {number other : Nat}
    (same : Nat.toDigits 16 number = Nat.toDigits 16 other) : number = other := by
  induction number using Nat.strongRecOn generalizing other with
  | ind number ih =>
    have digits (value : Nat) := Nat.toDigits_eq_if (b := 16) (n := value) (by decide)
    rw [digits number, digits other] at same
    have inj := fun digit small => (digitChar_below_sixteen digit small).1
    have nonempty (value : Nat) : 0 < (Nat.toDigits 16 value).length := Nat.length_toDigits_pos
    by_cases small : number < 16 <;> by_cases otherSmall : other < 16
    · rw [if_pos small, if_pos otherSmall, List.cons.injEq] at same
      exact inj number small other otherSmall same.1
    · rw [if_pos small, if_neg otherSmall] at same
      have lengths := congrArg List.length same
      have := nonempty (other / 16)
      simp only [List.length_append, List.length_singleton] at lengths
      omega
    · rw [if_neg small, if_pos otherSmall] at same
      have lengths := congrArg List.length same
      have := nonempty (number / 16)
      simp only [List.length_append, List.length_singleton] at lengths
      omega
    · rw [if_neg small, if_neg otherSmall] at same
      obtain ⟨front, last⟩ := List.append_inj' same rfl
      have quotients := ih (number / 16) (by omega) front
      have remainders := inj (number % 16) (Nat.mod_lt _ (by decide)) (other % 16)
        (Nat.mod_lt _ (by decide)) (List.cons.inj last).1
      omega

/-! ## Written characters -/

/-- The characters that are written as a backslash and a sign, with their signs. -/
def shortEscapes : List (Char × Char) :=
  [('"', '"'), ('\\', '\\'), ('\t', 't'), ('\n', 'n'), ('\r', 'r'), ('\x00', '0')]

/-- A character is written as a backslash and a sign, as itself, or by its code point. -/
theorem quoteCharacter_cases (character : Char) :
    (∃ sign, (character, sign) ∈ shortEscapes ∧ quoteCharacter character = ['\\', sign]) ∨
      ((character ≠ '\\' ∧ character ≠ '"' ∧ character ≠ '\n' ∧ character ≠ '\r') ∧
        quoteCharacter character = [character]) ∨
      quoteCharacter character = codeEscape character := by
  unfold quoteCharacter
  split
  case h_7 quote backslash tab feed carriage zero =>
    by_cases visible : isVisible character = true
    · rw [if_pos visible]
      exact Or.inr (Or.inl ⟨⟨backslash, quote, feed, carriage⟩, rfl⟩)
    · rw [if_neg visible]
      exact Or.inr (Or.inr rfl)
  all_goals exact Or.inl ⟨_, by simp [shortEscapes], rfl⟩

/-- A character is known by its sign, and no sign opens a code point. -/
theorem shortEscapes_inj : ∀ entry ∈ shortEscapes, entry.2 ≠ 'u' ∧
    ∀ other ∈ shortEscapes, entry.2 = other.2 → entry.1 = other.1 := by
  decide

/-- A character is known by its code point escape, whatever follows. -/
theorem codeEscape_append_inj {character other : Char} {rest otherRest : List Char}
    (same : codeEscape character ++ rest = codeEscape other ++ otherRest) :
    character = other ∧ rest = otherRest := by
  simp only [codeEscape, List.append_assoc, List.cons_append, List.nil_append, List.cons.injEq,
    true_and] at same
  obtain ⟨sameDigits, sameRest⟩ := append_mark_inj (fun held => (ne_of_mem_toDigits held).1 rfl)
    (fun held => (ne_of_mem_toDigits held).1 rfl) same
  exact ⟨Char.toNat_inj.mp (toDigits_inj sameDigits), sameRest⟩

/-- No written character begins with the closing quote. -/
theorem quoteCharacter_append_ne (character : Char) (rest otherRest : List Char) :
    quoteCharacter character ++ rest ≠ '"' :: otherRest := by
  intro same
  rcases quoteCharacter_cases character with
    ⟨sign, _, written⟩ | ⟨⟨_, notQuote, _⟩, written⟩ | written
  · rw [written] at same
    cases same
  · rw [written] at same
    exact notQuote (List.head_eq_of_cons_eq same)
  · rw [written, codeEscape] at same
    cases same

/-- A character is known by how it is written, whatever follows. -/
theorem quoteCharacter_append_inj {character other : Char} {rest otherRest : List Char}
    (same : quoteCharacter character ++ rest = quoteCharacter other ++ otherRest) :
    character = other ∧ rest = otherRest := by
  rcases quoteCharacter_cases character with ⟨sign, entry, written⟩ | ⟨plain, written⟩ | written <;>
    rcases quoteCharacter_cases other with
      ⟨otherSign, otherEntry, otherWritten⟩ | ⟨otherPlain, otherWritten⟩ | otherWritten <;>
    rw [written, otherWritten] at same
  · simp only [List.cons_append, List.nil_append, List.cons.injEq, true_and] at same
    exact ⟨(shortEscapes_inj _ entry).2 _ otherEntry same.1, same.2⟩
  · exact absurd (List.head_eq_of_cons_eq same).symm otherPlain.1
  · simp only [codeEscape, List.cons_append, List.nil_append, List.cons.injEq, true_and] at same
    exact absurd same.1 (shortEscapes_inj _ entry).1
  · exact absurd (List.head_eq_of_cons_eq same) plain.1
  · exact List.cons.inj same
  · exact absurd (List.head_eq_of_cons_eq same) plain.1
  · simp only [codeEscape, List.cons_append, List.nil_append, List.cons.injEq, true_and] at same
    exact absurd same.1.symm (shortEscapes_inj _ otherEntry).1
  · exact absurd (List.head_eq_of_cons_eq same).symm otherPlain.1
  · exact codeEscape_append_inj same

/-! ## Quoted texts -/

/-- A text is known by its characters as written up to the closing quote, whatever follows. -/
theorem flatMap_quoteCharacter_inj {text other rest otherRest : List Char}
    (same : text.flatMap quoteCharacter ++ '"' :: rest =
      other.flatMap quoteCharacter ++ '"' :: otherRest) : text = other ∧ rest = otherRest := by
  induction text generalizing other with
  | nil =>
    cases other with
    | nil => exact ⟨rfl, List.tail_eq_of_cons_eq same⟩
    | cons character other =>
      rw [List.flatMap_cons, List.append_assoc] at same
      exact absurd same.symm (quoteCharacter_append_ne _ _ _)
  | cons character text ih =>
    cases other with
    | nil =>
      rw [List.flatMap_cons, List.append_assoc] at same
      exact absurd same (quoteCharacter_append_ne _ _ _)
    | cons otherCharacter other =>
      rw [List.flatMap_cons, List.flatMap_cons, List.append_assoc, List.append_assoc] at same
      obtain ⟨sameCharacter, sameText⟩ := quoteCharacter_append_inj same
      obtain ⟨sameOthers, sameRest⟩ := ih sameText
      exact ⟨by rw [sameCharacter, sameOthers], sameRest⟩

/-- A text is known by its quoted form, whatever follows. -/
theorem quoteCharacters_append_inj {text other rest otherRest : List Char}
    (same : quoteCharacters text ++ rest = quoteCharacters other ++ otherRest) :
    text = other ∧ rest = otherRest := by
  simp only [quoteCharacters, List.cons_append, List.append_assoc, List.cons.injEq, true_and,
    List.nil_append] at same
  exact flatMap_quoteCharacter_inj same

/-- A written character does not end a line. -/
theorem isUnbroken_quoteCharacter (character : Char) : IsUnbroken (quoteCharacter character) := by
  rcases quoteCharacter_cases character with ⟨sign, entry, written⟩ | ⟨plain, written⟩ | written
  · have signs : ∀ entry ∈ shortEscapes, IsUnbroken ['\\', entry.2] := by
      simp [shortEscapes, IsUnbroken]
    rw [written]
    exact signs _ entry
  · rw [written]
    intro other held
    rw [List.mem_singleton.mp held]
    exact plain.2.2
  · rw [written]
    have opening : IsUnbroken ['\\', 'u', '\x7b'] := by simp [IsUnbroken]
    have closing : IsUnbroken ['\x7d'] := by simp [IsUnbroken]
    have digits : IsUnbroken (Nat.toDigits 16 character.toNat) :=
      fun other held => (ne_of_mem_toDigits held).2
    exact (opening.append digits).append closing

/-- A quoted text is not broken into lines. -/
theorem isUnbroken_quoteCharacters (text : List Char) : IsUnbroken (quoteCharacters text) := by
  have quote : IsUnbroken ['"'] := by simp [IsUnbroken]
  have inside : IsUnbroken (text.flatMap quoteCharacter) := by
    intro character held
    obtain ⟨written, _, held⟩ := List.mem_flatMap.mp held
    exact isUnbroken_quoteCharacter written character held
  exact (quote.append inside).append quote

end Precedence.Text
