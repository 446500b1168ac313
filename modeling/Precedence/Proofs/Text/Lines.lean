import Precedence.Text.Blank
import Precedence.Text.Lines

/-!
# Lines written and read again

A line that holds neither a line feed nor a carriage return is read again from a text in which it
is ended by a line feed. Texts made of such lines are the same only when their lines are.
-/

namespace Precedence.Text

/-- Whether a line holds no character that can end a line. -/
def IsUnbroken (line : List Char) : Prop :=
  ∀ character ∈ line, character ≠ '\n' ∧ character ≠ '\r'

/-- A run of characters other than blanks has no character that can end a line. -/
theorem isUnbroken_of_nonblank {run : List Char}
    (nonblank : ∀ character ∈ run, isBlank character = false) : IsUnbroken run := by
  intro character held
  have isNonblank := nonblank character held
  constructor <;> rintro rfl <;> exact absurd isNonblank (by decide)

/-- Two lines in a row can be one line. -/
theorem IsUnbroken.append {line other : List Char} (first : IsUnbroken line)
    (second : IsUnbroken other) : IsUnbroken (line ++ other) := by
  intro character held
  rcases List.mem_append.mp held with held | held
  · exact first character held
  · exact second character held

/-- A line up to a line feed is the first line of a text. -/
theorem splitLines_append {line : List Char} (unbroken : IsUnbroken line) (rest : List Char) :
    splitLines (line ++ '\n' :: rest) = line :: splitLines rest := by
  induction line with
  | nil => rw [List.nil_append, splitLines]
  | cons character line ih =>
    obtain ⟨noFeed, noReturn⟩ := unbroken character List.mem_cons_self
    have later := ih fun other held => unbroken other (List.mem_cons_of_mem _ held)
    rw [List.cons_append, splitLines, later]
    · exact noFeed
    · exact fun _ isReturn => absurd isReturn noReturn

/-- Lines written one after another are read again. -/
theorem splitLines_joinLines {lines : List (List Char)}
    (unbroken : ∀ line ∈ lines, IsUnbroken line) : splitLines (joinLines lines) = lines := by
  induction lines with
  | nil => rfl
  | cons line lines ih =>
    have later := ih fun other held => unbroken other (List.mem_cons_of_mem _ held)
    have joined : joinLines (line :: lines) = line ++ '\n' :: joinLines lines := by
      simp [joinLines]
    rw [joined, splitLines_append (unbroken line List.mem_cons_self), later]

/-- Texts with the same lines written are made of the same lines. -/
theorem joinLines_inj {lines others : List (List Char)}
    (unbroken : ∀ line ∈ lines, IsUnbroken line)
    (unbrokenOthers : ∀ line ∈ others, IsUnbroken line) :
    joinLines lines = joinLines others ↔ lines = others := by
  constructor
  · intro same
    rw [← splitLines_joinLines unbroken, same, splitLines_joinLines unbrokenOthers]
  · intro same
    rw [same]

end Precedence.Text
