import Precedence.Text.Blank

/-!
# Words and joined words

Splitting a text gives words: texts that are not empty and hold no blank. Words joined with one
space between neighbours are split into the same words again, so a list of words is known by its
joined text.
-/

namespace Precedence.Text

/-- Whether a run of characters is not empty and holds no blank. -/
def IsWordRun (run : List Char) : Prop :=
  run ≠ [] ∧ ∀ character ∈ run, isBlank character = false

/-- Whether a text is not empty and holds no blank. -/
def IsWord (word : String) : Prop :=
  IsWordRun word.toList

instance (run : List Char) : Decidable (IsWordRun run) :=
  decidable_of_iff (run ≠ [] ∧ run.all (!isBlank ·) = true) (by simp [IsWordRun])

instance (word : String) : Decidable (IsWord word) :=
  inferInstanceAs (Decidable (IsWordRun word.toList))

/-- A run with a character before it is a run of the same kind, if the character is not blank. -/
theorem IsWordRun.cons {character : Char} {run : List Char} (nonblank : isBlank character = false)
    (later : IsWordRun run) : IsWordRun (character :: run) := by
  refine ⟨List.cons_ne_nil _ _, ?_⟩
  intro other held
  rcases List.mem_cons.mp held with rfl | held
  · exact nonblank
  · exact later.2 other held

/-- A blank at the front of a text is passed over. -/
theorem words_blank {character : Char} (rest : List Char) (blank : isBlank character = true) :
    words (character :: rest) = words rest := by
  rw [words.eq_def]
  simp only [blank, if_true]

/-- A character that is not blank begins a word or extends the one after it. -/
theorem words_nonblank {character : Char} (rest : List Char)
    (nonblank : isBlank character = false) :
    words (character :: rest) =
      match rest, words rest with
      | next :: _, word :: others =>
        if isBlank next then [character] :: word :: others else (character :: word) :: others
      | _, others => [character] :: others := by
  have stays : ¬ isBlank character = true := by simp [nonblank]
  rw [words.eq_def]
  exact if_neg stays

/-- A character that is not blank is a word before a blank or the end of the text. -/
theorem words_single {character : Char} {rest : List Char} (nonblank : isBlank character = false)
    (ends : ∀ next ∈ rest.head?, isBlank next = true) :
    words (character :: rest) = [character] :: words rest := by
  rw [words_nonblank rest nonblank]
  cases rest with
  | nil => rfl
  | cons next rest =>
    have blank := ends next rfl
    cases words (next :: rest) <;> simp [blank]

/-- A character that is not blank extends a word right after it. -/
theorem words_extend {character next : Char} {rest word : List Char} {others : List (List Char)}
    (nonblank : isBlank character = false) (nextNonblank : isBlank next = false)
    (listed : words (next :: rest) = word :: others) :
    words (character :: next :: rest) = (character :: word) :: others := by
  rw [words_nonblank (next :: rest) nonblank, listed]
  simp [nextNonblank]

/-- A text that begins with a character that is not blank has a first word. -/
theorem words_ne_nil {character : Char} {rest : List Char} (nonblank : isBlank character = false) :
    words (character :: rest) ≠ [] := by
  rw [words_nonblank rest nonblank]
  split
  · split <;> simp
  · simp

/-- The maximal runs of characters that are not blank hold no blank and are not empty. -/
theorem isWordRun_of_mem_words {text run : List Char} (found : run ∈ words text) :
    IsWordRun run := by
  induction text generalizing run with
  | nil => exact absurd found List.not_mem_nil
  | cons character rest ih =>
    cases nonblank : isBlank character with
    | true =>
      rw [words_blank rest nonblank] at found
      exact ih found
    | false =>
      have single : IsWordRun [character] := ⟨List.cons_ne_nil _ _, by simpa using nonblank⟩
      by_cases ends : ∀ next ∈ rest.head?, isBlank next = true
      · rw [words_single nonblank ends] at found
        rcases List.mem_cons.mp found with rfl | found
        · exact single
        · exact ih found
      · cases rest with
        | nil => exact absurd (fun _ held => nomatch held) ends
        | cons next rest =>
          have nextNonblank : isBlank next = false := by simpa using ends
          obtain ⟨word, others, listed⟩ := List.exists_cons_of_ne_nil (words_ne_nil nextNonblank)
          rw [words_extend nonblank nextNonblank listed] at found
          rcases List.mem_cons.mp found with rfl | found
          · exact (ih (listed ▸ List.mem_cons_self)).cons nonblank
          · exact ih (listed ▸ List.mem_cons_of_mem _ found)

/-- Splitting gives words. -/
theorem isWord_of_mem_splitWords {text word : String} (found : word ∈ splitWords text) :
    IsWord word := by
  obtain ⟨run, held, rfl⟩ := List.mem_map.mp found
  rw [IsWord, String.toList_ofList]
  exact isWordRun_of_mem_words held

/-- A run without blanks at the end of a text or before a blank is the first word of the text. -/
theorem words_run {run rest : List Char} (wordRun : IsWordRun run)
    (ends : ∀ next ∈ rest.head?, isBlank next = true) :
    words (run ++ rest) = run :: words rest := by
  induction run with
  | nil => exact absurd rfl wordRun.1
  | cons character run ih =>
    have nonblank := wordRun.2 character List.mem_cons_self
    cases run with
    | nil => exact words_single nonblank ends
    | cons next others =>
      have later : IsWordRun (next :: others) :=
        ⟨List.cons_ne_nil _ _, fun other held => wordRun.2 other (List.mem_cons_of_mem _ held)⟩
      exact words_extend nonblank (later.2 next List.mem_cons_self) (ih later)

/-- A text without characters has no words. -/
theorem words_nil : words [] = [] := rfl

/-- A space is a blank. -/
theorem isBlank_space : isBlank ' ' = true := by decide

/-- Nothing follows the end of a text but blanks. -/
theorem isBlank_of_mem_head?_nil : ∀ next ∈ ([] : List Char).head?, isBlank next = true :=
  fun _ held => nomatch held

/-- A space is blank at the front of a text. -/
theorem isBlank_of_mem_head?_space (rest : List Char) :
    ∀ next ∈ (' ' :: rest).head?, isBlank next = true := by
  intro next isFirst
  obtain rfl := Option.some.inj isFirst
  exact isBlank_space

/-- A run without blanks is one word. -/
theorem words_wordRun {run : List Char} (wordRun : IsWordRun run) : words run = [run] := by
  have alone := words_run wordRun isBlank_of_mem_head?_nil
  rwa [List.append_nil, words_nil] at alone

/-- Spaces at the front of a text are passed over. -/
theorem words_replicate_append (count : Nat) (rest : List Char) :
    words (List.replicate count ' ' ++ rest) = words rest := by
  induction count with
  | zero => rfl
  | succ count ih => rw [List.replicate_succ, List.cons_append, words_blank _ isBlank_space, ih]

/-- Words joined are split into the same words again. -/
theorem splitWords_joinWords {texts : List String} (areWords : ∀ word ∈ texts, IsWord word) :
    splitWords (joinWords texts) = texts := by
  induction texts with
  | nil => rfl
  | cons word others ih =>
    have first := areWords word List.mem_cons_self
    cases others with
    | nil =>
      rw [joinWords, splitWords, words_wordRun first, List.map_singleton, String.ofList_toList]
    | cons next others =>
      have later := ih fun other held => areWords other (List.mem_cons_of_mem _ held)
      have spelled : (joinWords (word :: next :: others)).toList =
          word.toList ++ ' ' :: (joinWords (next :: others)).toList := by
        simp only [joinWords, String.toList_append, List.append_assoc]
        rfl
      rw [splitWords] at later
      rw [splitWords, spelled, words_run first (isBlank_of_mem_head?_space _),
        words_blank _ isBlank_space, List.map_cons, later, String.ofList_toList]

/-- Lists of words with the same joined text are the same. -/
theorem joinWords_inj {left right : List String} (leftWords : ∀ word ∈ left, IsWord word)
    (rightWords : ∀ word ∈ right, IsWord word) :
    joinWords left = joinWords right ↔ left = right := by
  constructor
  · intro same
    rw [← splitWords_joinWords leftWords, same, splitWords_joinWords rightWords]
  · intro same
    rw [same]

end Precedence.Text
