import Precedence.Grammar.Production

/-!
# Productions grouped by a key

A grammar is asked again and again for the productions with a given head or a given body. The
groups hold each key once, in the order of its first production, with all productions that have it
in their own order. A look-up finds what a search through all productions finds.
-/

namespace Precedence

/-- Productions grouped by a key. -/
structure Groups where
  /-- Each key with its productions. -/
  entries : List (String × List Production) := []

namespace Groups

/-- The entries with a production added to the group of a key. -/
def insertEntry (key : String) (production : Production) :
    List (String × List Production) → List (String × List Production)
  | [] => [(key, [production])]
  | (other, productions) :: entries =>
    if other = key then (other, productions ++ [production]) :: entries
    else (other, productions) :: insertEntry key production entries

/-- The groups of a list of productions. -/
def ofProductions (key : Production → String) (productions : List Production) : Groups :=
  ⟨productions.foldl (fun entries production => insertEntry (key production) production entries) []⟩

/-- The productions of a key, in order. -/
def find (groups : Groups) (key : String) : List Production :=
  (groups.entries.lookup key).getD []

/-- Whether some production has a key. -/
def contains (groups : Groups) (key : String) : Bool :=
  groups.entries.any (·.1 == key)

/-- The first entry with a key is its group. -/
theorem find_cons (held wanted : String) (productions : List Production)
    (entries : List (String × List Production)) :
    find ⟨(held, productions) :: entries⟩ wanted =
      if held = wanted then productions else find ⟨entries⟩ wanted := by
  by_cases same : wanted = held
  · simp [find, same]
  · have different : (wanted == held) = false := beq_false_of_ne same
    simp [find, List.lookup_cons, different, Ne.symm same]

/-- Adding a production to the group of a key adds it at the end of that group alone. -/
theorem find_insertEntry (key wanted : String) (production : Production)
    (entries : List (String × List Production)) :
    find ⟨insertEntry key production entries⟩ wanted =
      find ⟨entries⟩ wanted ++ if key = wanted then [production] else [] := by
  induction entries with
  | nil => rw [insertEntry, find_cons, find, List.lookup_nil, Option.getD_none, List.nil_append]
  | cons entry entries ih =>
    obtain ⟨held, productions⟩ := entry
    by_cases first : held = key <;> by_cases same : held = wanted <;>
      simp_all [insertEntry, find_cons, eq_comm]

/-- The group of a key is what a search through all productions finds. -/
theorem find_ofProductions (key : Production → String) (productions : List Production)
    (wanted : String) :
    (ofProductions key productions).find wanted = productions.filter (key · = wanted) := by
  suffices general : ∀ entries,
      find ⟨productions.foldl (fun entries production =>
        insertEntry (key production) production entries) entries⟩ wanted =
      find ⟨entries⟩ wanted ++ productions.filter (key · = wanted) by
    rw [ofProductions, general, find, List.lookup_nil, Option.getD_none, List.nil_append]
  induction productions with
  | nil => simp
  | cons production productions ih =>
    intro entries
    rw [List.foldl_cons, ih, find_insertEntry, List.filter_cons]
    split <;> simp_all

/-- The keys after adding a production are those before it and its own. -/
theorem contains_insertEntry (key wanted : String) (production : Production)
    (entries : List (String × List Production)) :
    contains ⟨insertEntry key production entries⟩ wanted =
      (contains ⟨entries⟩ wanted || key == wanted) := by
  induction entries with
  | nil => simp [insertEntry, contains]
  | cons entry entries ih =>
    simp only [contains] at ih
    by_cases first : entry.1 = key
    · simp only [insertEntry, first, if_true, contains, List.any_cons]
      cases key == wanted <;> simp
    · simp only [insertEntry, first, if_false, contains, List.any_cons, ih, Bool.or_assoc]

/-- A key has a group when some production has the key. -/
theorem contains_ofProductions (key : Production → String) (productions : List Production)
    (wanted : String) :
    (ofProductions key productions).contains wanted = productions.any (key · == wanted) := by
  suffices general : ∀ entries,
      contains ⟨productions.foldl (fun entries production =>
        insertEntry (key production) production entries) entries⟩ wanted =
      (contains ⟨entries⟩ wanted || productions.any (key · == wanted)) by
    rw [ofProductions, general, contains, List.any_nil, Bool.false_or]
  induction productions with
  | nil => simp
  | cons production productions ih =>
    intro entries
    rw [List.foldl_cons, ih, contains_insertEntry, List.any_cons, Bool.or_assoc]

end Groups

end Precedence
