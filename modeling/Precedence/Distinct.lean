/-!
# Lists without repetition

Symbols, tokens and relations are kept in the order of their first occurrence. `addMissing` extends
such a list by an item it lacks, and `distinct` reduces any list to the first occurrences of its
items. Both keep a list free of repetition, and neither loses or invents an item.
-/

namespace Precedence

variable {α : Type} [DecidableEq α]

/-- The list with the item at its end, unless the list already holds it. -/
def addMissing (items : List α) (item : α) : List α :=
  if item ∈ items then items else items ++ [item]

/-- The first occurrences of the items of a list, in order. -/
def distinct (items : List α) : List α :=
  items.foldl addMissing []

/-- Adding an item adds exactly that item. -/
theorem mem_addMissing {items : List α} {item other : α} :
    other ∈ addMissing items item ↔ other ∈ items ∨ other = item := by
  unfold addMissing
  split
  · rename_i held
    exact ⟨Or.inl, fun either => either.elim id fun same => same ▸ held⟩
  · simp

/-- Adding an item keeps a list free of repetition. -/
theorem nodup_addMissing {items : List α} (item : α) (nodup : items.Nodup) :
    (addMissing items item).Nodup := by
  unfold addMissing
  split
  · exact nodup
  · rename_i missing
    rw [List.nodup_append]
    refine ⟨nodup, by simp, ?_⟩
    intro left held right isItem same
    rw [List.mem_singleton] at isItem
    exact missing (isItem ▸ same ▸ held)

/-- Adding items one after another adds exactly those items. -/
theorem mem_foldl_addMissing {items added : List α} {item : α} :
    item ∈ added.foldl addMissing items ↔ item ∈ items ∨ item ∈ added := by
  induction added generalizing items with
  | nil => simp
  | cons first rest ih => rw [List.foldl_cons, ih, mem_addMissing, List.mem_cons, or_assoc]

/-- Adding items one after another keeps a list free of repetition. -/
theorem nodup_foldl_addMissing {items : List α} (added : List α) (nodup : items.Nodup) :
    (added.foldl addMissing items).Nodup := by
  induction added generalizing items with
  | nil => exact nodup
  | cons first rest ih => exact ih (nodup_addMissing first nodup)

/-- The first occurrences are the items of the list. -/
theorem mem_distinct {items : List α} {item : α} : item ∈ distinct items ↔ item ∈ items := by
  simp [distinct, mem_foldl_addMissing]

/-- The first occurrences have no repetition. -/
theorem nodup_distinct (items : List α) : (distinct items).Nodup :=
  nodup_foldl_addMissing items List.nodup_nil

end Precedence
