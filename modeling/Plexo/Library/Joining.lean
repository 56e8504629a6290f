import Mathlib.Data.List.Basic

/-!
# Joining words with a delimiter

Splitting at the delimiter undoes joining up to the delimiters that the words
contain themselves.  So two joined texts are equal exactly if the words of both
have the same pieces.
-/

namespace Joining

variable {α : Type} [BEq α] [LawfulBEq α]

/-- The words, split at the delimiter. -/
def pieces (delimiter : α) (words : List (List α)) : List (List α) :=
  words.flatMap (·.splitOn delimiter)

theorem splitOn_intercalate (delimiter : α) {words : List (List α)}
    (some : words ≠ []) :
    ([delimiter].intercalate words).splitOn delimiter =
      pieces delimiter words := by
  unfold pieces
  induction words with
  | nil => exact absurd rfl some
  | cons word words induction =>
      cases words with
      | nil => simp
      | cons next others =>
          rw [List.intercalate_cons_cons, List.append_assoc,
            List.singleton_append, List.splitOn_append_cons_self,
            induction (by simp)]
          rfl

theorem intercalate_eq_iff (delimiter : α) {left right : List (List α)}
    (someLeft : left ≠ []) (someRight : right ≠ []) :
    [delimiter].intercalate left = [delimiter].intercalate right ↔
      pieces delimiter left = pieces delimiter right := by
  rw [← splitOn_intercalate delimiter someLeft,
    ← splitOn_intercalate delimiter someRight]
  constructor
  · intro same
    rw [same]
  · intro same
    have joined := congrArg [delimiter].intercalate same
    simpa using joined

theorem pieces_of_not_mem {delimiter : α} {words : List (List α)}
    (clean : ∀ word ∈ words, delimiter ∉ word) :
    pieces delimiter words = words := by
  unfold pieces
  induction words with
  | nil => rfl
  | cons word words induction =>
      rw [List.flatMap_cons,
        List.splitOn_eq_singleton (clean word List.mem_cons_self),
        induction fun other member => clean other (List.mem_cons_of_mem _ member)]
      rfl

end Joining
