import Mathlib.Data.List.Infix

/-!
# Searching a list for another

The first occurrence of a needle in a haystack, and the case of a needle of two
elements that ends a line: a line without the first of them ends where the
needle is found, and a haystack that holds only a part of the line and its end
is searched in vain.
-/

namespace Corduit.Collection

universe u

variable {α : Type u} [DecidableEq α]

/-- `find_subsequence`: where the needle occurs first. -/
def findSubsequence (needle : List α) : List α → Option Nat
  | [] => none
  | element :: haystack =>
      if needle ≠ [] ∧ needle <+: element :: haystack then some 0
      else (findSubsequence needle haystack).map (· + 1)

variable {first second : α} {line : List α}

theorem findSubsequence_cons_of_ne {element : α} (different : element ≠ first)
    (haystack : List α) :
    findSubsequence [first, second] (element :: haystack) =
      (findSubsequence [first, second] haystack).map (· + 1) := by
  rw [findSubsequence, if_neg]
  rintro ⟨_, occurs⟩
  exact different (List.cons_prefix_cons.mp occurs).1.symm

variable (absent : first ∉ line)

include absent

theorem findSubsequence_append (tail : List α) :
    findSubsequence [first, second] (line ++ first :: second :: tail) = some line.length := by
  induction line with
  | nil =>
      rw [List.nil_append, findSubsequence, if_pos]
      · rfl
      · exact ⟨List.cons_ne_nil _ _, tail, rfl⟩
  | cons element line ih =>
      rw [List.mem_cons, not_or] at absent
      rw [List.cons_append, findSubsequence_cons_of_ne (Ne.symm absent.1), ih absent.2]
      rfl

theorem findSubsequence_of_not_mem :
    findSubsequence [first, second] line = none := by
  induction line with
  | nil => rfl
  | cons element line ih =>
      rw [List.mem_cons, not_or] at absent
      rw [findSubsequence_cons_of_ne (Ne.symm absent.1), ih absent.2]
      rfl

theorem findSubsequence_half :
    findSubsequence [first, second] (line ++ [first]) = none := by
  induction line with
  | nil =>
      rw [List.nil_append, findSubsequence, if_neg]
      · rfl
      · rintro ⟨_, occurs⟩
        exact absurd occurs.length_le (by simp)
  | cons element line ih =>
      rw [List.mem_cons, not_or] at absent
      rw [List.cons_append, findSubsequence_cons_of_ne (Ne.symm absent.1), ih absent.2]
      rfl

/-- A buffer at the front of a text either holds the whole first line or is
searched in vain. -/
theorem findSubsequence_front {buffer more tail : List α}
    (split : buffer ++ more = line ++ first :: second :: tail) :
    (findSubsequence [first, second] buffer = none ∧ buffer.length < line.length + 2) ∨
    ∃ rest, buffer = line ++ first :: second :: rest ∧ rest ++ more = tail ∧
      findSubsequence [first, second] buffer = some line.length := by
  by_cases whole : line.length + 2 ≤ buffer.length
  · have regrouped : (line ++ [first, second]) ++ tail = buffer ++ more := by
      rw [split, List.append_assoc]
      rfl
    have front : line ++ [first, second] <+: buffer :=
      List.prefix_of_prefix_length_le ⟨tail, regrouped⟩ ⟨more, rfl⟩ (by simpa using whole)
    rcases front with ⟨rest, rfl⟩
    refine Or.inr ⟨rest, by simp, ?_, ?_⟩
    · rw [List.append_assoc (line ++ [first, second])] at regrouped
      exact (List.append_cancel_left regrouped).symm
    · rw [List.append_assoc]
      exact findSubsequence_append absent rest
  · refine Or.inl ⟨?_, Nat.lt_of_not_le whole⟩
    have regrouped : (line ++ [first]) ++ second :: tail = buffer ++ more := by
      rw [split, List.append_assoc]
      rfl
    have front : buffer <+: line ++ [first] :=
      List.prefix_of_prefix_length_le ⟨more, rfl⟩ ⟨second :: tail, regrouped⟩
        (by rw [List.length_append, List.length_singleton]; omega)
    rcases List.prefix_concat_iff.mp front with same | shorter
    · rw [same]
      exact findSubsequence_half absent
    · exact findSubsequence_of_not_mem fun member => absent (shorter.subset member)

end Corduit.Collection
