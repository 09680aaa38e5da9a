import Std.Data.ExtTreeMap

/-!
# Distinct items

`distinct` keeps the first appearance of every item in a list, as `eraseDups` does. The items seen
so far are kept in a tree, so a long list takes no more comparisons than to sort it would.

What is kept is said by `mem_distinct`, and in which order by `pairwise_idxOf_distinct`: an item
stands before another one exactly if it appears first.
-/

namespace TapeMachine

variable {α : Type} [Ord α] [Std.TransOrd α]

/-- The items that were not seen before, each once, in order of first appearance. -/
def distinctFrom (seen : Std.ExtTreeMap α Unit) : List α → List α
  | [] => []
  | a :: rest =>
    if seen.contains a then distinctFrom seen rest
    else a :: distinctFrom (seen.insert a ()) rest

/-- The items of a list, each once, in order of first appearance. -/
def distinct (items : List α) : List α := distinctFrom ∅ items

variable [Std.LawfulEqOrd α] [BEq α] [LawfulBEq α]

theorem distinctFrom_eq_eraseDups (seen : Std.ExtTreeMap α Unit) (items : List α) :
    distinctFrom seen items = (items.filter fun a => !seen.contains a).eraseDups := by
  induction items generalizing seen with
  | nil => simp [distinctFrom]
  | cons a rest ih =>
    by_cases h : seen.contains a = true
    · simp [distinctFrom, h, ih]
    · simp only [distinctFrom, h, ih, List.filter_cons, Bool.not_false, if_true,
        Bool.false_eq_true, if_false, List.eraseDups_cons, List.filter_filter,
        Std.ExtTreeMap.contains_insert, Bool.not_or]
      congr 2
      refine List.filter_congr fun b _ => ?_
      have hb : (compare a b == .eq) = (b == a) := by
        rw [Bool.eq_iff_iff, beq_iff_eq, beq_iff_eq, Std.compare_eq_iff_eq, eq_comm]
      rw [hb]

/-- What is kept is what `eraseDups` keeps. -/
theorem distinct_eq_eraseDups (items : List α) : distinct items = items.eraseDups := by
  rw [distinct, distinctFrom_eq_eraseDups, List.filter_eq_self.2 (by simp)]

theorem mem_distinctFrom {seen : Std.ExtTreeMap α Unit} {items : List α} {a : α} :
    a ∈ distinctFrom seen items ↔ a ∈ items ∧ seen.contains a = false := by
  simp [distinctFrom_eq_eraseDups]

theorem mem_distinct {items : List α} {a : α} : a ∈ distinct items ↔ a ∈ items := by
  simp [distinct_eq_eraseDups]

omit [BEq α] [LawfulBEq α] in
/-- Items that differ from each other and from those seen before are all kept. -/
theorem distinctFrom_of_nodup {seen : Std.ExtTreeMap α Unit} {items : List α}
    (h : items.Nodup) (hseen : ∀ a ∈ items, seen.contains a = false) :
    distinctFrom seen items = items := by
  induction items generalizing seen with
  | nil => rfl
  | cons a rest ih =>
    obtain ⟨ha, hrest⟩ := List.nodup_cons.1 h
    have hnew : ∀ b ∈ rest, (seen.insert a ()).contains b = false := by
      intro b hb
      have hne : a ≠ b := fun hab => ha (hab ▸ hb)
      simp [Std.ExtTreeMap.contains_insert, hne, hseen b (List.mem_cons_of_mem a hb)]
    simp [distinctFrom, hseen a List.mem_cons_self, ih hrest hnew]

omit [BEq α] [LawfulBEq α] in
theorem distinct_of_nodup {items : List α} (h : items.Nodup) : distinct items = items :=
  distinctFrom_of_nodup h (by simp)

/-- What is kept behind a front of items that were seen stands in order of first appearance. -/
theorem pairwise_idxOf_distinctFrom {seen : Std.ExtTreeMap α Unit} {items : List α}
    (front : List α) (hseen : ∀ a, seen.contains a = true ↔ a ∈ front) :
    (distinctFrom seen items).Pairwise fun a b =>
      (front ++ items).idxOf a < (front ++ items).idxOf b := by
  induction items generalizing front seen with
  | nil => exact .nil
  | cons a rest ih =>
    by_cases ha : seen.contains a = true
    · have hseen' : ∀ b, seen.contains b = true ↔ b ∈ front ++ [a] := by
        intro b
        have hfront : a ∈ front := (hseen a).1 ha
        by_cases hab : b = a <;> simp [hseen, hab, hfront]
      simpa [distinctFrom, ha] using ih (front ++ [a]) hseen'
    · have hseen' : ∀ b, (seen.insert a ()).contains b = true ↔ b ∈ front ++ [a] := by
        intro b
        rw [Std.ExtTreeMap.contains_insert, List.mem_append, List.mem_singleton, ← hseen]
        by_cases hab : a = b
        · simp [hab]
        · simp [hab, Ne.symm hab]
      simp only [distinctFrom, ha, Bool.false_eq_true, if_false]
      apply List.pairwise_cons.2
      refine ⟨fun b hb => ?_, by simpa using ih (front ++ [a]) hseen'⟩
      -- `a` comes right behind the front, in which neither of the two appears
      have hnew : ¬ (b ∈ front ++ [a]) := by
        rw [← hseen' b, (mem_distinctFrom.1 hb).2]
        simp
      have hfront : a ∉ front := fun hmem => ha ((hseen a).2 hmem)
      simp only [List.mem_append, List.mem_singleton, not_or] at hnew
      have hlt : (a :: rest).idxOf a < (a :: rest).idxOf b := by
        simp [List.idxOf_cons, beq_false_of_ne (Ne.symm hnew.2)]
      rw [List.idxOf_append, List.idxOf_append, if_neg hfront, if_neg hnew.1]
      omega

/-- The items that are kept stand in order of first appearance. -/
theorem pairwise_idxOf_distinct (items : List α) :
    (distinct items).Pairwise fun a b => items.idxOf a < items.idxOf b :=
  pairwise_idxOf_distinctFrom [] (by simp)

theorem nodup_distinct (items : List α) : (distinct items).Nodup := by
  apply (pairwise_idxOf_distinct items).imp
  rintro a _ hlt rfl
  exact absurd hlt (Nat.lt_irrefl _)

end TapeMachine
