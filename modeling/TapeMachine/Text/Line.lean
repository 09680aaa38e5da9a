/-!
# Lines of a text

A line ends at any of eleven breaks; carriage return and line feed together are one of them. The
last line need not be ended, and a break at the very end of a text starts no further line.

Files are read with the line breaks of other systems turned into line feeds first; that step knows
only the carriage return.
-/

namespace TapeMachine.Text

/-- The characters that end a line. -/
def isLineBreak (c : Char) : Bool :=
  let n := c.toNat
  (0x0A ≤ n && n ≤ 0x0D) || (0x1C ≤ n && n ≤ 0x1E) || n == 0x85 || n == 0x2028 || n == 0x2029

/-- The lines of a text, without their breaks. -/
def splitLines : List Char → List (List Char)
  | [] => []
  | '\r' :: '\n' :: rest => [] :: splitLines rest
  | c :: rest =>
    if isLineBreak c then [] :: splitLines rest
    else match splitLines rest with
      | [] => [[c]]
      | line :: lines => (c :: line) :: lines

/-- The lines of a text, without their breaks. -/
def lines (s : String) : List String := (splitLines s.toList).map String.ofList

/-- A character that ends no line belongs to the first line. -/
theorem splitLines_cons {c : Char} (h : isLineBreak c = false) (rest : List Char) :
    splitLines (c :: rest) = match splitLines rest with
      | [] => [[c]]
      | line :: lines => (c :: line) :: lines := by
  have hc : c ≠ '\r' := fun e => by subst e; revert h; decide
  rw [splitLines.eq_3 c rest (fun _ e => absurd e hc), h]
  rfl

theorem splitLines_newline (rest : List Char) :
    splitLines ('\n' :: rest) = [] :: splitLines rest := by
  rw [splitLines.eq_3 '\n' rest (fun _ e => absurd e (by decide))]
  rfl

theorem splitLines_append_newline {cs : List Char} (h : ∀ c ∈ cs, isLineBreak c = false)
    (rest : List Char) : splitLines (cs ++ '\n' :: rest) = cs :: splitLines rest := by
  induction cs with
  | nil => exact splitLines_newline rest
  | cons c cs ih =>
    rw [List.cons_append, splitLines_cons (h c List.mem_cons_self),
      ih fun d hd => h d (List.mem_cons_of_mem c hd)]

/-- Texts without a break, each of them ended, are the lines of the text that they make. -/
theorem lines_join {ls : List String} (h : ∀ l ∈ ls, ∀ c ∈ l.toList, isLineBreak c = false) :
    lines (String.join (ls.map (· ++ "\n"))) = ls := by
  induction ls with
  | nil => rfl
  | cons l ls ih =>
    have hrest := ih fun l' hl' => h l' (List.mem_cons_of_mem l hl')
    have hsplit : (String.join ((l :: ls).map (· ++ "\n"))).toList =
        l.toList ++ '\n' :: (String.join (ls.map (· ++ "\n"))).toList := by
      simp
    rw [lines, hsplit, splitLines_append_newline (h l List.mem_cons_self), List.map_cons,
      String.ofList_toList]
    exact congrArg (l :: ·) hrest

/-- Characters that end no line make one line, if there are any. -/
theorem splitLines_of_unbroken {cs : List Char} (h : ∀ c ∈ cs, isLineBreak c = false) :
    splitLines cs = if cs = [] then [] else [cs] := by
  induction cs with
  | nil => rfl
  | cons c cs ih =>
    rw [splitLines_cons (h c List.mem_cons_self), ih fun d hd => h d (List.mem_cons_of_mem c hd)]
    cases cs <;> simp

/-- Texts without a break, with a line feed between any two of them, are the lines of the text that
they make; only an empty last one is not. -/
theorem lines_intercalate {ls : List String}
    (h : ∀ l ∈ ls, ∀ c ∈ l.toList, isLineBreak c = false) :
    lines ("\n".intercalate ls) = if ls.getLast? = some "" then ls.dropLast else ls := by
  induction ls with
  | nil => rfl
  | cons l ls ih =>
    have hl := h l List.mem_cons_self
    cases ls with
    | nil =>
      rw [String.intercalate_singleton, lines, splitLines_of_unbroken hl]
      by_cases hempty : l = "" <;> simp [hempty]
    | cons l' ls =>
      -- the first line is ended, so only the last of the others can be lost
      have hrest := ih fun k hk => h k (List.mem_cons_of_mem l hk)
      have hsplit : ("\n".intercalate (l :: l' :: ls)).toList =
          l.toList ++ '\n' :: ("\n".intercalate (l' :: ls)).toList := by
        simp
      rw [lines, hsplit, splitLines_append_newline hl, List.map_cons, String.ofList_toList,
        List.getLast?_cons_cons, List.dropLast_cons_cons]
      by_cases hlast : (l' :: ls).getLast? = some ""
      · rw [if_pos hlast] at hrest ⊢
        exact congrArg (l :: ·) hrest
      · rw [if_neg hlast] at hrest ⊢
        exact congrArg (l :: ·) hrest

/-- Carriage returns, alone or before a line feed, become line feeds. -/
def plainBreaks : List Char → List Char
  | [] => []
  | '\r' :: '\n' :: rest => '\n' :: plainBreaks rest
  | c :: rest => (if c = '\r' then '\n' else c) :: plainBreaks rest

/-- Text without carriage returns is left alone. -/
theorem plainBreaks_of_not_mem {cs : List Char} (h : '\r' ∉ cs) : plainBreaks cs = cs := by
  induction cs with
  | nil => rfl
  | cons c rest ih =>
    simp only [List.mem_cons, not_or] at h
    have hc : c ≠ '\r' := fun e => h.1 e.symm
    unfold plainBreaks
    split
    · simp_all
    · rename_i e; simp_all
    · rename_i e; simp_all

end TapeMachine.Text
