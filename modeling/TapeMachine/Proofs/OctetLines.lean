import TapeMachine.Text.Split
import TapeMachine.Text.Utf8

/-!
# Lines in octets

A file holds octets. A line feed is one octet, and no other character has that octet in it, so a
file can be cut into lines before it is read as text.

## Main results

- `mem_octets`: an octet of ASCII stands for itself only
- `splitAt_octets_lines`: a text of lines that are ended is cut into the octets of these lines, and
  what stands behind it is cut by itself
-/

namespace TapeMachine.Text

/-! ## Cutting at a mark -/

section

variable {α : Type} [DecidableEq α] {mark : α}

/-- A text is cut at every mark, so it may be cut at one of them first. -/
theorem splitAt_append_mark (xs rest : List α) :
    splitAt mark (xs ++ mark :: rest) = splitAt mark xs ++ splitAt mark rest := by
  induction xs with
  | nil => simp [splitAt]
  | cons x xs ih =>
    rw [List.cons_append, splitAt, splitAt, ih]
    split
    · rfl
    · cases hsplit : splitAt mark xs with
      | nil => exact absurd hsplit (splitAt_ne_nil mark xs)
      | cons piece pieces => rfl

theorem splitAt_of_not_mem {xs : List α} (h : mark ∉ xs) : splitAt mark xs = [xs] := by
  induction xs with
  | nil => rfl
  | cons x xs ih =>
    obtain ⟨hx, hxs⟩ := not_or.1 (mt List.mem_cons.2 h)
    rw [splitAt, if_neg (Ne.symm hx), ih hxs]

/-- What stands behind a text that ends with the mark is cut by itself. -/
theorem splitAt_append_of_closed {xs : List α} {pieces : List (List α)}
    (h : splitAt mark xs = pieces ++ [[]]) (ys : List α) :
    splitAt mark (xs ++ ys) = pieces ++ splitAt mark ys := by
  induction xs generalizing pieces with
  | nil =>
    cases pieces with
    | nil => rfl
    | cons p ps => simp [splitAt] at h
  | cons x xs ih =>
    rw [splitAt] at h
    rw [List.cons_append, splitAt]
    split at h
    · rename_i hx
      rw [if_pos hx]
      cases pieces with
      | nil => exact absurd (List.cons.inj h).2 (splitAt_ne_nil mark xs)
      | cons p ps =>
        obtain ⟨rfl, hrest⟩ := List.cons.inj h
        rw [ih hrest, List.cons_append]
    · rename_i hx
      -- the first piece grows by `x`, the others are the same
      rw [if_neg hx]
      cases hsplit : splitAt mark xs with
      | nil => exact absurd hsplit (splitAt_ne_nil mark xs)
      | cons q qs =>
        rw [hsplit] at h
        cases pieces with
        | nil => exact absurd (List.cons.inj h).1 (List.cons_ne_nil x q)
        | cons p ps =>
          obtain ⟨rfl, rfl⟩ := List.cons.inj h
          rw [@ih (q :: ps) hsplit]
          rfl

end

/-! ## Octets -/

/-- The octets of a text. -/
def octets (s : String) : List UInt8 := s.toUTF8.data.toList

theorem octets_eq_flatMap (s : String) : octets s = s.toList.flatMap String.utf8EncodeChar := by
  rw [octets, String.toUTF8_eq_toByteArray, ← String.utf8Encode_toList, List.utf8Encode,
    List.toList_data_toByteArray]

@[simp] theorem octets_append (s t : String) : octets (s ++ t) = octets s ++ octets t := by
  simp [octets_eq_flatMap]

/-- An octet below 0x80 is a character by itself. -/
theorem toNat_of_mem_utf8EncodeChar {c : Char} {b : UInt8} (h : b ∈ String.utf8EncodeChar c)
    (hb : b < 0x80) : c.toNat = b.toNat := by
  -- all octets of the longer forms are 0x80 or more
  have hlong : ∀ n, 0x80 ≤ n → n < 0x100 → b ≠ UInt8.ofNat n := by
    rintro n hlow hhigh rfl
    rw [UInt8.lt_iff_toNat_lt, UInt8.toNat_ofNat', Nat.mod_eq_of_lt hhigh] at hb
    exact absurd hb (Nat.not_lt.2 hlow)
  unfold String.utf8EncodeChar at h
  dsimp only at h
  split at h
  · rename_i hc
    rw [List.mem_singleton.1 h, UInt8.toNat_ofNat', Nat.mod_eq_of_lt (by omega)]
    rfl
  · exfalso
    split at h
    · simp only [List.mem_cons, List.not_mem_nil, or_false] at h
      rcases h with h | h <;> exact hlong _ (by omega) (by omega) h
    split at h
    · simp only [List.mem_cons, List.not_mem_nil, or_false] at h
      rcases h with h | h | h <;> exact hlong _ (by omega) (by omega) h
    · simp only [List.mem_cons, List.not_mem_nil, or_false] at h
      rcases h with h | h | h | h <;> exact hlong _ (by omega) (by omega) h

/-- An octet of ASCII stands for the character that it encodes, and for no other. -/
theorem mem_octets {s : String} {b : UInt8} (h : b ∈ octets s) (hb : b < 0x80) :
    Char.ofNat b.toNat ∈ s.toList := by
  rw [octets_eq_flatMap] at h
  obtain ⟨c, hc, hbc⟩ := List.mem_flatMap.1 h
  rwa [← toNat_of_mem_utf8EncodeChar hbc hb, Char.ofNat_toNat]

/-- The octet of a line feed. -/
def lineFeed : UInt8 := 10

theorem octets_newline : octets "\n" = [lineFeed] := by decide

/-- Lines that are ended are cut apart, and what stands behind them is cut by itself. -/
theorem splitAt_octets_lines {lines : List String} (h : ∀ line ∈ lines, '\n' ∉ line.toList)
    (rest : List UInt8) :
    splitAt lineFeed (octets (String.join (lines.map (· ++ "\n"))) ++ rest) =
      lines.map octets ++ splitAt lineFeed rest := by
  induction lines with
  | nil => rfl
  | cons line lines ih =>
    obtain ⟨hline, hlines⟩ := List.forall_mem_cons.1 h
    -- no octet of a line is a line feed, however its characters are encoded
    have hnot : lineFeed ∉ octets line := fun hmem => hline (mem_octets hmem (by decide))
    have hsplit : octets (String.join ((line :: lines).map (· ++ "\n"))) ++ rest =
        octets line ++ lineFeed :: (octets (String.join (lines.map (· ++ "\n"))) ++ rest) := by
      simp [octets_newline]
    rw [hsplit, splitAt_append_mark, splitAt_of_not_mem hnot, ih hlines]
    rfl

end TapeMachine.Text
