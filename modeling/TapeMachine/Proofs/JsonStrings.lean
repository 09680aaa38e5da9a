import Mathlib.Data.List.Chain
import TapeMachine.Json.Printer
import TapeMachine.Json.Reader

/-!
# Strings in JSON

A character or a half is written in one of four ways, which `Spelling` lists together with the parts
that the reader makes of them. So what is said of the writer and of the reader is said once for each
of the four.

Two halves that stand side by side, the first one of a pair and the second one of a pair, are
written as a pair, and read as the character that this is. No other text is changed.

## Main results

- `exists_spelling`: the four ways are all there are
- `readString_stringChars`: a text is read back if no two halves in it make a pair
-/

namespace TapeMachine.Json

open Text (CodePoint Half Loose)

/-! ## Spellings -/

theorem unit?_digits {n : Nat} (h : n < 0x10000) :
    ∃ a b c d, Text.Hex.digits 4 n = [a, b, c, d] ∧ unit? a b c d = some n := by
  refine ⟨_, _, _, _, rfl, ?_⟩
  simp only [unit?, Text.Hex.value?_digit (Nat.mod_lt _ (by decide : 16 > 0)), Option.bind_eq_bind,
    Option.bind_some, Option.pure_def, Option.some.injEq]
  omega

/-- The halves of a pair stand for its character. -/
theorem joinHalves_halves {c : Char} (h : 0x10000 ≤ c.toNat) :
    joinHalves (0xD800 + (c.toNat - 0x10000) / 0x400) (0xDC00 + (c.toNat - 0x10000) % 0x400) =
      c := by
  have hcode : 0x10000 + (0xD800 + (c.toNat - 0x10000) / 0x400 - 0xD800) * 0x400
      + (0xDC00 + (c.toNat - 0x10000) % 0x400 - 0xDC00) = c.toNat := by omega
  rw [joinHalves, hcode, Char.ofNat_toNat]

/-- How a character or a half is spelt in a string, and the parts that it is read as. -/
inductive Spelling : CodePoint → List Char → List Piece → Prop
  | letter {letter c : Char} : unescape? letter = some c →
      Spelling (.char c) ['\\', letter] [.char c]
  | plain {c : Char} : c ≠ '"' → c ≠ '\\' → 0x20 ≤ c.toNat → c.toNat ≤ 0x7E →
      Spelling (.char c) [c] [.char c]
  | unit {n : Nat} : n < 0x10000 → Spelling (.ofCode n) (unitEscape n) [.unit n]
  | pair {high low : Nat} : isHighHalf high → isLowHalf low →
      Spelling (.char (joinHalves high low)) (unitEscape high ++ unitEscape low)
        [.unit high, .unit low]

/-- The numbers of halves are those of no character. -/
theorem valid_toNat (c : Char) : c.toNat < 0xD800 ∨ 0xDFFF < c.toNat ∧ c.toNat < 0x110000 := c.valid

theorem ofNat_eq {c : Char} {n : Nat} (h : c.toNat = n) : Char.ofNat n = c := by
  rw [← h, Char.ofNat_toNat]

/-- A code that fits in one unit is spelt as that unit. -/
theorem Spelling.of_code_lt {p : CodePoint} (h : p.code < 0x10000) :
    Spelling p (unitEscape p.code) [.unit p.code] := by
  have hspelling := Spelling.unit h
  rwa [CodePoint.ofCode_code] at hspelling

/-- Every other is spelt as two halves. -/
theorem Spelling.of_le_toNat {c : Char} (h : 0x10000 ≤ c.toNat) :
    Spelling (.char c) (unitEscape (0xD800 + (c.toNat - 0x10000) / 0x400) ++
        unitEscape (0xDC00 + (c.toNat - 0x10000) % 0x400))
      [.unit (0xD800 + (c.toNat - 0x10000) / 0x400),
        .unit (0xDC00 + (c.toNat - 0x10000) % 0x400)] := by
  have hvalid := valid_toNat c
  have hhigh : isHighHalf (0xD800 + (c.toNat - 0x10000) / 0x400) := by
    simp [isHighHalf]; omega
  have hlow : isLowHalf (0xDC00 + (c.toNat - 0x10000) % 0x400) := by
    simp [isLowHalf]; omega
  have hspelling := Spelling.pair hhigh hlow
  rwa [joinHalves_halves h] at hspelling

/-- Whatever is written is spelt in one of these ways. -/
theorem exists_spelling (p : CodePoint) : ∃ ps, Spelling p (escapePoint p) ps := by
  cases p with
  | half h =>
    have hcode : h.code < 0x10000 := by have := h.offset.isLt; simp only [Half.code]; omega
    exact ⟨_, .of_code_lt hcode⟩
  | char c =>
    show ∃ ps, Spelling (.char c) (escapeChar c) ps
    unfold escapeChar
    dsimp only
    -- the characters that have a letter: quote and backslash, three breaks, two controls
    split
    · rename_i h
      exact ⟨_, .letter (by rcases h with rfl | rfl <;> rfl)⟩
    split
    · rename_i h
      exact ⟨_, .letter (by rw [h]; rfl)⟩
    split
    · rename_i h
      exact ⟨_, .letter (by rw [h]; rfl)⟩
    split
    · rename_i h
      exact ⟨_, .letter (by rw [h]; rfl)⟩
    split
    · rename_i h
      exact ⟨_, .letter (congrArg some (ofNat_eq h))⟩
    split
    · rename_i h
      exact ⟨_, .letter (congrArg some (ofNat_eq h))⟩
    -- what can be printed stands for itself
    split
    · rename_i hmarks _ _ _ _ _ h
      obtain ⟨hquote, hslash⟩ := not_or.1 hmarks
      exact ⟨_, .plain hquote hslash h.1 h.2⟩
    -- the rest is one unit of four digits, or two
    split
    · rename_i h
      exact ⟨_, .of_code_lt h⟩
    · rename_i h
      exact ⟨_, .of_le_toNat (Nat.not_lt.1 h)⟩

/-! ## Reading the parts -/

variable {start cs : List Char}

theorem readPieces_unitEscape {n : Nat} (h : n < 0x10000) (hcs : cs ≠ []) :
    readPieces start (unitEscape n ++ cs) = prepend (.unit n) (readPieces start cs) := by
  obtain ⟨a, b, c, d, hdigits, hunit⟩ := unit?_digits h
  rw [unitEscape, hdigits]
  simp [readPieces, hunit, hcs]

theorem readPieces_letter {letter c : Char} (h : unescape? letter = some c) :
    readPieces start ('\\' :: letter :: cs) = prepend (.char c) (readPieces start cs) := by
  have hu : letter ≠ 'u' := by
    rintro rfl
    simp [unescape?] at h
  rw [readPieces.eq_def]
  simp_all

theorem readPieces_plain {c : Char} (hquote : c ≠ '"') (hslash : c ≠ '\\') (h : 0x20 ≤ c.toNat) :
    readPieces start (c :: cs) = prepend (.char c) (readPieces start cs) := by
  rw [readPieces.eq_def]
  simp_all [Nat.not_lt.2 h]

/-- A spelling is read as its parts. -/
theorem Spelling.readPieces {p : CodePoint} {spelt : List Char} {ps : List Piece}
    (h : Spelling p spelt ps) (hcs : cs ≠ []) :
    Json.readPieces start (spelt ++ cs) = ps.foldr prepend (Json.readPieces start cs) := by
  cases h with
  | letter h => exact readPieces_letter h
  | plain hquote hslash hlow _ => exact readPieces_plain hquote hslash hlow
  | unit h => exact readPieces_unitEscape h hcs
  | pair hhigh hlow =>
    simp only [isHighHalf, isLowHalf, Bool.and_eq_true, decide_eq_true_eq] at hhigh hlow
    rw [List.append_assoc, readPieces_unitEscape (by omega) (by simp [unitEscape]),
      readPieces_unitEscape (by omega) hcs]
    rfl

/-! ## Putting the parts together -/

/-- May the second stand behind the first? The halves of a pair may not: they would be read as the
character that they stand for. -/
def StaysApart (p q : CodePoint) : Prop := ¬ (isHighHalf p.code ∧ isLowHalf q.code)

/-- No two halves in a text make a pair. -/
def Settled (points : List CodePoint) : Prop := points.IsChain StaysApart

theorem isLowHalf_eq_false {n : Nat} (h : isHighHalf n) : isLowHalf n = false := by
  simp only [isHighHalf, Bool.and_eq_true, decide_eq_true_eq] at h
  simp only [isLowHalf, Bool.and_eq_false_iff, decide_eq_false_iff_not]
  omega

theorem toNat_ofNat {n : Nat} (h : n.isValidChar) : (Char.ofNat n).toNat = n := by
  rw [Char.ofNat, dif_pos h]
  rfl

theorem code_ofCode {n : Nat} (h : n < 0x10000) : (CodePoint.ofCode n).code = n := by
  by_cases hn : 0xD800 ≤ n ∧ n < 0xE000
  · have hcode : CodePoint.ofCode n = .half ⟨⟨n - 0xD800, by omega⟩⟩ := by
      rw [CodePoint.ofCode, Half.ofCode?, dif_pos hn]
    rw [hcode]
    show 0xD800 + (n - 0xD800) = n
    omega
  · have hcode : CodePoint.ofCode n = .char (Char.ofNat n) := by
      rw [CodePoint.ofCode, Half.ofCode?, dif_neg hn]
    rw [hcode]
    exact toNat_ofNat (by simp only [Nat.isValidChar]; omega)

/-- The parts of a spelling are put together again, behind a half that waits for no partner. -/
theorem Spelling.joinPieces {p : CodePoint} {spelt : List Char} {ps parts : List Piece}
    {points : List CodePoint} {waiting : Option Nat} (h : Spelling p spelt ps)
    (hwaiting : ∀ n ∈ waiting, isHighHalf n = true ∧ StaysApart (.ofCode n) p)
    (hparts : ∀ waiting : Option Nat,
      (∀ n ∈ waiting, isHighHalf n = true ∧ CodePoint.ofCode n = p) →
        Json.joinPieces waiting parts = (waiting.map CodePoint.ofCode).toList ++ points) :
    Json.joinPieces waiting (ps ++ parts) =
      (waiting.map CodePoint.ofCode).toList ++ p :: points := by
  cases h with
  | letter h => simp [Json.joinPieces, hparts none (by simp)]
  | plain hquote hslash hlow _ => simp [Json.joinPieces, hparts none (by simp)]
  -- only here may a half wait: the one before, or this one
  | @unit n h =>
    cases waiting with
    | none =>
      cases hn : isHighHalf n with
      | false => simp [Json.joinPieces, hn, hparts none (by simp)]
      | true => simpa [Json.joinPieces, hn] using hparts (some n) (by simp [hn])
    | some high =>
      obtain ⟨hhigh, hapart⟩ := hwaiting high rfl
      -- the second half of a pair would have been taken by the one that waits
      have hlow : isLowHalf n = false := by
        have hcode : high < 0x10000 := by
          simp only [isHighHalf, Bool.and_eq_true, decide_eq_true_eq] at hhigh
          omega
        rw [StaysApart, code_ofCode h, code_ofCode hcode] at hapart
        simpa [hhigh] using hapart
      cases hn : isHighHalf n with
      | false => simp [Json.joinPieces, hn, hlow, hparts none (by simp)]
      | true => simpa [Json.joinPieces, hn, hlow] using hparts (some n) (by simp [hn])
  | @pair high low hhigh hlow =>
    cases waiting with
    | none => simp [Json.joinPieces, hhigh, hlow, hparts none (by simp)]
    | some n => simp [Json.joinPieces, hhigh, hlow, isLowHalf_eq_false hhigh, hparts none (by simp)]

/-- The parts of a text are read and put together again. -/
theorem exists_parts (rest : List Char) {points : List CodePoint} (h : Settled points) :
    ∃ parts,
      readPieces start (points.flatMap escapePoint ++ '"' :: rest) = .ok (parts, rest) ∧
      ∀ waiting : Option Nat, (∀ n ∈ waiting, isHighHalf n = true) →
        Settled ((waiting.map CodePoint.ofCode).toList ++ points) →
        joinPieces waiting parts = (waiting.map CodePoint.ofCode).toList ++ points := by
  induction points with
  | nil => exact ⟨[], by simp [readPieces], fun waiting _ _ => by simp [joinPieces]⟩
  | cons p points ih =>
    obtain ⟨parts, hread, hjoin⟩ := ih h.tail
    obtain ⟨ps, hspelling⟩ := exists_spelling p
    refine ⟨ps ++ parts, ?_, fun waiting hhigh hsettled => hspelling.joinPieces ?_ ?_⟩
    · rw [List.flatMap_cons, List.append_assoc, hspelling.readPieces (by simp), hread]
      -- the parts of one spelling go in front, one by one
      clear hspelling
      induction ps with
      | nil => rfl
      | cons piece ps ih => rw [List.foldr_cons, ih]; rfl
    · rintro n hn
      cases hn
      exact ⟨hhigh n rfl, (List.isChain_cons_cons.1 hsettled).1⟩
    · intro waiting hwaiting
      -- a half that waits is the one just read, so what follows is settled behind it
      refine hjoin waiting (fun n hn => (hwaiting n hn).1) ?_
      cases waiting with
      | none => exact h.tail
      | some n => obtain rfl := (hwaiting n rfl).2; exact h

/-- What is written between quotes is read back, unless it holds two halves that make a pair. -/
theorem readString_stringChars {s : Loose} (h : Settled s.points) (rest : List Char) :
    readString (s.points.flatMap escapePoint ++ '"' :: rest) = .ok (s, rest) := by
  obtain ⟨parts, hread, hjoin⟩ := exists_parts rest h
  rw [readString, hread]
  simp [hjoin none (by simp) h]

/-- No character is half of one. -/
theorem staysApart_char (c : Char) (q : CodePoint) : StaysApart (.char c) q := by
  rintro ⟨hhigh, -⟩
  have hvalid := valid_toNat c
  replace hhigh : isHighHalf c.toNat = true := hhigh
  simp only [isHighHalf, Bool.and_eq_true, decide_eq_true_eq] at hhigh
  omega

/-- A text without halves is settled. -/
theorem settled_whole (s : String) : Settled (Loose.whole s).points := by
  refine List.isChain_iff_getElem.2 fun i hi => ?_
  simp only [Loose.points, List.getElem_map]
  exact staysApart_char _ _

end TapeMachine.Json
