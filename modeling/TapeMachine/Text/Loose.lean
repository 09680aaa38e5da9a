import Std.Data.ExtTreeMap

/-!
# Loose texts

Some characters are escaped in JSON as two halves, each of which has a number of its own between
U+D800 and U+DFFF. A half is no character, and a text does not hold any; but nothing keeps one from
standing alone in a JSON string. A loose text is a sequence of characters and such halves. It is
whole if it is a text, and torn if it holds a half.
-/

namespace TapeMachine.Text

/-- A half of a character, by the distance of its number from U+D800. -/
structure Half where
  offset : Fin 0x800
  deriving DecidableEq, Repr

namespace Half

/-- The number of a half. -/
def code (h : Half) : Nat := 0xD800 + h.offset

/-- The half with a number, if it is the number of one. -/
def ofCode? (n : Nat) : Option Half :=
  if h : 0xD800 ≤ n ∧ n < 0xE000 then some ⟨⟨n - 0xD800, by omega⟩⟩ else none

@[simp] theorem ofCode?_code (h : Half) : ofCode? h.code = some h := by
  obtain ⟨⟨n, hn⟩⟩ := h
  have h₁ : 0xD800 ≤ 0xD800 + n ∧ 0xD800 + n < 0xE000 := by omega
  simp [ofCode?, code, h₁]

end Half

/-- What a loose text is made of. -/
inductive CodePoint where
  | char (c : Char)
  | half (h : Half)
  deriving DecidableEq, Repr

/-- Is it a half? -/
def CodePoint.isHalf : CodePoint → Bool
  | .char _ => false
  | .half _ => true

/-- What has a number, which is that of a character or of a half. -/
def CodePoint.ofCode (n : Nat) : CodePoint :=
  match Half.ofCode? n with
  | some h => .half h
  | none => .char (Char.ofNat n)

/-- The number of a character or of a half. -/
def CodePoint.code : CodePoint → Nat
  | .char c => c.toNat
  | .half h => h.code

@[simp] theorem CodePoint.ofCode_code (p : CodePoint) : ofCode p.code = p := by
  cases p with
  | char c =>
    have h : Half.ofCode? c.toNat = none := by
      have := c.valid
      simp only [UInt32.isValidChar, Nat.isValidChar] at this
      simp only [Half.ofCode?, Char.toNat]
      split
      · omega
      · rfl
    simp [code, ofCode, h]
  | half h => simp [code, ofCode]

/-- A text in which halves of characters may stand. -/
inductive Loose where
  /-- A text. -/
  | whole (s : String)
  /-- A text, the first half, and what follows it. -/
  | torn (front : String) (half : Half) (rest : List CodePoint)
  deriving DecidableEq, Repr

namespace Loose

instance : Coe String Loose := ⟨whole⟩

/-- What the text is made of, in order. -/
def points : Loose → List CodePoint
  | whole s => s.toList.map .char
  | torn front half rest => front.toList.map .char ++ .half half :: rest

/-- The text made of characters that were read, last first, and of what follows them. -/
def ofPointsFrom (front : List Char) : List CodePoint → Loose
  | [] => whole (String.ofList front.reverse)
  | .char c :: rest => ofPointsFrom (c :: front) rest
  | .half h :: rest => torn (String.ofList front.reverse) h rest

/-- The text made of characters and halves. -/
def ofPoints (ps : List CodePoint) : Loose := ofPointsFrom [] ps

theorem points_ofPointsFrom (front : List Char) (ps : List CodePoint) :
    (ofPointsFrom front ps).points = front.reverse.map .char ++ ps := by
  induction ps generalizing front with
  | nil => simp [ofPointsFrom, points]
  | cons p rest ih =>
    cases p with
    | char c => simp [ofPointsFrom, ih]
    | half h => simp [ofPointsFrom, points]

@[simp] theorem points_ofPoints (ps : List CodePoint) : (ofPoints ps).points = ps := by
  simp [ofPoints, points_ofPointsFrom]

theorem ofPointsFrom_chars (front cs : List Char) (ps : List CodePoint) :
    ofPointsFrom front (cs.map .char ++ ps) = ofPointsFrom (cs.reverse ++ front) ps := by
  induction cs generalizing front with
  | nil => rfl
  | cons c rest ih => simp [ofPointsFrom, ih]

/-- A loose text is told by what it is made of. -/
@[simp] theorem ofPoints_points (t : Loose) : ofPoints t.points = t := by
  cases t with
  | whole s =>
    have h := ofPointsFrom_chars [] s.toList []
    simp_all [ofPoints, points, ofPointsFrom]
  | torn front half rest => simp [ofPoints, points, ofPointsFrom_chars, ofPointsFrom]

/-- The text of one character is whole. -/
theorem ofPoints_char (c : Char) : ofPoints [.char c] = whole (.singleton c) := by
  rw [String.singleton_eq_ofList]
  rfl

theorem whole_singleton_eq_iff {c : Char} {x : CodePoint} :
    whole (.singleton c) = ofPoints [x] ↔ x = .char c := by
  rw [← ofPoints_char]
  constructor
  · intro h
    have hpoints := congrArg points h
    simp only [points_ofPoints, List.cons.injEq, and_true] at hpoints
    exact hpoints.symm
  · rintro rfl
    rfl

/-! ## Order -/

/-- The numbers of what the text is made of. -/
def codes (t : Loose) : List Nat := t.points.map CodePoint.code

/-- The text made of what has the numbers. -/
def ofCodes (codes : List Nat) : Loose := ofPoints (codes.map CodePoint.ofCode)

@[simp] theorem ofCodes_codes (t : Loose) : ofCodes t.codes = t := by
  simp [ofCodes, codes, Function.comp_def]

theorem codes_inj {t u : Loose} (h : t.codes = u.codes) : t = u := by
  rw [← ofCodes_codes t, h, ofCodes_codes]

/-- Texts are ordered by the numbers of what they are made of. -/
instance : Ord Loose := ⟨compareOn codes⟩

instance : Std.TransOrd Loose := inferInstanceAs (Std.TransCmp (compareOn codes))

instance : Std.LawfulEqOrd Loose where
  eq_of_compare h := codes_inj (Std.LawfulEqOrd.eq_of_compare h)

/-! ## Texts side by side -/

/-- One text behind the other. Halves that meet stay apart. -/
def append : Loose → Loose → Loose
  | whole s, whole t => whole (s ++ t)
  | whole s, torn front half rest => torn (s ++ front) half rest
  | torn front half rest, t => torn front half (rest ++ t.points)

instance : Append Loose := ⟨append⟩

@[simp] theorem whole_append_whole (s t : String) : whole s ++ whole t = whole (s ++ t) := rfl

@[simp] theorem points_append (t u : Loose) : (t ++ u).points = t.points ++ u.points := by
  show (append t u).points = _
  cases t <;> cases u <;> simp [append, points]

/-- Texts side by side. -/
def join (ts : List Loose) : Loose := ofPoints (ts.flatMap points)

@[simp] theorem points_join (ts : List Loose) : (join ts).points = ts.flatMap points := by
  simp [join]

/-- The text, if it is whole. -/
def text? : Loose → Option String
  | whole s => some s
  | torn _ _ _ => none

/-- A character, or the replacement character in place of a half. -/
def mendedChar : CodePoint → Char
  | .char c => c
  | .half _ => Char.ofNat 0xFFFD

/-- The text with the replacement character in place of each half. -/
def mended : Loose → String
  | whole s => s
  | t => String.ofList (t.points.map mendedChar)

end Loose

end TapeMachine.Text
