import Mathlib.Data.List.Basic
import TapeMachine.Fault
import TapeMachine.Rule.Grammar
import TapeMachine.Rule.Source

/-!
# A line is read as the grammar says

The scanner takes one part of a rule after the other and never goes back. Each part is shown to
take what the grammar allows at its place and no more; what makes this work is that a part ends
where a character of another class stands. So the scanner accepts the lines of the grammar, and
there is one way to read each of them.

## Main results

- `Rule.scan?_eq_some_iff`: the scanner accepts what the grammar spells
- `Rule.spells_unique`: the parts of a rule are told by its line
- `isSkippable_eq_false_of_spells`: no line that spells a rule is skipped
-/

namespace TapeMachine

/-! ## Classes of characters -/

namespace Text

theorem exists_range_of_inRanges {rs : Ranges} {n : Nat} (h : inRanges rs n = true) :
    ∃ r ∈ rs, r.1 ≤ n ∧ n ≤ r.2 := by
  induction rs with
  | nil => contradiction
  | cons r rest ih =>
    obtain ⟨lo, hi⟩ := r
    simp only [inRanges] at h
    split at h
    · contradiction
    · rename_i hlo
      rcases Bool.or_eq_true_iff.1 h with hhi | hrest
      · exact ⟨(lo, hi), List.mem_cons_self, Nat.not_lt.1 hlo, of_decide_eq_true hhi⟩
      · obtain ⟨r, hr, hn⟩ := ih hrest
        exact ⟨r, List.mem_cons_of_mem _ hr, hn⟩

theorem blankRanges_apart : ∀ b ∈ blankRanges, ∀ w ∈ wordRanges, b.2 < w.1 ∨ w.2 < b.1 := by
  decide +kernel

/-- White space cannot stand in a word. -/
theorem isBlank_of_isWord {c : Char} (h : isWord c = true) : isBlank c = false := by
  by_contra hblank
  obtain ⟨w, hw, hwc⟩ := exists_range_of_inRanges h
  obtain ⟨b, hb, hbc⟩ := exists_range_of_inRanges (Bool.of_not_eq_false hblank)
  have hapart := blankRanges_apart b hb w hw
  omega

end Text

namespace Rule

open TapeMachine.Text (isBlank isWord isBlank_of_isWord)

/-- The text ends, or goes on with a character outside the class. -/
def Stops (p : Char → Bool) (cs : List Char) : Prop := ∀ c ∈ cs.head?, p c = false

section Stops

variable {p : Char → Bool} {cs front rest : List Char} {c : Char}

theorem stops_nil (p : Char → Bool) : Stops p [] := fun _ h => nomatch h

theorem stops_cons (hc : p c = false) : Stops p (c :: rest) := by
  intro d hd
  obtain rfl := Option.some.inj hd
  exact hc

/-- A text in front whose characters are outside the class, if there is one, stops as well. -/
theorem stops_append (hfront : ∀ c ∈ front, p c = false) (hrest : front = [] → Stops p rest) :
    Stops p (front ++ rest) := by
  cases front with
  | nil => exact hrest rfl
  | cons c front => exact stops_cons (hfront c List.mem_cons_self)

theorem stops_dropWhile (p : Char → Bool) (cs : List Char) : Stops p (cs.dropWhile p) := by
  intro c hc
  have hnot := List.head?_dropWhile_not p cs
  rw [Option.mem_def.1 hc] at hnot
  simpa using hnot

theorem takeWhile_append_of_stops (hfront : ∀ c ∈ front, p c = true) (hrest : Stops p rest) :
    (front ++ rest).takeWhile p = front := by
  rw [List.takeWhile_append_of_pos hfront]
  cases rest with
  | nil => simp
  | cons c rest =>
    have hc := hrest c rfl
    simp [hc]

theorem dropWhile_append_of_stops (hfront : ∀ c ∈ front, p c = true) (hrest : Stops p rest) :
    (front ++ rest).dropWhile p = rest := by
  rw [List.dropWhile_append_of_pos hfront]
  cases rest with
  | nil => rfl
  | cons c rest =>
    have hc := hrest c rfl
    simp [hc]

end Stops

/-! ## What each part takes -/

variable {cs rest w : List Char} {c mark : Char} {direction : Direction}

theorem skipBlank_eq_iff :
    skipBlank cs = rest ↔ ∃ gap, cs = gap ++ rest ∧ Blanks gap ∧ Stops isBlank rest := by
  constructor
  · rintro rfl
    refine ⟨cs.takeWhile isBlank, List.takeWhile_append_dropWhile.symm, fun c hc => ?_,
      stops_dropWhile isBlank cs⟩
    exact List.all_eq_true.1 List.all_takeWhile c hc
  · rintro ⟨gap, rfl, hgap, hrest⟩
    exact dropWhile_append_of_stops hgap hrest

theorem word?_eq_some_iff :
    word? cs = some (w, rest) ↔ cs = w ++ rest ∧ Word w ∧ Stops isWord rest := by
  constructor
  · intro h
    unfold word? at h
    split at h
    · contradiction
    · rename_i hne
      obtain ⟨rfl, rfl⟩ := Prod.mk.inj (Option.some.inj h)
      have hword : Word (cs.takeWhile isWord) :=
        ⟨fun hnil => hne (by rw [hnil]; rfl), List.all_eq_true.1 List.all_takeWhile⟩
      exact ⟨List.takeWhile_append_dropWhile.symm, hword, stops_dropWhile isWord cs⟩
  · rintro ⟨rfl, ⟨hne, hw⟩, hrest⟩
    rw [word?, takeWhile_append_of_stops hw hrest, dropWhile_append_of_stops hw hrest,
      if_neg (by simpa using hne)]

theorem gap?_eq_some_iff :
    gap? cs = some rest ↔
      ∃ gap, cs = gap ++ rest ∧ Blanks gap ∧ gap ≠ [] ∧ Stops isBlank rest := by
  constructor
  · intro h
    cases cs with
    | nil => contradiction
    | cons c cs =>
      simp only [gap?] at h
      split at h
      · rename_i hc
        -- one blank has to be there, others may follow
        obtain ⟨gap, rfl, hgap, hrest⟩ := skipBlank_eq_iff.1 (Option.some.inj h)
        exact ⟨c :: gap, rfl, List.forall_mem_cons.2 ⟨hc, hgap⟩, List.cons_ne_nil c gap, hrest⟩
      · contradiction
  · rintro ⟨gap, rfl, hgap, hne, hrest⟩
    cases gap with
    | nil => contradiction
    | cons c gap =>
      obtain ⟨hc, hgap⟩ := List.forall_mem_cons.1 hgap
      have hskip : skipBlank (gap ++ rest) = rest := dropWhile_append_of_stops hgap hrest
      rw [List.cons_append, gap?, if_pos hc, hskip]

theorem symbol?_eq_some_iff : symbol? cs = some (c, rest) ↔ cs = c :: rest ∧ SymbolChar c := by
  constructor
  · intro h
    cases cs with
    | nil => contradiction
    | cons d ds =>
      simp only [symbol?] at h
      split at h
      · rename_i hd
        obtain ⟨rfl, rfl⟩ := Prod.mk.inj (Option.some.inj h)
        exact ⟨rfl, by simpa [isSymbol, SymbolChar] using hd⟩
      · contradiction
  · rintro ⟨rfl, hblank, hslash⟩
    simp [symbol?, isSymbol, hblank, hslash]

theorem mark?_eq_some_iff (hmark : isBlank mark = false) :
    mark? mark cs = some rest ↔ ∃ gap, cs = gap ++ mark :: rest ∧ Blanks gap := by
  constructor
  · intro h
    unfold mark? at h
    split at h
    · contradiction
    · rename_i c cs' hskip
      split at h
      · rename_i hc
        obtain rfl := Option.some.inj h
        obtain rfl := hc
        obtain ⟨gap, hcs, hgap, -⟩ := skipBlank_eq_iff.1 hskip
        exact ⟨gap, hcs, hgap⟩
      · contradiction
  · rintro ⟨gap, rfl, hgap⟩
    have hskip : skipBlank (gap ++ mark :: rest) = mark :: rest :=
      dropWhile_append_of_stops hgap (stops_cons hmark)
    simp [mark?, hskip]

theorem direction?_eq_some_iff :
    direction? cs = some (direction, rest) ↔ cs = direction.letter.toList ++ rest := by
  constructor
  · intro h
    unfold direction? at h
    split at h
    · obtain ⟨rfl, rfl⟩ := Prod.mk.inj (Option.some.inj h)
      rfl
    · obtain ⟨rfl, rfl⟩ := Prod.mk.inj (Option.some.inj h)
      rfl
    · obtain ⟨rfl, rfl⟩ := Prod.mk.inj (Option.some.inj h)
      rfl
    · contradiction
  · rintro rfl
    cases direction <;> rfl

theorem comment?_eq_some_iff :
    comment? cs = some rest ↔ ∃ sign, cs = sign ++ rest ∧ CommentSign sign := by
  constructor
  · intro h
    unfold comment? at h
    split at h
    · obtain rfl := Option.some.inj h
      exact ⟨_, rfl, .slashes⟩
    · obtain rfl := Option.some.inj h
      exact ⟨_, rfl, .hash⟩
    · obtain rfl := Option.some.inj h
      exact ⟨_, rfl, .semicolon⟩
    · contradiction
  · rintro ⟨sign, rfl, hsign⟩
    cases hsign <;> rfl

/-- A comment starts with a sign that is neither white space nor a word character. -/
theorem CommentSign.exists_cons {sign : List Char} (h : CommentSign sign) :
    ∃ c rest, sign = c :: rest ∧ isBlank c = false ∧ isWord c = false := by
  cases h with
  | slashes => exact ⟨_, _, rfl, by decide, by decide⟩
  | hash => exact ⟨_, _, rfl, by decide, by decide⟩
  | semicolon => exact ⟨_, _, rfl, by decide, by decide⟩

theorem isTail_iff : isTail cs = true ↔ Tail cs := by
  constructor
  · intro h
    -- nothing is left, or a gap and a comment
    rcases Bool.or_eq_true_iff.1 h with hnil | hcomment
    · rw [List.isEmpty_iff.1 hnil]
      exact .nothing
    · split at hcomment
      · rename_i text htext
        obtain ⟨sign, hskip, hsign⟩ := comment?_eq_some_iff.1 htext
        obtain ⟨gap, rfl, hgap, -⟩ := skipBlank_eq_iff.1 hskip
        rw [← List.append_assoc]
        exact .comment hgap hsign (by simpa using hcomment)
      · contradiction
  · intro h
    cases h with
    | nothing => rfl
    | @comment gap sign text hgap hsign htext =>
      obtain ⟨c, sign', rfl, hc, -⟩ := hsign.exists_cons
      have hskip : skipBlank (gap ++ (c :: sign') ++ text) = c :: sign' ++ text := by
        rw [List.append_assoc]
        exact dropWhile_append_of_stops hgap (stops_cons hc)
      have hcomment : comment? (c :: sign' ++ text) = some text :=
        comment?_eq_some_iff.2 ⟨_, rfl, hsign⟩
      rw [isTail, hskip, hcomment]
      simp [htext]

/-! ## The parts in order -/

/-- No word goes on into white space. -/
theorem Blanks.stops_isWord {gap : List Char} (hgap : Blanks gap) (hne : gap ≠ [])
    (rest : List Char) : Stops isWord (gap ++ rest) := by
  refine stops_append (fun c hc => ?_) fun hnil => absurd hnil hne
  by_contra hword
  have hblank := isBlank_of_isWord (Bool.of_not_eq_false hword)
  rw [hgap c hc] at hblank
  contradiction

theorem Word.stops_isBlank {w : List Char} (hw : Word w) (rest : List Char) :
    Stops isBlank (w ++ rest) :=
  stops_append (fun c hc => isBlank_of_isWord (hw.2 c hc)) fun hnil => absurd hnil hw.1

theorem stops_letter (direction : Direction) (rest : List Char) :
    Stops isBlank (direction.letter.toList ++ rest) := by
  cases direction <;> exact stops_cons (by decide)

/-- No word goes on into what may follow it. -/
theorem Tail.stops_isWord {tail : List Char} (h : Tail tail) : Stops isWord tail := by
  cases h with
  | nothing => exact stops_nil isWord
  | @comment gap sign text hgap hsign htext =>
    rw [List.append_assoc]
    by_cases hne : gap = []
    · obtain ⟨c, sign', rfl, -, hc⟩ := hsign.exists_cons
      rw [hne]
      exact stops_cons hc
    · exact hgap.stops_isWord hne _

theorem symbol?_skipBlank_eq_some_iff :
    symbol? (skipBlank cs) = some (c, rest) ↔
      ∃ gap, cs = gap ++ c :: rest ∧ Blanks gap ∧ SymbolChar c := by
  constructor
  · intro h
    obtain ⟨hskip, hc⟩ := symbol?_eq_some_iff.1 h
    obtain ⟨gap, hcs, hgap, -⟩ := skipBlank_eq_iff.1 hskip
    exact ⟨gap, hcs, hgap, hc⟩
  · rintro ⟨gap, rfl, hgap, hc⟩
    have hskip : skipBlank (gap ++ c :: rest) = c :: rest :=
      dropWhile_append_of_stops hgap (stops_cons hc.1)
    rw [hskip]
    exact symbol?_eq_some_iff.2 ⟨rfl, hc⟩

theorem direction?_skipBlank_eq_some_iff :
    direction? (skipBlank cs) = some (direction, rest) ↔
      ∃ gap, cs = gap ++ (direction.letter.toList ++ rest) ∧ Blanks gap := by
  constructor
  · intro h
    have hskip := direction?_eq_some_iff.1 h
    obtain ⟨gap, hcs, hgap, -⟩ := skipBlank_eq_iff.1 hskip
    exact ⟨gap, hcs, hgap⟩
  · rintro ⟨gap, rfl, hgap⟩
    have hskip : skipBlank (gap ++ (direction.letter.toList ++ rest)) =
        direction.letter.toList ++ rest :=
      dropWhile_append_of_stops hgap (stops_letter direction rest)
    rw [hskip]
    exact direction?_eq_some_iff.2 rfl

theorem spells_of_scan? {line : Int} {r : Rule} (h : scan? line cs = some r) :
    ∃ p, Spells cs p ∧ r = p.toRule line := by
  simp only [scan?, Option.bind_eq_bind, Option.bind_eq_some_iff] at h
  obtain ⟨⟨source, cs₁⟩, hsource, cs₂, hgap₁, ⟨read, cs₃⟩, hread, cs₄, hslash, ⟨write, cs₅⟩, hwrite,
    cs₆, hcomma, ⟨direction, cs₇⟩, hdirection, cs₈, hgap₆, ⟨target, tail⟩, htarget, h⟩ := h
  split at h
  · rename_i htail
    obtain rfl := Option.some.inj h
    -- from the front on, the text that is left is what the next part stands in front of
    obtain ⟨rfl, isSource, -⟩ := word?_eq_some_iff.1 hsource
    obtain ⟨gap₁, rfl, blanks₁, hne₁, -⟩ := gap?_eq_some_iff.1 hgap₁
    obtain ⟨rfl, isRead⟩ := symbol?_eq_some_iff.1 hread
    obtain ⟨gap₂, rfl, blanks₂⟩ := (mark?_eq_some_iff (by decide)).1 hslash
    obtain ⟨gap₃, rfl, blanks₃, isWrite⟩ := symbol?_skipBlank_eq_some_iff.1 hwrite
    obtain ⟨gap₄, rfl, blanks₄⟩ := (mark?_eq_some_iff (by decide)).1 hcomma
    obtain ⟨gap₅, rfl, blanks₅⟩ := direction?_skipBlank_eq_some_iff.1 hdirection
    obtain ⟨gap₆, rfl, blanks₆, hne₆, -⟩ := gap?_eq_some_iff.1 hgap₆
    obtain ⟨rfl, isTarget, -⟩ := word?_eq_some_iff.1 htarget
    refine ⟨⟨source, read, write, direction, target⟩, ?_, rfl⟩
    have hspells := Spells.rule (p := ⟨source, read, write, direction, target⟩) isSource isRead
      isWrite isTarget blanks₁ hne₁ blanks₂ blanks₃ blanks₄ blanks₅ blanks₆ hne₆
      (isTail_iff.1 htail)
    simpa only [List.append_assoc, List.cons_append, List.nil_append] using hspells
  · contradiction

theorem scan?_of_spells {p : Parts} (h : Spells cs p) (line : Int) :
    scan? line cs = some (p.toRule line) := by
  obtain ⟨hsource, hread, hwrite, htarget, hgap₁, hne₁, hgap₂, hgap₃, hgap₄, hgap₅, hgap₆, hne₆,
    htail⟩ := h
  simp only [scan?, Option.bind_eq_bind, Option.bind_eq_some_iff, List.append_assoc,
    List.cons_append, List.nil_append]
  -- every part is followed by a character at which it stops
  refine ⟨(_, _), word?_eq_some_iff.2 ⟨rfl, hsource, hgap₁.stops_isWord hne₁ _⟩, ?_⟩
  refine ⟨_, gap?_eq_some_iff.2 ⟨_, rfl, hgap₁, hne₁, stops_cons hread.1⟩, ?_⟩
  refine ⟨(_, _), symbol?_eq_some_iff.2 ⟨rfl, hread⟩, ?_⟩
  refine ⟨_, (mark?_eq_some_iff (by decide)).2 ⟨_, rfl, hgap₂⟩, ?_⟩
  refine ⟨(_, _), symbol?_skipBlank_eq_some_iff.2 ⟨_, rfl, hgap₃, hwrite⟩, ?_⟩
  refine ⟨_, (mark?_eq_some_iff (by decide)).2 ⟨_, rfl, hgap₄⟩, ?_⟩
  refine ⟨(_, _), direction?_skipBlank_eq_some_iff.2 ⟨_, rfl, hgap₅⟩, ?_⟩
  refine ⟨_, gap?_eq_some_iff.2 ⟨_, rfl, hgap₆, hne₆, htarget.stops_isBlank _⟩, ?_⟩
  refine ⟨(_, _), word?_eq_some_iff.2 ⟨rfl, htarget, htail.stops_isWord⟩, ?_⟩
  rw [if_pos (isTail_iff.2 htail)]
  rfl

theorem Spells.exists_cons {p : Parts} (h : Spells cs p) :
    ∃ c rest, cs = c :: rest ∧ isWord c = true := by
  obtain ⟨⟨hne, hword⟩⟩ := h
  cases hsource : p.source with
  | nil => exact absurd hsource hne
  | cons c source =>
    simp only [List.append_assoc, List.cons_append]
    exact ⟨c, _, rfl, hword c (by rw [hsource]; exact List.mem_cons_self)⟩

theorem scan?_eq_some_iff {line : Int} {r : Rule} :
    scan? line cs = some r ↔ ∃ p, Spells cs p ∧ r = p.toRule line := by
  constructor
  · exact spells_of_scan?
  · rintro ⟨p, hp, rfl⟩
    exact scan?_of_spells hp line

/-- The parts can be told from the rule that they make. -/
theorem Parts.toRule_inj {p q : Parts} {line line' : Int} (h : p.toRule line = q.toRule line') :
    p = q := by
  obtain ⟨hsource, hread, hwrite, hmove, htarget, -⟩ := Rule.mk.inj h
  have hdirection := congrArg Direction.ofLetter? hmove
  have hsource := congrArg String.toList hsource
  have htarget := congrArg String.toList htarget
  rw [Direction.ofLetter?_letter, Direction.ofLetter?_letter] at hdirection
  rw [String.toList_ofList, String.toList_ofList] at hsource htarget
  cases p
  cases q
  simp_all

/-- There is one way to read a rule. -/
theorem spells_unique {p q : Parts} (hp : Spells cs p) (hq : Spells cs q) : p = q := by
  have hscan := scan?_of_spells hp 0
  rw [scan?_of_spells hq 0] at hscan
  exact (Parts.toRule_inj (Option.some.inj hscan)).symm

/-! ## Lines -/

/-- Without the white space at its ends the line is a rule with these parts. -/
def SpelledBy (text : String) (p : Parts) : Prop := Spells (Text.stripChars text.toList) p

variable {text : String}

theorem ofLine_eq_ok_iff {line : Int} {r : Rule} :
    ofLine text line = .ok r ↔ ∃ p, SpelledBy text p ∧ r = p.toRule line := by
  have hiff : scan? line (Text.stripChars text.toList) = some r ↔
      ∃ p, SpelledBy text p ∧ r = p.toRule line := scan?_eq_some_iff
  unfold ofLine
  split
  · rename_i rule hscan
    rw [hscan, Option.some.injEq] at hiff
    rw [Except.ok.injEq]
    exact hiff
  · rename_i hscan
    rw [hscan] at hiff
    simpa using hiff

theorem ofLine_eq_error_iff {line : Int} {e : CompileError} :
    ofLine text line = .error e ↔
      (∀ p, ¬ SpelledBy text p) ∧ e = .malformed (Text.strip text) (line + 1) := by
  -- a line is scanned just if it is spelt as a rule
  unfold ofLine
  split
  · rename_i rule hscan
    obtain ⟨p, hp, -⟩ := spells_of_scan? hscan
    constructor
    · intro h
      exact nomatch h
    · intro h
      exact absurd hp (h.1 p)
  · rename_i hscan
    constructor
    · intro h
      refine ⟨fun p hp => ?_, (Except.error.inj h).symm⟩
      rw [scan?_of_spells hp line] at hscan
      exact nomatch hscan
    · rintro ⟨-, rfl⟩
      rfl

/-- What a caller gets to know about a line that is no rule. -/
theorem mapError_ofLine_of_not_spelledBy (hnone : ∀ p, ¬ SpelledBy text p) (line : Int) :
    (ofLine text line).mapError Fault.ofCompile =
      .error (if Text.Integer.isWritable (line + 1) then
        .compile (.malformed (Text.strip text) (line + 1)) else .longInteger ⟨⟩) := by
  rw [ofLine_eq_error_iff.2 ⟨hnone, rfl⟩, ← Fault.ofCompile_malformed]
  rfl

/-- A rule starts with a word character, as no blank line and no comment does. -/
theorem isSkippable_eq_false_of_spelledBy {p : Parts} (h : SpelledBy text p) :
    isSkippable text = false := by
  obtain ⟨c, rest, hcs, hc⟩ := Spells.exists_cons h
  have hcomment : comment? (c :: rest) = none := by
    by_contra hsome
    obtain ⟨after, hafter⟩ := Option.ne_none_iff_exists'.1 hsome
    obtain ⟨sign, hsign, hopens⟩ := comment?_eq_some_iff.1 hafter
    obtain ⟨d, sign', rfl, -, hd⟩ := hopens.exists_cons
    obtain ⟨rfl, -⟩ := List.cons.inj hsign
    rw [hd] at hc
    exact absurd hc Bool.false_ne_true
  simp [isSkippable, hcs, hcomment]

/-- A line is read as a rule if the grammar spells one, which is then the only one; and if it spells
    none, the line is refused by its number, as long as that can be written. Rules are not
    skipped. -/
theorem ofLine_reads_spelled (text : String) (line : Int) :
    (∀ r, ofLine text line = .ok r ↔ ∃ p, SpelledBy text p ∧ r = p.toRule line) ∧
      (∀ p q, SpelledBy text p → SpelledBy text q → p = q) ∧
      ((∀ p, ¬ SpelledBy text p) → Text.Integer.isWritable (line + 1) = true →
        ∃ e : CompileError, (ofLine text line).mapError Fault.ofCompile = .error (.compile e) ∧
          e.line? = some (line + 1)) ∧
      ∀ r, ofLine text line = .ok r → isSkippable text = false := by
  refine ⟨fun r => ofLine_eq_ok_iff, fun p q => spells_unique, fun hnone hwritable => ?_,
    fun r hr => ?_⟩
  · refine ⟨.malformed (Text.strip text) (line + 1), ?_, rfl⟩
    rw [mapError_ofLine_of_not_spelledBy hnone, if_pos hwritable]
  · obtain ⟨p, hp, -⟩ := ofLine_eq_ok_iff.1 hr
    exact isSkippable_eq_false_of_spelledBy hp

/-- A line whose symbols look like comments, and one that is a comment and no rule. -/
theorem ofLine_reads_spelled_signs :
    (∃ p, SpelledBy "\tq0  #/ ;,R q1;\t,/ " p ∧ p.toRule 6 = ⟨"q0", "#", ";", "R", "q1", 6⟩) ∧
      isSkippable "\tq0  #/ ;,R q1;\t,/ " = false ∧
      Text.Integer.isWritable (7 + 1) = true ∧
      ∃ e : CompileError, (ofLine "// q0" 7).mapError Fault.ofCompile = .error (.compile e) ∧
        e.line? = some (7 + 1) := by
  obtain ⟨hok, -, -, hskip⟩ := ofLine_reads_spelled "\tq0  #/ ;,R q1;\t,/ " 6
  obtain ⟨hok', -, herror, -⟩ := ofLine_reads_spelled "// q0" 7
  have hread : ofLine "\tq0  #/ ;,R q1;\t,/ " 6 = .ok ⟨"q0", "#", ";", "R", "q1", 6⟩ := by
    decide +kernel
  have hrefused : ofLine "// q0" 7 = .error (.malformed "// q0" 8) := by decide +kernel
  obtain ⟨p, hp, hrule⟩ := (hok _).1 hread
  refine ⟨⟨p, hp, hrule.symm⟩, hskip _ hread, by decide +kernel,
    herror (fun q hq => ?_) (by decide +kernel)⟩
  -- a line that spelled a rule would be read
  rw [(hok' _).2 ⟨q, hq, rfl⟩] at hrefused
  exact nomatch hrefused

/-- The number of a line may have one digit too many for the message. Then the line is refused as
    well, but not by its number. -/
theorem refused_without_number :
    (∀ p, ¬ SpelledBy "q0" p) ∧
      ¬ ∃ e : CompileError,
        (ofLine "q0" ((Nat.pow 10 Text.Integer.digitLimit : Int) - 1)).mapError Fault.ofCompile =
          .error (.compile e) := by
  have hrefused : ofLine "q0" 0 = .error (.malformed "q0" 1) := by decide +kernel
  have hnone := (ofLine_eq_error_iff.1 hrefused).1
  refine ⟨hnone, ?_⟩
  rintro ⟨e, he⟩
  have hlong : Text.Integer.isWritable (Nat.pow 10 Text.Integer.digitLimit : Int) = false :=
    Text.Integer.isWritable_eq_false (Nat.le_refl _)
  rw [mapError_ofLine_of_not_spelledBy hnone, Int.sub_add_cancel, hlong,
    if_neg Bool.false_ne_true] at he
  exact Fault.noConfusion (Except.error.inj he)

end Rule

end TapeMachine
