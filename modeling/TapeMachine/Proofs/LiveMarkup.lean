import TapeMachine.Display.Markup

/-!
# Groups that are read as tags

A group is live if an even number of backslashes stands in front: the console reads it as a tag. No
group of an escaped text is live. But a text may end within a group, and what is put behind it may
hold the bracket that closes the group. Escaping does not see such a group, because no closing
bracket follows when the text is escaped.

## Main results

- `liveGroups_append`: the live groups of texts side by side are those of the parts, and at most one
  that begins in the first and ends in the second
- `liveGroups_escape`: an escaped text holds no live group
- `isSome_unclosed?_escape`: but it ends within one if the text itself does
-/

namespace TapeMachine.Markup

open Text (CodePoint Loose)

/-! ## Live groups -/

/-- The text through its first closing bracket. -/
def throughClosing : List CodePoint → List CodePoint
  | [] => []
  | p :: rest => if p = closing then [p] else p :: throughClosing rest

/-- The groups that are read as tags; `run` backslashes stand in front of the text. -/
def liveGroups (run : Nat) : List CodePoint → List (List CodePoint)
  | [] => []
  | p :: rest =>
    if p = backslash then liveGroups (run + 1) rest
    else if p = opening ∧ opensGroup rest ∧ run % 2 = 0 then
      (p :: throughClosing rest) :: liveGroups 0 rest
    else liveGroups 0 rest

/-- Does the text begin as the name of a tag does? -/
def startsTag (ps : List CodePoint) : Bool := ps.head?.any isTagStart

/-- Is there no bracket in the text? -/
def isFree (ps : List CodePoint) : Bool := ps.all fun p => p ≠ opening && p ≠ closing

/-- The end of a text from a bracket on that opens a group, if nothing but the closing bracket is
missing for the group to be live. -/
def unclosed? (run : Nat) : List CodePoint → Option (List CodePoint)
  | [] => none
  | p :: rest =>
    if p = backslash then unclosed? (run + 1) rest
    else if p = opening ∧ startsTag rest ∧ isFree rest ∧ run % 2 = 0 then some (p :: rest)
    else unclosed? 0 rest

/-- How many backslashes stand at the end of a text with `run` of them in front. -/
def runAfter (run : Nat) : List CodePoint → Nat
  | [] => run
  | p :: rest => if p = backslash then runAfter (run + 1) rest else runAfter 0 rest

/-- The group that begins in one text and ends in the next. -/
def spilled (run : Nat) (front back : List CodePoint) : List (List CodePoint) :=
  if closes back then (unclosed? run front).toList.map (· ++ throughClosing back) else []

variable {front back ps : List CodePoint} {run : Nat}

/-! ## Texts side by side -/

theorem opensGroup_eq (ps : List CodePoint) : opensGroup ps = (startsTag ps && closes ps) := by
  cases ps with
  | nil => rfl
  | cons p rest =>
    show (isTagStart p && closes rest) = (isTagStart p && closes (p :: rest))
    cases hp : isTagStart p with
    | false => rfl
    | true =>
      have hclosing : p ≠ closing := by rintro rfl; exact absurd hp (by decide)
      have hopening : p ≠ opening := by rintro rfl; exact absurd hp (by decide)
      rw [closes, if_neg hclosing, if_neg hopening]

theorem startsTag_append (hback : startsTag back = false) (front : List CodePoint) :
    startsTag (front ++ back) = startsTag front := by
  cases front with
  | nil => exact hback
  | cons p rest => rfl

theorem isFree_cons (p : CodePoint) (rest : List CodePoint) :
    isFree (p :: rest) = ((p ≠ opening && p ≠ closing) && isFree rest) := rfl

theorem closes_append (front back : List CodePoint) :
    closes (front ++ back) = (closes front || (isFree front && closes back)) := by
  induction front with
  | nil => simp [closes, isFree]
  | cons p rest ih =>
    rw [List.cons_append, closes, closes, isFree_cons, ih]
    by_cases hclosing : p = closing
    · simp [hclosing]
    · by_cases hopening : p = opening <;> simp [hclosing, hopening]

theorem closes_of_isFree (h : isFree ps = true) : closes ps = false := by
  induction ps with
  | nil => rfl
  | cons p rest ih =>
    rw [isFree_cons] at h
    simp only [Bool.and_eq_true, decide_eq_true_eq] at h
    rw [closes, if_neg h.1.2, if_neg h.1.1, ih h.2]

theorem isFree_eq_false_of_closes (h : closes ps = true) : isFree ps = false := by
  cases hfree : isFree ps with
  | false => rfl
  | true =>
    rw [closes_of_isFree hfree] at h
    contradiction

theorem throughClosing_append_of_closes (h : closes front = true) (back : List CodePoint) :
    throughClosing (front ++ back) = throughClosing front := by
  induction front with
  | nil => exact absurd h (by decide)
  | cons p rest ih =>
    rw [List.cons_append, throughClosing, throughClosing]
    by_cases hclosing : p = closing
    · rw [if_pos hclosing, if_pos hclosing]
    · have hopening : p ≠ opening := fun hp => by simp [closes, hp, opening, closing] at h
      rw [closes, if_neg hclosing, if_neg hopening] at h
      rw [if_neg hclosing, if_neg hclosing, ih h]

theorem throughClosing_append_of_isFree (h : isFree front = true) (back : List CodePoint) :
    throughClosing (front ++ back) = front ++ throughClosing back := by
  induction front with
  | nil => rfl
  | cons p rest ih =>
    rw [isFree_cons] at h
    simp only [Bool.and_eq_true, decide_eq_true_eq] at h
    rw [List.cons_append, throughClosing, if_neg h.1.2, ih h.2, List.cons_append]

/-- A text without brackets holds no group, and does not end in one. -/
theorem liveGroups_of_isFree (h : isFree ps = true) (run : Nat) :
    liveGroups run ps = [] ∧ unclosed? run ps = none := by
  induction ps generalizing run with
  | nil => exact ⟨rfl, rfl⟩
  | cons p rest ih =>
    rw [isFree_cons] at h
    simp only [Bool.and_eq_true, decide_eq_true_eq] at h
    simp [liveGroups, unclosed?, h.1.1, ih h.2]

/-- The live groups of two texts side by side. A group that the first one leaves open may be closed
by the second one. -/
theorem liveGroups_append (hback : startsTag back = false) (run : Nat) (front : List CodePoint) :
    liveGroups run (front ++ back) =
      liveGroups run front ++ spilled run front back ++ liveGroups (runAfter run front) back := by
  induction front generalizing run with
  | nil => simp [liveGroups, spilled, unclosed?, runAfter]
  | cons p rest ih =>
    by_cases hslash : p = backslash
    · simp [liveGroups, spilled, unclosed?, runAfter, hslash, ih]
    have htag := startsTag_append hback rest
    by_cases hopens : p = opening ∧ startsTag rest = true ∧ run % 2 = 0
    · obtain ⟨rfl, htagged, heven⟩ := hopens
      have hcloses := closes_append rest back
      cases hrest : closes rest with
      | true =>
        -- the group that opens here is closed in the first text
        have hthrough := throughClosing_append_of_closes hrest back
        have hfree := isFree_eq_false_of_closes hrest
        simp [liveGroups, spilled, unclosed?, runAfter, hslash, ih, opensGroup_eq, htag, htagged,
          heven, hcloses, hrest, hthrough, hfree]
      | false =>
        cases hfree : isFree rest with
        | true =>
          -- the group that opens here is the last one, and the second text may close it
          have hthrough := throughClosing_append_of_isFree hfree back
          obtain ⟨hlive, hunclosed⟩ := liveGroups_of_isFree hfree 0
          cases hend : closes back <;>
            simp [liveGroups, spilled, unclosed?, runAfter, hslash, ih, opensGroup_eq, htag,
              htagged, heven, hcloses, hrest, hthrough, hfree, hlive, hunclosed, hend]
        | false =>
          -- an opening bracket comes before any closing one
          simp [liveGroups, spilled, unclosed?, runAfter, hslash, ih, opensGroup_eq, htag, htagged,
            heven, hcloses, hrest, hfree]
    · have hskip : ∀ {P : Prop}, ¬ (p = opening ∧ (startsTag rest = true ∧ P) ∧ run % 2 = 0) :=
        fun h => hopens ⟨h.1, h.2.1.1, h.2.2⟩
      have hskip' : ∀ {P : Prop}, ¬ (p = opening ∧ startsTag rest = true ∧ P ∧ run % 2 = 0) :=
        fun h => hopens ⟨h.1, h.2.1, h.2.2.2⟩
      simp only [liveGroups, spilled, unclosed?, runAfter, List.cons_append, hslash, ih,
        opensGroup_eq, htag, Bool.and_eq_true, hskip, hskip', if_false]

/-! ## Texts that were escaped -/

theorem closes_slashes (n : Nat) (ps : List CodePoint) :
    closes (List.replicate n backslash ++ ps) = closes ps := by
  rw [closes_append]
  have hfree : isFree (List.replicate n backslash) = true := by
    simp [isFree, backslash, opening, closing]
  rw [hfree, closes_of_isFree hfree]
  rfl

theorem liveGroups_slashes (run n : Nat) (ps : List CodePoint) :
    liveGroups run (List.replicate n backslash ++ ps) = liveGroups (run + n) ps := by
  induction n generalizing run with
  | zero => rfl
  | succ n ih =>
    rw [List.replicate_succ, List.cons_append, liveGroups, if_pos rfl, ih, Nat.add_right_comm,
      Nat.add_assoc]

theorem unclosed?_slashes (run n : Nat) (ps : List CodePoint) :
    unclosed? run (List.replicate n backslash ++ ps) = unclosed? (run + n) ps := by
  induction n generalizing run with
  | zero => rfl
  | succ n ih =>
    rw [List.replicate_succ, List.cons_append, unclosed?, if_pos rfl, ih, Nat.add_right_comm,
      Nat.add_assoc]

/-- Escaping puts in nothing but backslashes, so the brackets stay. -/
theorem closes_escapeGroups (run : Nat) (ps : List CodePoint) :
    closes (escapeGroups run ps) = closes ps := by
  induction ps generalizing run with
  | nil => simpa [escapeGroups, closes] using closes_slashes run []
  | cons p rest ih =>
    by_cases hslash : p = backslash
    · simp [escapeGroups, closes, hslash, ih, backslash, opening, closing]
    · rw [escapeGroups, if_neg hslash]
      split <;> rw [closes_slashes, closes, closes, ih]

theorem isFree_append (front back : List CodePoint) :
    isFree (front ++ back) = (isFree front && isFree back) := List.all_append

theorem isFree_slashes (n : Nat) : isFree (List.replicate n backslash) = true := by
  simp [isFree, backslash, opening, closing]

theorem isFree_escapeGroups (run : Nat) (ps : List CodePoint) :
    isFree (escapeGroups run ps) = isFree ps := by
  induction ps generalizing run with
  | nil => exact isFree_slashes run
  | cons p rest ih =>
    by_cases hslash : p = backslash
    · simp [escapeGroups, isFree_cons, hslash, ih, backslash, opening, closing]
    · rw [escapeGroups, if_neg hslash]
      split <;> rw [isFree_append, isFree_slashes, Bool.true_and, isFree_cons, isFree_cons, ih]

/-- A text with backslashes in front keeps them. -/
theorem startsTag_escapeGroups_succ (run : Nat) (ps : List CodePoint) :
    startsTag (escapeGroups (run + 1) ps) = false := by
  induction ps generalizing run with
  | nil => rfl
  | cons p rest ih =>
    by_cases hslash : p = backslash
    · rw [escapeGroups, if_pos hslash, ih]
    · rw [escapeGroups, if_neg hslash]
      split <;> rfl

theorem startsTag_escapeGroups (ps : List CodePoint) :
    startsTag (escapeGroups 0 ps) = startsTag ps := by
  cases ps with
  | nil => rfl
  | cons p rest =>
    by_cases hslash : p = backslash
    · rw [escapeGroups, if_pos hslash, startsTag_escapeGroups_succ, hslash]
      rfl
    · rw [escapeGroups, if_neg hslash]
      split
      · rename_i hgroup
        simp only [Bool.and_eq_true, decide_eq_true_eq] at hgroup
        rw [hgroup.1]
        rfl
      · rfl

theorem opensGroup_escapeGroups (ps : List CodePoint) :
    opensGroup (escapeGroups 0 ps) = opensGroup ps := by
  rw [opensGroup_eq, opensGroup_eq, startsTag_escapeGroups, closes_escapeGroups]

theorem escapeGroups_of_isFree (h : isFree ps = true) (run : Nat) :
    escapeGroups run ps = List.replicate run backslash ++ ps := by
  induction ps generalizing run with
  | nil => simp [escapeGroups]
  | cons p rest ih =>
    rw [isFree_cons] at h
    simp only [Bool.and_eq_true, decide_eq_true_eq] at h
    by_cases hslash : p = backslash
    · rw [escapeGroups, if_pos hslash, ih h.2, hslash, List.replicate_succ', List.append_assoc]
      rfl
    · simp [escapeGroups, hslash, h.1.1, ih h.2]

/-- Each group gets an odd number of backslashes. -/
theorem liveGroups_escapeGroups (run : Nat) (ps : List CodePoint) :
    liveGroups 0 (escapeGroups run ps) = [] := by
  induction ps generalizing run with
  | nil => exact (liveGroups_of_isFree (isFree_slashes run) 0).1
  | cons p rest ih =>
    by_cases hslash : p = backslash
    · rw [escapeGroups, if_pos hslash, ih]
    · rw [escapeGroups, if_neg hslash]
      split
      · rw [liveGroups_slashes, liveGroups, if_neg hslash, if_neg (by omega), ih]
      · rename_i hgroup
        rw [liveGroups_slashes, liveGroups, if_neg hslash, opensGroup_escapeGroups, ih, if_neg]
        rintro ⟨rfl, hopens, -⟩
        simp [hopens] at hgroup

/-- A group that is not closed is none for the escaping, and stays. -/
theorem unclosed?_escapeGroups (run : Nat) (ps : List CodePoint) :
    unclosed? 0 (escapeGroups run ps) = unclosed? run ps := by
  induction ps generalizing run with
  | nil => exact (liveGroups_of_isFree (isFree_slashes run) 0).2
  | cons p rest ih =>
    by_cases hslash : p = backslash
    · rw [escapeGroups, if_pos hslash, ih, unclosed?, if_pos hslash]
    · rw [escapeGroups, if_neg hslash]
      split
      · rename_i hgroup
        -- a group that is escaped is closed, so it is not the one that is left open
        have hfree : isFree rest = false := by
          rw [opensGroup_eq] at hgroup
          simp only [Bool.and_eq_true] at hgroup
          exact isFree_eq_false_of_closes hgroup.2.2
        rw [unclosed?_slashes, unclosed?, unclosed?, if_neg hslash, if_neg hslash,
          isFree_escapeGroups, hfree, if_neg (by simp), if_neg (by simp), ih]
      · rw [unclosed?_slashes, unclosed?, unclosed?, if_neg hslash, if_neg hslash,
          isFree_escapeGroups, startsTag_escapeGroups, ih, Nat.zero_add]
        split
        · rename_i hlast
          rw [escapeGroups_of_isFree hlast.2.2.1]
          rfl
        · rfl

/-! A backslash at the end of a text changes none of this. -/

theorem liveGroups_closeEnd (run : Nat) (ps : List CodePoint) :
    liveGroups run (closeEnd ps) = liveGroups run ps := by
  unfold closeEnd
  split
  · rw [liveGroups_append rfl]
    simp [spilled, closes, liveGroups, backslash, opening, closing]
  · rfl

theorem closes_closeEnd (ps : List CodePoint) : closes (closeEnd ps) = closes ps := by
  unfold closeEnd
  split
  · have hend : closes [backslash] = false := rfl
    rw [closes_append, hend, Bool.and_false, Bool.or_false]
  · rfl

/-- What a group left open is followed by belongs to it. -/
theorem unclosed?_append (hback : startsTag back = false) (hfree : isFree back = true) (run : Nat)
    (front : List CodePoint) :
    unclosed? run (front ++ back) = (unclosed? run front).map (· ++ back) := by
  induction front generalizing run with
  | nil => exact (liveGroups_of_isFree hfree run).2
  | cons p rest ih =>
    simp only [unclosed?, List.cons_append, startsTag_append hback, isFree_append, hfree, ih,
      Bool.and_true]
    split
    · rfl
    · split <;> rfl

theorem isSome_unclosed?_closeEnd (run : Nat) (ps : List CodePoint) :
    (unclosed? run (closeEnd ps)).isSome = (unclosed? run ps).isSome := by
  unfold closeEnd
  split
  · rw [unclosed?_append rfl rfl, Option.isSome_map]
  · rfl

/-! ## Escaped texts -/

theorem points_escape (t : Loose) : (escape t).points = closeEnd (escapeGroups 0 t.points) :=
  Loose.points_ofPoints _

/-- No group of an escaped text is live. -/
theorem liveGroups_escape (t : Loose) : liveGroups 0 (escape t).points = [] := by
  rw [points_escape, liveGroups_closeEnd, liveGroups_escapeGroups]

/-- A text that ends within a live group still does when it is escaped. -/
theorem isSome_unclosed?_escape (t : Loose) :
    (unclosed? 0 (escape t).points).isSome = (unclosed? 0 t.points).isSome := by
  rw [points_escape, isSome_unclosed?_closeEnd, unclosed?_escapeGroups]

theorem closes_escape (t : Loose) : closes (escape t).points = closes t.points := by
  rw [points_escape, closes_closeEnd, closes_escapeGroups]

/-! Behind an escaped text that does not end with a backslash there is no backslash either. -/

theorem runAfter_concat {p : CodePoint} (hp : p ≠ backslash) (run : Nat) (ps : List CodePoint) :
    runAfter run (ps ++ [p]) = 0 := by
  induction ps generalizing run with
  | nil => simp [runAfter, hp]
  | cons q rest ih =>
    rw [List.cons_append, runAfter]
    split <;> exact ih _

theorem exists_escapeGroups_concat {p : CodePoint} (hp : p ≠ backslash) (run : Nat)
    (ps : List CodePoint) : ∃ front, escapeGroups run (ps ++ [p]) = front ++ [p] := by
  induction ps generalizing run with
  | nil => exact ⟨List.replicate run backslash, by simp [escapeGroups, hp, opensGroup]⟩
  | cons q rest ih =>
    rw [List.cons_append, escapeGroups]
    split
    · exact ih (run + 1)
    · obtain ⟨front, hfront⟩ := ih 0
      rw [hfront]
      split <;> exact ⟨_, (List.append_assoc _ (q :: front) [p]).symm⟩

theorem closeEnd_concat {p : CodePoint} (hp : p ≠ backslash) (ps : List CodePoint) :
    closeEnd (ps ++ [p]) = ps ++ [p] := by
  simp [closeEnd, trailing, hp]

/-- What follows an escaped text is read by itself, if it does not close what the text leaves
open. -/
theorem liveGroups_escape_append {t : Loose} {p : CodePoint} (ht : t.points = ps ++ [p])
    (hp : p ≠ backslash) (hback : startsTag back = false) (hcloses : closes back = false) :
    liveGroups 0 ((escape t).points ++ back) = liveGroups 0 back := by
  have hrun : runAfter 0 (escape t).points = 0 := by
    obtain ⟨front, hfront⟩ := exists_escapeGroups_concat hp 0 ps
    rw [points_escape, ht, hfront, closeEnd_concat hp, runAfter_concat hp]
  rw [liveGroups_append hback, liveGroups_escape, hrun, spilled, hcloses]
  rfl

/-! ## Tags and plain texts -/

/-- No bracket and no backslash. -/
def IsPlain (ps : List CodePoint) : Prop := ∀ p ∈ ps, p ≠ opening ∧ p ≠ closing ∧ p ≠ backslash

instance : Decidable (IsPlain ps) := inferInstanceAs (Decidable (∀ p ∈ ps, _))

theorem IsPlain.append (hfront : IsPlain front) (hback : IsPlain back) : IsPlain (front ++ back) :=
  List.forall_mem_append.2 ⟨hfront, hback⟩

theorem IsPlain.isFree (h : IsPlain ps) : isFree ps = true :=
  List.all_eq_true.2 fun p hp => by simp [h p hp]

theorem closes_plain_append (h : IsPlain front) (back : List CodePoint) :
    closes (front ++ back) = closes back := by
  rw [closes_append, closes_of_isFree h.isFree, h.isFree, Bool.false_or, Bool.true_and]

/-- A plain text holds no group, and nothing behind it is escaped by it. -/
theorem liveGroups_plain_append (h : IsPlain front) (back : List CodePoint) :
    liveGroups 0 (front ++ back) = liveGroups 0 back := by
  induction front with
  | nil => rfl
  | cons p rest ih =>
    have hp := h p List.mem_cons_self
    rw [List.cons_append, liveGroups, if_neg hp.2.2, if_neg fun hopens => hp.1 hopens.1]
    exact ih fun q hq => h q (List.mem_cons_of_mem _ hq)

/-- What may stand between the brackets of a tag. -/
structure IsTagName (name : List CodePoint) : Prop where
  starts : startsTag name = true
  plain : IsPlain name

/-- A tag. -/
def tag (name : List CodePoint) : List CodePoint := opening :: name ++ [closing]

/-- A tag is live. -/
theorem liveGroups_tag_append {name : List CodePoint} (h : IsTagName name)
    (back : List CodePoint) :
    liveGroups 0 (tag name ++ back) = tag name :: liveGroups 0 back := by
  have hthrough : throughClosing (name ++ closing :: back) = name ++ [closing] := by
    rw [throughClosing_append_of_isFree h.plain.isFree, throughClosing, if_pos rfl]
  have hcloses : closes (name ++ closing :: back) = true := by
    rw [closes_plain_append h.plain, closes, if_pos rfl]
  have hstarts : startsTag (name ++ closing :: back) = true := by
    obtain _ | ⟨p, rest⟩ := name
    · exact absurd h.starts (by decide)
    · exact h.starts
  -- the bracket opens a group, which goes up to the first closing one
  have hopens : opensGroup (name ++ closing :: back) = true := by
    rw [opensGroup_eq, hstarts, hcloses]
    rfl
  have hrest : liveGroups 0 (name ++ closing :: back) = liveGroups 0 back :=
    (liveGroups_plain_append h.plain _).trans rfl
  show liveGroups 0 (opening :: (name ++ [closing] ++ back)) = _
  rw [List.append_assoc, List.singleton_append, liveGroups, if_neg (by decide),
    if_pos ⟨rfl, hopens, rfl⟩, hthrough, hrest]
  rfl

end TapeMachine.Markup
