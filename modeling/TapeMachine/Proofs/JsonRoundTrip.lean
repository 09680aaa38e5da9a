import TapeMachine.Proofs.JsonNumbers
import TapeMachine.Proofs.JsonStrings
import TapeMachine.Text.Line

/-!
# Writing JSON and reading it back

A value is read back from its text, on one line or on several, and whatever comes behind it. The
proof goes along the value: the items of an array are read back if each of them is, and the fields
of an object likewise.

## Main results

- `Storable.readsBack`: a value is read back
- `readWithin_chars`: so it is from a text that holds nothing else
- `Readable.isPlain`: on one line there is no line break, and nothing outside of ASCII
- `Storable.return_not_mem_pretty`: on several lines there is no carriage return
-/

namespace TapeMachine.Json

open Text (CodePoint Half Loose)

variable {rest : List Char}

/-! ## Values -/

/-- Values that can be read back: numbers with a fraction are left out, and in an object every name
stands once. There are bounds on the digits of integers and on how deep arrays and objects are
nested. -/
inductive Readable (digitLimit : Nat) : (depth : Nat) → Json → Prop
  | null {depth : Nat} : Readable digitLimit depth .null
  | bool {depth : Nat} (b : Bool) : Readable digitLimit depth (.bool b)
  | int {depth : Nat} {n : Int} (digits : (Nat.toDigits 10 n.natAbs).length ≤ digitLimit) :
    Readable digitLimit depth (.int n)
  | str {depth : Nat} {s : Loose} (settled : Settled s.points) : Readable digitLimit depth (.str s)
  | arr {depth : Nat} {items : List Json}
    (readable : ∀ item ∈ items, Readable digitLimit depth item) :
    Readable digitLimit (depth + 1) (.arr items)
  | obj {depth : Nat} {fields : Fields} (distinct : (fields.map (·.1)).Nodup)
    (names : ∀ f ∈ fields, Settled f.1.points)
    (readable : ∀ f ∈ fields, Readable digitLimit depth f.2) :
    Readable digitLimit (depth + 1) (.obj fields)

/-- Values that can be written and read back. They may have fractions: what is readable is
storable. -/
inductive Storable (digitLimit : Nat) : (depth : Nat) → Json → Prop
  | null {depth : Nat} : Storable digitLimit depth .null
  | bool {depth : Nat} (b : Bool) : Storable digitLimit depth (.bool b)
  | int {depth : Nat} {n : Int} (digits : (Nat.toDigits 10 n.natAbs).length ≤ digitLimit) :
    Storable digitLimit depth (.int n)
  | real {depth : Nat} {x : Binary64} (canonical : x.IsCanonical) :
    Storable digitLimit depth (.real x)
  | str {depth : Nat} {s : Loose} (settled : Settled s.points) : Storable digitLimit depth (.str s)
  | arr {depth : Nat} {items : List Json}
    (storable : ∀ item ∈ items, Storable digitLimit depth item) :
    Storable digitLimit (depth + 1) (.arr items)
  | obj {depth : Nat} {fields : Fields} (distinct : (fields.map (·.1)).Nodup)
    (names : ∀ f ∈ fields, Settled f.1.points)
    (storable : ∀ f ∈ fields, Storable digitLimit depth f.2) :
    Storable digitLimit (depth + 1) (.obj fields)

variable {digitLimit depth k : Nat} {layout : Layout} {v : Json}

theorem Readable.storable (h : Readable digitLimit depth v) : Storable digitLimit depth v := by
  induction h with
  | null => exact .null
  | bool b => exact .bool b
  | int digits => exact .int digits
  | str settled => exact .str settled
  | arr _ ih => exact .arr ih
  | obj distinct names _ ih => exact .obj distinct names ih

theorem skip_cons {c : Char} (h : isSpace c = false) (cs : List Char) : skip (c :: cs) = c :: cs :=
  List.dropWhile_cons_of_neg (by simp [h])

theorem skip_newline (layout : Layout) (k : Nat) (cs : List Char) :
    skip (layout.newline k ++ cs) = skip cs := by
  cases layout with
  | line => rfl
  | indented =>
    show skip ('\n' :: List.replicate (4 * k) ' ' ++ cs) = skip cs
    rw [List.cons_append, skip, List.dropWhile_cons_of_pos (by decide)]
    exact List.dropWhile_append_of_pos fun c hc => by rw [List.eq_of_mem_replicate hc]; decide

theorem length_separator_pos (layout : Layout) (k : Nat) : 0 < (layout.separator k).length := by
  cases layout <;> exact Nat.succ_pos _

theorem skip_separator (layout : Layout) (k : Nat) (cs : List Char) :
    ∃ cs', layout.separator k ++ cs = ',' :: cs' ∧ skip cs' = skip cs := by
  cases layout with
  | line => exact ⟨_, rfl, rfl⟩
  | indented => exact ⟨_, rfl, skip_newline .indented k cs⟩

/-- What a number starts with starts nothing else. -/
theorem ne_of_startsNumber {c : Char} (h : isDigit c = true ∨ c = '-') :
    isSpace c = false ∧ c ≠ ']' ∧ c ≠ Char.ofNat 0xFEFF := by
  have hne : ∀ d, isDigit d = false → d ≠ '-' → c ≠ d := by
    rintro d hd hminus rfl
    rcases h with hc | hc
    · rw [hd] at hc
      contradiction
    · exact hminus hc
  refine ⟨?_, hne _ (by decide) (by decide), hne _ (by decide) (by decide)⟩
  simp only [isSpace, Bool.or_eq_false_iff, beq_eq_false_iff_ne]
  exact ⟨⟨⟨hne _ (by decide) (by decide), hne _ (by decide) (by decide)⟩,
    hne _ (by decide) (by decide)⟩, hne _ (by decide) (by decide)⟩

theorem exists_realChars_cons {x : Binary64} (hx : x.IsCanonical) :
    ∃ c cs, x.chars realSpelling = c :: cs ∧
      isSpace c = false ∧ c ≠ ']' ∧ c ≠ Char.ofNat 0xFEFF := by
  cases x with
  | nan => exact ⟨_, _, rfl, by decide, by decide, by decide⟩
  | infinite negative =>
    cases negative <;> exact ⟨_, _, rfl, by decide, by decide, by decide⟩
  | finite negative m e =>
    have htext : ∃ d ds, (if m = 0 then "0.0".toList else Binary64.decimalText (Binary64.shortest m e)) =
        d :: ds ∧ isDigit d = true := by
      split
      · exact ⟨_, _, rfl, by decide⟩
      · rename_i hm
        exact exists_decimalText_cons (digits_shortest_pos (Nat.pos_of_ne_zero hm) hx)
    obtain ⟨c, cs, hchars, hc⟩ := exists_signed_cons htext negative
    exact ⟨c, cs, hchars, ne_of_startsNumber hc⟩

/-- No value starts with white space, a closing bracket or a byte order mark. -/
theorem Storable.head (h : Storable digitLimit depth v) (layout : Layout) (k : Nat) :
    ∃ c cs, chars layout k v = c :: cs ∧ isSpace c = false ∧ c ≠ ']' ∧ c ≠ Char.ofNat 0xFEFF := by
  cases h with
  | null => exact ⟨_, _, by rw [chars]; rfl, by decide, by decide, by decide⟩
  | bool b => cases b <;> exact ⟨_, _, by rw [chars]; rfl, by decide, by decide, by decide⟩
  | @int _ n digits =>
    obtain ⟨c, cs, hchars, hc⟩ := exists_signed_cons (toDigits_eq_cons n.natAbs) (decide (n < 0))
    exact ⟨c, cs, by rw [chars, intChars_eq, hchars], ne_of_startsNumber hc⟩
  | @real _ x canonical =>
    obtain ⟨c, cs, hchars, hc⟩ := exists_realChars_cons canonical
    exact ⟨c, cs, by rw [chars, hchars], hc⟩
  | str settled => exact ⟨_, _, by rw [chars]; rfl, by decide, by decide, by decide⟩
  | @arr _ items readable =>
    cases items with
    | nil => exact ⟨_, _, by rw [chars], by decide, by decide, by decide⟩
    | cons item items => exact ⟨_, _, by rw [chars]; rfl, by decide, by decide, by decide⟩
  | @obj _ fields distinct names readable =>
    cases fields with
    | nil => exact ⟨_, _, by rw [chars], by decide, by decide, by decide⟩
    | cons f fields => exact ⟨_, _, by rw [chars]; rfl, by decide, by decide, by decide⟩

/-- A value is read back, whatever comes behind it. -/
def ReadsBack (digitLimit depth : Nat) (layout : Layout) (v : Json) : Prop :=
  ∀ k fuel rest, (chars layout k v).length ≤ fuel → EndsNumber rest →
    readValue digitLimit fuel depth (chars layout k v ++ rest) = .ok (v, rest)

/-- Behind an item no number goes on. -/
theorem endsNumber_cons {c : Char} (h : isDigit c = false ∧ c ≠ '.' ∧ c ≠ 'e' ∧ c ≠ 'E')
    (cs : List Char) : EndsNumber (c :: cs) := by
  rintro d hd
  cases hd
  exact h

theorem endsNumber_newline (layout : Layout) (k : Nat) {c : Char}
    (h : isDigit c = false ∧ c ≠ '.' ∧ c ≠ 'e' ∧ c ≠ 'E') (cs : List Char) :
    EndsNumber (layout.newline k ++ c :: cs) := by
  cases layout with
  | line => exact endsNumber_cons h cs
  | indented => exact endsNumber_cons (by decide) _

/-- The items of an array are read back if each of them is. -/
theorem readItems_itemChars {items : List Json} {item : Json} {j k fuel : Nat} (rest : List Char)
    (hread : ∀ i ∈ item :: items, ReadsBack digitLimit depth layout i)
    (hhead : ∀ i ∈ items, Storable digitLimit depth i)
    (hfuel : (chars layout k item ++ itemChars layout k items).length < fuel) :
    readItems digitLimit fuel depth
      (chars layout k item ++ (itemChars layout k items ++ (layout.newline j ++ ']' :: rest))) =
        .ok (item :: items, rest) := by
  -- on the items behind the first; each takes one unit of fuel and at least one character
  induction items generalizing item fuel with
  | nil =>
    obtain ⟨fuel, rfl⟩ := Nat.exists_eq_add_one_of_ne_zero (Nat.ne_zero_of_lt hfuel)
    have hitem := hread item List.mem_cons_self k fuel
    rw [List.length_append] at hfuel
    rw [itemChars, List.nil_append, readItems,
      hitem _ (by omega) (endsNumber_newline layout j (by decide) rest)]
    dsimp only
    rw [skip_newline, skip_cons (by decide)]
    rfl
  | cons next items ih =>
    obtain ⟨fuel, rfl⟩ := Nat.exists_eq_add_one_of_ne_zero (Nat.ne_zero_of_lt hfuel)
    have hitem := hread item List.mem_cons_self k fuel
    obtain ⟨hnext, hitems⟩ := List.forall_mem_cons.1 hhead
    have hrest := @ih next fuel (fun i hi => hread i (List.mem_cons_of_mem item hi)) hitems
    -- the others, and what comes behind them
    generalize hothers : chars layout k next ++
      (itemChars layout k items ++ (layout.newline j ++ ']' :: rest)) = others at hrest
    have hsplit : itemChars layout k (next :: items) ++ (layout.newline j ++ ']' :: rest) =
        layout.separator k ++ others := by
      rw [← hothers, itemChars]
      simp only [List.append_assoc]
    obtain ⟨c, cs, hchars, hspace, -⟩ := hnext.head layout k
    have hskip : skip others = others := by
      rw [← hothers, hchars]
      exact skip_cons hspace _
    obtain ⟨behind, hcomma, hbehind⟩ := skip_separator layout k others
    have hseparator := length_separator_pos layout k
    rw [itemChars] at hfuel
    simp only [List.length_append] at hfuel
    rw [hsplit, hcomma, readItems, hitem _ (by omega) (endsNumber_cons (by decide) _)]
    dsimp only
    rw [skip_cons (by decide)]
    -- there is a comma
    conv_lhs => whnf
    rw [hbehind, hskip, hrest (by simp only [List.length_append]; omega)]

/-- What is read behind a field: the end of the object, or other fields. -/
def afterField (digitLimit fuel depth : Nat) (f : Loose × Json) : List Char → Result Fields
  | '\x7d' :: rest => .ok ([f], rest)
  | ',' :: rest =>
    match readFields digitLimit fuel depth (skip rest) with
    | .ok (fields, rest) => .ok (f :: fields, rest)
    | .error e => .error e
  | rest => stop .comma rest

/-- Behind the name of a field its value is read, and then what stands behind that. -/
theorem readFields_name {name : Loose} {fuel : Nat} (hname : Settled name.points)
    {value : List Char} (hvalue : skip value = value) :
    readFields digitLimit (fuel + 1) depth (stringChars name ++ ([':', ' '] ++ value)) =
      (readValue digitLimit fuel depth value).bind fun read =>
        afterField digitLimit fuel depth (name, read.1) (skip read.2) := by
  have hsplit : stringChars name ++ ([':', ' '] ++ value) =
      '"' :: (name.points.flatMap escapePoint ++ '"' :: ':' :: ' ' :: value) := by
    simp [stringChars]
  have hskip : skip (' ' :: value) = value := hvalue
  rw [hsplit, readFields, readString_stringChars hname]
  dsimp only
  rw [skip_cons (by decide)]
  -- there is a colon
  conv_lhs => whnf
  rw [hskip]
  cases readValue digitLimit fuel depth value <;> rfl

/-- A field is read, and then what stands behind it. -/
theorem readFields_field {name : Loose} {fuel : Nat} (hname : Settled name.points)
    (hread : ReadsBack digitLimit depth layout v) (hhead : Storable digitLimit depth v)
    (hfuel : (chars layout k v).length ≤ fuel) {behind : List Char} (hbehind : EndsNumber behind) :
    readFields digitLimit (fuel + 1) depth
      (stringChars name ++ ([':', ' '] ++ (chars layout k v ++ behind))) =
        afterField digitLimit fuel depth (name, v) (skip behind) := by
  obtain ⟨c, cs, hchars, hspace, -⟩ := hhead.head layout k
  have hskip : skip (chars layout k v ++ behind) = chars layout k v ++ behind := by
    rw [hchars]
    exact skip_cons hspace _
  rw [readFields_name hname hskip, hread k fuel behind hfuel hbehind]
  rfl

/-- The fields of an object are read back if the value of each of them is. -/
theorem readFields_fieldChars {fields : Fields} {f : Loose × Json} {j k fuel : Nat}
    (rest : List Char) (hread : ∀ g ∈ f :: fields, ReadsBack digitLimit depth layout g.2)
    (hnames : ∀ g ∈ f :: fields, Settled g.1.points)
    (hhead : ∀ g ∈ f :: fields, Storable digitLimit depth g.2)
    (hfuel : (chars layout k f.2 ++ fieldChars layout k fields).length < fuel) :
    readFields digitLimit fuel depth
      (stringChars f.1 ++ ([':', ' '] ++ (chars layout k f.2
        ++ (fieldChars layout k fields ++ (layout.newline j ++ '\x7d' :: rest))))) =
        .ok (f :: fields, rest) := by
  -- as for items, field by field
  induction fields generalizing f fuel with
  | nil =>
    obtain ⟨fuel, rfl⟩ := Nat.exists_eq_add_one_of_ne_zero (Nat.ne_zero_of_lt hfuel)
    rw [List.length_append] at hfuel
    have hfield := readFields_field (k := k) (hnames f List.mem_cons_self)
      (hread f List.mem_cons_self) (hhead f List.mem_cons_self) (by omega : _ ≤ fuel)
      (endsNumber_newline layout j (by decide : isDigit '\x7d' = false ∧ _) rest)
    rw [fieldChars, List.nil_append, hfield, skip_newline, skip_cons (by decide)]
    rfl
  | cons next fields ih =>
    obtain ⟨fuel, rfl⟩ := Nat.exists_eq_add_one_of_ne_zero (Nat.ne_zero_of_lt hfuel)
    obtain ⟨hreadOne, hreadRest⟩ := List.forall_mem_cons.1 hread
    obtain ⟨hnameOne, hnameRest⟩ := List.forall_mem_cons.1 hnames
    obtain ⟨hheadOne, hheadRest⟩ := List.forall_mem_cons.1 hhead
    have hrest := @ih next fuel hreadRest hnameRest hheadRest
    -- the other fields, and what comes behind them
    generalize hothers : stringChars next.1 ++ ([':', ' '] ++ (chars layout k next.2
      ++ (fieldChars layout k fields ++ (layout.newline j ++ '\x7d' :: rest)))) = others at hrest
    have hsplit : fieldChars layout k (next :: fields) ++ (layout.newline j ++ '\x7d' :: rest) =
        layout.separator k ++ others := by
      rw [← hothers, fieldChars]
      simp only [List.append_assoc]
    have hskip : skip others = others := by
      rw [← hothers, stringChars]
      exact skip_cons (by decide) _
    obtain ⟨behind, hcomma, hbehind⟩ := skip_separator layout k others
    have hseparator := length_separator_pos layout k
    rw [fieldChars] at hfuel
    simp only [List.length_append] at hfuel
    rw [hsplit, hcomma, readFields_field hnameOne hreadOne hheadOne (by omega)
      (endsNumber_cons (by decide) _), skip_cons (by decide)]
    rw [afterField, hbehind, hskip, hrest (by simp only [List.length_append]; omega)]

/-- A value takes at least one character. -/
theorem Storable.exists_fuel (h : Storable digitLimit depth v) {fuel : Nat}
    (hfuel : (chars layout k v).length ≤ fuel) : ∃ n, fuel = n + 1 := by
  obtain ⟨c, cs, hchars, -⟩ := h.head layout k
  rw [hchars, List.length_cons] at hfuel
  exact ⟨fuel - 1, by omega⟩

/-- A text is read back. -/
theorem ReadsBack.str {s : Loose} (settled : Settled s.points) :
    ReadsBack digitLimit depth layout (.str s) := by
  intro k fuel rest hfuel _
  obtain ⟨fuel, rfl⟩ := (Storable.str settled : Storable digitLimit 0 _).exists_fuel hfuel
  have hsplit : stringChars s ++ rest = '"' :: (s.points.flatMap escapePoint ++ '"' :: rest) := by
    simp [stringChars]
  rw [chars, hsplit, readValue, readString_stringChars settled]

/-- An array is read back if its items are: no item starts with the bracket that would make the
array an empty one. -/
theorem ReadsBack.arr {items : List Json}
    (hread : ∀ item ∈ items, ReadsBack digitLimit depth layout item)
    (hhead : ∀ item ∈ items, Storable digitLimit depth item) :
    ReadsBack digitLimit (depth + 1) layout (.arr items) := by
  intro k fuel rest hfuel _
  obtain ⟨fuel, rfl⟩ := (Storable.arr hhead).exists_fuel hfuel
  cases items with
  | nil =>
    rw [chars]
    rfl
  | cons item items =>
    obtain ⟨hheadOne, hheadRest⟩ := List.forall_mem_cons.1 hhead
    obtain ⟨c, cs, hchars, hspace, hbracket, -⟩ := hheadOne.head layout (k + 1)
    have hitems := @readItems_itemChars digitLimit depth layout items item k (k + 1) fuel rest hread
      hheadRest
    -- what stands behind the opening bracket, up to the end of the text
    generalize hinside : chars layout (k + 1) item ++ (itemChars layout (k + 1) items ++
      (layout.newline k ++ ']' :: rest)) = inside at hitems
    have hsplit : chars layout k (.arr (item :: items)) ++ rest =
        '[' :: (layout.newline (k + 1) ++ inside) := by
      rw [← hinside, chars]
      simp
    have hskip : skip (layout.newline (k + 1) ++ inside) = inside := by
      rw [skip_newline, ← hinside, hchars]
      exact skip_cons hspace _
    rw [chars] at hfuel
    simp only [List.length_append, List.length_cons] at hfuel
    rw [hsplit, readValue, if_neg (Nat.succ_ne_zero depth), hskip]
    -- the reader looks for a bracket that closes at once
    split
    · rw [hchars] at hinside
      exact absurd (List.cons.inj hinside).1 hbracket
    · rw [Nat.add_sub_cancel, hitems (by simp only [List.length_append]; omega)]

/-- An object is read back if its values are. Its names are read in their order, and as none stands
twice no field takes another's place. -/
theorem ReadsBack.obj {fields : Fields} (distinct : (fields.map (·.1)).Nodup)
    (names : ∀ f ∈ fields, Settled f.1.points)
    (hread : ∀ f ∈ fields, ReadsBack digitLimit depth layout f.2)
    (hhead : ∀ f ∈ fields, Storable digitLimit depth f.2) :
    ReadsBack digitLimit (depth + 1) layout (.obj fields) := by
  intro k fuel rest hfuel _
  obtain ⟨fuel, rfl⟩ := (Storable.obj distinct names hhead).exists_fuel hfuel
  cases fields with
  | nil =>
    rw [chars]
    rfl
  | cons f fields =>
    obtain ⟨name, value⟩ := f
    have hfields := @readFields_fieldChars digitLimit depth layout fields (name, value) k (k + 1)
      fuel rest hread names hhead
    -- what stands behind the opening brace, up to the end of the text
    generalize hinside : stringChars name ++ ([':', ' '] ++ (chars layout (k + 1) value ++
      (fieldChars layout (k + 1) fields ++ (layout.newline k ++ '\x7d' :: rest)))) = inside
      at hfields
    have hsplit : chars layout k (.obj ((name, value) :: fields)) ++ rest =
        '\x7b' :: (layout.newline (k + 1) ++ inside) := by
      rw [← hinside, chars]
      simp
    have hskip : skip (layout.newline (k + 1) ++ inside) = inside := by
      rw [skip_newline, ← hinside, stringChars]
      exact skip_cons (by decide) _
    rw [chars] at hfuel
    simp only [List.length_append, List.length_cons] at hfuel
    rw [hsplit, readValue, if_neg (Nat.succ_ne_zero depth), hskip]
    -- the reader looks for a brace that closes at once
    split
    · rw [stringChars] at hinside
      exact absurd (List.cons.inj hinside).1 (by decide)
    · rw [Nat.add_sub_cancel, hfields (by simp only [List.length_append]; omega)]
      dsimp only
      rw [Fields.merge, Entries.putAll_nil_of_nodup id distinct]

/-- A value is read back, whatever comes behind it. -/
theorem Storable.readsBack (h : Storable digitLimit depth v) (layout : Layout) :
    ReadsBack digitLimit depth layout v := by
  induction h with
  | null =>
    intro k fuel rest hfuel _
    obtain ⟨fuel, rfl⟩ := (null : Storable digitLimit 0 .null).exists_fuel hfuel
    rw [chars]
    rfl
  | bool b =>
    intro k fuel rest hfuel _
    obtain ⟨fuel, rfl⟩ := (bool b : Storable digitLimit 0 _).exists_fuel hfuel
    cases b <;> rw [chars] <;> rfl
  | int digits =>
    intro k fuel rest hfuel hrest
    obtain ⟨fuel, rfl⟩ := (int digits : Storable digitLimit 0 _).exists_fuel hfuel
    rw [chars]
    exact readValue_intChars _ digits hrest
  | real canonical =>
    intro k fuel rest hfuel hrest
    obtain ⟨fuel, rfl⟩ := (real canonical : Storable digitLimit 0 _).exists_fuel hfuel
    rw [chars]
    exact readValue_realChars canonical hrest
  | str settled => exact .str settled
  | arr storable ih => exact .arr ih storable
  | obj distinct names storable ih => exact .obj distinct names ih storable

/-- A value is read back from a text that holds nothing else. -/
theorem readWithin_chars (h : Storable digitLimit depth v) (layout : Layout) (k : Nat) :
    readWithin digitLimit depth (chars layout k v) = .ok v := by
  have hread := h.readsBack layout k (2 * (chars layout k v).length + 2) []
    (by omega) (by simp [EndsNumber])
  rw [List.append_nil] at hread
  obtain ⟨c, cs, hchars, hspace, -, hmark⟩ := h.head layout k
  have hskip : skip (chars layout k v) = chars layout k v := by
    rw [hchars]
    exact skip_cons hspace cs
  have hhead : (chars layout k v).head? ≠ some (Char.ofNat 0xFEFF) := by
    rw [hchars]
    exact fun heq => hmark (Option.some.inj heq)
  rw [readWithin, if_neg hhead, hskip, hread]
  rfl

/-- An object has names that are texts, and no name stands twice. -/
theorem Readable.ofNames {fields : List (String × Json)} (distinct : (fields.map (·.1)).Nodup)
    (readable : ∀ f ∈ fields, Readable digitLimit depth f.2) :
    Readable digitLimit (depth + 1) (.obj (fields.map fun f => (Loose.whole f.1, f.2))) := by
  refine .obj ?_ ?_ ?_
  · rw [List.map_map]
    exact List.pairwise_map.2 ((List.pairwise_map.1 distinct).imp fun hne heq =>
      hne (Loose.whole.inj heq))
  · rw [List.forall_mem_map]
    exact fun f _ => settled_whole f.1
  · rw [List.forall_mem_map]
    exact readable

theorem length_toDigits_le {m n : Nat} (h : m ≤ n) :
    (Nat.toDigits 10 m).length ≤ (Nat.toDigits 10 n).length := by
  have hn := (Nat.length_toDigits_le_iff (by decide) Nat.length_toDigits_pos).1
    (Nat.le_refl (Nat.toDigits 10 n).length)
  exact (Nat.length_toDigits_le_iff (by decide) Nat.length_toDigits_pos).2 (Nat.lt_of_le_of_lt h hn)

/-! ## Lines -/

/-- Is the character one that can be printed in ASCII? -/
def IsPlain (c : Char) : Prop := 0x20 ≤ c.toNat ∧ c.toNat ≤ 0x7E

instance (c : Char) : Decidable (IsPlain c) := inferInstanceAs (Decidable (_ ∧ _))

theorem isPlain_of_all {cs : List Char} (h : (cs.all fun c => decide (IsPlain c)) = true) :
    ∀ c ∈ cs, IsPlain c := fun c hc => of_decide_eq_true (List.all_eq_true.1 h c hc)

theorem isPlain_of_isDigit {c : Char} (h : isDigit c = true) : IsPlain c := by
  simp only [isDigit, Bool.and_eq_true, decide_eq_true_eq] at h
  exact ⟨by omega, by omega⟩

theorem isPlain_unitEscape {c : Char} {n : Nat} (h : c ∈ unitEscape n) : IsPlain c := by
  have hdigit : ∀ m < 16, IsPlain (Text.Hex.digit m) := by unfold IsPlain; decide
  simp only [unitEscape, Text.Hex.digits, List.nil_append, List.cons_append, List.mem_cons,
    List.not_mem_nil, or_false] at h
  rcases h with rfl | rfl | rfl | rfl | rfl | rfl
  · decide
  · decide
  all_goals exact hdigit _ (Nat.mod_lt _ (by decide))

theorem Spelling.isPlain {p : CodePoint} {spelt : List Char} {ps : List Piece}
    (h : Spelling p spelt ps) : ∀ c ∈ spelt, IsPlain c := by
  cases h with
  | @letter letter c h =>
    have hletter : letter ∈ ['"', '\\', '/', 'b', 'f', 'n', 'r', 't'] := by
      unfold unescape? at h
      split at h <;> first | contradiction | simp
    have hall : ∀ l ∈ ['"', '\\', '/', 'b', 'f', 'n', 'r', 't'], IsPlain l :=
      isPlain_of_all (by decide)
    exact List.forall_mem_cons.2 ⟨by decide, by simpa using hall letter hletter⟩
  | plain hquote hslash hlow hhigh => simpa using ⟨hlow, hhigh⟩
  | unit h => exact fun c => isPlain_unitEscape
  | pair hhigh hlow =>
    intro c hc
    rcases List.mem_append.1 hc with hc | hc <;> exact isPlain_unitEscape hc

theorem isPlain_stringChars (s : Loose) : ∀ c ∈ stringChars s, IsPlain c := by
  intro c hc
  simp only [stringChars, List.cons_append, List.mem_cons, List.mem_append, List.mem_flatMap,
    List.not_mem_nil, or_false] at hc
  rcases hc with rfl | ⟨p, -, hc⟩ | rfl
  · decide
  · obtain ⟨ps, hspelling⟩ := exists_spelling p
    exact hspelling.isPlain c hc
  · decide

theorem isPlain_intChars (n : Int) : ∀ c ∈ intChars n, IsPlain c := by
  have hdigits : ∀ c ∈ Nat.toDigits 10 n.natAbs, IsPlain c :=
    fun c hc => isPlain_of_isDigit (isDigit_of_mem_toDigits hc)
  unfold intChars
  split
  · exact List.forall_mem_cons.2 ⟨by decide, hdigits⟩
  · exact hdigits

theorem isPlain_pointed {ds : List Char} (hds : ∀ c ∈ ds, IsPlain c) (point : Int) :
    ∀ c ∈ Binary64.pointed ds point, IsPlain c := by
  have hzeros : ∀ n, ∀ c ∈ List.replicate n '0', IsPlain c :=
    fun n c hc => isPlain_of_isDigit (isDigit_of_mem_zeros hc)
  have hpoint : IsPlain '.' := by decide
  unfold Binary64.pointed
  split
  · exact List.forall_mem_cons.2 ⟨by decide, List.forall_mem_cons.2 ⟨hpoint,
      List.forall_mem_append.2 ⟨hzeros _, hds⟩⟩⟩
  · split
    · rw [List.forall_mem_append, List.forall_mem_append]
      exact ⟨⟨hds, hzeros _⟩, isPlain_of_all (by decide)⟩
    · exact List.forall_mem_append.2 ⟨fun c hc => hds c (List.mem_of_mem_take hc),
        List.forall_mem_cons.2 ⟨hpoint, fun c hc => hds c (List.mem_of_mem_drop hc)⟩⟩

theorem isPlain_exponentText (power : Int) : ∀ c ∈ Binary64.exponentText power, IsPlain c := by
  obtain ⟨ds, htext, hds, -, -⟩ := exists_exponentText power
  rw [htext]
  have hsign : IsPlain (if power < 0 then '-' else '+') := by split <;> decide
  exact List.forall_mem_cons.2 ⟨hsign, fun c hc => isPlain_of_isDigit (hds c hc)⟩

theorem isPlain_decimalText (d : Binary64.Decimal) :
    ∀ c ∈ Binary64.decimalText d, IsPlain c := by
  have hds : ∀ c ∈ Nat.toDigits 10 d.digits, IsPlain c :=
    fun c hc => isPlain_of_isDigit (isDigit_of_mem_toDigits hc)
  unfold Binary64.decimalText
  generalize Nat.toDigits 10 d.digits = ds at hds
  dsimp only
  have hexponent : ∀ power, ∀ c ∈ 'e' :: Binary64.exponentText power, IsPlain c := fun power =>
    List.forall_mem_cons.2 ⟨by decide, isPlain_exponentText power⟩
  split
  · exact isPlain_pointed hds _
  · split
    · nofun
    · exact List.forall_mem_cons.2 ⟨(List.forall_mem_cons.1 hds).1, hexponent _⟩
    · obtain ⟨hfirst, hothers⟩ := List.forall_mem_cons.1 hds
      exact List.forall_mem_append.2 ⟨List.forall_mem_cons.2 ⟨hfirst,
        List.forall_mem_cons.2 ⟨by decide, hothers⟩⟩, hexponent _⟩

theorem isPlain_realChars (x : Binary64) : ∀ c ∈ x.chars realSpelling, IsPlain c := by
  have hsigned : ∀ negative text, (∀ c ∈ text, IsPlain c) →
      ∀ c ∈ Binary64.signed negative text, IsPlain c := by
    intro negative text htext
    cases negative with
    | true => exact List.forall_mem_cons.2 ⟨by decide, htext⟩
    | false => exact htext
  cases x with
  | nan => exact isPlain_of_all (by decide)
  | infinite negative => exact hsigned negative _ (isPlain_of_all (by decide))
  | finite negative m e =>
    apply hsigned
    split
    · exact isPlain_of_all (by decide)
    · exact isPlain_decimalText _

/-- What may stand in a text: characters that can be printed, and on several lines the line feed. -/
def IsPlainIn (layout : Layout) (c : Char) : Prop := IsPlain c ∨ layout = .indented ∧ c = '\n'

theorem isPlainIn_of_all {cs : List Char} (layout : Layout)
    (h : (cs.all fun c => decide (IsPlain c)) = true) : ∀ c ∈ cs, IsPlainIn layout c :=
  fun c hc => .inl (isPlain_of_all h c hc)

theorem isPlainIn_newline (layout : Layout) (k : Nat) :
    ∀ c ∈ layout.newline k, IsPlainIn layout c := by
  cases layout with
  | line => nofun
  | indented =>
    refine List.forall_mem_cons.2 ⟨.inr ⟨rfl, rfl⟩, fun c hc => .inl ?_⟩
    rw [List.eq_of_mem_replicate hc]
    decide

theorem isPlainIn_separator (layout : Layout) (k : Nat) :
    ∀ c ∈ layout.separator k, IsPlainIn layout c := by
  cases layout with
  | line =>
    rw [Layout.separator]
    exact isPlainIn_of_all .line (by decide)
  | indented => exact List.forall_mem_cons.2 ⟨.inl (by decide), isPlainIn_newline .indented k⟩

theorem isPlainIn_itemChars {items : List Json}
    (h : ∀ item ∈ items, ∀ k, ∀ c ∈ chars layout k item, IsPlainIn layout c) (k : Nat) :
    ∀ c ∈ itemChars layout k items, IsPlainIn layout c := by
  induction items with
  | nil => simp [itemChars]
  | cons item items ih =>
    obtain ⟨hitem, hitems⟩ := List.forall_mem_cons.1 h
    rw [itemChars, List.forall_mem_append, List.forall_mem_append]
    exact ⟨⟨isPlainIn_separator layout k, hitem k⟩, ih hitems⟩

theorem isPlainIn_fieldChars {fields : Fields}
    (h : ∀ f ∈ fields, ∀ k, ∀ c ∈ chars layout k f.2, IsPlainIn layout c) (k : Nat) :
    ∀ c ∈ fieldChars layout k fields, IsPlainIn layout c := by
  induction fields with
  | nil => simp [fieldChars]
  | cons f fields ih =>
    obtain ⟨hfield, hfields⟩ := List.forall_mem_cons.1 h
    rw [fieldChars]
    simp only [List.forall_mem_append]
    exact ⟨⟨⟨⟨isPlainIn_separator layout k, fun c hc => .inl (isPlain_stringChars f.1 c hc)⟩,
      isPlainIn_of_all layout (by decide)⟩, hfield k⟩, ih hfields⟩

/-- A value is made of characters that can be printed, and of line feeds if it is on several
lines. -/
theorem Storable.isPlainIn (h : Storable digitLimit depth v) (layout : Layout) (k : Nat) :
    ∀ c ∈ chars layout k v, IsPlainIn layout c := by
  induction h generalizing k with
  | null => rw [chars]; exact isPlainIn_of_all layout (by decide)
  | bool b => cases b <;> rw [chars] <;> exact isPlainIn_of_all layout (by decide)
  | int digits => rw [chars]; exact fun c hc => .inl (isPlain_intChars _ c hc)
  | real canonical => rw [chars]; exact fun c hc => .inl (isPlain_realChars _ c hc)
  | str settled => rw [chars]; exact fun c hc => .inl (isPlain_stringChars _ c hc)
  | @arr _ items storable ih =>
    cases items with
    | nil => rw [chars]; exact isPlainIn_of_all layout (by decide)
    | cons item items =>
      obtain ⟨hitem, hitems⟩ := List.forall_mem_cons.1 ih
      rw [chars]
      simp only [List.cons_append]
      refine List.forall_mem_cons.2 ⟨.inl (by decide), ?_⟩
      simp only [List.forall_mem_append]
      exact ⟨⟨⟨⟨isPlainIn_newline layout _, hitem _⟩, isPlainIn_itemChars hitems _⟩,
        isPlainIn_newline layout _⟩, isPlainIn_of_all layout (by decide)⟩
  | @obj _ fields distinct names storable ih =>
    cases fields with
    | nil => rw [chars]; exact isPlainIn_of_all layout (by decide)
    | cons f fields =>
      obtain ⟨hfield, hfields⟩ := List.forall_mem_cons.1 ih
      rw [chars]
      simp only [List.cons_append]
      refine List.forall_mem_cons.2 ⟨.inl (by decide), ?_⟩
      simp only [List.forall_mem_append]
      exact ⟨⟨⟨⟨⟨⟨isPlainIn_newline layout _, fun c hc => .inl (isPlain_stringChars f.1 c hc)⟩,
        isPlainIn_of_all layout (by decide)⟩, hfield _⟩, isPlainIn_fieldChars hfields _⟩,
        isPlainIn_newline layout _⟩, isPlainIn_of_all layout (by decide)⟩

/-- On one line a value is made of characters that can be printed. -/
theorem Readable.isPlain (h : Readable digitLimit depth v) (k : Nat) :
    ∀ c ∈ chars .line k v, IsPlain c := by
  intro c hc
  rcases h.storable.isPlainIn .line k c hc with hplain | ⟨hlayout, -⟩
  · exact hplain
  · contradiction

/-- There is no carriage return in a text on several lines. -/
theorem Storable.return_not_mem_pretty (h : Storable digitLimit depth v) :
    '\r' ∉ v.pretty.toList := by
  rw [pretty, String.toList_ofList]
  intro hmem
  rcases h.isPlainIn .indented 0 _ hmem with hplain | ⟨-, hfeed⟩
  · exact absurd hplain (by decide)
  · exact absurd hfeed (by decide)

/-- A value on one line is read back. -/
theorem readWithin_compact (h : Readable digitLimit depth v) :
    readWithin digitLimit depth v.compact.toList = .ok v := by
  rw [compact, String.toList_ofList, readWithin_chars h.storable]

/-- There is no line break in it. -/
theorem Readable.isLineBreak_eq_false (h : Readable digitLimit depth v) :
    ∀ c ∈ v.compact.toList, Text.isLineBreak c = false := by
  intro c hc
  rw [compact, String.toList_ofList] at hc
  obtain ⟨hlow, hhigh⟩ := h.isPlain 0 c hc
  simp only [Text.isLineBreak, Bool.or_eq_false_iff, Bool.and_eq_false_iff, decide_eq_false_iff_not,
    beq_eq_false_iff_ne]
  omega

end TapeMachine.Json
