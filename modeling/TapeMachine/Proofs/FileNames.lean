import TapeMachine.Proofs.FileTree
import TapeMachine.Proofs.OctetLines

/-!
# Names in paths

The system tells names by their octets. A path may be spelt in several ways that have the same
octets, and a walk follows the one that `passed` chooses. A slash is told from all other characters
by its octet, so the last name of a path has the octets that stand behind its last slash, however
the path is spelt.

## Main results

- `octetsOfPath_passed`: the spelling has the octets of the path
- `eq_of_octetsOfPath`: octets of ASCII are spelt in one way only
- `Tree.LeadsTo.getLast?`: a file in a directory stands at a place with the octets of its name, so
  files with different names are different files
- `Tree.fileAt?_eq_none_of_long`: a name with too many octets is the name of no file
-/

namespace TapeMachine.Files

open Text (CodePoint Loose octets)

/-! ## Octets of paths -/

/-- The octets of a path or a name. -/
def octetsOfPath (path : Loose) : List UInt8 := path.points.flatMap octetsOf

theorem toList_loop (bytes : ByteArray) (i : Nat) (front : List UInt8) :
    ByteArray.toList.loop bytes i front = front.reverse ++ bytes.data.toList.drop i := by
  -- on the number of octets that are left
  induction h : bytes.size - i generalizing i front with
  | zero =>
    rw [ByteArray.toList.loop, if_neg (by omega), List.drop_eq_nil_of_le, List.append_nil]
    show bytes.data.toList.length ≤ i
    rw [Array.length_toList]
    exact Nat.le_of_sub_eq_zero h
  | succ n ih =>
    have hi : i < bytes.size := by omega
    have hdrop : bytes.data.toList.drop i = bytes.get! i :: bytes.data.toList.drop (i + 1) := by
      rw [List.drop_eq_getElem_cons (by rw [Array.length_toList]; exact hi)]
      congr 1
      rw [Array.getElem_toList]
      exact (getElem!_pos bytes.data i hi).symm
    rw [ByteArray.toList.loop, if_pos hi, ih (i + 1) _ (by omega), hdrop]
    simp

theorem toList_eq (bytes : ByteArray) : bytes.toList = bytes.data.toList := by
  rw [ByteArray.toList, toList_loop, List.reverse_nil, List.nil_append, List.drop_zero]

theorem octetsOf_char (c : Char) : octetsOf (.char c) = String.utf8EncodeChar c := by
  have h := Text.octets_eq_flatMap (String.singleton c)
  rw [octetsOf, toList_eq]
  show octets (String.singleton c) = _
  rw [h]
  simp

theorem octetsOfPath_whole (s : String) : octetsOfPath (.whole s) = octets s := by
  rw [octetsOfPath, Text.octets_eq_flatMap, Loose.points, List.flatMap_map]
  simp only [octetsOf_char]

theorem octetsOfPath_append (front name : Loose) :
    octetsOfPath (front ++ name) = octetsOfPath front ++ octetsOfPath name := by
  rw [octetsOfPath, Loose.points_append, List.flatMap_append]
  rfl

theorem isAscii_of_none {bytes : ByteArray} {i : Nat} (hi : i < bytes.size)
    (h : bytes.utf8DecodeChar? i = none) : 0x80 ≤ bytes[i] := by
  -- an octet below 0x80 is a character by itself, so the decoder would not fail
  have hlow : ∀ n < 0x80, (UInt8.ofNat n &&& 128 == 0) = true := by decide
  refine UInt8.not_lt.1 fun hlt => ?_
  have hdone : ByteArray.utf8DecodeChar?.parseFirstByte bytes[i] = .done := by
    rw [ByteArray.utf8DecodeChar?.parseFirstByte, if_pos]
    have := hlow bytes[i].toNat (UInt8.lt_iff_toNat_lt.1 hlt)
    rwa [UInt8.ofNat_toNat] at this
  unfold ByteArray.utf8DecodeChar? at h
  rw [dif_pos hi] at h
  split at h <;> simp_all [ByteArray.utf8DecodeChar?.assemble₁]

theorem toList_extract (bytes : ByteArray) (i : Nat) :
    (bytes.extract i bytes.size).data.toList = bytes.data.toList.drop i := by
  rw [ByteArray.data_extract, Array.toList_extract, List.extract_eq_take_drop]
  refine List.take_of_length_le ?_
  rw [List.length_drop, Array.length_toList]
  exact Nat.le_refl _

/-- What octets encode has these octets. -/
theorem flatMap_pointsFrom (bytes : ByteArray) (i : Nat) :
    (pointsFrom bytes i).flatMap octetsOf = bytes.data.toList.drop i := by
  induction i using pointsFrom.induct bytes with
  -- a character, an octet that belongs to none, and the end
  | case1 i h c hc ih =>
    have hsplit := congrArg (·.data.toList) (ByteArray.eq_of_utf8DecodeChar?_eq_some
      (ByteArray.utf8DecodeChar?_eq_utf8DecodeChar?_extract.symm.trans hc))
    simp only [ByteArray.toList_data_append, List.toList_data_toByteArray, toList_extract,
      List.drop_drop] at hsplit
    rw [pointsFrom, dif_pos h, hc]
    dsimp only
    rw [List.flatMap_cons, ih, octetsOf_char, hsplit]
  | case2 i h hc ih =>
    have hi : i < bytes.data.toList.length := by rw [Array.length_toList]; exact h
    rw [pointsFrom, dif_pos h, hc]
    dsimp only
    rw [List.flatMap_cons, ih, octetsOf, octet?_halfOf (isAscii_of_none h hc),
      List.drop_eq_getElem_cons hi]
    rfl
  | case3 i h =>
    rw [pointsFrom, dif_neg h, List.drop_eq_nil_of_le]
    · rfl
    · rw [Array.length_toList]
      exact Nat.not_lt.1 h

/-- The spelling that is passed to the system has the octets of the path. -/
theorem octetsOfPath_passed {path spelt : Loose} (h : passed path = .ok spelt) :
    octetsOfPath spelt = octetsOfPath path := by
  unfold passed at h
  split at h
  · contradiction
  · rename_i q hspelling
    split at h
    · contradiction
    · cases h
      cases path with
      | whole s =>
        cases hspelling
        rfl
      | torn front half rest =>
        -- halves that stand for octets are spelt as these
        unfold spelling at hspelling
        dsimp only at hspelling
        split at hspelling
        · contradiction
        · cases hspelling
          rw [octetsOfPath, Loose.points_ofPoints, flatMap_pointsFrom]
          rfl

/-! ## Names in ASCII -/

theorem isSome_of_firstUnencodable {points : List CodePoint} {position : Nat}
    (h : firstUnencodable position points = none) {half : Text.Half}
    (hmem : .half half ∈ points) : (octet? half).isSome := by
  induction points generalizing position with
  | nil => exact absurd hmem List.not_mem_nil
  | cons p rest ih =>
    cases p with
    | char c =>
      rw [firstUnencodable] at h
      refine ih h ((List.mem_cons.1 hmem).resolve_left nofun)
    | half first =>
      rw [firstUnencodable] at h
      split at h
      · rename_i hfirst
        rcases List.mem_cons.1 hmem with heq | hrest
        · cases heq
          exact hfirst
        · exact ih h hrest
      · contradiction

/-- In a path that is passed to the system all halves stand for octets. -/
theorem isSome_octet?_of_passed {path spelt : Loose} (h : passed path = .ok spelt)
    {half : Text.Half} (hmem : .half half ∈ path.points) : (octet? half).isSome := by
  cases path with
  | whole s =>
    obtain ⟨c, -, hc⟩ := List.mem_map.1 hmem
    contradiction
  | torn front first rest =>
    refine @isSome_of_firstUnencodable _ 0 ?_ half hmem
    refine Option.eq_none_iff_forall_ne_some.2 fun e he => ?_
    rw [passed, spelling, he] at h
    contradiction

theorem le_of_octet? {half : Text.Half} {octet : UInt8} (h : octet? half = some octet) :
    0x80 ≤ octet := by
  unfold octet? at h
  split at h
  · rename_i hcode
    rw [← Option.some.inj h, UInt8.le_iff_toNat_le, Nat.toUInt8, UInt8.toNat_ofNat',
      Nat.mod_eq_of_lt (by omega)]
    have hlimit : (0x80 : UInt8).toNat = 0x80 := rfl
    omega
  · contradiction

theorem exists_octetsOf_char (c : Char) : ∃ b bs, octetsOf (.char c) = b :: bs := by
  rw [octetsOf_char]
  refine List.exists_cons_of_ne_nil fun hnil => ?_
  have hsize := String.length_utf8EncodeChar c
  rw [hnil] at hsize
  exact absurd c.utf8Size_pos (Nat.not_lt.2 (Nat.le_of_eq hsize.symm))

/-- A first octet in ASCII is the code of the character, so it tells which one it is. -/
theorem eq_of_head_octetsOf {c d : Char} {b : UInt8} {bs bs' : List UInt8}
    (hc : octetsOf (.char c) = b :: bs) (hd : octetsOf (.char d) = b :: bs') (hlow : b < 0x80) :
    c = d := by
  have hc' : b ∈ String.utf8EncodeChar c := by rw [← octetsOf_char, hc]; exact List.mem_cons_self
  have hd' : b ∈ String.utf8EncodeChar d := by rw [← octetsOf_char, hd]; exact List.mem_cons_self
  rw [← Char.ofNat_toNat c, Text.toNat_of_mem_utf8EncodeChar hc' hlow,
    ← Text.toNat_of_mem_utf8EncodeChar hd' hlow, Char.ofNat_toNat]

/-- Octets of ASCII are spelt in one way only. -/
theorem eq_of_flatMap_octetsOf {points : List CodePoint} {cs : List Char}
    (hhalves : ∀ half, .half half ∈ points → (octet? half).isSome)
    (hascii : ∀ b ∈ points.flatMap octetsOf, b < 0x80)
    (h : points.flatMap octetsOf = cs.flatMap fun c => octetsOf (.char c)) :
    points = cs.map .char := by
  -- on the points: in ASCII a point has one octet, which tells it
  induction points generalizing cs with
  | nil =>
    cases cs with
    | nil => rfl
    | cons c cs =>
      obtain ⟨b, bs, hc⟩ := exists_octetsOf_char c
      rw [List.flatMap_cons, hc] at h
      exact absurd h (List.cons_ne_nil _ _).symm
  | cons p rest ih =>
    rw [List.flatMap_cons] at h hascii
    cases p with
    | half half =>
      obtain ⟨b, hb⟩ := Option.isSome_iff_exists.1 (hhalves half (List.mem_cons_self ..))
      -- a half stands for an octet that is not in ASCII
      have hlow := hascii b (List.mem_append_left _ (by simp [octetsOf, hb]))
      exact absurd hlow (by simpa using le_of_octet? hb)
    | char d =>
      obtain ⟨b, bs, hd⟩ := exists_octetsOf_char d
      cases cs with
      | nil =>
        rw [hd] at h
        contradiction
      | cons c cs =>
        obtain ⟨b', bs', hc⟩ := exists_octetsOf_char c
        obtain rfl : b = b' := by
          rw [List.flatMap_cons, hd, hc] at h
          exact (List.cons.inj h).1
        have hlow := hascii b (List.mem_append_left _ (by simp [hd]))
        obtain rfl := eq_of_head_octetsOf hd hc hlow
        rw [List.map_cons, ih (fun half hmem => hhalves half (List.mem_cons_of_mem _ hmem))
          (fun o ho => hascii o (List.mem_append_right _ ho)) (List.append_cancel_left h)]

theorem eq_of_octetsOfPath {path : Loose} {s : String}
    (hhalves : ∀ half, .half half ∈ path.points → (octet? half).isSome)
    (hascii : ∀ b ∈ octets s, b < 0x80) (h : octetsOfPath path = octets s) : path = s := by
  have hpoints : path.points = s.toList.map .char := by
    refine eq_of_flatMap_octetsOf hhalves (fun b hb => hascii b (h ▸ hb)) ?_
    show octetsOfPath path = _
    rw [h, ← octetsOfPath_whole, octetsOfPath, Loose.points, List.flatMap_map]
  rw [← Loose.ofPoints_points path, hpoints]
  exact Loose.ofPoints_points (.whole s)

/-! ## Last names -/

/-- A list that is cut behind the last of its marks. -/
theorem exists_last_piece {α : Type} [DecidableEq α] (mark : α) (xs : List α) :
    ∃ front last, xs = front ++ last ∧ mark ∉ last ∧ (front = [] ∨ ∃ f, front = f ++ [mark]) := by
  induction xs with
  | nil => exact ⟨[], [], rfl, by simp, .inl rfl⟩
  | cons x xs ih =>
    obtain ⟨front, last, rfl, hlast, hfront⟩ := ih
    rcases hfront with rfl | ⟨f, rfl⟩
    -- no mark behind `x`, so it ends the front or begins the last piece
    · by_cases hx : x = mark
      · exact ⟨[x], last, rfl, hlast, .inr ⟨[], by simp [hx]⟩⟩
      · exact ⟨[], x :: last, rfl, by simp [hlast, Ne.symm hx], .inl rfl⟩
    · exact ⟨x :: (f ++ [mark]), last, rfl, hlast, .inr ⟨x :: f, rfl⟩⟩

/-- What stands behind the last mark is the last piece. -/
theorem getLast?_splitAt {α : Type} [DecidableEq α] {mark : α} {front last : List α}
    (hlast : mark ∉ last) (hfront : front = [] ∨ ∃ f, front = f ++ [mark]) :
    (Text.splitAt mark (front ++ last)).getLast? = some last := by
  rcases hfront with rfl | ⟨f, rfl⟩
  · rw [List.nil_append, Text.splitAt_of_not_mem hlast]
    rfl
  · rw [List.append_assoc, List.singleton_append, Text.splitAt_append_mark,
      Text.splitAt_of_not_mem hlast]
    simp

/-- So there is only one way to cut behind the last mark. -/
theorem last_piece_unique {α : Type} [DecidableEq α] {mark : α} {front front' last last' : List α}
    (h : front ++ last = front' ++ last') (hlast : mark ∉ last) (hlast' : mark ∉ last')
    (hfront : front = [] ∨ ∃ f, front = f ++ [mark])
    (hfront' : front' = [] ∨ ∃ f, front' = f ++ [mark]) : last = last' := by
  have hpiece := getLast?_splitAt hlast hfront
  rw [h, getLast?_splitAt hlast' hfront'] at hpiece
  exact (Option.some.inj hpiece).symm

/-- The octet of a slash. -/
def slashOctet : UInt8 := 0x2F

theorem octetsOf_slash : octetsOf slash = [slashOctet] := by
  rw [slash, octetsOf_char]
  rfl

/-- Only a slash has the octet of one. -/
theorem slashOctet_not_mem {points : List CodePoint} (h : slash ∉ points) :
    slashOctet ∉ points.flatMap octetsOf := by
  intro hmem
  obtain ⟨p, hp, hoctet⟩ := List.mem_flatMap.1 hmem
  cases p with
  | char c =>
    rw [octetsOf_char] at hoctet
    have hc := Text.toNat_of_mem_utf8EncodeChar hoctet (by decide)
    have hslash : CodePoint.char c = slash := by
      rw [slash, ← Char.ofNat_toNat c, hc]
      rfl
    exact h (hslash ▸ hp)
  | half half => exact absurd (le_of_octet? (Option.mem_toList.1 hoctet)) (by decide)

/-- A name behind a directory stands behind a slash, or alone. -/
theorem points_join {directory name : Loose} (hname : slash ∉ name.points) :
    ∃ front, (join directory name).points = front ++ name.points ∧
      (front = [] ∨ ∃ f, front = f ++ [slash]) := by
  have habsolute : isAbsolute name = false := by
    rw [isAbsolute, beq_eq_false_iff_ne]
    exact fun h => hname (List.mem_of_head? h)
  rw [join, habsolute, if_neg Bool.false_ne_true]
  -- behind a slash, or behind nothing, no slash is put
  split
  · rename_i h
    rw [Bool.or_eq_true, decide_eq_true_eq] at h
    refine ⟨directory.points, Loose.points_append directory name, ?_⟩
    rcases h with rfl | h
    · exact .inl rfl
    · rw [endsWithSlash, beq_iff_eq] at h
      obtain ⟨f, hf⟩ := List.getLast?_eq_some_iff.1 h
      exact .inr ⟨f, hf⟩
  · refine ⟨directory.points ++ [slash], ?_, .inr ⟨_, rfl⟩⟩
    rw [Loose.points_append, Loose.points_append]
    rfl

/-- The last name that a walk follows has the octets of the name in the path. -/
theorem exists_components {directory name spelt : Loose} (hname : slash ∉ name.points)
    (hne : octetsOfPath name ≠ []) (h : passed (join directory name) = .ok spelt) :
    ∃ names last, components spelt = names ++ [last] ∧ octetsOfPath last = octetsOfPath name := by
  obtain ⟨front, hjoin, hfront⟩ := @points_join directory name hname
  obtain ⟨lead, last, hsplit, hlast, hlead⟩ := exists_last_piece slash spelt.points
  have hoctets : ∀ {ps : List CodePoint}, (ps = [] ∨ ∃ f, ps = f ++ [slash]) →
      ps.flatMap octetsOf = [] ∨ ∃ f, ps.flatMap octetsOf = f ++ [slashOctet] := by
    rintro ps (rfl | ⟨f, rfl⟩)
    · exact .inl rfl
    · exact .inr ⟨f.flatMap octetsOf, by simp [octetsOf_slash]⟩
  -- spelling and path have the same octets, and slashes keep theirs
  have hsame : last.flatMap octetsOf = octetsOfPath name := by
    have hpassed := octetsOfPath_passed h
    rw [octetsOfPath, octetsOfPath, hsplit, hjoin, List.flatMap_append, List.flatMap_append]
      at hpassed
    exact last_piece_unique hpassed (slashOctet_not_mem hlast) (slashOctet_not_mem hname)
      (hoctets hlead) (hoctets hfront)
  -- an empty piece would be no component
  have hlastNe : last ≠ [] := by
    rintro rfl
    exact hne hsame.symm
  obtain ⟨pieces, hpieces⟩ := List.getLast?_eq_some_iff.1 (getLast?_splitAt hlast hlead)
  refine ⟨(pieces.filter (!·.isEmpty)).map .ofPoints, .ofPoints last, ?_, ?_⟩
  · rw [components, hsplit, hpieces, List.filter_append, List.map_append]
    simp [hlastNe]
  · rw [octetsOfPath, Loose.points_ofPoints, hsame]

namespace Tree

variable {t : Tree} {place : Place}

/-- A walk ends with a step to its last name. -/
theorem exists_next_of_walk {names : List Loose} {name : Loose} {start : Place}
    (h : t.walk start (names ++ [name]) = .ok place) : ∃ above, place = next above name := by
  induction names generalizing start with
  | nil =>
    rw [List.nil_append, walk] at h
    split at h
    · exact ⟨start, (Except.ok.inj h).symm⟩
    all_goals contradiction
  | cons first names ih =>
    rw [List.cons_append, walk] at h
    split at h
    · exact ih h
    all_goals contradiction

/-- The place of a file in a directory ends with the name of the file, as the system spells it. -/
theorem LeadsTo.getLast? {directory name : Loose} (h : LeadsTo t (join directory name) place)
    (hname : slash ∉ name.points) (hlong : 2 < (octetsOfPath name).length) :
    ∃ last, place.getLast? = some last ∧ octetsOfPath last = octetsOfPath name := by
  obtain ⟨spelt, hpassed, hplace⟩ := h.way
  obtain ⟨names, last, hcomponents, hoctets⟩ := exists_components hname
    (List.ne_nil_of_length_pos (Nat.zero_lt_of_lt hlong)) hpassed
  unfold Tree.place follow at hplace
  split at hplace
  · contradiction
  split at hplace
  · contradiction
  rw [hcomponents] at hplace
  obtain ⟨above, rfl⟩ := exists_next_of_walk hplace
  refine ⟨last, ?_, hoctets⟩
  -- a name of more than two octets leads neither nowhere nor up
  have hne : ∀ s : Loose, (octetsOfPath s).length ≤ 2 → last ≠ s := by
    rintro s hs rfl
    rw [hoctets] at hs
    exact absurd hs (Nat.not_le.2 hlong)
  have hdot : last ≠ "." := hne _ (by rw [octetsOfPath_whole]; decide)
  have hdots : last ≠ ".." := hne _ (by rw [octetsOfPath_whole]; decide)
  rw [next, if_neg hdot, if_neg hdots, List.getLast?_concat]

/-- Files in a directory that stand at the same place have the same name for the system. -/
theorem LeadsTo.octetsOfPath_eq {directory name name' : Loose}
    (h : LeadsTo t (join directory name) place) (h' : LeadsTo t (join directory name') place)
    (hname : slash ∉ name.points) (hname' : slash ∉ name'.points)
    (hlong : 2 < (octetsOfPath name).length) (hlong' : 2 < (octetsOfPath name').length) :
    octetsOfPath name = octetsOfPath name' := by
  obtain ⟨last, hlast, hoctets⟩ := h.getLast? hname hlong
  obtain ⟨last', hlast', hoctets'⟩ := h'.getLast? hname' hlong'
  rw [hlast] at hlast'
  rw [← hoctets, ← hoctets', Option.some.inj hlast']

theorem octetCount_eq (name : Loose) : octetCount name = (octetsOfPath name).length := by
  cases name with
  | whole s => rw [octetsOfPath_whole]; rfl
  | torn front half rest => rfl

/-- A name with too many octets is the name of no file. -/
theorem fileAt?_eq_none_of_long {directory name : Loose} (hname : slash ∉ name.points)
    (hlong : nameLimit < (octetsOfPath name).length) (t : Tree) :
    t.fileAt? (join directory name) = none := by
  refine Option.eq_none_iff_forall_ne_some.2 fun place hplace => ?_
  have hleads := fileAt?_eq_some.1 hplace
  obtain ⟨last, hlast, hoctets⟩ := hleads.getLast? hname (by unfold nameLimit at hlong; omega)
  have hlimit := hleads.name
  rw [IsNamed, hlast, Option.getD_some, octetCount_eq, hoctets] at hlimit
  exact absurd hlong (Nat.not_lt.2 hlimit)

end Tree

end TapeMachine.Files
