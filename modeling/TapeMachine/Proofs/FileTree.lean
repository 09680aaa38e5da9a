import TapeMachine.Files.Text

/-!
# What operations do to a file tree

A path is opened for writing if the way to it exists and no directory stands in its place;
`Tree.LeadsTo` says so without the order in which this is found out. It depends on the directories
of the tree only, so that writing to files does not change where any path leads.

## Main results

- `Tree.openToWrite_eq_ok`: what is opened is the place that the path leads to
- `Tree.append_of_leadsTo`, `Tree.LeadsTo.find?_appendAt`: bytes go behind those of the file, and
  all else stays
- `Tree.write_of_leadsTo`, `Tree.LeadsTo.find?_put`, `Tree.LeadsTo.readBytes`: bytes take the place
  of those of the file, and are read there again
- `Tree.extends_ensureDirectories`: when directories are made, nothing else is changed, whether that
  succeeds or not
- `Tree.isMet_of_ensureDirectoriesWithin`, `Tree.isMet_of_write`: how making directories and writing
  can fail
-/

namespace TapeMachine.Files

open Text (CodePoint Loose)

/-- The bytes of a file; none if there is no file. -/
def bytesOf : Option Entry → ByteArray
  | some (.file bytes) => bytes
  | _ => .empty

namespace Tree

variable {t u : Tree} {place other : Place} {path spelt : Loose} {bytes : ByteArray}

/-! ## Where a path leads -/

/-- The same places are directories. -/
def SameDirectories (t u : Tree) : Prop :=
  ∀ place, t.find? place = some .directory ↔ u.find? place = some .directory

theorem SameDirectories.refl (t : Tree) : SameDirectories t t := fun _ => Iff.rfl

theorem SameDirectories.symm (h : SameDirectories t u) : SameDirectories u t :=
  fun place => (h place).symm

theorem SameDirectories.trans {v : Tree} (htu : SameDirectories t u) (huv : SameDirectories u v) :
    SameDirectories t v := fun place => (htu place).trans (huv place)

/-- May the name that a place ends with be looked up? -/
def IsNamed (place : Place) : Prop := octetCount (place.getLast?.getD "") ≤ nameLimit

theorem lookUp_eq_ok {entry : Option Entry} :
    t.lookUp place = .ok entry ↔ IsNamed place ∧ t.find? place = entry := by
  unfold lookUp
  split
  · rename_i hname
    simp [IsNamed, hname]
  · rename_i hname
    simp [IsNamed, hname]

theorem walk_of_same (h : SameDirectories t u) {names : List Loose} {start : Place}
    (hwalk : t.walk start names = .ok place) : u.walk start names = .ok place := by
  -- on the names that are left: all places on the way are directories
  induction names generalizing start with
  | nil => exact hwalk
  | cons name rest ih =>
    rw [walk] at hwalk
    split at hwalk
    · rename_i hlook
      obtain ⟨hname, hdirectory⟩ := lookUp_eq_ok.1 hlook
      rw [walk, lookUp_eq_ok.2 ⟨hname, (h start).1 hdirectory⟩]
      exact ih hwalk
    all_goals contradiction

theorem place_of_same (h : SameDirectories t u) (hplace : t.place path = .ok place) :
    u.place path = .ok place := by
  unfold Tree.place follow at hplace ⊢
  split
  · rename_i hempty
    rw [if_pos hempty] at hplace
    contradiction
  · rename_i hempty
    rw [if_neg hempty] at hplace
    split
    · rename_i hlong
      rw [if_pos hlong] at hplace
      contradiction
    · rename_i hlong
      rw [if_neg hlong] at hplace
      exact walk_of_same h hplace

/-- A path that can be written to, and the place of its file: the way there exists, and no directory
stands in its place. -/
structure LeadsTo (t : Tree) (path : Loose) (place : Place) : Prop where
  way : ∃ spelt, passed path = .ok spelt ∧ t.place spelt = .ok place
  asksForFile : endsWithSlash path = false
  name : IsNamed place
  free : t.find? place ≠ some .directory

theorem LeadsTo.of_same (h : LeadsTo t path place) (hsame : SameDirectories t u) :
    LeadsTo u path place := by
  obtain ⟨spelt, hpassed, hplace⟩ := h.way
  exact ⟨⟨spelt, hpassed, place_of_same hsame hplace⟩, h.asksForFile, h.name,
    fun hfind => h.free ((hsame place).2 hfind)⟩

theorem openToWrite_of_passed (h : passed path = .ok spelt) :
    t.openToWrite path = match t.place spelt with
      | .error cause => .error (.refused cause path)
      | .ok place =>
        if endsWithSlash path then .error (.refused .isDirectory path)
        else match t.lookUp place with
          | .ok (some .directory) => .error (.refused .isDirectory path)
          | .ok (some (.file bytes)) => .ok (place, some bytes)
          | .ok none => .ok (place, none)
          | .error cause => .error (.refused cause path) := by
  unfold openToWrite
  rw [h]
  rfl

/-- What is opened is the place that the path leads to, with the bytes of the file there. -/
theorem openToWrite_eq_ok {held : Option ByteArray} :
    t.openToWrite path = .ok (place, held) ↔
      LeadsTo t path place ∧ t.find? place = held.map .file := by
  constructor
  · intro h
    cases hpassed : passed path with
    | error e =>
      unfold openToWrite at h
      rw [hpassed] at h
      contradiction
    | ok spelt =>
      rw [openToWrite_of_passed hpassed] at h
      split at h
      · contradiction
      · rename_i found hplace
        split at h
        · contradiction
        · rename_i hslash
          have hslash := Bool.eq_false_iff.2 hslash
          -- what is left is a file, or a place where nothing stands
          split at h
          · contradiction
          · rename_i bytes hlook
            obtain ⟨hname, hfind⟩ := lookUp_eq_ok.1 hlook
            obtain ⟨rfl, rfl⟩ := Prod.mk.inj (Except.ok.inj h)
            exact ⟨⟨⟨spelt, hpassed, hplace⟩, hslash, hname, by simp [hfind]⟩, hfind⟩
          · rename_i hlook
            obtain ⟨hname, hfind⟩ := lookUp_eq_ok.1 hlook
            obtain ⟨rfl, rfl⟩ := Prod.mk.inj (Except.ok.inj h)
            exact ⟨⟨⟨spelt, hpassed, hplace⟩, hslash, hname, by simp [hfind]⟩, hfind⟩
          · contradiction
  · rintro ⟨⟨⟨spelt, hpassed, hplace⟩, hslash, hname, hfree⟩, hfind⟩
    rw [openToWrite_of_passed hpassed, hplace]
    dsimp only
    rw [if_neg (by simp [hslash]), lookUp_eq_ok.2 ⟨hname, rfl⟩, hfind]
    cases held <;> rfl

/-- The place of the file that a path opens for writing, if it can be opened. -/
def fileAt? (t : Tree) (path : Loose) : Option Place :=
  match t.openToWrite path with
  | .ok (place, _) => some place
  | .error _ => none

theorem fileAt?_eq_some : t.fileAt? path = some place ↔ LeadsTo t path place := by
  unfold fileAt?
  constructor
  · intro h
    split at h
    · rename_i found held hopen
      cases h
      exact (openToWrite_eq_ok.1 hopen).1
    · contradiction
  · intro h
    -- at the end of the way stands a file, or nothing
    have hheld : ∃ held : Option ByteArray, t.find? place = held.map .file := by
      cases hfind : t.find? place with
      | none => exact ⟨none, rfl⟩
      | some entry =>
        cases entry with
        | file bytes => exact ⟨some bytes, rfl⟩
        | directory => exact absurd hfind h.free
    obtain ⟨held, hfind⟩ := hheld
    rw [openToWrite_eq_ok.2 ⟨h, hfind⟩]

/-- Where a path leads depends on the directories only. -/
theorem fileAt?_of_same (h : SameDirectories t u) (path : Loose) :
    t.fileAt? path = u.fileAt? path := by
  refine Option.ext fun place => ?_
  rw [fileAt?_eq_some, fileAt?_eq_some]
  exact ⟨fun hleads => hleads.of_same h, fun hleads => hleads.of_same h.symm⟩

/-! ## Writing to a file -/

theorem LeadsTo.exists_openToWrite (h : LeadsTo t path place) :
    ∃ held, t.openToWrite path = .ok (place, held) := by
  have hfile := fileAt?_eq_some.2 h
  unfold fileAt? at hfile
  split at hfile
  · rename_i found held hopen
    cases hfile
    exact ⟨held, hopen⟩
  · contradiction

theorem LeadsTo.isOutside_eq_false (h : LeadsTo t path place) : isOutside place = false :=
  Bool.eq_false_iff.2 fun hout => h.free (if_pos hout)

/-- What stands at a place when a file has been written. -/
theorem LeadsTo.find?_put (h : LeadsTo t path place) (bytes : ByteArray) (other : Place) :
    (t.put place (.file bytes)).find? other =
      if other = place then some (.file bytes) else t.find? other := by
  rw [Tree.find?_put]
  by_cases hother : other = place
  · rw [hother, h.isOutside_eq_false, if_neg Bool.false_ne_true]
  -- places outside the tree stay what they are
  · simp only [if_neg hother]
    split
    · rename_i hout
      rw [find?, if_pos hout]
    · rfl

theorem LeadsTo.sameDirectories_put (h : LeadsTo t path place) (bytes : ByteArray) :
    SameDirectories t (t.put place (.file bytes)) := by
  intro other
  rw [h.find?_put]
  split
  · rename_i hother
    rw [hother]
    exact ⟨fun hfind => absurd hfind h.free, nofun⟩
  · rfl

/-- The bytes of the file at a place; none if there is no file. -/
def bytesAt (t : Tree) (place : Place) : ByteArray := bytesOf (t.find? place)

/-- The tree with bytes behind those of the file at a place. -/
def appendAt (t : Tree) (place : Place) (bytes : ByteArray) : Tree :=
  t.put place (.file (t.bytesAt place ++ bytes))

/-- What stands at a place when bytes have been put at the end of a file. -/
theorem LeadsTo.find?_appendAt (h : LeadsTo t path place) (bytes : ByteArray) (other : Place) :
    (t.appendAt place bytes).find? other =
      if other = place then some (.file (t.bytesAt place ++ bytes)) else t.find? other :=
  h.find?_put _ other

theorem LeadsTo.sameDirectories (h : LeadsTo t path place) (bytes : ByteArray) :
    SameDirectories t (t.appendAt place bytes) :=
  h.sameDirectories_put _

/-- The bytes go behind those that the file has, and nothing else is changed. -/
theorem append_of_leadsTo (h : LeadsTo t path place) (bytes : ByteArray) :
    t.append path bytes = .ok (t.appendAt place bytes) := by
  obtain ⟨held, hopen⟩ := h.exists_openToWrite
  have hbytes : held.getD .empty = t.bytesAt place := by
    rw [bytesAt, (openToWrite_eq_ok.1 hopen).2]
    cases held <;> rfl
  rw [append, hopen, appendAt, ← hbytes]

theorem append_of_none (h : t.fileAt? path = none) (bytes : ByteArray) :
    ∃ e, t.append path bytes = .error e := by
  unfold fileAt? at h
  unfold append
  cases hopen : t.openToWrite path with
  | ok opened =>
    rw [hopen] at h
    contradiction
  | error e => exact ⟨e, rfl⟩

/-- The bytes take the place of those that the file has, and nothing else is changed. -/
theorem write_of_leadsTo (h : LeadsTo t path place) (bytes : ByteArray) :
    t.write path bytes = .ok (t.put place (.file bytes)) := by
  obtain ⟨held, hopen⟩ := h.exists_openToWrite
  rw [write, hopen]

/-- What is written is written to the place that the path leads to. -/
theorem leadsTo_of_write (h : t.write path bytes = .ok u) : ∃ place, LeadsTo t path place := by
  unfold write at h
  split at h
  · rename_i place held hopen
    exact ⟨place, (openToWrite_eq_ok.1 hopen).1⟩
  · contradiction

/-! ## Reading a file -/

/-- A file that can be read is there. -/
theorem present?_of_readText {text : String} (h : t.readText path = .ok text) :
    t.present? path = .ok true := by
  unfold readText readBytes at h
  unfold present?
  cases hpassed : passed path with
  | error e =>
    rw [hpassed] at h
    contradiction
  | ok spelt =>
    rw [hpassed] at h
    cases hlook : t.look spelt with
    | ok entry =>
      dsimp only
      rw [hlook]
    | error cause =>
      simp only [hlook, bind, Except.bind] at h
      contradiction

/-- A text without carriage returns is read as it was written. -/
theorem readText_of_readBytes {text : String} (h : t.readBytes path = .ok text.toUTF8)
    (hreturn : '\r' ∉ text.toList) : t.readText path = .ok text := by
  rw [readText, h]
  show (textOf text.toUTF8).mapError TextError.encoding = _
  rw [textOf, Text.Utf8.decode_toUTF8]
  show (Except.ok (String.ofList (Text.plainBreaks text.toList))).mapError TextError.encoding = _
  rw [Text.plainBreaks_of_not_mem hreturn, String.ofList_toList]
  rfl

section Whole

variable {s : String}

/-- At the place of a file its path leads to it. -/
theorem LeadsTo.look (h : LeadsTo t (.whole s) place) (hfind : t.find? place = some (.file bytes)) :
    passed (.whole s) = .ok (.whole s) ∧ t.look (.whole s) = .ok (.file bytes) := by
  obtain ⟨spelt, hpassed, hplace⟩ := h.way
  have hspelt : spelt = .whole s := by
    rw [passed_whole] at hpassed
    split at hpassed
    · contradiction
    · exact (Except.ok.inj hpassed).symm
  subst hspelt
  have hslash := h.asksForFile
  refine ⟨hpassed, ?_⟩
  unfold Tree.place at hplace
  unfold Tree.look
  simp only [hslash, Bool.false_eq_true, if_false, hplace, bind, Except.bind,
    lookUp_eq_ok.2 ⟨h.name, hfind⟩]
  rfl

theorem LeadsTo.exists? (h : LeadsTo t (.whole s) place)
    (hfind : t.find? place = some (.file bytes)) : t.exists? (.whole s) = true := by
  obtain ⟨hpassed, hlook⟩ := h.look hfind
  simp only [Tree.exists?, hpassed, hlook]

theorem LeadsTo.readBytes (h : LeadsTo t (.whole s) place)
    (hfind : t.find? place = some (.file bytes)) : t.readBytes (.whole s) = .ok bytes := by
  obtain ⟨hpassed, hlook⟩ := h.look hfind
  simp only [Tree.readBytes, hpassed, bind, Except.bind, hlook]

end Whole

/-! ## Making directories -/

/-- All that a tree has stays, and only directories are new. -/
structure Extends (t u : Tree) : Prop where
  kept : ∀ {place entry}, t.find? place = some entry → u.find? place = some entry
  files : ∀ {place bytes}, u.find? place = some (.file bytes) → t.find? place = some (.file bytes)

theorem Extends.refl (t : Tree) : Extends t t := ⟨id, id⟩

theorem Extends.trans {v : Tree} (htu : Extends t u) (huv : Extends u v) : Extends t v :=
  ⟨fun h => huv.kept (htu.kept h), fun h => htu.files (huv.files h)⟩

/-- Directories that are made do not change what a file holds. -/
theorem Extends.bytesAt_eq (h : Extends t u) (place : Place) : u.bytesAt place = t.bytesAt place := by
  unfold bytesAt
  cases hold : t.find? place with
  | some entry => rw [h.kept hold]
  | none =>
    cases hnew : u.find? place with
    | none => rfl
    | some entry =>
      cases entry with
      | file bytes =>
        rw [h.files hnew] at hold
        contradiction
      | directory => rfl

theorem extends_put (h : t.find? place = none) : Extends t (t.put place .directory) := by
  constructor
  · intro other entry hfind
    rw [find?_put]
    split
    · rw [← hfind, find?, if_pos (by assumption)]
    · split
      · rename_i hother
        rw [hother, h] at hfind
        contradiction
      · exact hfind
  · intro other bytes hfind
    rw [find?_put] at hfind
    split at hfind
    · cases hfind
    · split at hfind
      · cases hfind
      · exact hfind

theorem extends_makeDirectory (h : t.makeDirectory path = .ok u) : Extends t u := by
  unfold makeDirectory at h
  cases hpassed : passed path with
  | error e => rw [hpassed] at h; contradiction
  | ok spelt =>
    simp only [hpassed, bind, Except.bind] at h
    split at h
    · contradiction
    · split at h
      · contradiction
      · rename_i hlook
        cases h
        exact extends_put (lookUp_eq_ok.1 hlook).2
      · contradiction

theorem extends_ensureDirectory (h : t.ensureDirectory path = .ok u) : Extends t u := by
  unfold ensureDirectory at h
  split at h
  · rename_i hmake
    cases h
    exact extends_makeDirectory hmake
  · split at h
    · cases h
      exact .refl t
    · contradiction
  · contradiction

theorem extends_ensureDirectoriesWithin (depth : Nat) (t : Tree) (path : Loose) :
    Extends t (ensureDirectoriesWithin depth t path).1 := by
  -- on the depth: what stands above is made first, with one less
  induction depth generalizing t path with
  | zero => exact .refl t
  | succ depth ih =>
    unfold ensureDirectoriesWithin
    generalize habove : (if (splitLast path).1 ≠ "" && (splitLast path).2 ≠ ""
      && !t.exists? (splitLast path).1 then ensureDirectoriesWithin depth t (splitLast path).1
      else (t, none)) = above
    have hextends : Extends t above.1 := by
      rw [← habove]
      split
      · exact ih t _
      · exact .refl t
    -- what is made above stays, whether the directory itself is made or not
    have hlast : ∀ {tree u}, Extends t tree → tree.ensureDirectory path = .ok u → Extends t u :=
      fun htree hmake => htree.trans (extends_ensureDirectory hmake)
    dsimp only
    rw [habove]
    split
    · split
      · exact hextends
      · split
        · exact hlast hextends (by assumption)
        · exact hextends
    · split
      · exact hextends
      · split
        · exact hlast hextends (by assumption)
        · exact hextends
    · exact hextends

/-- Whatever comes of it, no file is touched when directories are made. -/
theorem extends_ensureDirectories (t : Tree) (path : Loose) :
    Extends t (t.ensureDirectories path).1 :=
  extends_ensureDirectoriesWithin depthLimit t path

/-! ## Failures -/

/-- A failure that the system met on its way, and not one of the spelling of a path. -/
def IsMet : FileError → Prop
  | .refused _ _ | .tooDeep => True
  | _ => False

/-- A path of characters without the one that no path may hold. -/
def IsPlainPath (path : Loose) : Prop :=
  ∀ p ∈ path.points, ∃ c : Char, p = .char c ∧ c ≠ Char.ofNat 0

theorem isPlainPath_whole {s : String} (h : hasNul (.whole s) = false) :
    IsPlainPath (.whole s) := by
  intro p hp
  obtain ⟨c, -, rfl⟩ := List.mem_map.1 hp
  refine ⟨c, rfl, ?_⟩
  rintro rfl
  have hcontains : (Loose.whole s).points.contains (.char (Char.ofNat 0)) = true :=
    List.contains_iff_mem.2 hp
  rw [hasNul, hcontains] at h
  contradiction

theorem IsPlainPath.passed (h : IsPlainPath path) : passed path = .ok path := by
  cases path with
  | whole s =>
    rw [passed_whole, if_neg]
    intro hnul
    obtain ⟨c, hc, hne⟩ := h _ (List.contains_iff_mem.1 hnul)
    exact hne (CodePoint.char.inj hc).symm
  | torn front half rest =>
    obtain ⟨c, hc, -⟩ := h (.half half) (by simp [Loose.points])
    contradiction

theorem IsPlainPath.of_subset {ps : List CodePoint} (h : IsPlainPath path)
    (hps : ps ⊆ path.points) : IsPlainPath (.ofPoints ps) := by
  intro p hp
  rw [Loose.points_ofPoints] at hp
  exact h p (hps hp)

theorem dropSlashes_subset (ps : List CodePoint) : dropSlashes ps ⊆ ps := by
  unfold dropSlashes
  split
  · exact List.Subset.refl ps
  · intro p hp
    exact List.mem_reverse.1 ((List.dropWhile_sublist _).mem (List.mem_reverse.1 hp))

theorem IsPlainPath.split (h : IsPlainPath path) :
    IsPlainPath (split path).1 ∧ IsPlainPath (split path).2 := by
  constructor
  · apply h.of_subset
    refine List.Subset.trans (dropSlashes_subset _) fun p hp => ?_
    exact List.mem_reverse.1 ((List.dropWhile_sublist _).mem (List.mem_reverse.1 hp))
  · apply h.of_subset
    intro p hp
    exact List.mem_reverse.1 ((List.takeWhile_sublist _).mem (List.mem_reverse.1 hp))

theorem IsPlainPath.splitLast (h : IsPlainPath path) : IsPlainPath (splitLast path).1 := by
  unfold Tree.splitLast
  dsimp only
  split
  · exact h.split.1.split.1
  · exact h.split.1

variable {e : FileError}

theorem isMet_of_makeDirectory (hpath : IsPlainPath path) (h : t.makeDirectory path = .error e) :
    IsMet e := by
  unfold makeDirectory at h
  simp only [hpath.passed, bind, Except.bind] at h
  split at h
  · cases h
    trivial
  · split at h
    · cases h
      trivial
    · contradiction
    · cases h
      trivial

theorem isMet_of_ensureDirectory (hpath : IsPlainPath path)
    (h : t.ensureDirectory path = .error e) : IsMet e := by
  unfold ensureDirectory at h
  split at h
  · contradiction
  · split at h
    · contradiction
    · cases h
      trivial
  · rename_i e' _ hmake
    cases h
    exact isMet_of_makeDirectory hpath hmake

theorem isMet_of_ensureDirectoriesWithin (depth : Nat) (t : Tree) (hpath : IsPlainPath path)
    (h : (ensureDirectoriesWithin depth t path).2 = some e) : IsMet e := by
  -- on the depth: what keeps the directories above from being made is met there
  induction depth generalizing t path with
  | zero =>
    cases h
    trivial
  | succ depth ih =>
    unfold ensureDirectoriesWithin at h
    generalize habove : (if (splitLast path).1 ≠ "" && (splitLast path).2 ≠ ""
      && !t.exists? (splitLast path).1 then ensureDirectoriesWithin depth t (splitLast path).1
      else (t, none)) = above at h
    dsimp only at h
    rw [habove] at h
    split at h
    · split at h
      · contradiction
      · split at h
        · contradiction
        · rename_i hmake
          cases h
          exact isMet_of_ensureDirectory hpath hmake
    · split at h
      · contradiction
      · split at h
        · contradiction
        · rename_i hmake
          cases h
          exact isMet_of_ensureDirectory hpath hmake
    · cases h
      split at habove
      · exact ih t hpath.splitLast (by rw [habove])
      · cases habove

theorem isMet_of_write (hpath : IsPlainPath path) (h : t.write path bytes = .error e) :
    IsMet e := by
  unfold write at h
  split at h
  · contradiction
  · rename_i e' hopen
    cases h
    rw [openToWrite_of_passed hpath.passed] at hopen
    -- each reason is one that the system meets
    split at hopen
    · cases hopen
      trivial
    · split at hopen
      · cases hopen
        trivial
      · split at hopen
        · cases hopen
          trivial
        · contradiction
        · contradiction
        · cases hopen
          trivial

end Tree

end TapeMachine.Files
