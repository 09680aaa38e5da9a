import TapeMachine.Proofs.FileNames
import TapeMachine.Proofs.SessionRuns

/-!
# The files of a journal's channels

Each channel of a journal has a file of its own, unless the prefix of the main files is the name of
another channel. When entries are written channel by channel, every file gets those of its channel.

## Main results

- `place_injective`: channels have different files
- `runIn_writeAll`, `find?_recordIn`: what is written channel by channel stands behind what the
  files held
- `runIn_writeAll_of_none`: if a channel has no file, writing ends with a fault
-/

namespace TapeMachine.Journal

open Files (octetsOfPath Place)
open Files.Tree (LeadsTo)
open Session (runIn)
open Text (Loose)

variable {j : Journal} {t : Files.Tree} {place : Channel → Place} {entries : Channel → List Json}

/-! ## Different files -/

/-- The names of files of different channels have different octets. -/
theorem eq_of_octetsOfPath_stem (haccepted : j.logPrefix ≠ "accepted_")
    (hrejected : j.logPrefix ≠ "rejected_")
    (hhalves : ∀ half, .half half ∈ j.logPrefix.points → (Files.octet? half).isSome)
    {a b : Channel} (h : octetsOfPath (j.stem a) = octetsOfPath (j.stem b)) : a = b := by
  have hne : ∀ {s : String}, ((Text.octets s).all fun b => decide (b < 0x80)) = true →
      j.logPrefix ≠ s → octetsOfPath j.logPrefix ≠ octetsOfPath s := by
    intro s hall hs heq
    have hascii : ∀ b ∈ Text.octets s, b < 0x80 := fun b hb =>
      of_decide_eq_true (List.all_eq_true.1 hall b hb)
    rw [Files.octetsOfPath_whole] at heq
    exact hs (Files.eq_of_octetsOfPath hhalves hascii heq)
  have hmain_accepted := hne (by decide) haccepted
  have hmain_rejected := hne (by decide) hrejected
  have hother : octetsOfPath "accepted_" ≠ octetsOfPath "rejected_" := by
    rw [Files.octetsOfPath_whole, Files.octetsOfPath_whole]
    decide
  -- three channels, of which two have fixed stems
  cases a <;> cases b
  case main.accepted => exact absurd h hmain_accepted
  case main.rejected => exact absurd h hmain_rejected
  case accepted.main => exact absurd h.symm hmain_accepted
  case rejected.main => exact absurd h.symm hmain_rejected
  case accepted.rejected => exact absurd h hother
  case rejected.accepted => exact absurd h.symm hother
  all_goals rfl

/-- The name of a channel's file in the directory of the journal. -/
def fileName (j : Journal) (channel : Channel) : Loose :=
  j.stem channel ++ Loose.whole (j.today ++ ".jsonl")

theorem octetsOfPath_fileName (j : Journal) (channel : Channel) :
    octetsOfPath (j.fileName channel) =
      octetsOfPath (j.stem channel) ++ Text.octets (j.today ++ ".jsonl") := by
  rw [fileName, Files.octetsOfPath_append, Files.octetsOfPath_whole]

theorem length_octetsOfPath_fileName (j : Journal) (channel : Channel) :
    2 < (octetsOfPath (j.fileName channel)).length := by
  have hending : (Text.octets ".jsonl").length = 6 := by decide
  rw [octetsOfPath_fileName, Text.octets_append, List.length_append, List.length_append, hending]
  omega

theorem slash_not_mem_fileName (hslash : Files.slash ∉ j.logPrefix.points)
    (hday : '/' ∉ j.today.toList) (channel : Channel) :
    Files.slash ∉ (j.fileName channel).points := by
  have hstem : Files.slash ∉ (j.stem channel).points := by
    cases channel with
    | main => exact hslash
    | accepted => exact (by decide : Files.slash ∉ (Loose.whole "accepted_").points)
    | rejected => exact (by decide : Files.slash ∉ (Loose.whole "rejected_").points)
  have hending : Files.slash ∉ (Loose.whole (j.today ++ ".jsonl")).points := by
    simp [Loose.points, Files.slash, hday]
  rw [fileName, Loose.points_append, List.mem_append, not_or]
  exact ⟨hstem, hending⟩

/-- If the main file can be opened, the halves in the prefix stand for octets. -/
theorem isSome_octet?_of_leadsTo (hname : Files.slash ∉ (j.fileName .main).points)
    {found : Place} (h : t.LeadsTo (j.path .main) found) {half : Text.Half}
    (hmem : .half half ∈ j.logPrefix.points) : (Files.octet? half).isSome := by
  obtain ⟨spelt, hpassed, -⟩ := h.way
  refine Files.isSome_octet?_of_passed hpassed ?_
  obtain ⟨front, hjoin, -⟩ := @Files.points_join j.directory _ hname
  show _ ∈ (Files.join j.directory (j.fileName .main)).points
  rw [hjoin, fileName, Loose.points_append]
  exact List.mem_append_right _ (List.mem_append_left _ hmem)

/-- Every channel has a file of its own. -/
theorem place_injective (hslash : Files.slash ∉ j.logPrefix.points)
    (haccepted : j.logPrefix ≠ "accepted_") (hrejected : j.logPrefix ≠ "rejected_")
    (hday : '/' ∉ j.today.toList) (hleads : ∀ channel, t.LeadsTo (j.path channel) (place channel)) :
    Function.Injective place := by
  intro a b hab
  have hname := slash_not_mem_fileName hslash hday
  have hoctets : octetsOfPath (j.fileName a) = octetsOfPath (j.fileName b) :=
    (hleads a).octetsOfPath_eq (hab ▸ hleads b) (hname a) (hname b)
      (length_octetsOfPath_fileName j a) (length_octetsOfPath_fileName j b)
  -- day and ending are the same, so the stems are, octet by octet
  rw [octetsOfPath_fileName, octetsOfPath_fileName] at hoctets
  exact eq_of_octetsOfPath_stem haccepted hrejected
    (fun half hmem => isSome_octet?_of_leadsTo (hname .main) (hleads .main) hmem)
    (List.append_cancel_right hoctets)

/-! ## Writing channel by channel -/

/-- The tree when channels have got their entries, one after the other. -/
def recordIn (place : Channel → Place) (entries : Channel → List Json)
    (t : Files.Tree) (channels : List Channel) : Files.Tree :=
  channels.foldl (fun t channel =>
    t.appendAt (place channel) (lines (entries channel)).toUTF8) t

/-- What is written channel by channel goes to the ends of their files. -/
theorem runIn_writeAll {w : World} (hleads : ∀ channel, w.files.LeadsTo (j.path channel)
      (place channel)) (channels : List Channel) :
    runIn (forM channels fun channel => Session.writeJournal j channel (entries channel)) w =
      (.ok (), { w with files := recordIn place entries w.files channels }) := by
  -- on the channels that are left; writing to one file does not change where the others lie
  induction channels generalizing w with
  | nil => rfl
  | cons channel rest ih =>
    rw [List.forM_cons,
      Session.runIn_bind_of_ok (Session.runIn_writeJournal_of_leadsTo (hleads channel) _)]
    exact ih fun other => (hleads other).of_same ((hleads channel).sameDirectories _)

/-- If a channel has no file the system refuses it, and what follows is not written. -/
theorem runIn_writeAll_of_none {w : World} {channel : Channel}
    (hnone : w.files.fileAt? (j.path channel) = none) {channels : List Channel}
    (hchannel : channel ∈ channels) :
    ∃ e w', runIn (forM channels fun channel =>
      Session.writeJournal j channel (entries channel)) w = (.error (.file e), w') := by
  induction channels generalizing w with
  | nil => exact absurd hchannel List.not_mem_nil
  | cons first rest ih =>
    rw [List.forM_cons, Session.runIn_bind]
    cases hfile : w.files.fileAt? (j.path first) with
    | none =>
      obtain ⟨e, he⟩ := Session.runIn_writeJournal_of_none hfile (entries first)
      exact ⟨e, w, by rw [he]⟩
    | some place =>
      have hleads := Files.Tree.fileAt?_eq_some.1 hfile
      -- this one could be written to, so the one that cannot comes later
      have hmem : channel ∈ rest := by
        refine (List.mem_cons.1 hchannel).resolve_left fun heq => ?_
        rw [heq, hfile] at hnone
        contradiction
      rw [Session.runIn_writeJournal_of_leadsTo hleads]
      refine ih ?_ hmem
      rw [← Files.Tree.fileAt?_of_same (hleads.sameDirectories _), hnone]

/-- Where no channel has its file nothing is changed. -/
theorem find?_recordIn_of_ne (hleads : ∀ channel, t.LeadsTo (j.path channel) (place channel))
    {channels : List Channel} {other : Place}
    (hother : ∀ channel ∈ channels, other ≠ place channel) :
    (recordIn place entries t channels).find? other = t.find? other := by
  induction channels generalizing t with
  | nil => rfl
  | cons first rest ih =>
    obtain ⟨hfirst, hrest⟩ := List.forall_mem_cons.1 hother
    rw [recordIn, List.foldl_cons]
    refine (ih (fun channel => (hleads channel).of_same ((hleads first).sameDirectories _))
      hrest).trans ?_
    rw [(hleads first).find?_appendAt, if_neg hfirst]

/-- In files that are different every channel has its own entries. -/
theorem find?_recordIn (hleads : ∀ channel, t.LeadsTo (j.path channel) (place channel))
    (hinj : Function.Injective place) {channels : List Channel} (hnodup : channels.Nodup)
    {channel : Channel} (hchannel : channel ∈ channels) :
    (recordIn place entries t channels).find? (place channel) = some (.file
      (t.bytesAt (place channel) ++ (lines (entries channel)).toUTF8)) := by
  induction channels generalizing t with
  | nil => exact absurd hchannel List.not_mem_nil
  | cons first rest ih =>
    obtain ⟨hfirst, hrest⟩ := List.nodup_cons.1 hnodup
    -- a write moves no path
    have hleads' := fun other => (hleads other).of_same ((hleads first).sameDirectories
      (lines (entries first)).toUTF8)
    rw [recordIn, List.foldl_cons]
    rcases List.mem_cons.1 hchannel with rfl | hmem
    · refine (find?_recordIn_of_ne hleads' fun other hother heq => hfirst ?_).trans ?_
      · rw [hinj heq]
        exact hother
      · rw [(hleads channel).find?_appendAt, if_pos rfl]
    · have hne : place channel ≠ place first := fun heq => hfirst (hinj heq ▸ hmem)
      refine (ih hleads' hrest hmem).trans ?_
      rw [Files.Tree.bytesAt, (hleads first).find?_appendAt, if_neg hne]
      rfl

end TapeMachine.Journal
