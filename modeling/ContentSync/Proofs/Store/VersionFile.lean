import ContentSync.Proofs.Json.ReadBack
import ContentSync.Proofs.Store.FileSystem
import ContentSync.Store.VersionFile

/-!
# Committed versions in a file

What is committed to the file is read back from it, whatever texts the versions have, and a commit
that fails leaves every file as it was. So the file store answers like versions kept in memory.

* `VersionFile.decode?_body` — what is written is read back;
* `VersionFile.commit_cases` — all that a commit can do;
* `FileStep`, `VersionFile.after` — what happens to the file, and the files after a history;
* `Ledger` — what a store in memory would hold;
* `VersionFile.Usable`, `VersionFile.ledger_after` — the file keeps step with the ledger;
* `VersionFile.answers_as_memory` — what the store answers.
-/

set_option autoImplicit false

namespace ContentSync

open FileSystem Layout

/-! ## What is written is read back -/

theorem StoredVersions.storable_json (s : StoredVersions) : s.json.Storable 1 := by
  have hversion : ∀ v : Option Version, (Json.optional Version.json v).Storable 0 := by
    intro v
    cases v with
    | none => exact .null
    | some v => exact .string v.text
  have hsorted : "gameData" < "localization" := by decide
  refine .object (List.pairwise_pair.2 hsorted) fun m hm => ?_
  obtain rfl | rfl : m = _ ∨ m = _ := by simpa [members] using hm
  · exact hversion s.gameData
  · exact hversion s.localization

theorem StoredVersions.decode?_written (s : StoredVersions) : decode? s.json.written = some s := by
  obtain ⟨gameData, localization⟩ := s
  cases gameData <;> cases localization <;>
    simp [decode?, json, members, Json.optional, Version.json, Version.decode?, Json.written,
      Json.writtenMembers, Written.fields?, Written.keyed?, Written.Fields.optional?,
      Written.isNull, Written.text?, Quoted.text?_ofText, List.lookup_cons]

namespace VersionFile

variable {f : VersionFile} {fs made : FileSystem} {s : StoredVersions} {k : DataKind} {v : Version}
  {device : WriteStep → Option FileError}

/-- **What is written is read back.** -/
theorem decode?_body (s : StoredVersions) : decode? (body s) = some s := by
  rw [decode?, body, s.storable_json.parse?_of_spelled lawful_wide (Json.toList_pretty s.json)]
  exact s.decode?_written

/-! ## One commit -/

/-- The steps of a replacement in their order. -/
def writeSteps : List WriteStep :=
  [.makeDirectories, .createTemporary, .writeTemporary, .flush, .moveIntoPlace]

/-- A device that refuses nothing. -/
def willing (device : WriteStep → Option FileError) : Bool :=
  writeSteps.all fun step => (device step).isNone

theorem willing_iff : willing device = true ↔ ∀ step, device step = none := by
  simp only [willing, writeSteps, List.all_eq_true, Option.isNone_iff_eq_none]
  refine ⟨fun h step => h step ?_, fun h step _ => h step⟩
  cases step <;> decide

theorem load_error {e : Failure} (h : f.load fs = .error e) : ∃ m, e = .persistence m := by
  unfold load at h
  split at h
  · contradiction
  · cases h
    exact ⟨_, rfl⟩
  · split at h
    · contradiction
    · cases h
      exact ⟨_, rfl⟩

theorem load_of_read {text : String} (h : fs.read f.path = .ok text) :
    (f.load fs).toOption = decode? text := by
  rw [load, h]
  cases hs : decode? text <;> simp [hs, Except.toOption]

theorem load_of_decode {text : String} (h : fs.read f.path = .ok text)
    (hs : decode? text = some s) : f.load fs = .ok s := by
  rw [load, h]
  simp [hs]

theorem load_of_notFound (h : fs.read f.path = .error .notFound) : f.load fs = .ok .cold := by
  rw [load, h]

/-- **All that a store can do.** It fails with nothing changed but some directories made, or it puts
the file into its place. -/
theorem store_cases (hstart : fs.view f.path.start = some none) :
    (∃ e later, f.store device fs s = (.error (f.refused e), later) ∧ fs.Extends later) ∨
    (∃ made later, f.store device fs s = (.ok (), later) ∧ fs.Extends made ∧
      made.replace f.path (body s) = .ok later) := by
  obtain ⟨hext, -⟩ := makeDirectories_spec f.path.parent hstart
  unfold store
  cases device .makeDirectories with
  | some e => exact .inl ⟨e, fs, rfl, .refl fs⟩
  | none =>
    cases hmake : fs.makeDirectories f.path.start f.path.parent with
    | mk answer made =>
      rw [hmake] at hext
      cases answer with
      | error e => exact .inl ⟨e, made, rfl, hext⟩
      | ok =>
        simp only
        split
        · rename_i e _
          exact .inl ⟨e, made, rfl, hext⟩
        · cases hreplace : made.replace f.path (body s) with
          | error e => exact .inl ⟨e, made, rfl, hext⟩
          | ok later => exact .inr ⟨made, later, rfl, hext, hreplace⟩

/-- **All that a commit can do.** It fails as the file cannot be read, with nothing changed; or as
the file cannot be replaced, with some directories made; or the file is replaced. -/
theorem commit_cases (device : WriteStep → Option FileError) (k : DataKind) (v : Version)
    (hstart : fs.view f.path.start = some none) :
    (∃ e, f.load fs = .error e ∧ f.commit device fs k v = (.error e, fs)) ∨
    ∃ s, f.load fs = .ok s ∧
      ((∃ e later, f.commit device fs k v = (.error (f.refused e), later) ∧ fs.Extends later) ∨
      (∃ made later, f.commit device fs k v = (.ok (), later) ∧ fs.Extends made ∧
        made.replace f.path (body (s.set k v)) = .ok later)) := by
  unfold commit
  cases hload : f.load fs with
  | error e => exact .inl ⟨e, rfl, rfl⟩
  | ok s => exact .inr ⟨s, rfl, store_cases hstart⟩

/-- What was put into its place is read. -/
theorem read_of_replace {text : String} {later : FileSystem}
    (hstart : fs.view f.path.start = some none) (h : fs.replace f.path text = .ok later) :
    later.view f.path.start = some none ∧ later.read f.path = .ok text := by
  obtain ⟨hname, here, hwalk, hhere, hfree, rfl⟩ := replace_ok hstart h
  have hview := view_put_file hhere hfree text
  have hmono : ∀ r, fs.view r = some none →
      (fs.put (here ++ [lastName f.path]) (.file text)).view r = some none := by
    intro r hr
    rw [hview, if_neg, hr]
    rintro rfl
    exact hfree hr
  refine ⟨hmono _ hstart, ?_⟩
  rw [hname.read_eq, walk_mono hmono hwalk]
  simp [Except.bind, hview]

/-- **A commit that succeeds is read back**, and the version of the other kind is kept. -/
theorem load_of_commit_ok {later : FileSystem} (hstart : fs.view f.path.start = some none)
    (h : f.commit device fs k v = (.ok (), later)) :
    ∃ s, f.load fs = .ok s ∧ f.load later = .ok (s.set k v) ∧
      later.view f.path.start = some none ∧ later.read f.path = .ok (body (s.set k v)) := by
  obtain ⟨e, -, heq⟩ | ⟨s, hload, ⟨e, later', heq, -⟩ | ⟨made, later', heq, hext, hreplace⟩⟩ :=
    commit_cases device k v hstart
  · rw [heq] at h
    cases h
  · rw [heq] at h
    cases h
  · rw [heq] at h
    cases h
    have hread := read_of_replace (hext.directory hstart) hreplace
    exact ⟨s, hload, load_of_decode hread.2 (decode?_body _), hread⟩

/-- **A commit that fails leaves every file as it was**, and leaves no other file. -/
theorem files_of_commit_error {e : Failure} {later : FileSystem}
    (hstart : fs.view f.path.start = some none)
    (h : f.commit device fs k v = (.error e, later)) :
    (∃ m, e = .persistence m) ∧ fs.Extends later := by
  obtain ⟨e', hload, heq⟩ | ⟨s, -, ⟨e', later', heq, hext⟩ | ⟨made, later', heq, -⟩⟩ :=
    commit_cases device k v hstart
  · rw [heq] at h
    cases h
    exact ⟨load_error hload, .refl fs⟩
  · rw [heq] at h
    cases h
    exact ⟨⟨_, rfl⟩, hext⟩
  · rw [heq] at h
    cases h

/-- **A file that is deleted is gone**: the store starts cold. -/
theorem load_of_delete (hstart : fs.view f.path.start = some none)
    (h : (∃ text, fs.read f.path = .ok text) ∨ fs.read f.path = .error .notFound) :
    f.load (fs.delete f.path) = .ok .cold := by
  obtain ⟨here, text, hwalk, hview, hread, heq⟩ | ⟨hnone, heq⟩ := delete_cases hstart
  · have hname := (read_ok hstart hread).1
    have hremove := view_remove hview
    have hmono : ∀ r, fs.view r = some none → (fs.delete f.path).view r = some none := by
      intro r hr
      rw [heq, hremove, if_neg, hr]
      rintro rfl
      rw [hview] at hr
      cases hr
    refine load_of_notFound ?_
    rw [hname.read_eq, walk_mono hmono hwalk, heq]
    simp [Except.bind, hremove]
  · rw [heq]
    obtain ⟨text, hread⟩ | hread := h
    · exact absurd hread (hnone text)
    · exact load_of_notFound hread

/-! ## Histories -/

end VersionFile

/-- Something that happens to the file. -/
inductive FileStep where
  | get
  /-- A commit, on a device that may refuse any step. -/
  | commit (k : DataKind) (v : Version) (device : WriteStep → Option FileError)
  /-- Another store is opened on the same path. A store is nothing but its path. -/
  | reopen
  /-- Somebody else writes the file, if its directory is there. -/
  | overwrite (text : String)
  /-- Somebody else deletes the file. -/
  | delete

namespace VersionFile

variable {f : VersionFile} {fs made : FileSystem} {s : StoredVersions} {k : DataKind} {v : Version}
  {device : WriteStep → Option FileError}

/-- The files after a step. -/
def step (f : VersionFile) (fs : FileSystem) : FileStep → FileSystem
  | .get => fs
  | .commit k v device => (f.commit device fs k v).2
  | .reopen => fs
  | .overwrite text => (fs.replace f.path text).toOption.getD fs
  | .delete => fs.delete f.path

/-- The files after a history. -/
def after (f : VersionFile) (fs : FileSystem) (history : List FileStep) : FileSystem :=
  history.foldl f.step fs

/-- The directory at which the path starts stays. -/
theorem view_start_step (hstart : fs.view f.path.start = some none) (e : FileStep) :
    (f.step fs e).view f.path.start = some none := by
  cases e with
  | get => exact hstart
  | reopen => exact hstart
  | commit k v device =>
    obtain ⟨e, -, heq⟩ | ⟨s, -, ⟨e, later, heq, hext⟩ | ⟨made, later, heq, hext, hreplace⟩⟩ :=
      commit_cases device k v hstart
    · simpa [step, heq] using hstart
    · simpa [step, heq] using hext.directory hstart
    · simpa [step, heq] using (read_of_replace (hext.directory hstart) hreplace).1
  | overwrite text =>
    rw [step]
    cases hreplace : fs.replace f.path text with
    | error e => exact hstart
    | ok later => exact (read_of_replace hstart hreplace).1
  | delete =>
    rw [step]
    obtain ⟨here, text, -, hview, -, heq⟩ | ⟨-, heq⟩ := delete_cases (p := f.path) hstart
    · rw [heq, view_remove hview, if_neg, hstart]
      intro hr
      rw [← hr, hstart] at hview
      cases hview
    · rw [heq, hstart]

theorem view_start_after (hstart : fs.view f.path.start = some none) (history : List FileStep) :
    (f.after fs history).view f.path.start = some none := by
  induction history generalizing fs with
  | nil => exact hstart
  | cons e history ih => exact ih (view_start_step hstart e)

/-! ## The ledger -/

end VersionFile

/-- What a store in memory would hold: whether the directory of the file is there, and the versions,
unless they cannot be read. -/
structure Ledger where
  housed : Bool
  versions : Option StoredVersions

namespace Ledger

/-- A commit counts when the versions can be read and the device refuses nothing; it makes the
directory unless the device refuses that. -/
def step (l : Ledger) : FileStep → Ledger
  | .get => l
  | .commit k v device =>
    match l.versions with
    | none => l
    | some s =>
      if device .makeDirectories = none then
        ⟨true, some (if VersionFile.willing device then s.set k v else s)⟩
      else l
  | .reopen => l
  | .overwrite text => if l.housed then { l with versions := VersionFile.decode? text } else l
  | .delete => { l with versions := some .cold }

def after (l : Ledger) (history : List FileStep) : Ledger := history.foldl step l

end Ledger

namespace VersionFile

variable {f : VersionFile} {fs : FileSystem} {s : StoredVersions} {text : String}

/-- The directory of the file. -/
def directory (f : VersionFile) : FilePath := resolve f.path.start f.path.parent

/-- The place of the file. -/
def spot (f : VersionFile) : FilePath := f.directory ++ [lastName f.path]

/-- The files after the directories on the way have been made. -/
def made (f : VersionFile) (fs : FileSystem) : FileSystem :=
  (fs.makeDirectories f.path.start f.path.parent).2

/-- The ledger that agrees with the file. -/
def ledger (f : VersionFile) (fs : FileSystem) : Ledger :=
  ⟨(fs.walk f.path.start f.path.parent).isOk, (f.load fs).toOption⟩

/-- The directory of the file is there, and no directory is in the place of the file. -/
structure Housed (f : VersionFile) (fs : FileSystem) : Prop where
  start : fs.view f.path.start = some none
  name : Nameable f.path
  walk : fs.walk f.path.start f.path.parent = .ok f.directory
  free : fs.view f.spot ≠ some none

/-- The path can mean a file: its directory is there or can be made, no directory is in the place of
the file then, and no file is there while its directory cannot be reached. -/
structure Usable (f : VersionFile) (fs : FileSystem) : Prop where
  start : fs.view f.path.start = some none
  name : Nameable f.path
  reachable : (fs.makeDirectories f.path.start f.path.parent).1 = .ok ()
  free : (f.made fs).view f.spot ≠ some none
  exposed : fs.walk f.path.start f.path.parent = .ok f.directory ∨ fs.view f.spot = none

theorem Housed.made_eq (h : f.Housed fs) : f.made fs = fs := by
  rw [made, makeDirectories_of_walk h.walk]

theorem Housed.usable (h : f.Housed fs) : f.Usable fs where
  start := h.start
  name := h.name
  reachable := by rw [makeDirectories_of_walk h.walk]
  free := by rw [h.made_eq]; exact h.free
  exposed := .inl h.walk

/-- A path from which a text is read means a file. -/
theorem housed_of_read (hstart : fs.view f.path.start = some none)
    (h : fs.read f.path = .ok text) : f.Housed fs := by
  obtain ⟨hname, here, hwalk, -, hview⟩ := read_ok hstart h
  have hhere := (walk_ok hstart hwalk).1
  rw [← directory] at hhere
  subst hhere
  exact ⟨hstart, hname, hwalk, by rw [spot, hview]; nofun⟩

/-- What the file says counts, and where there is none the store is cold. -/
theorem Housed.ledger_eq (h : f.Housed fs) : f.ledger fs = ⟨true,
    match fs.view f.spot with
    | some (some text) => decode? text
    | _ => some .cold⟩ := by
  have hread := h.name.read_eq fs
  simp only [h.walk, Except.bind] at hread
  simp only [ledger, h.walk]
  congr 1
  have hfree := h.free
  rw [spot] at hfree ⊢
  cases hview : fs.view (f.directory ++ [lastName f.path]) with
  | none =>
    rw [hview] at hread
    rw [load_of_notFound hread]
    rfl
  | some found =>
    cases found with
    | none => exact absurd hview hfree
    | some text =>
      rw [hview] at hread
      exact load_of_read hread

/-- A path whose directory is not there finds nothing. -/
theorem Usable.cases (h : f.Usable fs) : f.Housed fs ∨
    (fs.walk f.path.start f.path.parent = .error .notFound ∧ fs.view f.spot = none ∧
      f.ledger fs = ⟨false, some .cold⟩) := by
  cases hwalk : fs.walk f.path.start f.path.parent with
  | ok here =>
    have hhere := (walk_ok h.start hwalk).1
    rw [← directory] at hhere
    subst hhere
    refine .inl ⟨h.start, h.name, hwalk, fun hdir => h.free ?_⟩
    rw [made, makeDirectories_of_walk hwalk]
    exact hdir
  | error e =>
    obtain rfl := walk_error h.reachable hwalk
    have hread := h.name.read_eq fs
    simp only [hwalk, Except.bind] at hread
    refine .inr ⟨rfl, ?_, ?_⟩
    · obtain hok | hnone := h.exposed
      · rw [hwalk] at hok
        cases hok
      · exact hnone
    · rw [ledger, hwalk, load_of_notFound hread]
      rfl

/-- **The directory is made** and the file is as it was. -/
theorem Usable.housed_made (h : f.Usable fs) :
    f.Housed (f.made fs) ∧ (f.ledger (f.made fs)).versions = (f.ledger fs).versions := by
  obtain ⟨hext, hwalk⟩ := makeDirectories_spec f.path.parent h.start
  have hmade : f.Housed (f.made fs) :=
    ⟨hext.directory h.start, h.name, hwalk h.reachable, h.free⟩
  refine ⟨hmade, ?_⟩
  obtain hhoused | ⟨-, hnone, hledger⟩ := h.cases
  · rw [hhoused.made_eq]
  · rw [hledger, hmade.ledger_eq]
    obtain heq | ⟨-, hdir⟩ := hext f.spot
    · have hview : (f.made fs).view f.spot = none := heq.trans hnone
      simp [hview]
    · exact absurd hdir h.free

/-- **A file is put into its place.** -/
theorem Housed.put (h : f.Housed fs) (text : String) :
    f.Housed (fs.put f.spot (.file text)) ∧
      f.ledger (fs.put f.spot (.file text)) = ⟨true, decode? text⟩ := by
  obtain ⟨hstart, hname, hwalk, hfree⟩ := h
  have hview := view_put_file (walk_ok hstart hwalk).2 hfree text
  rw [← spot] at hview
  have hmono : ∀ r, fs.view r = some none → (fs.put f.spot (.file text)).view r = some none := by
    intro r hr
    rw [hview, if_neg, hr]
    rintro rfl
    exact hfree hr
  have hhoused : f.Housed (fs.put f.spot (.file text)) :=
    ⟨hmono _ hstart, hname, walk_mono hmono hwalk, by simp [hview]⟩
  exact ⟨hhoused, by simp [hhoused.ledger_eq, hview]⟩

/-- **The file is removed.** -/
theorem Housed.remove (h : f.Housed fs) (hfile : fs.view f.spot = some (some text)) :
    f.Housed (fs.remove f.spot) ∧ f.ledger (fs.remove f.spot) = ⟨true, some .cold⟩ := by
  obtain ⟨hstart, hname, hwalk, hfree⟩ := h
  have hview := view_remove hfile
  rw [← spot] at hview
  have hmono : ∀ r, fs.view r = some none → (fs.remove f.spot).view r = some none := by
    intro r hr
    rw [hview, if_neg, hr]
    rintro rfl
    exact hfree hr
  have hhoused : f.Housed (fs.remove f.spot) :=
    ⟨hmono _ hstart, hname, walk_mono hmono hwalk, by simp [hview]⟩
  exact ⟨hhoused, by simp [hhoused.ledger_eq, hview]⟩

variable {device : WriteStep → Option FileError} {k : DataKind} {v : Version}

/-- What a commit does where the path can mean a file. -/
theorem Usable.commit_eq (h : f.Usable fs) (device : WriteStep → Option FileError) (k : DataKind)
    (v : Version) (hload : f.load fs = .ok s) :
    (device .makeDirectories ≠ none ∧
      ∃ e, f.commit device fs k v = (.error (f.refused e), fs)) ∨
    (device .makeDirectories = none ∧ willing device = false ∧
      ∃ e, f.commit device fs k v = (.error (f.refused e), f.made fs)) ∨
    (device .makeDirectories = none ∧ willing device = true ∧
      f.commit device fs k v = (.ok (), (f.made fs).put f.spot (.file (body (s.set k v))))) := by
  have hmade := h.housed_made.1
  have hreplace := h.name.replace_eq hmade.walk hmade.free (body (s.set k v))
  have hmake : fs.makeDirectories f.path.start f.path.parent = (.ok (), f.made fs) :=
    Prod.ext h.reachable rfl
  simp only [commit, hload, store]
  cases hfirst : device .makeDirectories with
  | some e => exact .inl ⟨nofun, e, rfl⟩
  | none =>
    simp only [hmake]
    cases hrest : [WriteStep.createTemporary, .writeTemporary, .flush, .moveIntoPlace].findSome?
        device with
    | some e =>
      obtain ⟨step, -, hstep⟩ := List.exists_of_findSome?_eq_some hrest
      refine .inr (.inl ⟨trivial, ?_, e, rfl⟩)
      rw [← Bool.not_eq_true, willing_iff]
      intro hall
      rw [hall] at hstep
      cases hstep
    | none =>
      refine .inr (.inr ⟨trivial, willing_iff.2 fun step => ?_, ?_⟩)
      · simp only [List.findSome?_eq_none_iff] at hrest
        cases step with
        | makeDirectories => exact hfirst
        | _ => exact hrest _ (by simp)
      · rw [hreplace]
        rfl

/-- A commit on a medium that is willing is what the ledger tells, and fails otherwise. -/
theorem Usable.commit_step (h : f.Usable fs) (k : DataKind) (v : Version)
    (device : WriteStep → Option FileError) :
    f.Usable (f.step fs (.commit k v device)) ∧
      f.ledger (f.step fs (.commit k v device)) = (f.ledger fs).step (.commit k v device) := by
  simp only [VersionFile.step, Ledger.step]
  cases hload : f.load fs with
  | error e =>
    have hversions : (f.ledger fs).versions = none := by simp [ledger, hload, Except.toOption]
    simp only [commit, hload, hversions]
    exact ⟨h, trivial⟩
  | ok s =>
    have hversions : (f.ledger fs).versions = some s := by simp [ledger, hload, Except.toOption]
    obtain ⟨hmade, hsame⟩ := h.housed_made
    simp only [hversions]
    obtain ⟨hfirst, e, heq⟩ | ⟨hfirst, hwilling, e, heq⟩ | ⟨hfirst, hwilling, heq⟩ :=
      h.commit_eq device k v hload
    · rw [heq, if_neg hfirst]
      exact ⟨h, rfl⟩
    · rw [heq, if_pos hfirst, hwilling]
      refine ⟨hmade.usable, ?_⟩
      rw [hmade.ledger_eq] at hsame ⊢
      simp_all
    · rw [heq, if_pos hfirst, hwilling]
      obtain ⟨hput, hledger⟩ := hmade.put (body (s.set k v))
      exact ⟨hput.usable, by simp [hledger, decode?_body]⟩

/-- The file is overwritten where its directory is there. -/
theorem Usable.overwrite_step (h : f.Usable fs) (text : String) :
    f.Usable (f.step fs (.overwrite text)) ∧
      f.ledger (f.step fs (.overwrite text)) = (f.ledger fs).step (.overwrite text) := by
  simp only [VersionFile.step, Ledger.step]
  obtain hhoused | ⟨hwalk, -, hledger⟩ := h.cases
  · have hreplace := h.name.replace_eq hhoused.walk hhoused.free text
    obtain ⟨hput, hledger⟩ := hhoused.put text
    rw [← spot] at hreplace
    rw [hreplace, hhoused.ledger_eq]
    exact ⟨hput.usable, hledger⟩
  · have hreplace : (fs.replace f.path text).toOption = none := by
      simp only [replace, h.name.ending, h.name.place_eq, hwalk]
      rfl
    rw [hreplace, hledger]
    exact ⟨h, hledger⟩

/-- Where no file is read, nothing has been committed. -/
theorem Usable.cold (h : f.Usable fs) (hnone : ∀ text, fs.read f.path ≠ .ok text) :
    (f.ledger fs).versions = some .cold := by
  obtain hhoused | ⟨-, -, hledger⟩ := h.cases
  · rw [hhoused.ledger_eq]
    split
    · rename_i text hview
      refine absurd ?_ (hnone text)
      rw [spot] at hview
      simp [h.name.read_eq, hhoused.walk, Except.bind, hview]
    · rfl
  · rw [hledger]

/-- The file is deleted where it is there. -/
theorem Usable.delete_step (h : f.Usable fs) :
    f.Usable (f.step fs .delete) ∧ f.ledger (f.step fs .delete) = (f.ledger fs).step .delete := by
  simp only [VersionFile.step, Ledger.step]
  obtain ⟨here, text, hwalk, hview, -, heq⟩ | ⟨hnone, heq⟩ := delete_cases (p := f.path) h.start
  · have hhere := (walk_ok h.start hwalk).1
    rw [← directory] at hhere
    subst hhere
    rw [← spot] at hview heq
    have hhoused : f.Housed fs := ⟨h.start, h.name, hwalk, by simp [hview]⟩
    obtain ⟨hremove, hledger⟩ := hhoused.remove hview
    rw [heq, hledger, hhoused.ledger_eq]
    exact ⟨hremove.usable, rfl⟩
  · rw [heq, ← h.cold hnone]
    exact ⟨h, rfl⟩

/-- **The file keeps step with the ledger.** -/
theorem Usable.step (h : f.Usable fs) (e : FileStep) :
    f.Usable (f.step fs e) ∧ f.ledger (f.step fs e) = (f.ledger fs).step e := by
  cases e with
  | get | reopen => exact ⟨h, rfl⟩
  | commit k v device => exact h.commit_step k v device
  | overwrite text => exact h.overwrite_step text
  | delete => exact h.delete_step

theorem ledger_after (h : f.Usable fs) (history : List FileStep) :
    f.Usable (f.after fs history) ∧
      f.ledger (f.after fs history) = (f.ledger fs).after history := by
  induction history generalizing fs with
  | nil => exact ⟨h, rfl⟩
  | cons e history ih =>
    obtain ⟨husable, hledger⟩ := h.step e
    have hrest := ih husable
    rwa [hledger] at hrest

/-- A commit succeeds where the versions can be read and the device refuses nothing. -/
theorem Usable.commit_ok_iff (h : f.Usable fs) :
    (f.commit device fs k v).1 = .ok () ↔
      (f.load fs).toOption.isSome = true ∧ ∀ step, device step = none := by
  rw [← willing_iff]
  cases hload : f.load fs with
  | error e => simp [commit, hload, Except.toOption]
  | ok s =>
    obtain ⟨hfirst, e, heq⟩ | ⟨-, hwilling, e, heq⟩ | ⟨-, hwilling, heq⟩ :=
      h.commit_eq device k v hload
    · have hwilling : willing device ≠ true := fun hw => hfirst (willing_iff.1 hw _)
      simp [heq, hwilling]
    · simp [heq, hwilling]
    · simp [heq, hwilling, Except.toOption]

/-! ## What the store answers -/

/-- **A store with a file answers like versions kept in memory.** After any history of commits on a
device that may refuse anything, of stores opened anew, and of other texts written to the file and
deletions of it:

* if the versions cannot be read, reading and committing fail alike and nothing changes, and this is
  so whenever the text of the file is no record of versions;
* a commit that fails leaves every file as it was, and no other file;
* after a commit that succeeds the store has the new version of its kind and what it had of the
  other;
* once the file is deleted the store is cold;
* if the path can mean a file, and so whenever there is one, what is read and which commits succeed
  is told by a ledger in memory, which begins with what the file says, or cold without one. -/
theorem answers_as_memory (f : VersionFile) (fs : FileSystem) (history : List FileStep)
    (hstart : ∃ entries, fs.node? f.path.start = some (.directory entries)) :
    (∀ e, f.load (f.after fs history) = .error e → (∃ m, e = .persistence m) ∧
      ∀ k v device, f.commit device (f.after fs history) k v = (.error e, f.after fs history)) ∧
    (∀ text, (f.after fs history).read f.path = .ok text → decode? text = none →
      ∃ m, f.load (f.after fs history) = .error (.persistence m)) ∧
    (∀ k v device e later, f.commit device (f.after fs history) k v = (.error e, later) →
      (∃ m, e = .persistence m) ∧ ∀ place text, later.node? place = some (.file text) ↔
        (f.after fs history).node? place = some (.file text)) ∧
    (∀ k v device later, f.commit device (f.after fs history) k v = (.ok (), later) →
      ∃ s, f.load (f.after fs history) = .ok s ∧ f.load later = .ok (s.set k v) ∧
        f.Usable later) ∧
    ((∃ text, (f.after fs history).read f.path = .ok text) ∨
        (f.after fs history).read f.path = .error .notFound →
      f.load (f.after fs (history ++ [.delete])) = .ok .cold) ∧
    (f.Usable fs ∨ (∃ text, fs.read f.path = .ok text) →
      (f.load (f.after fs history)).toOption = ((f.ledger fs).after history).versions ∧
      (∀ k v device, (f.commit device (f.after fs history) k v).1 = .ok () ↔
        ((f.ledger fs).after history).versions.isSome = true ∧ ∀ step, device step = none) ∧
      ((∀ text, fs.read f.path ≠ .ok text) → (f.ledger fs).versions = some .cold)) := by
  have hnow := view_start_after (f := f) (view_eq_directory.2 hstart) history
  refine ⟨fun e he => ⟨load_error he, fun k v device => ?_⟩, fun text htext hdecode => ?_,
    fun k v device e later he => ?_, fun k v device later hok => ?_, fun hfound => ?_,
    fun hmeans => ?_⟩
  · rw [commit, he]
  · have hload := load_of_read htext
    rw [hdecode] at hload
    cases he : f.load (f.after fs history) with
    | ok s =>
      rw [he] at hload
      cases hload
    | error e =>
      obtain ⟨m, rfl⟩ := load_error he
      exact ⟨m, rfl⟩
  · obtain ⟨hpersistence, hext⟩ := files_of_commit_error hnow he
    refine ⟨hpersistence, fun place text => ?_⟩
    rw [← view_eq_file, ← view_eq_file, hext.file_iff]
  · obtain ⟨s, hload, hlater, hstart, hread⟩ := load_of_commit_ok hnow hok
    exact ⟨s, hload, hlater, (housed_of_read hstart hread).usable⟩
  · have hdelete : f.after fs (history ++ [.delete]) = (f.after fs history).delete f.path := by
      simp [after, step]
    rw [hdelete]
    exact load_of_delete hnow hfound
  · have husable : f.Usable fs := hmeans.elim id fun ⟨_, hread⟩ =>
      (housed_of_read (view_eq_directory.2 hstart) hread).usable
    obtain ⟨hafter, hledger⟩ := ledger_after husable history
    have hversions : (f.load (f.after fs history)).toOption =
        ((f.ledger fs).after history).versions := by rw [← hledger, ledger]
    refine ⟨hversions, fun k v device => ?_, husable.cold⟩
    rw [hafter.commit_ok_iff, hversions]

/-- A file in a directory that is not there yet. -/
def sample : VersionFile := ⟨"state/versions.json", ⟨[], "state/versions.json"⟩⟩

theorem sample_usable : sample.Usable .empty where
  start := rfl
  name := ⟨by decide, by decide, by decide⟩
  reachable := by decide
  free := by decide
  exposed := .inr (by decide)

/-- Both kinds are committed, between which the device is full once and the store is opened anew;
then somebody spoils the file. -/
theorem sample_answers :
    (∃ entries, FileSystem.empty.node? sample.path.start = some (.directory entries)) ∧
    (sample.load (sample.after .empty [.commit .gameData ⟨"7\"\n"⟩ soundDevice,
      .commit .gameData ⟨"8"⟩ (fun step => if step = .flush then some .noSpace else none),
      .reopen, .commit .localization ⟨"é"⟩ soundDevice])).toOption =
      some ⟨some ⟨"7\"\n"⟩, some ⟨"é"⟩⟩ ∧
    ∃ m, sample.load (sample.after .empty [.commit .gameData ⟨"7"⟩ soundDevice,
      .overwrite "[1"]) = .error (.persistence m) := by
  refine ⟨⟨[], rfl⟩, ?_, ?_⟩
  · exact ((answers_as_memory sample .empty _ ⟨[], rfl⟩).2.2.2.2.2 (.inl sample_usable)).1.trans
      (by decide)
  · have hall := answers_as_memory sample .empty
      [.commit .gameData ⟨"7"⟩ soundDevice, .overwrite "[1"] ⟨[], rfl⟩
    have hversions := (hall.2.2.2.2.2 (.inl sample_usable)).1
    rw [show ((sample.ledger .empty).after
      [.commit .gameData ⟨"7"⟩ soundDevice, .overwrite "[1"]).versions = none by decide] at hversions
    cases hload : sample.load (sample.after .empty
      [.commit .gameData ⟨"7"⟩ soundDevice, .overwrite "[1"]) with
    | ok s =>
      rw [hload] at hversions
      cases hversions
    | error e =>
      obtain ⟨⟨m, rfl⟩, -⟩ := hall.1 e hload
      exact ⟨m, rfl⟩

end VersionFile

end ContentSync
