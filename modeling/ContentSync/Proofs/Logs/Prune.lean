import ContentSync.Logs.Prune
import ContentSync.Proofs.Store.FileSystem
import ContentSync.Proofs.Time.Dates
import Mathlib.Data.List.Perm.Subperm
import Mathlib.Data.List.Sort

/-!
# Log files that are deleted

Of the files whose names start with the name of an application and a point all are deleted but those with
the latest names. The daily logs of an application are among these files, and where there are no others
the latest names are those of the latest days.

* `Logs.Superseded` — there are enough later ones;
* `Logs.mem_drop_iff_superseded` — what is left of a descending list;
* `Logs.AppFile`, `Logs.mem_filesOf` — the files of an application;
* `FileSystem.removeAll`, `FileSystem.view_removeAll` — files are removed one after the other;
* `Logs.Daily`, `Logs.older_iff_lt` — the daily logs, whose names are in the order of their days;
* `Logs.prune_outdated_iff` — what is deleted, and when it is what the days call for.
-/

set_option autoImplicit false

namespace ContentSync

/-! ## Several files -/

namespace FileSystem

variable {fs : FileSystem} {directory : FilePath} {old : List String}

/-- Some names are removed from a directory. -/
def removeAll (fs : FileSystem) (directory : FilePath) (old : List String) : FileSystem :=
  old.foldl (fun left name => left.remove (directory ++ [name])) fs

theorem removeAll_cons (fs : FileSystem) (directory : FilePath) (name : String) (old : List String) :
    fs.removeAll directory (name :: old) = (fs.remove (directory ++ [name])).removeAll directory old :=
  rfl

/-- **Files are removed one after the other**, and nothing else changes. -/
theorem view_removeAll (hold : old.Nodup)
    (hfiles : ∀ name ∈ old, ∃ text, fs.view (directory ++ [name]) = some (some text))
    (place : FilePath) : (fs.removeAll directory old).view place =
      if ∃ name ∈ old, place = directory ++ [name] then none else fs.view place := by
  induction old generalizing fs with
  | nil => simp [removeAll]
  | cons name old ih =>
    obtain ⟨hnot, hrest⟩ := List.nodup_cons.1 hold
    obtain ⟨⟨text, hfile⟩, hothers⟩ := List.forall_mem_cons.1 hfiles
    have hremove := view_remove hfile
    have hleft : ∀ other ∈ old, ∃ text,
        (fs.remove (directory ++ [name])).view (directory ++ [other]) = some (some text) := by
      intro other hother
      obtain ⟨text', hfile'⟩ := hothers other hother
      have hne : directory ++ [other] ≠ directory ++ [name] := by
        intro heq
        obtain rfl : other = name := List.singleton_inj.1 (List.append_cancel_left heq)
        exact hnot hother
      exact ⟨text', by rw [hremove, if_neg hne, hfile']⟩
    rw [removeAll_cons, ih hrest hleft, hremove]
    simp only [List.mem_cons, exists_eq_or_imp]
    by_cases hhere : place = directory ++ [name] <;>
      by_cases hthere : ∃ other ∈ old, place = directory ++ [other] <;> simp only [hhere, hthere]
    all_goals simp

theorem nodup_names_removeAll (h : (fs.names directory).Nodup) :
    ((fs.removeAll directory old).names directory).Nodup := by
  induction old generalizing fs with
  | nil => exact h
  | cons name old ih => exact ih (nodup_names_remove h)

end FileSystem

namespace Logs

/-! ## What is left of a descending list -/

/-- Of some names, one that at least `keep` others are later than. -/
def Superseded (files : String → Prop) (before : String → String → Prop) (keep : Nat)
    (name : String) : Prop :=
  files name ∧ ∃ later : List String, later.Nodup ∧ later.length = keep ∧
    ∀ x ∈ later, files x ∧ before name x

theorem mem_take_iff {names : List String} (h : names.Nodup) {keep : Nat} {name : String} :
    name ∈ names.take keep ↔ name ∈ names ∧ name ∉ names.drop keep := by
  constructor
  · intro htake
    exact ⟨List.mem_of_mem_take htake, fun hdrop => List.disjoint_take_drop h le_rfl htake hdrop⟩
  · rintro ⟨hmem, hnot⟩
    rw [← List.take_append_drop keep names] at hmem
    exact (List.mem_append.1 hmem).resolve_right hnot

theorem mem_drop_iff_superseded {names : List String} (h : names.Pairwise (· > ·)) {keep : Nat}
    {name : String} : name ∈ names.drop keep ↔ Superseded (· ∈ names) (· < ·) keep name := by
  have hnodup : names.Nodup := h.imp ne_of_gt
  have hsplit : (names.take keep ++ names.drop keep).Pairwise (· > ·) := by rwa [List.take_append_drop]
  obtain ⟨-, -, hlater⟩ := List.pairwise_append.1 hsplit
  constructor
  · intro hname
    refine ⟨List.mem_of_mem_drop hname, names.take keep, hnodup.sublist (List.take_sublist _ _), ?_,
      fun x hx => ⟨List.mem_of_mem_take hx, hlater x hx name hname⟩⟩
    have hlength := List.length_pos_of_mem hname
    rw [List.length_drop] at hlength
    rw [List.length_take]
    omega
  · rintro ⟨hmem, later, hdistinct, hlength, hall⟩
    by_contra hnot
    -- All that is later than a name stands before it, and there is not enough room.
    have htake : name ∈ names.take keep := (mem_take_iff hnodup).2 ⟨hmem, hnot⟩
    obtain ⟨before, after, heq⟩ := List.append_of_mem htake
    have hnames : names = before ++ name :: (after ++ names.drop keep) := by
      rw [← List.cons_append, ← List.append_assoc, ← heq, List.take_append_drop]
    have hsub : later ⊆ before := by
      intro x hx
      obtain ⟨hxmem, hlt⟩ := hall x hx
      rw [hnames] at hxmem h
      obtain hbefore | hafter := List.mem_append.1 hxmem
      · exact hbefore
      · obtain ⟨hrest, -⟩ := List.pairwise_cons.1 (List.pairwise_append.1 h).2.1
        obtain rfl | hafter := List.mem_cons.1 hafter
        · exact absurd hlt (lt_irrefl _)
        · exact absurd hlt (hrest x hafter).asymm
    have hle := (List.subperm_of_subset hdistinct hsub).length_le
    have htotal := congrArg List.length heq
    rw [List.length_take, List.length_append, List.length_cons] at htotal
    omega

/-! ## Files of an application -/

variable {fs : FileSystem} {directory : FilePath} {app name : String} {keep : Nat}

/-- A regular file in a directory. -/
def HasFile (fs : FileSystem) (directory : FilePath) (name : String) : Prop :=
  ∃ text, fs.view (directory ++ [name]) = some (some text)

/-- A regular file whose name starts with the name of an application and a point. -/
def AppFile (fs : FileSystem) (directory : FilePath) (app name : String) : Prop :=
  HasFile fs directory name ∧ ∃ rest, name = app ++ "." ++ rest

theorem belongsTo_iff : belongsTo app name = true ↔ ∃ rest, name = app ++ "." ++ rest := by
  rw [belongsTo, List.isPrefixOf_iff_prefix]
  constructor
  · rintro ⟨rest, hrest⟩
    refine ⟨String.ofList rest, String.toList_injective ?_⟩
    rw [String.toList_append, String.toList_ofList, hrest]
  · rintro ⟨rest, rfl⟩
    exact ⟨rest.toList, String.toList_append.symm⟩

theorem mem_filesOf : name ∈ filesOf fs directory app ↔ AppFile fs directory app name := by
  rw [filesOf, List.mem_reverse, List.mem_filter, Bool.and_eq_true, belongsTo_iff, AppFile]
  simp only [HasFile, FileSystem.view_eq_file]
  cases hnode : fs.node? (directory ++ [name]) with
  | none => simp
  | some n =>
    have hmem : name ∈ fs.names directory :=
      FileSystem.mem_names (by rw [FileSystem.view_eq_map, hnode]; exact Option.some_ne_none _)
    cases n with
    | file text => simp [hmem]
    | directory => simp

theorem filesOf_descending (h : (fs.names directory).Nodup) (app : String) :
    (filesOf fs directory app).Pairwise (· > ·) := by
  have hsorted : (fs.names directory).Pairwise (· ≤ ·) := by
    simpa [FileSystem.names] using List.pairwise_mergeSort' (· ≤ ·) _
  have hascending : (fs.names directory).Pairwise (· < ·) :=
    (hsorted.and h).imp fun hab => lt_of_le_of_ne hab.1 hab.2
  rw [filesOf, List.pairwise_reverse]
  exact hascending.filter _

/-! ## Daily logs -/

/-- The name of the log of a day. -/
def dailyName (app : String) (d : Timestamp.Date) : String := app ++ "." ++ Timestamp.dateText d

/-- The name of a daily log. -/
def Daily (app name : String) : Prop := ∃ d : Timestamp.Date, d.Plain ∧ name = dailyName app d

/-- The name of a daily log and that of one of a later day. -/
def Older (app name other : String) : Prop := ∃ d d' : Timestamp.Date, d.Plain ∧ d'.Plain ∧
  d.Before d' ∧ name = dailyName app d ∧ other = dailyName app d'

/-- A daily log with at least `keep` others of later days. -/
def Outdated (fs : FileSystem) (directory : FilePath) (app : String) (keep : Nat) : String → Prop :=
  Superseded (fun name => HasFile fs directory name ∧ Daily app name) (Older app) keep

theorem dailyName_lt_iff {d d' : Timestamp.Date} (hd : d.Plain) (hd' : d'.Plain) :
    dailyName app d < dailyName app d' ↔ d.Before d' := by
  rw [String.lt_iff_toList_lt, dailyName, dailyName, String.toList_append,
    String.toList_append (t := Timestamp.dateText d'), Timestamp.append_lt_append_left_iff,
    ← String.lt_iff_toList_lt, Timestamp.dateText_lt_iff hd hd']

theorem Older.lt {other : String} (h : Older app name other) : name < other := by
  obtain ⟨d, d', hd, hd', hbefore, rfl, rfl⟩ := h
  exact (dailyName_lt_iff hd hd').2 hbefore

/-- **The names of daily logs are in the order of their days.** -/
theorem older_iff_lt {other : String} (h : Daily app name) (h' : Daily app other) :
    Older app name other ↔ name < other := by
  refine ⟨Older.lt, fun hlt => ?_⟩
  obtain ⟨d, hd, rfl⟩ := h
  obtain ⟨d', hd', rfl⟩ := h'
  exact ⟨d, d', hd, hd', (dailyName_lt_iff hd hd').1 hlt, rfl, rfl⟩

/-- A date has ten characters. -/
theorem Daily.length_eq (h : Daily app name) : name.length = app.length + 11 := by
  obtain ⟨d, hd, rfl⟩ := h
  have hdate : (Timestamp.dateText d).length = 10 := by
    rw [← String.length_toList, Timestamp.length_dateText hd]
  rw [dailyName, String.length_append, String.length_append, hdate]
  rfl

theorem Daily.appFile (h : Daily app name) (hfile : HasFile fs directory name) :
    AppFile fs directory app name := by
  obtain ⟨d, -, rfl⟩ := h
  exact ⟨hfile, _, rfl⟩

open Classical in
/-- What the days call for. -/
theorem outdated_iff (h : (fs.names directory).Nodup) : Outdated fs directory app keep name ↔
    name ∈ ((filesOf fs directory app).filter fun name => Daily app name).drop keep := by
  rw [mem_drop_iff_superseded ((filesOf_descending h app).filter _)]
  have hmem : ∀ x, x ∈ (filesOf fs directory app).filter (fun name => Daily app name) ↔
      HasFile fs directory x ∧ Daily app x := by
    intro x
    rw [List.mem_filter, mem_filesOf, decide_eq_true_iff]
    exact ⟨fun hx => ⟨hx.1.1, hx.2⟩, fun hx => ⟨hx.2.appFile hx.1, hx.2⟩⟩
  simp only [Outdated, Superseded, hmem]
  constructor
  · rintro ⟨hname, later, hdistinct, hlength, hall⟩
    exact ⟨hname, later, hdistinct, hlength, fun x hx => ⟨(hall x hx).1, (hall x hx).2.lt⟩⟩
  · rintro ⟨hname, later, hdistinct, hlength, hall⟩
    exact ⟨hname, later, hdistinct, hlength, fun x hx =>
      ⟨(hall x hx).1, (older_iff_lt hname.2 (hall x hx).1.2).2 (hall x hx).2⟩⟩

/-- The days call for too little, unless all files of the application are daily logs. -/
theorem outdated_iff_removed (h : (fs.names directory).Nodup) :
    (∀ name, name ∈ (filesOf fs directory app).drop keep ↔ Outdated fs directory app keep name) ↔
      (filesOf fs directory app).drop keep = [] ∨
        ∀ name, AppFile fs directory app name → Daily app name := by
  classical
  have hnodup : (filesOf fs directory app).Nodup := (filesOf_descending h app).imp ne_of_gt
  let daily := (filesOf fs directory app).filter fun name => Daily app name
  have houtdated : ∀ name, Outdated fs directory app keep name ↔ name ∈ daily.drop keep :=
    fun name => outdated_iff h
  have hfewer : daily.length ≤ (filesOf fs directory app).length := List.length_filter_le _ _
  have hall : daily.length = (filesOf fs directory app).length ↔
      ∀ name, AppFile fs directory app name → Daily app name := by
    simp only [daily, List.length_filter_eq_length_iff, mem_filesOf, decide_eq_true_iff]
  simp only [houtdated, ← hall, List.drop_eq_nil_iff]
  constructor
  · intro hsame
    -- With the same members both lists have the same length.
    have hperm := (List.perm_ext_iff_of_nodup (hnodup.sublist (List.drop_sublist keep _))
      ((hnodup.filter _).sublist (List.drop_sublist keep daily))).2 hsame
    have hlength := hperm.length_eq
    rw [List.length_drop, List.length_drop] at hlength
    omega
  · rintro (hfew | hsame) name
    · rw [List.drop_eq_nil_iff.2 hfew, List.drop_eq_nil_iff.2 (hfewer.trans hfew)]
    · have heq : daily = filesOf fs directory app := List.filter_sublist.eq_of_length hsame
      rw [heq]

/-! ## Pruning -/

theorem prune_eq {there : FilePath} (hwalk : fs.walk [] directory = .ok there) (app : String) (keep : Nat) :
    prune fs directory app keep = .ok (((filesOf fs directory app).drop keep).length,
      fs.removeAll directory ((filesOf fs directory app).drop keep)) := by
  rw [prune, hwalk]
  rfl

theorem hasFile_of_mem_drop (h : name ∈ (filesOf fs directory app).drop keep) :
    HasFile fs directory name := (mem_filesOf.1 (List.mem_of_mem_drop h)).1

/-- The files of an application that are kept. -/
theorem filesOf_removeAll (h : (fs.names directory).Nodup) (app : String) (keep : Nat) :
    filesOf (fs.removeAll directory ((filesOf fs directory app).drop keep)) directory app =
      (filesOf fs directory app).take keep := by
  have hdescending := filesOf_descending h app
  have hnodup := hdescending.imp ne_of_gt
  refine List.Pairwise.eq_of_mem_iff (filesOf_descending (FileSystem.nodup_names_removeAll h) app)
    (hdescending.sublist (List.take_sublist keep _)) fun name => ?_
  have hfile : HasFile (fs.removeAll directory ((filesOf fs directory app).drop keep)) directory name ↔
      HasFile fs directory name ∧ name ∉ (filesOf fs directory app).drop keep := by
    have hview := FileSystem.view_removeAll (hnodup.sublist (List.drop_sublist keep _))
      (fun _ => hasFile_of_mem_drop) (directory ++ [name])
    have hplace : (∃ other ∈ (filesOf fs directory app).drop keep,
        directory ++ [name] = directory ++ [other]) ↔ name ∈ (filesOf fs directory app).drop keep := by
      simp
    simp only [HasFile, hview, hplace]
    split <;> simp [*]
  rw [mem_filesOf, mem_take_iff hnodup, mem_filesOf, AppFile, AppFile, hfile, and_right_comm]

/-- **The files with the latest names are kept**, and with them, where there are no others, the logs of the
latest days. -/
theorem prune_outdated_iff (hwalk : fs.walk [] directory = .ok directory)
    (hnames : (fs.names directory).Nodup) (app : String) (keep : Nat) :
    ∃ removed left, prune fs directory app keep = .ok (removed.length, left) ∧ removed.Nodup ∧
      (∀ name, name ∈ removed ↔ Superseded (AppFile fs directory app) (· < ·) keep name) ∧
      (∀ place, left.view place =
        if ∃ name ∈ removed, place = directory ++ [name] then none else fs.view place) ∧
      prune left directory app keep = .ok (0, left) ∧
      (∀ name, Outdated fs directory app keep name → name ∈ removed) ∧
      ((∀ name, name ∈ removed ↔ Outdated fs directory app keep name) ↔
        removed = [] ∨ ∀ name, AppFile fs directory app name → Daily app name) := by
  have hdescending := filesOf_descending hnames app
  have hremoved : ∀ name, name ∈ (filesOf fs directory app).drop keep ↔
      Superseded (AppFile fs directory app) (· < ·) keep name := by
    intro name
    rw [mem_drop_iff_superseded hdescending]
    simp only [Superseded, mem_filesOf]
  have hnodup : ((filesOf fs directory app).drop keep).Nodup :=
    (hdescending.imp ne_of_gt).sublist (List.drop_sublist keep _)
  have hview := FileSystem.view_removeAll hnodup fun _ => hasFile_of_mem_drop
  refine ⟨_, _, prune_eq hwalk app keep, hnodup, hremoved, hview, ?_, ?_, outdated_iff_removed hnames⟩
  · have hdirectories : ∀ r, fs.view r = some none →
        (fs.removeAll directory ((filesOf fs directory app).drop keep)).view r = some none := by
      intro r hr
      rw [hview, if_neg, hr]
      rintro ⟨name, hname, rfl⟩
      obtain ⟨text, htext⟩ := hasFile_of_mem_drop hname
      rw [htext] at hr
      cases hr
    rw [prune_eq (FileSystem.walk_mono hdirectories hwalk), filesOf_removeAll hnames,
      List.drop_eq_nil_iff.2 (List.length_take_le _ _)]
    rfl
  · rintro name ⟨⟨hfile, hdaily⟩, later, hdistinct, hlength, hlater⟩
    refine (hremoved name).2 ⟨hdaily.appFile hfile, later, hdistinct, hlength, fun x hx => ?_⟩
    obtain ⟨⟨hxfile, hxdaily⟩, holder⟩ := hlater x hx
    exact ⟨hxdaily.appFile hxfile, holder.lt⟩

/-- A directory with some empty files. -/
def folder (names : List String) : FileSystem :=
  ⟨[("logs", .directory (names.map fun name => (name, .file "")))]⟩

theorem names_folder {names : List String} (h : names.Pairwise (· ≤ ·)) :
    (folder names).names ["logs"] = names := by
  have hnode : (folder names).node? ["logs"] =
      some (.directory (names.map fun name => (name, .file ""))) := rfl
  have hnames : (names.map fun name => (name, FileNode.file "")).map (·.1) = names := by
    simp [Function.comp_def]
  rw [FileSystem.names_of_sorted hnode (by rwa [hnames]), hnames]

/-- Two daily logs, and one of another application. -/
theorem prune_outdated_iff_days :
    let fs := folder ["other_app.2026-10-01", "server_datasync.2026-10-01", "server_datasync.2026-10-02"]
    fs.walk [] ["logs"] = .ok ["logs"] ∧ (fs.names ["logs"]).Nodup ∧
      ∃ (removed : List String) (left : FileSystem),
        prune fs ["logs"] "server_datasync" 1 = .ok (removed.length, left) ∧
        (∀ name, name ∈ removed ↔ Outdated fs ["logs"] "server_datasync" 1 name) ∧
        prune left ["logs"] "server_datasync" 1 = .ok (0, left) := by
  intro fs
  have hwalk : fs.walk [] ["logs"] = .ok ["logs"] := by decide +kernel
  have hlisted : fs.names ["logs"] = _ := names_folder (by decide +kernel)
  have hnames : (fs.names ["logs"]).Nodup := by
    rw [hlisted]
    decide +kernel
  have hfiles : filesOf fs ["logs"] "server_datasync" =
      ["server_datasync.2026-10-02", "server_datasync.2026-10-01"] := by
    rw [filesOf, hlisted]
    decide +kernel
  have hdaily : ∀ name, AppFile fs ["logs"] "server_datasync" name → Daily "server_datasync" name := by
    intro name hname
    rw [← mem_filesOf, hfiles, List.mem_cons, List.mem_singleton] at hname
    obtain rfl | rfl := hname
    · exact ⟨⟨2026, 10, 2⟩, by constructor <;> decide, by decide +kernel⟩
    · exact ⟨⟨2026, 10, 1⟩, by constructor <;> decide, by decide +kernel⟩
  obtain ⟨removed, left, hprune, -, -, -, hagain, -, hiff⟩ :=
    prune_outdated_iff hwalk hnames "server_datasync" 1
  exact ⟨hwalk, hnames, removed, left, hprune, hiff.2 (.inr hdaily), hagain⟩

/-- A configuration file among the logs is kept instead of the latest of them. -/
theorem prune_removes_latest :
    let fs := folder ["server_datasync.2026-10-01", "server_datasync.2026-10-02", "server_datasync.conf"]
    prune fs ["logs"] "server_datasync" 1 = .ok (2, folder ["server_datasync.conf"]) ∧
      HasFile fs ["logs"] "server_datasync.2026-10-02" ∧
      ¬ Outdated fs ["logs"] "server_datasync" 1 "server_datasync.2026-10-02" := by
  intro fs
  have hwalk : fs.walk [] ["logs"] = .ok ["logs"] := by decide +kernel
  have hlisted : fs.names ["logs"] = _ := names_folder (by decide +kernel)
  have hfiles : filesOf fs ["logs"] "server_datasync" = ["server_datasync.conf",
      "server_datasync.2026-10-02", "server_datasync.2026-10-01"] := by
    rw [filesOf, hlisted]
    decide +kernel
  refine ⟨?_, ⟨"", by rfl⟩, ?_⟩
  · rw [prune_eq hwalk, hfiles]
    rfl
  · rintro ⟨-, later, -, hone, hlater⟩
    obtain ⟨name, rfl⟩ := List.length_eq_one_iff.1 hone
    obtain ⟨⟨hfile, hdaily⟩, holder⟩ := hlater name List.mem_cons_self
    have hname := mem_filesOf.2 (hdaily.appFile hfile)
    rw [hfiles] at hname
    obtain rfl | hname := List.mem_cons.1 hname
    · exact absurd hdaily.length_eq (by decide)
    · have hlate : ∀ x ∈ ["server_datasync.2026-10-02", "server_datasync.2026-10-01"],
          ¬ "server_datasync.2026-10-02" < x := by decide +kernel
      exact hlate name hname holder.lt

end Logs

end ContentSync
