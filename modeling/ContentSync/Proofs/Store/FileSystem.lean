import ContentSync.Store.FileSystem
import Mathlib.Data.List.Basic

/-!
# Files that are written and removed

Where a path leads depends only on which places are directories and what the files say.

* `FileSystem.view` — what stands at a place, whatever is in a directory there;
* `FileSystem.view_put_file`, `FileSystem.view_put_directory`, `FileSystem.view_remove` — what an
  operation changes, and that it changes nothing else;
* `FileSystem.Extends` — there are more directories, and nothing else is different;
* `FileSystem.makeDirectories_spec` — directories are made where they are missing, and the path
  leads there;
* `FileSystem.Nameable` — a path that can mean a file;
* `FileSystem.read_ok`, `FileSystem.replace_ok`, `FileSystem.delete_cases` — where a file is read,
  moved into place and deleted.
-/

set_option autoImplicit false

namespace ContentSync

/-! ## Nodes -/

namespace FileNode

variable {n new : FileNode} {name step : String} {here r s : FilePath}

/-- The text of a file. -/
def text? : FileNode → Option String
  | file text => some text
  | directory _ => none

/-- What stands under a path: a text, or a directory with anything in it. -/
def view (n : FileNode) (r : FilePath) : Option (Option String) := (n.at? r).map text?

theorem view_nil (n : FileNode) : n.view [] = some n.text? := rfl

theorem view_cons (n : FileNode) (name : String) (r : FilePath) :
    n.view (name :: r) = (List.lookup name n.entries).bind (·.view r) := by
  simp only [view, at?]
  cases List.lookup name n.entries <;> rfl

theorem view_append (n : FileNode) (r s : FilePath) :
    n.view (r ++ s) = (n.at? r).bind (·.view s) := by
  induction r generalizing n with
  | nil => rfl
  | cons name r ih =>
    rw [List.cons_append, view_cons, at?]
    cases List.lookup name n.entries with
    | none => rfl
    | some inner => simp [ih]

/-- Only directories have anything under them. -/
theorem view_append_eq_none (h : n.view r ≠ some none) (hs : s ≠ []) : n.view (r ++ s) = none := by
  rw [view_append]
  cases hr : n.at? r with
  | none => rfl
  | some inner =>
    obtain ⟨name, s, rfl⟩ := List.exists_cons_of_ne_nil hs
    cases inner with
    | file text => simp [view, at?, entries]
    | directory es => exact absurd (by simp [view, hr, text?]) h

theorem lookup_filter_of_ne {es : List (String × FileNode)} {m : String} (h : m ≠ name) :
    List.lookup m (es.filter fun e => e.1 ≠ name) = List.lookup m es := by
  induction es with
  | nil => rfl
  | cons e es ih =>
    obtain ⟨k, x⟩ := e
    by_cases hk : k = name
    · subst hk
      simpa [List.lookup_cons, beq_false_of_ne h] using ih
    · rw [List.filter_cons_of_pos (by simpa using hk), List.lookup_cons, List.lookup_cons, ih]

theorem lookup_filter_self {es : List (String × FileNode)} :
    List.lookup name (es.filter fun e => e.1 ≠ name) = none := by
  induction es with
  | nil => rfl
  | cons e es ih =>
    by_cases he : e.1 = name
    · simpa [he] using ih
    · simpa [he, List.lookup_cons, Ne.symm he] using ih

/-- Another entry is seen in the place of one, and nothing else is different. -/
theorem view_withEntry (n inner : FileNode) (name m : String) (r : FilePath) :
    (n.withEntry name inner).view (m :: r) = if m = name then inner.view r else n.view (m :: r) := by
  rw [view_cons, withEntry, entries]
  split
  · rename_i h
    subst h
    simp
  · rename_i h
    rw [List.lookup_cons, beq_false_of_ne h, lookup_filter_of_ne h, view_cons]

/-- Something empty in a directory, unless it takes the place of another directory, is all that
there is more to be seen. -/
theorem view_put (hdir : n.view here = some none) (hfree : n.view (here ++ [step]) ≠ some none)
    (hnew : new.entries = []) (r : FilePath) :
    (n.put (here ++ [step]) new).view r =
      if r = here ++ [step] then some new.text? else n.view r := by
  induction here generalizing n r with
  | nil =>
    cases r with
    | nil => exact hdir.symm
    | cons m r =>
      simp only [List.nil_append, put, view_withEntry, List.cons.injEq]
      by_cases hm : m = step
      · subst hm
        cases r with
        | nil => simp [view_nil]
        | cons m' r =>
          have hnone : n.view (m :: m' :: r) = none :=
            view_append_eq_none hfree (List.cons_ne_nil m' r)
          simp [hnone, view_cons, hnew]
      · simp [hm]
  | cons d here ih =>
    rw [List.cons_append, view_cons] at hfree
    rw [view_cons] at hdir
    cases hd : List.lookup d n.entries with
    | none => simp [hd] at hdir
    | some inner =>
      simp only [hd, Option.bind_some] at hdir hfree
      cases r with
      | nil =>
        cases n with
        | file text => simp [entries] at hd
        | directory es => rfl
      | cons m r =>
        simp only [List.cons_append, put, hd, Option.getD_some, view_withEntry, List.cons.injEq]
        by_cases hm : m = d
        · subst hm
          simp [ih hdir hfree, view_cons, hd]
        · simp [hm]

theorem remove_cons_append (n : FileNode) (d : String) (here : FilePath) (step : String) :
    n.remove (d :: (here ++ [step])) =
      match List.lookup d n.entries with
      | some inner => n.withEntry d (inner.remove (here ++ [step]))
      | none => n := by
  have hne : here ++ [step] ≠ [] := List.append_ne_nil_of_right_ne_nil here (List.cons_ne_nil step [])
  generalize here ++ [step] = rest at hne ⊢
  cases rest with
  | nil => exact absurd rfl hne
  | cons => rfl

/-- Nothing is seen where a file was removed, and nothing else is different. -/
theorem view_remove {text : String} (hfile : n.view (here ++ [step]) = some (some text))
    (r : FilePath) :
    (n.remove (here ++ [step])).view r = if r = here ++ [step] then none else n.view r := by
  induction here generalizing n r with
  | nil =>
    cases n with
    | file => simp [view_cons, entries] at hfile
    | directory es =>
      cases r with
      | nil => rfl
      | cons m r =>
        simp only [List.nil_append, remove, view_cons, entries, List.cons.injEq]
        by_cases hm : m = step
        · subst hm
          rw [lookup_filter_self, Option.bind_none]
          cases r with
          | nil => simp
          | cons m' r =>
            have hnone : (directory es).view ([m] ++ m' :: r) = none :=
              view_append_eq_none (by simp only [List.nil_append] at hfile; simp [hfile])
                (List.cons_ne_nil _ _)
            simpa [view_cons, entries] using hnone.symm
        · rw [lookup_filter_of_ne hm]
          simp [hm]
  | cons d here ih =>
    rw [List.cons_append, view_cons] at hfile
    cases hd : List.lookup d n.entries with
    | none => simp [hd] at hfile
    | some inner =>
      simp only [hd, Option.bind_some] at hfile
      have hremove : n.remove (d :: here ++ [step]) = n.withEntry d (inner.remove (here ++ [step])) := by
        rw [List.cons_append, remove_cons_append, hd]
      cases r with
      | nil =>
        cases n with
        | file text => simp [entries] at hd
        | directory es' =>
          rw [hremove]
          simp [withEntry, view_nil, text?]
      | cons m r =>
        rw [hremove, view_withEntry]
        by_cases hm : m = d
        · subst hm
          simp [ih hfile, view_cons, hd]
        · simp [hm]

/-- What a directory has, once an entry was removed from it. -/
theorem entries_at?_remove (n : FileNode) (here : FilePath) (step : String) :
    (((n.remove (here ++ [step])).at? here).map entries).getD [] =
      (((n.at? here).map entries).getD []).filter fun e => e.1 ≠ step := by
  induction here generalizing n with
  | nil => cases n <;> rfl
  | cons d here ih =>
    rw [List.cons_append, remove_cons_append]
    cases hd : List.lookup d n.entries with
    | none => simp [at?, hd]
    | some inner =>
      have hself : List.lookup d (n.withEntry d (inner.remove (here ++ [step]))).entries =
          some (inner.remove (here ++ [step])) := List.lookup_cons_self
      rw [at?, at?, hd, hself]
      exact ih inner

/-- A directory is its entries. -/
theorem map_entries_at? (n : FileNode) (r : FilePath) :
    ((directory n.entries).at? r).map entries = (n.at? r).map entries := by
  cases r <;> rfl

theorem view_directory_entries (h : n.view [] = some none) (r : FilePath) :
    (directory n.entries).view r = n.view r := by
  cases n with
  | file => cases h
  | directory => rfl

end FileNode

/-! ## Places -/

namespace FileSystem

variable {fs later : FileSystem} {here place there r s : FilePath} {step text : String}
  {steps : List String}

/-- What stands at a place: a text, or a directory with anything in it. -/
def view (fs : FileSystem) (place : FilePath) : Option (Option String) :=
  (FileNode.directory fs.root).view place

theorem view_eq_map (fs : FileSystem) (place : FilePath) :
    fs.view place = (fs.node? place).map FileNode.text? := rfl

theorem view_eq_directory :
    fs.view place = some none ↔ ∃ es, fs.node? place = some (.directory es) := by
  rw [view_eq_map, Option.map_eq_some_iff]
  constructor
  · rintro ⟨n, hn, htext⟩
    cases n with
    | file => cases htext
    | directory es => exact ⟨es, hn⟩
  · rintro ⟨es, hn⟩
    exact ⟨_, hn, rfl⟩

theorem view_eq_file : fs.view place = some (some text) ↔ fs.node? place = some (.file text) := by
  rw [view_eq_map, Option.map_eq_some_iff]
  constructor
  · rintro ⟨n, hn, htext⟩
    cases n with
    | file => cases htext; exact hn
    | directory => cases htext
  · intro hn
    exact ⟨_, hn, rfl⟩

theorem view_nil (fs : FileSystem) : fs.view [] = some none := rfl

theorem view_append_eq_none (h : fs.view r ≠ some none) (hs : s ≠ []) : fs.view (r ++ s) = none :=
  FileNode.view_append_eq_none h hs

/-- One directory up from a directory is a directory. -/
theorem view_dropLast (h : fs.view here = some none) : fs.view here.dropLast = some none := by
  by_cases hne : here = []
  · subst hne
    rfl
  · by_contra hdrop
    have hnone := view_append_eq_none hdrop (List.cons_ne_nil (here.getLast hne) [])
    rw [List.dropLast_append_getLast hne, h] at hnone
    cases hnone

/-! ## What operations change -/

theorem view_put {node : FileNode} (hdir : fs.view here = some none)
    (hfree : fs.view (here ++ [step]) ≠ some none) (hnode : node.entries = []) (r : FilePath) :
    (fs.put (here ++ [step]) node).view r =
      if r = here ++ [step] then some node.text? else fs.view r := by
  have hput := FileNode.view_put hdir hfree hnode
  have hroot := hput []
  rw [if_neg (by simp)] at hroot
  exact (FileNode.view_directory_entries hroot r).trans (hput r)

/-- **A file is put at a place** and nothing else changes. -/
theorem view_put_file (hdir : fs.view here = some none)
    (hfree : fs.view (here ++ [step]) ≠ some none) (text : String) (r : FilePath) :
    (fs.put (here ++ [step]) (.file text)).view r =
      if r = here ++ [step] then some (some text) else fs.view r :=
  view_put hdir hfree rfl r

/-- **A directory is made** and nothing else changes. -/
theorem view_put_directory (hdir : fs.view here = some none)
    (hfree : fs.view (here ++ [step]) = none) (r : FilePath) :
    (fs.put (here ++ [step]) (.directory [])).view r =
      if r = here ++ [step] then some none else fs.view r :=
  view_put hdir (by rw [hfree]; nofun) rfl r

/-- **A file is removed** and nothing else changes. -/
theorem view_remove (hfile : fs.view (here ++ [step]) = some (some text)) (r : FilePath) :
    (fs.remove (here ++ [step])).view r = if r = here ++ [step] then none else fs.view r := by
  have hremove := FileNode.view_remove hfile
  have hroot := hremove []
  rw [if_neg (by simp)] at hroot
  exact (FileNode.view_directory_entries hroot r).trans (hremove r)

/-! ### Names -/

/-- What is in a directory, by name. -/
theorem names_eq (fs : FileSystem) (here : FilePath) : fs.names here =
    ((((FileNode.directory fs.root).at? here).map FileNode.entries).getD [] |>.map (·.1)).mergeSort
      fun a b => a ≤ b := rfl

/-- Names that are in order are not sorted again. -/
theorem names_of_sorted {es : List (String × FileNode)} (h : fs.node? here = some (.directory es))
    (hsorted : (es.map (·.1)).Pairwise (· ≤ ·)) : fs.names here = es.map (·.1) := by
  rw [names, h]
  exact List.mergeSort_of_pairwise (hsorted.imp decide_eq_true)

/-- Something stands in a directory only under one of its names. -/
theorem mem_names (h : fs.view (here ++ [step]) ≠ none) : step ∈ fs.names here := by
  rw [view, FileNode.view_append] at h
  rw [names_eq, List.mem_mergeSort]
  cases hnode : (FileNode.directory fs.root).at? here with
  | none => simp [hnode] at h
  | some n =>
    rw [hnode, Option.bind_some, FileNode.view_cons] at h
    cases hlookup : List.lookup step n.entries with
    | none => simp [hlookup] at h
    | some inner =>
      obtain ⟨before, after, heq, -⟩ := List.lookup_eq_some_iff.1 hlookup
      simp [heq]

/-- Names that are distinct stay so where one is removed. -/
theorem nodup_names_remove (h : (fs.names here).Nodup) :
    ((fs.remove (here ++ [step])).names here).Nodup := by
  rw [names_eq, (List.mergeSort_perm _ _).nodup_iff] at h ⊢
  rw [remove, FileNode.map_entries_at?, FileNode.entries_at?_remove]
  exact h.sublist (List.filter_sublist.map _)

/-- There are more directories, and nothing else is different. -/
def Extends (fs later : FileSystem) : Prop :=
  ∀ r, later.view r = fs.view r ∨ (fs.view r = none ∧ later.view r = some none)

theorem Extends.refl (fs : FileSystem) : fs.Extends fs := fun _ => .inl rfl

theorem Extends.trans {mid : FileSystem} (h : fs.Extends mid) (h' : mid.Extends later) :
    fs.Extends later := by
  intro r
  obtain heq | ⟨hnone, hdir⟩ := h r <;> obtain heq' | ⟨hnone', hdir'⟩ := h' r
  · exact .inl (heq'.trans heq)
  · exact .inr ⟨heq ▸ hnone', hdir'⟩
  · exact .inr ⟨hnone, heq'.trans hdir⟩
  · rw [hdir] at hnone'
    cases hnone'

theorem Extends.directory (h : fs.Extends later) (hr : fs.view r = some none) :
    later.view r = some none := by
  obtain heq | ⟨hnone, -⟩ := h r
  · rw [heq, hr]
  · rw [hr] at hnone
    cases hnone

/-- No file comes, goes or changes. -/
theorem Extends.file_iff (h : fs.Extends later) :
    later.view r = some (some text) ↔ fs.view r = some (some text) := by
  obtain heq | ⟨hnone, hdir⟩ := h r
  · rw [heq]
  · simp [hnone, hdir]

theorem extends_put_directory (hdir : fs.view here = some none)
    (hfree : fs.view (here ++ [step]) = none) :
    fs.Extends (fs.put (here ++ [step]) (.directory [])) := by
  intro r
  rw [view_put_directory hdir hfree]
  split
  · rename_i hr
    exact .inr ⟨hr ▸ hfree, rfl⟩
  · exact .inl rfl

/-! ## Where paths lead -/

theorem enter_eq (fs : FileSystem) (here : FilePath) (step : String) :
    fs.enter here step =
      if step = WrittenPath.up then .ok here.dropLast
      else if WrittenPath.nameLimit < step.utf8ByteSize then .error .nameTooLong
      else match fs.view (here ++ [step]) with
        | some none => .ok (here ++ [step])
        | some (some _) => .error .notADirectory
        | none => .error .notFound := by
  unfold enter
  rw [view_eq_map]
  split_ifs
  · rfl
  · rfl
  · cases fs.node? (here ++ [step]) with
    | none => rfl
    | some n => cases n <;> rfl

theorem makeDirectories_cons (fs : FileSystem) (here : FilePath) (step : String)
    (steps : List String) :
    fs.makeDirectories here (step :: steps) =
      if step = WrittenPath.up then fs.makeDirectories here.dropLast steps
      else if WrittenPath.nameLimit < step.utf8ByteSize then (.error .nameTooLong, fs)
      else match fs.view (here ++ [step]) with
        | some none => fs.makeDirectories (here ++ [step]) steps
        | some (some _) => (.error (if steps.isEmpty then .alreadyExists else .notADirectory), fs)
        | none =>
          (fs.put (here ++ [step]) (.directory [])).makeDirectories (here ++ [step]) steps := by
  rw [makeDirectories, view_eq_map]
  split_ifs
  · rfl
  · rfl
  · cases fs.node? (here ++ [step]) with
    | none => rfl
    | some n => cases n <;> rfl
  · cases fs.node? (here ++ [step]) with
    | none => rfl
    | some n => cases n <;> rfl

theorem walk_cons (fs : FileSystem) (here : FilePath) (step : String) (steps : List String) :
    fs.walk here (step :: steps) = (fs.enter here step).bind fun here => fs.walk here steps := rfl

/-- The place to which steps lead if every directory is there. -/
def resolve (here : FilePath) (steps : List String) : FilePath :=
  steps.foldl (fun here step => if step = WrittenPath.up then here.dropLast else here ++ [step])
    here

/-- A step leads to a directory. -/
theorem enter_ok (hdir : fs.view here = some none) (h : fs.enter here step = .ok there) :
    there = resolve here [step] ∧ fs.view there = some none := by
  rw [enter_eq] at h
  split_ifs at h with hup hlong
  · cases h
    exact ⟨by simp [resolve, hup], view_dropLast hdir⟩
  · split at h
    · rename_i hview
      cases h
      exact ⟨by simp [resolve, hup], hview⟩
    · contradiction
    · contradiction

/-- **Steps lead to a directory**, always to the same one. -/
theorem walk_ok (hdir : fs.view here = some none) (h : fs.walk here steps = .ok there) :
    there = resolve here steps ∧ fs.view there = some none := by
  induction steps generalizing here with
  | nil =>
    cases h
    exact ⟨rfl, hdir⟩
  | cons step steps ih =>
    rw [walk_cons] at h
    cases henter : fs.enter here step with
    | error e =>
      rw [henter] at h
      contradiction
    | ok next =>
      rw [henter] at h
      obtain ⟨rfl, hnext⟩ := enter_ok hdir henter
      exact ih hnext h

/-- Steps lead to the same place while no directory is lost. -/
theorem walk_mono (hmono : ∀ r, fs.view r = some none → later.view r = some none)
    (h : fs.walk here steps = .ok there) : later.walk here steps = .ok there := by
  induction steps generalizing here with
  | nil => exact h
  | cons step steps ih =>
    rw [walk_cons] at h ⊢
    cases henter : fs.enter here step with
    | error e =>
      rw [henter] at h
      contradiction
    | ok next =>
      rw [henter] at h
      have hlater : later.enter here step = .ok next := by
        rw [enter_eq] at henter ⊢
        split_ifs at henter ⊢
        · exact henter
        · split at henter
          · rename_i hview
            rw [hmono _ hview]
            exact henter
          · contradiction
          · contradiction
      rw [hlater]
      exact ih h

/-- **Directories are made on the way.** Nothing but directories comes into being, and if no step
fails the way leads there. -/
theorem makeDirectories_spec (steps : List String) (hdir : fs.view here = some none) :
    fs.Extends (fs.makeDirectories here steps).2 ∧
      ((fs.makeDirectories here steps).1 = .ok () →
        (fs.makeDirectories here steps).2.walk here steps = .ok (resolve here steps)) := by
  induction steps generalizing fs here with
  | nil => exact ⟨.refl fs, fun _ => rfl⟩
  | cons step steps ih =>
    rw [makeDirectories_cons]
    by_cases hup : step = WrittenPath.up
    · rw [if_pos hup]
      obtain ⟨hext, hwalk⟩ := ih (view_dropLast hdir)
      refine ⟨hext, fun hok => ?_⟩
      rw [walk_cons, enter_eq, if_pos hup]
      simpa [resolve, hup, Except.bind] using hwalk hok
    by_cases hlong : WrittenPath.nameLimit < step.utf8ByteSize
    · rw [if_neg hup, if_pos hlong]
      exact ⟨.refl fs, nofun⟩
    rw [if_neg hup, if_neg hlong]
    split
    · rename_i hview
      obtain ⟨hext, hwalk⟩ := ih hview
      refine ⟨hext, fun hok => ?_⟩
      rw [walk_cons, enter_eq, if_neg hup, if_neg hlong, hext.directory hview]
      simpa [resolve, hup, Except.bind] using hwalk hok
    · exact ⟨.refl fs, nofun⟩
    · rename_i hview
      have hmade := view_put_directory hdir hview (here ++ [step])
      rw [if_pos rfl] at hmade
      obtain ⟨hext, hwalk⟩ := ih hmade
      refine ⟨(extends_put_directory hdir hview).trans hext, fun hok => ?_⟩
      rw [walk_cons, enter_eq, if_neg hup, if_neg hlong, hext.directory hmade]
      simpa [resolve, hup, Except.bind] using hwalk hok

/-- Nothing is made where everything is there. -/
theorem makeDirectories_of_walk (h : fs.walk here steps = .ok there) :
    fs.makeDirectories here steps = (.ok (), fs) := by
  induction steps generalizing here with
  | nil => rfl
  | cons step steps ih =>
    rw [walk_cons, enter_eq] at h
    rw [makeDirectories_cons]
    by_cases hup : step = WrittenPath.up
    · rw [if_pos hup] at h ⊢
      exact ih h
    by_cases hlong : WrittenPath.nameLimit < step.utf8ByteSize
    · rw [if_neg hup, if_pos hlong] at h
      contradiction
    rw [if_neg hup, if_neg hlong] at h ⊢
    split at h
    · exact ih h
    · contradiction
    · contradiction

/-- Where directories can be made, the way fails only for want of them. -/
theorem walk_error {e : FileError} (hok : (fs.makeDirectories here steps).1 = .ok ())
    (h : fs.walk here steps = .error e) : e = .notFound := by
  induction steps generalizing here with
  | nil => contradiction
  | cons step steps ih =>
    rw [walk_cons, enter_eq] at h
    rw [makeDirectories_cons] at hok
    by_cases hup : step = WrittenPath.up
    · rw [if_pos hup] at h hok
      exact ih hok h
    by_cases hlong : WrittenPath.nameLimit < step.utf8ByteSize
    · rw [if_neg hup, if_pos hlong] at hok
      contradiction
    rw [if_neg hup, if_neg hlong] at h hok
    split at h
    · rename_i hview
      rw [hview] at hok
      exact ih hok h
    · rename_i hview
      rw [hview] at hok
      contradiction
    · cases h
      rfl

/-! ## What a path means -/

variable {p : WrittenPath}

/-- The name at the end of a path. -/
def lastName (p : WrittenPath) : String := p.steps.getLast?.getD ""

/-- A path that can mean a file: it is looked up at all, and ends in a name that is not too long. -/
structure Nameable (p : WrittenPath) : Prop where
  fault : p.fault? = none
  ending : p.ending = .name
  short : ¬ WrittenPath.nameLimit < (lastName p).utf8ByteSize

theorem Nameable.place_eq (h : Nameable p) (fs : FileSystem) :
    fs.place p = (fs.walk p.start p.parent).map (· ++ [lastName p]) := by
  obtain ⟨hfault, hending, hshort⟩ := h
  simp only [place, hfault, hending, lastName] at hshort ⊢
  cases fs.walk p.start p.parent with
  | error e => rfl
  | ok here => exact if_neg hshort

/-- A path means a directory, or an entry of a directory. -/
theorem place_ok (hstart : fs.view p.start = some none) (h : fs.place p = .ok place) :
    fs.view place = some none ∨
      Nameable p ∧ ∃ here, fs.walk p.start p.parent = .ok here ∧ fs.view here = some none ∧
        place = here ++ [lastName p] := by
  cases hfault : p.fault? with
  | some e =>
    simp only [FileSystem.place, hfault] at h
    contradiction
  | none =>
    cases hending : p.ending with
    | name =>
      right
      simp only [FileSystem.place, hfault, hending] at h
      cases hwalk : fs.walk p.start p.parent with
      | error e =>
        rw [hwalk] at h
        contradiction
      | ok here =>
        simp only [hwalk, bind, Except.bind] at h
        split_ifs at h with hlong
        cases h
        exact ⟨⟨hfault, hending, hlong⟩, here, rfl, (walk_ok hstart hwalk).2, rfl⟩
    | nameAndSlash =>
      simp only [FileSystem.place, hfault, hending] at h
      exact .inl (walk_ok hstart h).2
    | dots =>
      simp only [FileSystem.place, hfault, hending] at h
      exact .inl (walk_ok hstart h).2

/-- What is read from a path. -/
theorem read_eq (fs : FileSystem) (p : WrittenPath) :
    fs.read p = (fs.place p).bind fun place =>
      match fs.view place with
      | some (some text) => .ok text
      | some none => .error .isADirectory
      | none => .error .notFound := by
  simp only [read, find, view_eq_map]
  cases fs.place p with
  | error e => rfl
  | ok place =>
    simp only [bind, Except.bind]
    cases fs.node? place with
    | none => rfl
    | some n => cases n <;> rfl

/-- **What is read from a path that can mean a file.** -/
theorem Nameable.read_eq (h : Nameable p) (fs : FileSystem) :
    fs.read p = (fs.walk p.start p.parent).bind fun here =>
      match fs.view (here ++ [lastName p]) with
      | some (some text) => .ok text
      | some none => .error .isADirectory
      | none => .error .notFound := by
  rw [FileSystem.read_eq, h.place_eq]
  cases fs.walk p.start p.parent <;> rfl

/-- A text is read from a file in a directory to which the path leads. -/
theorem read_ok (hstart : fs.view p.start = some none) (h : fs.read p = .ok text) :
    Nameable p ∧ ∃ here, fs.walk p.start p.parent = .ok here ∧ fs.view here = some none ∧
      fs.view (here ++ [lastName p]) = some (some text) := by
  rw [read_eq] at h
  cases hplace : fs.place p with
  | error e =>
    rw [hplace] at h
    contradiction
  | ok place =>
    simp only [hplace, Except.bind] at h
    split at h
    · rename_i found hview
      cases h
      obtain hdir | ⟨hname, here, hwalk, hhere, rfl⟩ := place_ok hstart hplace
      · rw [hview] at hdir
        cases hdir
      · exact ⟨hname, here, hwalk, hhere, hview⟩
    · contradiction
    · contradiction

/-- **A file is moved into place**, where a path that can mean a file leads to a directory and does
not mean a directory there. -/
theorem replace_ok (hstart : fs.view p.start = some none) (h : fs.replace p text = .ok later) :
    Nameable p ∧ ∃ here, fs.walk p.start p.parent = .ok here ∧ fs.view here = some none ∧
      fs.view (here ++ [lastName p]) ≠ some none ∧
      later = fs.put (here ++ [lastName p]) (.file text) := by
  unfold replace at h
  split at h
  · cases hplace : fs.place p with
    | error e =>
      rw [hplace] at h
      contradiction
    | ok place =>
      simp only [hplace, bind, Except.bind] at h
      have hnot : fs.view place ≠ some none := by
        intro hdir
        obtain ⟨es, hnode⟩ := view_eq_directory.1 hdir
        simp [hnode] at h
      obtain hdir | ⟨hname, here, hwalk, hhere, rfl⟩ := place_ok hstart hplace
      · exact absurd hdir hnot
      · split at h
        · contradiction
        · cases h
          exact ⟨hname, here, hwalk, hhere, hnot, rfl⟩
  · cases hwalk : fs.walk p.start p.parent <;> simp [hwalk, bind, Except.bind] at h
  · cases hplace : fs.place p <;> simp [hplace, bind, Except.bind] at h

theorem Nameable.replace_eq (hname : Nameable p) (hwalk : fs.walk p.start p.parent = .ok here)
    (hfree : fs.view (here ++ [lastName p]) ≠ some none) (text : String) :
    fs.replace p text = .ok (fs.put (here ++ [lastName p]) (.file text)) := by
  have hplace : fs.place p = .ok (here ++ [lastName p]) := by
    rw [hname.place_eq, hwalk]
    rfl
  simp only [replace, hname.ending, hplace, bind, Except.bind]
  split
  · rename_i es hnode
    exact absurd (view_eq_directory.2 ⟨es, hnode⟩) hfree
  · rfl

/-- **A file is deleted**, or nothing is. -/
theorem delete_cases (hstart : fs.view p.start = some none) :
    (∃ here text, fs.walk p.start p.parent = .ok here ∧
      fs.view (here ++ [lastName p]) = some (some text) ∧ fs.read p = .ok text ∧
      fs.delete p = fs.remove (here ++ [lastName p])) ∨
    ((∀ text, fs.read p ≠ .ok text) ∧ fs.delete p = fs) := by
  cases hread : fs.read p with
  | ok text =>
    left
    obtain ⟨hname, here, hwalk, -, hview⟩ := read_ok hstart hread
    have hplace : fs.place p = .ok (here ++ [lastName p]) := by
      rw [hname.place_eq, hwalk]
      rfl
    refine ⟨here, text, hwalk, hview, rfl, ?_⟩
    simp [delete, find, hplace, view_eq_file.1 hview, bind, Except.bind]
  | error e =>
    refine .inr ⟨nofun, ?_⟩
    unfold delete
    split
    · rename_i text _ hfind
      simp only [read, hfind, bind, Except.bind] at hread
      contradiction
    · rfl

end FileSystem

end ContentSync
