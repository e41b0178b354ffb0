import ContentSync.Proofs.Json.ReadBack
import ContentSync.Settings.Server

/-!
# Which layer counts

The settings of the server come from the command line and the environment, from the configuration
file, and from the defaults, in this order of precedence. Layers are put above each other one by one,
and the defaults come in twice: below the configuration file, and below everything once more.

* `Layer.firstSet` — for each setting, the value of the first layer that has one;
* `Layer.foldr_orElse` — putting layers above each other gives the first values;
* `Layer.value_of_decode?` — a configuration file gives to each setting what its own field says;
* `ServerSettings.FileGives` — what the configuration file gives, which may be nothing;
* `ServerSettings.FileGives.load_eq`, `ServerSettings.load_eq_firstSet` — the server works with the
  first values.
-/

set_option autoImplicit false

namespace ContentSync

namespace Layer

variable {a b c l : Layer} {s : Setting}

/-- For each setting, the value of the first layer that has one. -/
def firstSet (layers : List Layer) : Layer := fun s => layers.findSome? fun l => l s

@[simp] theorem firstSet_nil : firstSet [] = empty := rfl

theorem firstSet_cons (l : Layer) (layers : List Layer) :
    firstSet (l :: layers) = l.orElse (firstSet layers) := by
  funext s
  cases h : l s <;> simp [firstSet, orElse, h]

theorem foldr_orElse (layers : List Layer) (l : Layer) :
    layers.foldr orElse l = firstSet (layers ++ [l]) := by
  induction layers with
  | nil => rw [List.nil_append, firstSet_cons, firstSet_nil, orElse_empty, List.foldr_nil]
  | cons upper layers ih => rw [List.foldr_cons, ih, List.cons_append, firstSet_cons]

/-- A layer twice is the layer once, whatever stands between. -/
theorem orElse_orElse_self (a b : Layer) : (a.orElse b).orElse b = a.orElse b := by
  funext s
  cases ha : a s <;> cases hb : b s <;> simp [orElse, ha, hb]

/-- The defaults may be put below a layer before it is resolved. -/
theorem resolve_orElse_defaults (l : Layer) : (l.orElse defaults).resolve = l.resolve := by
  rw [resolve, resolve, orElse_orElse_self]

/-- Above the defaults, resolving a layer changes nothing in it. -/
theorem settings_orElse_defaults (l : Layer) :
    (l.orElse defaults).settings = (l.orElse defaults).resolve := by
  rw [resolve, orElse_orElse_self]

/-! ## Fields of a configuration file -/

/-- Values of distinct settings, given one after the other, are the values of these settings. -/
theorem foldl_set_of_mapM {value? : (s : Setting) → Option (Option s.kind.Value)}
    {settings : List Setting} (distinct : settings.Nodup) {values : List (Option Assignment)}
    (h : settings.mapM (fun s => (value? s).map (Option.map (⟨s, ·⟩))) = some values) :
    (s ∉ settings → (values.filterMap id).foldl set l s = l s) ∧
      (s ∈ settings → l s = none → value? s = some ((values.filterMap id).foldl set l s)) := by
  induction settings generalizing l values with
  | nil =>
    obtain rfl : values = [] := by simpa using h.symm
    simp
  | cons t settings ih =>
    obtain ⟨ht, distinct⟩ := List.nodup_cons.1 distinct
    rw [List.mapM_cons] at h
    obtain ⟨_, hmap, h⟩ := Option.bind_eq_some_iff.1 h
    obtain ⟨rest, hrest, h⟩ := Option.bind_eq_some_iff.1 h
    obtain ⟨value, hvalue, rfl⟩ := Option.map_eq_some_iff.1 hmap
    cases h
    -- The settings that follow leave the value of this one alone.
    cases value with
    | none =>
      obtain ⟨hother, hmem⟩ := ih (l := l) distinct hrest
      refine ⟨fun hs => hother (List.not_mem_of_not_mem_cons hs), fun hs hl => ?_⟩
      obtain rfl | hs := List.mem_cons.1 hs
      · exact hvalue.trans (congrArg some ((hother ht).trans hl).symm)
      · exact hmem hs hl
    | some v =>
      obtain ⟨hother, hmem⟩ := ih (l := l.set ⟨t, v⟩) distinct hrest
      refine ⟨fun hs => ?_, fun hs hl => ?_⟩
      · obtain ⟨hst, hs⟩ := not_or.1 (mt List.mem_cons.2 hs)
        exact (hother hs).trans (set_of_ne l (Ne.symm hst))
      · by_cases hst : t = s
        · subst hst
          exact hvalue.trans (congrArg some ((hother ht).trans (set_self l t v)).symm)
        · have hs : s ∈ settings := (List.mem_cons.1 hs).resolve_left (Ne.symm hst)
          exact hmem hs ((set_of_ne l hst).trans hl)

/-- **A configuration file gives to each setting what its own field says**, and nothing if the field
is absent or `null`. -/
theorem value_of_decode? {w : Written} (h : decode? w = some l) :
    ∃ fields, w.fields? (Setting.all.map Setting.fieldName) = some fields ∧
      ∀ s : Setting, fields.optional? s.fieldName s.kind.decode? = some (l s) := by
  obtain ⟨fields, hfields, h⟩ := Option.bind_eq_some_iff.1 h
  obtain ⟨values, hvalues, h⟩ := Option.bind_eq_some_iff.1 h
  cases h
  refine ⟨fields, hfields, fun s => ?_⟩
  have hmapM : Setting.all.mapM (fun s =>
      (fields.optional? s.fieldName s.kind.decode?).map (Option.map (⟨s, ·⟩))) = some values := by
    rw [← hvalues]
    congr 1
    funext t
    cases fields.optional? t.fieldName t.kind.decode? <;> rfl
  exact (foldl_set_of_mapM (l := empty) (by decide) hmapM).2 s.mem_all rfl

end Layer

namespace ServerSettings

variable {files : FileSystem} {given file : Layer}

/-- What the configuration file gives. Only a file in the usual place may be missing; it then gives
nothing. -/
inductive FileGives (files : FileSystem) (given : Layer) : Layer → Prop
  | read {text : String} {w : Written} {file : Layer}
    (text_eq : files.read ⟨[], filePath given⟩ = .ok text) (parsed : Written.parse? text = some w)
    (decoded : Layer.decode? w = some file) : FileGives files given file
  | missing {e : FileError} (unnamed : given .configPath = none)
    (missing : files.find ⟨[], usualFile⟩ = .error e) : FileGives files given .empty

/-- What is read is there. -/
theorem find_of_read {path : WrittenPath} {text : String} (h : files.read path = .ok text) :
    files.find path = .ok (.file text) := by
  unfold FileSystem.read at h
  cases hfind : files.find path with
  | error e =>
    rw [hfind] at h
    cases h
  | ok node =>
    rw [hfind] at h
    cases node with
    | file => cases h; rfl
    | directory => cases h

theorem filePath_of_some {path : String} (named : given .configPath = some path) :
    filePath given = path := by
  rw [filePath, named]
  rfl

theorem filePath_of_none (unnamed : given .configPath = none) : filePath given = usualFile := by
  rw [filePath, unnamed]
  rfl

/-- The configuration file is put above the defaults. -/
theorem FileGives.belowGiven_eq (h : FileGives files given file) :
    belowGiven files given = .ok (file.orElse .defaults) := by
  cases h with
  | read text_eq parsed decoded =>
    simp [belowGiven, find_of_read text_eq, fileLayer, text_eq, parsed, decoded, Except.map]
  | missing unnamed missing =>
    simp [belowGiven, filePath_of_none unnamed, missing, unnamed]

/-- A file that is named must be there. -/
theorem load_of_missing {path : String} {e : FileError} (named : given .configPath = some path)
    (missing : files.find ⟨[], path⟩ = .error e) :
    load files given = .error (.missingFile path) := by
  have hbelow : belowGiven files given = .error (.missingFile path) := by
    simp only [belowGiven, filePath_of_some named, missing]
    exact if_pos (named ▸ rfl)
  rw [load, hbelow]
  rfl

/-- The server works with the first values. -/
theorem FileGives.load_eq (h : FileGives files given file) :
    load files given = (Layer.firstSet [given, file, .defaults]).resolve := by
  simp only [load, h.belowGiven_eq, Layer.firstSet_cons, Layer.firstSet_nil, Layer.orElse_empty]
  rfl

/-- A file that says nothing. -/
theorem fileGives_of_emptyObject (h : files.read ⟨[], filePath given⟩ = .ok "\x7b\x7d") :
    FileGives files given .empty :=
  .read h (w := .object []) rfl rfl

end ServerSettings

/-- A layer has the values of a given layer; where that has none, those of a file; and where that has
none either, the defaults. -/
structure Layer.Precedence (given file merged : Layer) : Prop where
  given_first {s : Setting} {v : s.kind.Value} : given s = some v → merged s = some v
  then_file {s : Setting} {v : s.kind.Value} :
    given s = none → file s = some v → merged s = some v
  then_default {s : Setting} : given s = none → file s = none → merged s = defaults s

theorem Layer.precedence_firstSet (given file : Layer) :
    Precedence given file (firstSet [given, file, defaults]) where
  given_first h := by simp [firstSet, h]
  then_file h h' := by simp [firstSet, h, h']
  then_default {s} h h' := by cases hs : defaults s <;> simp [firstSet, h, h', hs]

namespace ServerSettings

/-- **The server works with the first values**: for each setting the one of the command line and the
environment, else the one of the configuration file, which is what its own field says, else the
default. Layers form a monoid, and the defaults may be put below a layer any number of times. A file
that is named must be there; a missing file in the usual place is as good as one that says nothing. -/
theorem load_eq_firstSet (files : FileSystem) (given : Layer) :
    (∀ file, FileGives files given file →
      let first := Layer.firstSet [given, file, .defaults]
      Layer.Precedence given file first ∧ load files given = first.settings ∧
        load files given = first.resolve) ∧
    (∀ w file, Layer.decode? w = some file →
      ∃ fields, w.fields? (Setting.all.map Setting.fieldName) = some fields ∧
        ∀ s : Setting, fields.optional? s.fieldName s.kind.decode? = some (file s)) ∧
    (∀ a b c : Layer, (a.orElse b).orElse c = a.orElse (b.orElse c)) ∧
    (∀ l : Layer, l.orElse .empty = l ∧ Layer.empty.orElse l = l ∧
      (l.orElse .defaults).resolve = l.resolve) ∧
    (∀ path e, given .configPath = some path → files.find ⟨[], path⟩ = .error e →
      load files given = .error (.missingFile path)) ∧
    ∀ e files', given .configPath = none → files.find ⟨[], usualFile⟩ = .error e →
      files'.read ⟨[], usualFile⟩ = .ok "\x7b\x7d" → load files given = load files' given := by
  refine ⟨fun file h => ⟨Layer.precedence_firstSet given file, ?_, h.load_eq⟩,
    fun w file => Layer.value_of_decode?, Layer.orElse_assoc,
    fun l => ⟨Layer.orElse_empty l, Layer.empty_orElse l, Layer.resolve_orElse_defaults l⟩,
    fun path e => load_of_missing, fun e files' unnamed missing read => ?_⟩
  · have hfirst : (given.orElse file).orElse .defaults = Layer.firstSet [given, file, .defaults] :=
      (Layer.orElse_assoc _ _ _).trans (Layer.foldr_orElse [given, file] .defaults)
    rw [h.load_eq, ← hfirst, Layer.settings_orElse_defaults]
  · have hread : files'.read ⟨[], filePath given⟩ = .ok "\x7b\x7d" := by
      rw [filePath_of_none unnamed, read]
    rw [(FileGives.missing unnamed missing).load_eq, (fileGives_of_emptyObject hread).load_eq]

/-- The port comes from the file, the number of attempts from the command line although the file has
one, and the schedule from the defaults. -/
theorem load_eq_firstSet_named :
    let text := "\x7b\"maxAttempts\":5,\"port\":9100\x7d"
    let files := FileSystem.empty.put ["sync.conf"] (.file text)
    let given := Layer.ofList [⟨.configPath, "sync.conf"⟩, ⟨.maxAttempts, (2 : Nat)⟩]
    (∃ file, FileGives files given file) ∧
      (load files given).toOption.map
          (fun s => (s.portNumber, s.policy.retry.maxAttempts, s.schedule)) =
        some (9100, 2, Layer.defaultSchedule) := by
  intro text files given
  have hpath : filePath given = "sync.conf" := by decide
  have hread : files.read ⟨[], "sync.conf"⟩ = .ok text := by rfl
  let value : Json :=
    .object [("maxAttempts", .number (.integer 5)), ("port", .number (.integer 9100))]
  have hparsed : Written.parse? text = some value.written := by
    have hstorable : value.Storable 1 :=
      .object (by decide) (List.forall_mem_cons.2 ⟨.integer (by decide) (by decide),
        List.forall_mem_cons.2 ⟨.integer (by decide) (by decide), List.forall_mem_nil _⟩⟩)
    exact hstorable.parse?_of_spelled Layout.lawful_dense (by decide +kernel)
  have hfile : FileGives files given
      (.ofList [⟨.portNumber, (9100 : Nat)⟩, ⟨.maxAttempts, (5 : Nat)⟩]) :=
    .read (hpath ▸ hread) hparsed rfl
  refine ⟨⟨_, hfile⟩, ?_⟩
  obtain ⟨-, hload, -⟩ := (load_eq_firstSet files given).1 _ hfile
  rw [hload]
  decide +kernel

end ServerSettings

end ContentSync
