import ContentSync.Proofs.Settings.Layers

/-!
# Empty texts

For some settings an empty text is as good as none. Whether a text is empty is asked of the one that
counts, when all layers have been put above each other, so an empty text of the command line or the
environment hides what the configuration file says before it is dropped itself. What is left is the
default.

* `OptionalText` — the settings for which an empty text is as good as none;
* `OptionalText.give`, `OptionalText.value` — the text that a layer gives to such a setting;
* `OptionalText.counted` — what the server makes of it;
* `OptionalText.settings_give_congr`, `OptionalText.shown_of_settings` — that is all that counts of it;
* `ServerSettings.empty_hides` — an empty text on top is as good as none in any layer, the file included;
* `ServerSettings.empty_hides_key` — an access key in the file that is lost.
-/

set_option autoImplicit false

namespace ContentSync

/-- The settings for which an empty text is as good as none. -/
inductive OptionalText where
  | accessKey
  | cacheUrl
  | cachePassword
  | webhookUrl
  | schedule
  deriving DecidableEq, Repr

namespace OptionalText

/-- A layer that gives a text to the setting, or none, and otherwise gives what another one does. -/
def give : OptionalText → Option String → Layer → Layer
  | accessKey, text, l => fun
    | .serviceAccessKey => text
    | s => l s
  | cacheUrl, text, l => fun
    | .cacheUrl => text
    | s => l s
  | cachePassword, text, l => fun
    | .cachePassword => text
    | s => l s
  | webhookUrl, text, l => fun
    | .webhookUrl => text
    | s => l s
  | schedule, text, l => fun
    | .schedule => text
    | s => l s

/-- The text that a layer gives to the setting. -/
def value : OptionalText → Layer → Option String
  | accessKey, l => l .serviceAccessKey
  | cacheUrl, l => l .cacheUrl
  | cachePassword, l => l .cachePassword
  | webhookUrl, l => l .webhookUrl
  | schedule, l => l .schedule

/-- What a text amounts to. There always is a schedule. -/
def counted : OptionalText → Option String → Option String
  | schedule, text => some (Layer.schedule (schedule.give text .empty))
  | _, text => Layer.filled text

/-- What the server works with. -/
def shown : OptionalText → ServerSettings → Option String
  | accessKey, s => s.service.accessKey
  | cacheUrl, s => s.cache.url
  | cachePassword, s => s.cache.password
  | webhookUrl, s => s.notify.webhookUrl
  | schedule, s => some s.schedule

variable {t : OptionalText} {text text' : Option String} {l upper lower : Layer}

theorem give_configPath : t.give text l .configPath = l .configPath := by cases t <;> rfl

@[simp] theorem give_value : t.give (t.value l) l = l := by
  funext s
  cases t <;> cases s <;> rfl

theorem give_orElse_give : (t.give text upper).orElse (t.give text' lower) =
    t.give (text.or text') (upper.orElse lower) := by
  funext s
  cases t <;> cases s <;> rfl

theorem give_orElse : (t.give text upper).orElse lower =
    t.give (text.or (t.value lower)) (upper.orElse lower) := by
  rw [← give_orElse_give, give_value]

/-- A default is what no text amounts to. -/
theorem counted_or_defaults : t.counted (text.or (t.value .defaults)) = t.counted text := by
  cases text <;> cases t <;> rfl

theorem counted_empty : t.counted (some "") = t.counted none := by
  cases t <;> decide

/-- **Of the setting only that counts which its text amounts to.** -/
theorem settings_give_congr (h : t.counted text = t.counted text') :
    (t.give text l).settings = (t.give text' l).settings := by
  cases t with
  | accessKey =>
    have hservice : Layer.service (accessKey.give text l) = Layer.service (accessKey.give text' l) :=
      congrArg (fun key => { Layer.service l with accessKey := key }) h
    simp only [Layer.settings, hservice]
    rfl
  | cacheUrl =>
    have hcache : Layer.cache (cacheUrl.give text l) = Layer.cache (cacheUrl.give text' l) :=
      congrArg (fun url => { Layer.cache l with url }) h
    simp only [Layer.settings, hcache]
    rfl
  | cachePassword =>
    have hcache : Layer.cache (cachePassword.give text l) = Layer.cache (cachePassword.give text' l) :=
      congrArg (fun password => { Layer.cache l with password }) h
    simp only [Layer.settings, hcache]
    rfl
  | webhookUrl =>
    have hnotify : Layer.notify (webhookUrl.give text l) = Layer.notify (webhookUrl.give text' l) :=
      congrArg (fun webhookUrl => { Layer.notify l with webhookUrl }) h
    simp only [Layer.settings, hnotify]
    rfl
  | schedule =>
    have hschedule : Layer.schedule (schedule.give text l) = Layer.schedule (schedule.give text' l) :=
      Option.some.inj h
    simp only [Layer.settings, hschedule]
    rfl

/-- The server works with what the layer says. -/
theorem groups_of_settings {s : ServerSettings} (h : l.settings = .ok s) :
    s.service = l.service ∧ s.cache = l.cache ∧ s.notify = l.notify ∧ s.schedule = l.schedule := by
  simp only [Layer.settings, bind, Except.bind, pure, Except.pure] at h
  repeat' split at h
  all_goals cases h
  exact ⟨rfl, rfl, rfl, rfl⟩

theorem shown_of_settings {s : ServerSettings} (h : (t.give text l).settings = .ok s) :
    t.shown s = t.counted text := by
  obtain ⟨hservice, hcache, hnotify, hschedule⟩ := groups_of_settings h
  cases t with
  | accessKey => exact congrArg ServiceSettings.accessKey hservice
  | cacheUrl => exact congrArg CacheSettings.url hcache
  | cachePassword => exact congrArg CacheSettings.password hcache
  | webhookUrl => exact congrArg NotifySettings.webhookUrl hnotify
  | schedule => exact congrArg some hschedule

end OptionalText

namespace ServerSettings

open OptionalText

variable {files : FileSystem} {given file : Layer} {t : OptionalText} {text : Option String}

/-- Which file is read does not depend on the setting. -/
theorem belowGiven_give : belowGiven files (t.give text given) = belowGiven files given := by
  have hpath : filePath (t.give text given) = filePath given := by
    rw [filePath, filePath, give_configPath]
  rw [belowGiven, belowGiven, hpath, give_configPath]

theorem load_of_belowGiven_error {e : SettingsError} (h : belowGiven files given = .error e) :
    load files given = .error e := by
  rw [load, h]
  rfl

theorem FileGives.give (h : FileGives files given file) : FileGives files (t.give text given) file := by
  have hpath : filePath (t.give text given) = filePath given := by
    rw [filePath, filePath, give_configPath]
  cases h with
  | read text_eq parsed decoded => exact .read (hpath ▸ text_eq) parsed decoded
  | missing unnamed missing => exact .missing (give_configPath.trans unnamed) missing

/-- The text that counts is that of the given layer, or that of the file. -/
theorem FileGives.load_give (h : FileGives files given file) (text : Option String) :
    load files (t.give text given) =
      (t.give (text.or (t.value file)) ((given.orElse file).orElse .defaults)).settings := by
  have hload : load files (t.give text given) = (((t.give text given).orElse file).orElse .defaults).settings := by
    rw [h.give.load_eq, Layer.settings_orElse_defaults, Layer.firstSet_cons, Layer.firstSet_cons,
      Layer.firstSet_cons, Layer.firstSet_nil, Layer.orElse_empty, ← Layer.orElse_assoc]
  rw [hload, give_orElse, give_orElse]
  exact settings_give_congr counted_or_defaults

/-- **An empty text on top is as good as none in any layer.** If the configuration file cannot be used,
that is all there is to say. Otherwise the server works as if neither the given layer nor the file gave
the setting, so that the default is left; without the empty text it would work with the text of the file.
That makes no difference if and only if the text of the file is itself as good as none, or if the settings
are refused in both cases, and for the same reason. -/
theorem empty_hides (files : FileSystem) (given : Layer) (t : OptionalText) :
    (∀ e, belowGiven files given = .error e →
      load files (t.give (some "") given) = .error e ∧ load files (t.give none given) = .error e) ∧
    ∀ file, FileGives files given file →
      load files (t.give (some "") given) = ((t.give none given).orElse (t.give none file)).resolve ∧
      (∀ s, load files (t.give (some "") given) = .ok s → t.shown s = t.counted none) ∧
      (∀ s, load files (t.give none given) = .ok s → t.shown s = t.counted (t.value file)) ∧
      (load files (t.give (some "") given) = load files (t.give none given) ↔
        t.counted (t.value file) = t.counted none ∨
          ∃ e, load files (t.give (some "") given) = .error e ∧ load files (t.give none given) = .error e) := by
  refine ⟨fun e h => ⟨?_, ?_⟩, fun file h => ?_⟩
  · exact load_of_belowGiven_error (belowGiven_give.trans h)
  · exact load_of_belowGiven_error (belowGiven_give.trans h)
  have hempty : load files (t.give (some "") given) =
      (t.give none ((given.orElse file).orElse .defaults)).settings :=
    (h.load_give (some "")).trans (settings_give_congr counted_empty)
  have hnone : load files (t.give none given) =
      (t.give (t.value file) ((given.orElse file).orElse .defaults)).settings :=
    h.load_give none
  refine ⟨?_, fun s hs => shown_of_settings (hempty ▸ hs), fun s hs => shown_of_settings (hnone ▸ hs),
    fun heq => ?_, ?_⟩
  · -- Nobody gives the setting, so the default is put below.
    rw [hempty, Layer.resolve, give_orElse_give, give_orElse]
    exact (settings_give_congr counted_or_defaults).symm
  · cases hload : load files (t.give none given) with
    | error e => exact .inr ⟨e, heq.trans hload, rfl⟩
    | ok s =>
      refine .inl ?_
      rw [← shown_of_settings (hnone ▸ hload), shown_of_settings (hempty ▸ heq.trans hload)]
  · rintro (hcounted | ⟨e, hempty, hnone⟩)
    · rw [hempty, hnone]
      exact settings_give_congr hcounted.symm
    · rw [hempty, hnone]

/-- A configuration file with an access key, in its usual place. -/
theorem fileGives_key {given : Layer} (unnamed : given .configPath = none) :
    FileGives (FileSystem.empty.put [usualFile] (.file "\x7b\"comlinkAccessKey\":\"k1\"\x7d")) given
      (.ofList [⟨.serviceAccessKey, "k1"⟩]) := by
  let value : Json := .object [("comlinkAccessKey", .string "k1")]
  have hstorable : value.Storable 1 :=
    .object (by decide) (List.forall_mem_cons.2 ⟨.string _, List.forall_mem_nil _⟩)
  have hparsed : Written.parse? "\x7b\"comlinkAccessKey\":\"k1\"\x7d" = some value.written :=
    hstorable.parse?_of_spelled Layout.lawful_dense (by decide +kernel)
  refine .read ?_ hparsed rfl
  rw [filePath_of_none unnamed]
  rfl

/-- The access key of the file is lost, and there is none. -/
theorem empty_hides_file :
    let files := FileSystem.empty.put [usualFile] (.file "\x7b\"comlinkAccessKey\":\"k1\"\x7d")
    (∃ file, FileGives files .empty file) ∧
      (load files (accessKey.give (some "") .empty)).toOption.map (fun s => s.service.accessKey) =
        some none := by
  intro files
  have hfile : FileGives files .empty (.ofList [⟨.serviceAccessKey, "k1"⟩]) := fileGives_key rfl
  refine ⟨⟨_, hfile⟩, ?_⟩
  obtain ⟨hload, -, -, -⟩ := (empty_hides files .empty accessKey).2 _ hfile
  rw [hload]
  decide +kernel

/-- **An empty text is not as good as none at its own layer**: without it the access key of the file
counts. -/
theorem empty_hides_key :
    let files := FileSystem.empty.put [usualFile] (.file "\x7b\"comlinkAccessKey\":\"k1\"\x7d")
    load files (accessKey.give (some "") .empty) ≠ load files (accessKey.give none .empty) := by
  intro files h
  have hfile : FileGives files .empty (.ofList [⟨.serviceAccessKey, "k1"⟩]) := fileGives_key rfl
  rw [hfile.load_give, hfile.load_give] at h
  have hkeys := congrArg (fun r => r.toOption.map fun s => s.service.accessKey) h
  exact absurd hkeys (by decide +kernel)

end ServerSettings

end ContentSync
