import ContentSync.Settings.Layer

/-!
# The command line and the environment

The command line is a list of words. A flag is given as `--name value` or `--name=value`, at most
once; a word that starts with a dash, a single dash excepted, is never the value of a flag. The
environment gives values to the flags that the command line leaves out.

A value is looked at only when the flag after it has been recognised, so a word that is no flag at
all is the first complaint about a line.

* `CommandLine.read` — the layer of a list of words;
* `CommandLine.layer` — the layer of a command line and an environment.
-/

set_option autoImplicit false

namespace ContentSync

/-- Why the program does not start from its command line. -/
inductive Usage where
  /-- A word that is neither a flag nor the value of one. -/
  | unknownWord
  /-- A flag without a value, or with one that it does not allow. -/
  | badValue
  | badNumber
  | repeatedFlag
  | unexpectedValue
  | help
  | version
  deriving DecidableEq, Repr

namespace Usage

def label : Usage → String
  | unknownWord => "UnknownArgument"
  | badValue => "InvalidValue"
  | badNumber => "ValueValidation"
  | repeatedFlag => "ArgumentConflict"
  | unexpectedValue => "TooManyValues"
  | help => "DisplayHelp"
  | version => "DisplayVersion"

def ofBadValue : BadValue → Usage
  | .notAllowed => badValue
  | .notANumber => badNumber

end Usage

namespace CommandLine

/-- A word of the command line. -/
inductive Word where
  /-- `--name` or `--name=value`. -/
  | long (name : String) (value : Option String)
  /-- One dash and at least one more character, of which the first decides. -/
  | short (letter : Char)
  | plain (text : String)
  deriving DecidableEq, Repr

def Word.parse (word : String) : Word :=
  match word.toList with
  | '-' :: '-' :: cs =>
    let name := String.ofList (cs.takeWhile (· != '='))
    match cs.dropWhile (· != '=') with
    | [] => .long name none
    | _ :: value => .long name (some (String.ofList value))
  | '-' :: c :: _ => .short c
  | _ => .plain word

/-- A flag whose value has not been looked at yet. -/
structure Pending where
  setting : Setting
  value : Option String
  deriving DecidableEq, Repr

/-- What the words so far have given. -/
structure Reading where
  layer : Layer
  pending : Option Pending

namespace Reading

def start : Reading := ⟨.empty, none⟩

/-- Puts a value under a setting that has none. -/
def assign (l : Layer) (s : Setting) (word : String) : Except Usage Layer :=
  if (l s).isSome then .error .repeatedFlag
  else
    match s.kind.read word with
    | .ok v => .ok (l.set ⟨s, v⟩)
    | .error e => .error (.ofBadValue e)

/-- Looks at the value of the flag before. -/
def settle (r : Reading) : Except Usage Layer :=
  match r.pending with
  | none => .ok r.layer
  | some ⟨_, none⟩ => .error .badValue
  | some ⟨s, some word⟩ => assign r.layer s word

/-- Reads one word. -/
def step (r : Reading) : Word → Except Usage Reading
  | .long "help" none => r.settle.bind fun _ => .error .help
  | .long "version" none => r.settle.bind fun _ => .error .version
  | .long "help" (some _) | .long "version" (some _) => .error .unexpectedValue
  | .long name value =>
    match Setting.ofFlag? name with
    | none => .error .unknownWord
    | some s => do
      let layer ← r.settle
      match value with
      | none => pure ⟨layer, some ⟨s, none⟩⟩
      | some word => pure ⟨← assign layer s word, none⟩
  | .short 'h' => r.settle.bind fun _ => .error .help
  | .short 'V' => r.settle.bind fun _ => .error .version
  | .short _ => .error .unknownWord
  | .plain text =>
    match r.pending with
    | some ⟨s, none⟩ => .ok ⟨r.layer, some ⟨s, some text⟩⟩
    | _ => .error .unknownWord

end Reading

/-- Reads words up to the end or to a separator, after which a word cannot be a flag. -/
def readFrom (r : Reading) : List String → Except Usage Layer
  | [] => r.settle
  | word :: rest =>
    if word = "--" then if rest.isEmpty then r.settle else .error .unknownWord
    else (r.step (.parse word)).bind fun r => readFrom r rest

/-- The layer of a list of words. -/
def read (words : List String) : Except Usage Layer := readFrom .start words

/-- Adds the values of the environment for settings that have none. -/
def addEnvironment (environment : List (String × String)) (l : Layer) : Except Usage Layer :=
  Setting.all.foldlM (fun (l : Layer) s =>
    match l s, List.lookup s.environmentName environment with
    | none, some word => Reading.assign l s word
    | _, _ => .ok l) l

/-- The layer of a command line and an environment. -/
def layer (words : List String) (environment : List (String × String)) : Except Usage Layer :=
  (read words).bind (addEnvironment environment)

end CommandLine

end ContentSync
