/-
The appearance carried to the desktop (`theme-apply.py`): a run renders each
target's file and reloads the applications of those that it changed.
-/
import CybexOS.Programs
import CybexOS.Theme.Hyprland
import CybexOS.Theme.Kitty

namespace CybexOS

namespace Theme

open Json (PyValue)

inductive Target where
  | kitty
  | hyprland
  | gtk
  | hyprlock
deriving DecidableEq

/-- `TARGETS`, each of which renders one file. -/
def TARGETS : List Target := [.kitty, .hyprland, .gtk, .hyprlock]

def Target.order : Target → ℕ
  | .kitty => 0
  | .hyprland => 1
  | .gtk => 2
  | .hyprlock => 3

inductive File where
  | tokens
  | rendered (target : Target)
deriving DecidableEq

/-- An exception by its text, or what ends a run at once. -/
inductive Fault where
  | tooLarge
  | undecodable
  | syntaxError
  | missing
  | token (error : TokenError)
  | os (text : Text)
  | application (text : Text)
  | killed
deriving DecidableEq

structure Entry where
  changed : Bool
  error : Option Fault
deriving DecidableEq

/-- What a run prints of the targets, and what it was about. -/
structure Report where
  reload : Bool
  tokens : Tokens
  targets : List (Target × Entry)

/-- The state directory, what each application read at its last reload, and what
the last run printed. -/
structure Desktop where
  files : File → Option Text
  loaded : Target → Option Text
  stdout : Option (Except Fault Report)

namespace Desktop

def write (file : File) (content : Text) (s : Desktop) : Desktop :=
  { s with files := Function.update s.files file (some content) }

/-- The application reads its file. -/
def load (target : Target) (s : Desktop) : Desktop :=
  { s with loaded := Function.update s.loaded target (s.files (.rendered target)) }

def print (report : Except Fault Report) (s : Desktop) : Desktop :=
  { s with stdout := some report }

end Desktop

/-- The parts of the renderers that are not followed here: reading and printing
of JSON, `str.lower`, the arithmetic, and the other two files. -/
structure Renderers where
  loads : Text → Option PyValue
  dumps : Tokens → Text
  lower : Text → Text
  arithmetic : Arithmetic
  gtk : Tokens → Text
  hyprlock : Tokens → Text

inductive Command where
  | apply (force : Bool)
  | render
deriving DecidableEq

def Command.reload : Command → Bool
  | .apply _ => true
  | .render => false

def Command.force : Command → Bool
  | .apply force => force
  | .render => false

/-- One run: what it is given, which of its accesses and reloads raise, and the
place where it is killed. -/
structure Run where
  command : Command
  input : Text
  opening : Option Text
  reading : File → Option Text
  writing : File → Option Text
  reloading : Target → Option Text
  killed : Option ℕ

/-- Places are numbered in the order of the effects. -/
def Run.alive (run : Run) (place : ℕ) : Bool := run.killed.all fun killed => place < killed

def File.place : File → ℕ
  | .tokens => 0
  | .rendered target => 2 * target.order + 1

def Target.place (target : Target) : ℕ := 2 * target.order + 2

abbrev Step := Program Desktop Fault

namespace Run

variable (run : Run)

/-- An effect at a place, unless the run is killed before it. -/
def act (place : ℕ) (change : Desktop → Desktop) : Step Unit :=
  if run.alive place then Program.effect change else Program.fail .killed

def raise (fault : Option Text) : Step Unit :=
  match fault with
  | some text => Program.fail (.os text)
  | none => pure ()

def writeIfChanged (file : File) (content : Text) : Step Bool := do
  raise (run.reading file)
  let held ← Program.look fun s => s.files file
  if held = some content then pure false
  else
    raise (run.writing file)
    run.act file.place (Desktop.write file content)
    pure true

/-- The target's `reload`: its application reads the file, or it raises. -/
def reload (target : Target) : Step Unit :=
  match run.reloading target with
  | some text => Program.fail (.application text)
  | none => run.act target.place (Desktop.load target)

end Run

/-- `target.render` -/
def render (renderers : Renderers) (tokens : Tokens) : Target → Text
  | .kitty => Kitty.render renderers.arithmetic tokens
  | .hyprland => Hyprland.render tokens
  | .gtk => renderers.gtk tokens
  | .hyprlock => renderers.hyprlock tokens

def MAX_INPUT : ℕ := 65536

/-- `theme_tokens.validate(json.loads(raw))` -/
def parse (renderers : Renderers) (raw : Text) : Except Fault Tokens :=
  match renderers.loads raw with
  | none => .error .syntaxError
  | some value => (validate renderers.lower value).mapError .token

/-- The tokens of a line of standard input. -/
def readLine (renderers : Renderers) (line : Text) : Except Fault Tokens :=
  if MAX_INPUT < line.length then .error .tooLarge
  else
    match Utf8.decode line with
    | none => .error .undecodable
    | some raw => parse renderers raw

/-- The tokens of the saved file. -/
def readSaved (renderers : Renderers) (saved : Option Text) : Except Fault Tokens :=
  match saved with
  | none => .error .missing
  | some raw => parse renderers (raw.take (MAX_INPUT + 1))

namespace Run

variable (renderers : Renderers) (run : Run)

/-- The end of a target as its entry; only a kill is no exception. -/
def entry (changed : Bool) : Except Fault Unit → Step Entry
  | .ok () => pure ⟨changed, none⟩
  | .error .killed => Program.fail .killed
  | .error fault => pure ⟨changed, some fault⟩

/-- One target of `run_targets`. -/
def runTarget (tokens : Tokens) (target : Target) : Step Entry :=
  (run.writeIfChanged (.rendered target) (render renderers tokens target)).andThen fun
    | .ok changed =>
        (if run.command.reload && (changed || run.command.force) then run.reload target
          else pure ()).andThen (entry changed)
    | .error fault => entry false (.error fault)

def runTargets (tokens : Tokens) : List Target → Step (List (Target × Entry))
  | [] => pure []
  | target :: targets => do
      let done ← run.runTarget renderers tokens target
      let rest ← runTargets tokens targets
      pure ((target, done) :: rest)

def readTokens : Step Tokens :=
  match run.command with
  | .apply _ => Program.ofExcept (readLine renderers run.input)
  | .render => do
      raise (run.reading .tokens)
      let saved ← Program.look fun s => s.files .tokens
      Program.ofExcept (readSaved renderers saved)

/-- The body of `main` under the lock. -/
def body : Step Report := do
  raise run.opening
  let tokens ← run.readTokens renderers
  let _ ← run.writeIfChanged .tokens (renderers.dumps tokens)
  let targets ← run.runTargets renderers tokens TARGETS
  pure ⟨run.command.reload, tokens, targets⟩

def main : Step Unit :=
  (run.body renderers).andThen fun
    | .error .killed => Program.fail .killed
    | report => run.act 9 (Desktop.print report)

end Run

/-- A run from the beginning to where it ends; it has printed nothing yet. -/
def step (renderers : Renderers) (s : Desktop) (run : Run) : Desktop :=
  (run.main renderers).last { s with stdout := none }

/-- Nothing is rendered and nothing printed. -/
def start (loaded : Target → Option Text) : Desktop := ⟨fun _ => none, loaded, none⟩

end Theme

end CybexOS
