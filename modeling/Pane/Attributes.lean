import Mathlib.Data.Char
import Mathlib.Data.List.Lex
import Pane.JsonText
import Pane.Messages

namespace Pane.Attributes

open Pane.Messages Pane.JsonText

/-- What a setter asks the framework to do. -/
inductive Effect
  | notify (target payload : Text)
  | setContent (content : Bytes)
deriving DecidableEq

/-- The view is pure; the setter returns its effects and the new state. -/
structure MonadicLens (S A : Type) where
  name : Text
  view : S → A
  set : S → A → List Effect × S
  parse : Text → Except Text A

structure AttrReader (S : Type) where
  name : Text
  read : S → Text

inductive WriteError
  | parseError (text : Text)
  | readOnly
deriving DecidableEq

structure AttrWriter (S : Type) where
  name : Text
  write : S → Text → Except WriteError (List Effect) × S

variable {S A : Type}

namespace AttrReader

/-- A computed attribute. `display` is the `Display` of its type. -/
def new (display : A → Text) (name : Text) (view : S → A) : AttrReader S :=
  ⟨name, fun state => display (view state)⟩

def fromMonadicLens (display : A → Text) (lens : MonadicLens S A) : AttrReader S :=
  ⟨lens.name, fun state => display (lens.view state)⟩

end AttrReader

/-- Parse the text, then set. -/
def AttrWriter.fromMonadicLens (lens : MonadicLens S A) : AttrWriter S :=
  ⟨lens.name, fun state text =>
    match lens.parse text with
    | .error e => (.error (.parseError e), state)
    | .ok val => (.ok (lens.set state val).1, (lens.set state val).2)⟩

structure AttrSet (S : Type) where
  readers : List (AttrReader S)
  writers : List (AttrWriter S)

/-- `str::replace` of one character. -/
def replace (c : Char) (new : Text) (t : Text) : Text :=
  t.flatMap fun d => if d = c then new else [d]

/-- The three replacements, one after the other. -/
def escaped (val : Text) : Text :=
  replace '\n' ['\\', 'n'] (replace '"' ['\\', '"'] (replace '\\' ['\\', '\\'] val))

namespace AttrSet

def new : AttrSet S := ⟨[], []⟩

def registerMonadicLens (display : A → Text) (attrs : AttrSet S) (lens : MonadicLens S A) :
    AttrSet S :=
  ⟨attrs.readers ++ [.fromMonadicLens display lens], attrs.writers ++ [.fromMonadicLens lens]⟩

def registerReader (attrs : AttrSet S) (reader : AttrReader S) : AttrSet S :=
  { attrs with readers := attrs.readers ++ [reader] }

def read (attrs : AttrSet S) (name : Text) (state : S) : Option Text :=
  (attrs.readers.find? fun r => r.name = name).map fun r => r.read state

def findWriter (attrs : AttrSet S) (name : Text) : Option (AttrWriter S) :=
  attrs.writers.find? fun w => w.name = name

def write (attrs : AttrSet S) (name : Text) (state : S) (text : Text) :
    Except WriteError (List Effect) × S :=
  match attrs.findWriter name with
  | none => (.error .readOnly, state)
  | some w => w.write state text

def names (attrs : AttrSet S) : List Text := attrs.readers.map AttrReader.name

/-- All attributes in one text. Strings are compared by their characters, which is
the order of their UTF-8 bytes. -/
def toJsonStr (attrs : AttrSet S) (state : S) : Text :=
  let entries := attrs.readers.map fun r => memberText r.name (escaped (r.read state))
  '{' :: ([','].intercalate (entries.mergeSort fun a b => decide (a ≤ b)) ++ ['}'])

end AttrSet

inductive CtlResult
  | pure
  | withEffects (effects : List Effect)
  | lifecycle (flow : Flow)
  | err (text : Text)
deriving DecidableEq

/-- Dispatch a command to the attribute it names, else to the handler. `debug` is
the `Debug` of the error. -/
def dispatchCtl (debug : WriteError → Text) (attrs : AttrSet S) (state : S) (cmd args : Text)
    (fallback : S → Text → Text → CtlResult × S) : CtlResult × S :=
  match attrs.findWriter cmd with
  | some writer =>
    match writer.write state args with
    | (.ok effects, state) => (if effects.isEmpty then .pure else .withEffects effects, state)
    | (.error e, state) => (.err (debug e), state)
  | none => fallback state cmd args

/-- A call that adds to a set of attributes. -/
inductive Registration (S : Type) : Type 1
  | lens {A : Type} (display : A → Text) (lens : MonadicLens S A)
  | reader (reader : AttrReader S)

namespace Registration

def name : Registration S → Text
  | .lens _ l => l.name
  | .reader r => r.name

def toReader : Registration S → AttrReader S
  | .lens display l => .fromMonadicLens display l
  | .reader r => r

def toWriter : Registration S → Option (AttrWriter S)
  | .lens _ l => some (.fromMonadicLens l)
  | .reader _ => none

def register (attrs : AttrSet S) : Registration S → AttrSet S
  | .lens display l => attrs.registerMonadicLens display l
  | .reader r => attrs.registerReader r

end Registration

def build (regs : List (Registration S)) : AttrSet S := regs.foldl Registration.register .new

variable (regs : List (Registration S))

theorem foldl_register (attrs : AttrSet S) :
    regs.foldl Registration.register attrs =
      ⟨attrs.readers ++ regs.map Registration.toReader,
        attrs.writers ++ regs.filterMap Registration.toWriter⟩ := by
  induction regs generalizing attrs with
  | nil => simp
  | cons reg regs ih =>
    rw [List.foldl_cons, ih]
    cases reg with
    | lens display l =>
      simp [Registration.register, AttrSet.registerMonadicLens, Registration.toReader,
        Registration.toWriter]
    | reader r =>
      rw [List.filterMap_cons_none rfl]
      simp [Registration.register, AttrSet.registerReader, Registration.toReader]

theorem build_eq :
    build regs = ⟨regs.map Registration.toReader, regs.filterMap Registration.toWriter⟩ :=
  foldl_register regs .new

theorem readers_build : (build regs).readers = regs.map Registration.toReader :=
  congrArg AttrSet.readers (build_eq regs)

theorem writers_build : (build regs).writers = regs.filterMap Registration.toWriter :=
  congrArg AttrSet.writers (build_eq regs)

@[simp] theorem toReader_name (reg : Registration S) : reg.toReader.name = reg.name := by
  cases reg <;> rfl

end Pane.Attributes
