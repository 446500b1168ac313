import Precedence.Files
import Precedence.Grammar.Reading
import Precedence.View.Render

/-!
# Loading from files

Grammars and sources come from files, or a grammar from the bundled one. Reading a file is given
as a function in some monad, so the same definitions serve a real file system and a directory
that is a value.
-/

namespace Precedence

variable {m : Type → Type} [Monad m]

/-- Reads a ruleset from a file. -/
def Ruleset.ofFile (read : String → m (Except ReadError String)) (path : String) :
    m (Except GrammarError Ruleset) := do
  match ← read path with
  | .ok text => return ofText text
  | .error error => return .error (.unreadable path error.message)

/-- The parser for a grammar file, or for the bundled grammar when none is named. -/
def Parser.load (read : String → m (Except ReadError String)) (path : Option String) :
    m (Except RenderError Parser) := do
  let ruleset ←
    match path with
    | some path => Ruleset.ofFile read path
    | none => pure (.ok .program)
  return (ruleset.bind Parser.ofRuleset).mapError .grammar

/-- What a view shows of a source file. -/
def View.renderFile (view : View) (read : String → m (Except ReadError String)) (parser : Parser)
    (path : String) : m (Except RenderError String) := do
  match ← read path with
  | .ok source => return view.render parser source
  | .error error =>
    if error.isAbsence then return .error (.fileNotFound path)
    else return .error (.unreadable error.message)

end Precedence
