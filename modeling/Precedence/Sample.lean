import Precedence.View.Render

/-!
# Bundled samples

Small sources for the bundled imperative language: five programs, one source with a lexical error
and one with a grammatical error. A sample is read as it is, or shown with the bundled
grammar.
-/

namespace Precedence

open Text (quotedList)

/-- A bundled source. -/
structure Sample where
  /-- The file name of the sample. -/
  name : String
  /-- The source. -/
  text : String

namespace Sample

/-- The bundled sources. -/
def all : List Sample := [
  ⟨"000-return-variable.wp",
    "vars\n" ++
    "    x: int;\n" ++
    "begin\n" ++
    "    return x;\n" ++
    "end\n"⟩,
  ⟨"010-declarations.wp",
    "vars\n" ++
    "    count: int;\n" ++
    "    ratio: real;\n" ++
    "    label: string;\n" ++
    "begin\n" ++
    "    return count;\n" ++
    "end\n"⟩,
  ⟨"020-assignments.wp",
    "vars\n" ++
    "    a: int;\n" ++
    "    b: int;\n" ++
    "    total: int;\n" ++
    "begin\n" ++
    "    a = 4;\n" ++
    "    b = a * 2 + 1;\n" ++
    "    total = a + b - 3 / 1;\n" ++
    "    return total;\n" ++
    "end\n"⟩,
  ⟨"030-nested-expressions.wp",
    "vars\n" ++
    "    x: real;\n" ++
    "    y: real;\n" ++
    "begin\n" ++
    "    x = (1.5 + 2) * (3 - (4 / 2));\n" ++
    "    y = ((x));\n" ++
    "    return x * y;\n" ++
    "end\n"⟩,
  ⟨"040-string-literals.wp",
    "vars\n" ++
    "    greeting: string;\n" ++
    "begin\n" ++
    "    greeting = \"hello; world + more\";\n" ++
    "    return greeting;\n" ++
    "end\n"⟩,
  ⟨"900-lexical-error.wp",
    "vars\n" ++
    "    x: int;\n" ++
    "begin\n" ++
    "    x = 1 # 2;\n" ++
    "    return x;\n" ++
    "end\n"⟩,
  ⟨"910-missing-semicolon.wp",
    "vars\n" ++
    "    x: int;\n" ++
    "begin\n" ++
    "    x = 1\n" ++
    "    return x;\n" ++
    "end\n"⟩]

/-- The names of the bundled sources. -/
def names : List String :=
  all.map Sample.name

/-- The sample with a name. -/
def find (name : String) : Except RenderError Sample :=
  match all.find? (·.name == name) with
  | some sample => .ok sample
  | none => .error (.fileNotFound
      s!"Sample '{name}' is not available. Available samples: {quotedList names}")

/-- The source of a sample. -/
def source (name : String) : Except RenderError String :=
  (find name).map Sample.text

/-- What a view shows of a sample, with the bundled grammar. -/
def rendered (name viewText : String) : Except RenderError String := do
  let sample ← find name
  let view ← View.ofText viewText
  let parser ← (Parser.ofRuleset .program).mapError .grammar
  view.render parser sample.text

end Sample

end Precedence
