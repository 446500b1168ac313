import Precedence.Analysis

/-!
# Render errors

Why nothing can be shown: the view is not written as one, the grammar cannot be used, the source
cannot be read, or its analysis failed.
-/

namespace Precedence

/-- Why nothing can be shown. -/
inductive RenderError
  /-- No file has the path. -/
  | fileNotFound (path : String)
  /-- A view is written without a hyphen. -/
  | invalidFormat (text : String)
  /-- No stage has the name. -/
  | invalidStage (name : String)
  /-- No format has the name, or it does not exist for the stage. -/
  | invalidFormatType (reason : String)
  /-- A file cannot be read. -/
  | unreadable (reason : String)
  /-- The grammar cannot be used. -/
  | grammar (error : GrammarError)
  /-- The analysis failed. -/
  | analysis (error : AnalysisError)
  deriving DecidableEq

namespace RenderError

/-- The message of a render error. -/
def message : RenderError → String
  | .fileNotFound path => s!"File not found: {path}"
  | .invalidFormat text => s!"Invalid format: {text}"
  | .invalidStage name => s!"Invalid stage: {name}"
  | .invalidFormatType reason => s!"Invalid format type: {reason}"
  | .unreadable reason => s!"IO error: {reason}"
  | .grammar error => error.message
  | .analysis error => error.message

/-- Whether an error is about how a view is written. -/
def isAboutView : RenderError → Bool
  | .invalidFormat _ | .invalidStage _ | .invalidFormatType _ => true
  | _ => false

end RenderError

end Precedence
