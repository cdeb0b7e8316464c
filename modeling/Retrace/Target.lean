import Retrace.Path

/-! # What the compiler can generate -/

namespace Retrace

inductive Target where
  | michelson
  | michelsonStorage
  | javascript
  | markdown
  | whyml
  | debugTrace
deriving DecidableEq, Repr

namespace Target

def all : List Target := [.michelson, .michelsonStorage, .javascript, .markdown, .whyml, .debugTrace]

def name : Target → String
  | .michelson => "michelson"
  | .michelsonStorage => "michelson-storage"
  | .javascript => "javascript"
  | .markdown => "markdown"
  | .whyml => "whyml"
  | .debugTrace => "debug-trace"

def ofName? (name : String) : Option Target := all.find? (·.name = name)

def extension : Target → String
  | .michelson => "tz"
  | .michelsonStorage => "storage.tz"
  | .javascript => "js"
  | .markdown => "md"
  | .whyml => "mlw"
  | .debugTrace => "json"

/-- Where a generated file goes: next to its source. -/
def outputPath (t : Target) (source : String) : String :=
  String.ofList (Path.withExtension source.toList t.extension.toList)

end Target
end Retrace
