import StatementOutline.Text.LowerCase

/-!
# Languages

The languages with statement rules, and the names they go by: the id an editor reports, the file
extensions, the name in serialized data, and the name in debugging output.
-/

namespace StatementOutline

/-- A language with statement rules. The two dialects of TypeScript and of JavaScript that embed
markup count as languages of their own. -/
inductive Language where
  | typeScript
  | javaScript
  | tsx
  | jsx
  | python
  | go
  | java
  | cSharp
  | cpp
  | c
  | ruby
  | php
  deriving DecidableEq, Repr, Inhabited

namespace Language

/-- The language an editor means by `id`. Ids are matched exactly, as editors report them. -/
def ofId? : String → Option Language
  | "typescript" => some typeScript
  | "typescriptreact" => some tsx
  | "javascript" => some javaScript
  | "javascriptreact" => some jsx
  | "jsx" => some jsx
  | "python" => some python
  | "go" => some go
  | "java" => some java
  | "csharp" => some cSharp
  | "cpp" => some cpp
  | "c" => some c
  | "ruby" => some ruby
  | "php" => some php
  | _ => none

/-- The canonical editor id. -/
def id : Language → String
  | typeScript => "typescript"
  | javaScript => "javascript"
  | tsx => "typescriptreact"
  | jsx => "javascriptreact"
  | python => "python"
  | go => "go"
  | java => "java"
  | cSharp => "csharp"
  | cpp => "cpp"
  | c => "c"
  | ruby => "ruby"
  | php => "php"

/-- Every language answers to its canonical id. -/
theorem ofId?_id (l : Language) : ofId? l.id = some l := by
  cases l <;> rfl

/-- Whether an editor id names a language with statement rules. -/
def isSupported (id : String) : Bool :=
  (ofId? id).isSome

/-- The name in debugging output. -/
def label : Language → String
  | typeScript => "TypeScript"
  | javaScript => "JavaScript"
  | tsx => "Tsx"
  | jsx => "Jsx"
  | python => "Python"
  | go => "Go"
  | java => "Java"
  | cSharp => "CSharp"
  | cpp => "Cpp"
  | c => "C"
  | ruby => "Ruby"
  | php => "Php"

/-- The name in serialized data. -/
def serialName : Language → String
  | typeScript => "typescript"
  | javaScript => "javascript"
  | tsx => "tsx"
  | jsx => "jsx"
  | python => "python"
  | go => "go"
  | java => "java"
  | cSharp => "csharp"
  | cpp => "cpp"
  | c => "c"
  | ruby => "ruby"
  | php => "php"

/-- The language of a serialized name, matched exactly. -/
def ofSerialName? : String → Option Language
  | "typescript" => some typeScript
  | "javascript" => some javaScript
  | "tsx" => some tsx
  | "jsx" => some jsx
  | "python" => some python
  | "go" => some go
  | "java" => some java
  | "csharp" => some cSharp
  | "cpp" => some cpp
  | "c" => some c
  | "ruby" => some ruby
  | "php" => some php
  | _ => none

/-- Reading back a serialized name gives the language that was written. -/
theorem ofSerialName?_serialName (l : Language) : ofSerialName? l.serialName = some l := by
  cases l <;> rfl

/-- The language of a file extension in lower case. -/
def ofLowerExtension? : String → Option Language
  | "ts" | "mts" | "cts" => some typeScript
  | "js" | "mjs" | "cjs" => some javaScript
  | "tsx" => some tsx
  | "jsx" => some jsx
  | "py" | "pyi" => some python
  | "go" => some go
  | "java" => some java
  | "cs" => some cSharp
  | "cpp" | "cc" | "cxx" | "hpp" | "hxx" | "hh" => some cpp
  | "c" | "h" => some c
  | "rb" | "rake" | "gemspec" => some ruby
  | "php" => some php
  | _ => none

/-- The language of a file extension, whatever its case. -/
def ofExtension? (extension : String) : Option Language :=
  ofLowerExtension? (Text.lowerCase extension)

/-- How the grammar of a language shows in debugging output. -/
def grammarDebug (l : Language) : String :=
  "Grammar \x7b language: " ++ l.label ++ ", .. \x7d"

/-- How the reader of a language's syntax shows in debugging output. -/
def readerDebug (l : Language) : String :=
  "SyntaxParser \x7b language: " ++ l.label ++ " \x7d"

end Language

end StatementOutline
