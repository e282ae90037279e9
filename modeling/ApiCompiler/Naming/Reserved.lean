/-!
Names that generated code may not use as they are, and what stands for each of them.
-/

namespace ApiCompiler.Naming

/-- Reserved words, and the names that every generated function already binds. -/
def reservedWords : List String :=
  ["await", "break", "case", "catch", "class", "const", "continue", "debugger", "delete", "do",
    "else", "enum", "export", "extends", "false", "finally", "for", "function", "if",
    "implements", "import", "in", "instanceof", "let", "new", "null", "package", "return",
    "static", "super", "switch", "this", "throw", "true", "try", "typeof", "undefined", "var",
    "void", "while", "with", "yield", "client"]

private def isVowel (c : Char) : Bool :=
  c = 'a' || c = 'e' || c = 'i' || c = 'o' || c = 'u'

/-- A word with its article, as in `aClass` and `anEnum`. -/
def withArticle (word : String) : String :=
  match word.toList with
  | [] => "a"
  | c :: rest => (if isVowel c then "an" else "a") ++ String.ofList (c.toUpper :: rest)

def replacements : List (String × String) :=
  reservedWords.map (fun word => (word, withArticle word)) ++
    [("default", "defaultValue"), ("public", "isPublic"), ("protected", "isProtected"),
      ("private", "isPrivate"), ("interface", "anInterface"), ("context", "ctx"),
      ("data", "aData")]

def replacement? (name : String) : Option String :=
  replacements.lookup name

end ApiCompiler.Naming
