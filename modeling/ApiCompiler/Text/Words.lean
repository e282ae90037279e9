import ApiCompiler.Text.Accents

/-!
Words of a name. A word is an acronym, a capitalised or lower-case word, each with the digits that
follow it, or a run of digits. Accents are dropped first; every character that is then no ASCII
letter or digit separates words.
-/

namespace ApiCompiler.Text

/-- The first word of a text that starts with a letter or digit, and what follows it. -/
def wordAt (text : List Char) : List Char × List Char :=
  let capitals := text.takeWhile Char.isUpper
  let afterCapitals := text.dropWhile Char.isUpper
  let small := afterCapitals.takeWhile Char.isLower
  let afterSmall := afterCapitals.dropWhile Char.isLower
  if !small.isEmpty && 1 < capitals.length then
    (capitals.dropLast, capitals.drop (capitals.length - 1) ++ afterCapitals)
  else
    (capitals ++ small ++ afterSmall.takeWhile Char.isDigit, afterSmall.dropWhile Char.isDigit)

def wordsWithin : Nat → List Char → List (List Char)
  | 0, _ => []
  | _, [] => []
  | fuel + 1, c :: rest =>
      if c.isAlphanum then
        let (word, rest) := wordAt (c :: rest)
        word :: wordsWithin fuel rest
      else wordsWithin fuel rest

def asciiWords (text : List Char) : List (List Char) :=
  wordsWithin text.length text

def words (text : List Char) : List (List Char) :=
  asciiWords (removeAccents text)

def capitalize : List Char → List Char
  | [] => []
  | c :: rest => c.toUpper :: rest

/-- The words run together, all in lower case but for the first letter of each word after the first. -/
def camelCase (text : List Char) : List Char :=
  match words text with
  | [] => []
  | head :: tail =>
      head.map Char.toLower ++ tail.flatMap fun word => capitalize (word.map Char.toLower)

/-- The words with capital first letters, separated by single spaces. -/
def startCase (text : List Char) : List Char :=
  joinWith [' '] ((words text).map capitalize)

private def headerCaseFrom : Bool → List Char → List Char
  | _, [] => []
  | inWord, c :: rest =>
      (if c.isAlphanum && !inWord then c.toUpper else c) :: headerCaseFrom c.isAlphanum rest

/-- The text with the first letter of every run of ASCII letters and digits in upper case. -/
def headerCase (text : List Char) : List Char :=
  headerCaseFrom false text

end ApiCompiler.Text

namespace String

def removeAccents (text : String) : String :=
  String.ofList (ApiCompiler.Text.removeAccents text.toList)

def words (text : String) : List String :=
  (ApiCompiler.Text.words text.toList).map String.ofList

def camelCase (text : String) : String :=
  String.ofList (ApiCompiler.Text.camelCase text.toList)

def startCase (text : String) : String :=
  String.ofList (ApiCompiler.Text.startCase text.toList)

def headerCase (text : String) : String :=
  String.ofList (ApiCompiler.Text.headerCase text.toList)

end String
