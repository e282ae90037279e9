import ApiCompiler.Text.Accents
import ApiCompiler.Text.Quoted
import ApiCompiler.Text.Segments

/-!
Web addresses: their parts, the resolution of relative ones, and one form for all spellings of an
address.
-/

namespace ApiCompiler

inductive UrlFault
  | brackets
  | futureAddress
  | ipv4InBrackets
  | noAddress (host : String)
  | confusable (authority : String)
  /-- No path on a disk holds the character that ends texts there. -/
  | nullCharacter
  deriving DecidableEq

namespace UrlFault

def message : UrlFault → String
  | .brackets => "Invalid IPv6 URL"
  | .futureAddress => "IPvFuture address is invalid"
  | .ipv4InBrackets => "An IPv4 address cannot be in brackets"
  | .noAddress host => host.shown ++ " does not appear to be an IPv4 or IPv6 address"
  | .confusable authority =>
      "netloc '" ++ authority ++ "' contains invalid characters under NFKC normalization"
  | .nullCharacter => "embedded null byte"

end UrlFault

structure Url where
  scheme : List Char
  authority : List Char
  path : List Char
  params : List Char
  query : List Char
  fragment : List Char
  deriving DecidableEq

namespace Url

private def isSchemeChar (c : Char) : Bool :=
  c.isAlphanum || c = '+' || c = '-' || c = '.'

/-- The scheme in lower case, if the text starts with one, and what follows. -/
def splitScheme (text : List Char) : Option (List Char × List Char) :=
  match Text.cut ':' text with
  | (c :: name, some rest) =>
      if c.isAlpha && name.all isSchemeChar then some ((c :: name).map Char.toLower, rest) else none
  | _ => none

private def isHexWord (word : List Char) : Bool :=
  !word.isEmpty && word.length ≤ 4 && word.all fun c => (Text.asciiDigit? 16 c).isSome

private def isOctet (word : List Char) : Bool :=
  !word.isEmpty && word.length ≤ 3 && word.all Char.isDigit &&
    (word = ['0'] || word.head? ≠ some '0') &&
    Text.ofDigits 10 (word.filterMap Text.digit?) ≤ 255

def isIpv4 (text : List Char) : Bool :=
  let octets := Text.splitAt '.' text
  octets.length = 4 && octets.all isOctet

/-- The words between colons, an address with points at the end counting as two words. -/
private def hexWords? (text : List Char) : Option (List (List Char)) :=
  let parts := Text.splitAt ':' text
  if parts.length < 3 then none
  else
    match parts.getLast? with
    | some last =>
        if last.contains '.' then
          if isIpv4 last then some (parts.dropLast ++ [['0'], ['0']]) else none
        else some parts
    | none => none

/-- Eight words, or fewer with one gap of at least one word between two colons. -/
private def areIpv6Words (words : List (List Char)) : Bool :=
  let inner := (words.drop 1).dropLast
  if 9 < words.length then false
  else
    match inner.findIdx? List.isEmpty with
    | none => words.length = 8 && words.all isHexWord
    | some i =>
        let before := words.take (i + 1)
        let after := words.drop (i + 2)
        let before' := if before.head? = some [] then before.drop 1 else before
        let after' := if after.getLast? = some [] then after.dropLast else after
        (before'.length = before.length || before'.isEmpty) &&
          (after'.length = after.length || after'.isEmpty) &&
          before'.length + after'.length < 8 && (before' ++ after').all isHexWord

def isIpv6 (text : List Char) : Bool :=
  let (address, scope) := Text.cut '%' text
  let scopeIsGood :=
    match scope with
    | none => true
    | some scope => !scope.isEmpty && !scope.contains '%'
  !text.contains '/' && scopeIsGood && !address.isEmpty &&
    match hexWords? address with
    | some words => areIpv6Words words
    | none => false

private def isFutureAddress (host : List Char) : Bool :=
  match Text.cut '.' (host.drop 1) with
  | (version, some (_ :: _)) =>
      !version.isEmpty && version.all fun c => (Text.asciiDigit? 16 c).isSome
  | _ => false

private def checkHost (host : List Char) : Except UrlFault Unit :=
  if host.head? = some 'v' then
    if isFutureAddress host then .ok () else .error .futureAddress
  else if isIpv4 host then .error .ipv4InBrackets
  else if isIpv6 host then .ok ()
  else .error (.noAddress (String.ofList host))

private def separators : List Char := ['/', '?', '#', '@', ':']

/-- Characters that look like separators once they are taken apart are not let through. -/
private def isConfusable (authority : List Char) : Bool :=
  (authority.filter fun c => 0x80 ≤ c.toNat).any fun c =>
    (Text.baseLetters c).any separators.contains

private def checkAuthority (authority : List Char) : Except UrlFault Unit := do
  let opens := authority.contains '['
  let closes := authority.contains ']'
  if opens ≠ closes then .error .brackets
  if opens then
    let inside := ((Text.cut '[' authority).2).getD []
    checkHost (Text.cut ']' inside).1
  if isConfusable authority then .error (.confusable (String.ofList authority))

/-- Leading control characters and blanks do not count, nor do tabs and line ends anywhere. -/
def clean (text : List Char) : List Char :=
  (text.dropWhile fun c => c.toNat ≤ 0x20).filter fun c => c ≠ '\t' && c ≠ '\r' && c ≠ '\n'

def splitAuthority : List Char → List Char × List Char
  | '/' :: '/' :: rest => rest.span fun c => c ≠ '/' && c ≠ '?' && c ≠ '#'
  | rest => ([], rest)

def splitParams (path : List Char) : List Char × List Char :=
  let reversed := path.reverse
  let last := (reversed.takeWhile (· ≠ '/')).reverse
  let before := (reversed.dropWhile (· ≠ '/')).reverse
  match Text.cut ';' last with
  | (name, some params) => (before ++ name, params)
  | (_, none) => (path, [])

/-- The parts of an address; one without a scheme of its own gets the given one. -/
def parse (text : String) (scheme : List Char) : Except UrlFault Url := do
  let (scheme, rest) := (splitScheme (clean text.toList)).getD (scheme, clean text.toList)
  let (authority, rest) := splitAuthority rest
  checkAuthority authority
  let (rest, fragment) := Text.cut '#' rest
  let (path, query) := Text.cut '?' rest
  let (path, params) := splitParams path
  return ⟨scheme, authority, path, params, query.getD [], fragment.getD []⟩

private def isWebScheme (scheme : List Char) : Bool :=
  scheme = "http".toList || scheme = "https".toList

/-- An address on the web: its scheme is `http` or `https`, and it names a host. -/
def isWeb (text : String) : Bool :=
  match parse text [] with
  | .ok url => isWebScheme url.scheme && !url.authority.isEmpty
  | .error _ => false

def text (url : Url) : String :=
  let path := if url.params.isEmpty then url.path else url.path ++ ';' :: url.params
  let path := if path.isEmpty || path.head? = some '/' then path else '/' :: path
  String.ofList (url.scheme ++ ':' :: '/' :: '/' :: url.authority ++ path ++
    (if url.query.isEmpty then [] else '?' :: url.query) ++
    (if url.fragment.isEmpty then [] else '#' :: url.fragment))

def walk (done : List (List Char)) (segment : List Char) : List (List Char) :=
  if segment = ['.', '.'] then done.dropLast
  else if segment = ['.'] then done
  else done ++ [segment]

def dropEmptyInside (segments : List (List Char)) : List (List Char) :=
  segments.take 1 ++ ((segments.drop 1).dropLast.filter fun s => !s.isEmpty) ++
    (segments.drop 1).getLast?.toList

/-- The path of a relative address, from the directory of a base path. -/
def joinPath (base path : List Char) : List Char :=
  let split := Text.splitAt '/' base
  let folder := if split.getLast? = some [] then split else split.dropLast
  let segments :=
    if path.head? = some '/' then Text.splitAt '/' path
    else dropEmptyInside (folder ++ Text.splitAt '/' path)
  let resolved := segments.foldl walk []
  let isFolder := segments.getLast? = some ['.'] || segments.getLast? = some ['.', '.']
  let joined := Text.joinWith ['/'] (if isFolder then resolved ++ [[]] else resolved)
  if joined.isEmpty then ['/'] else joined

/-- The address that a relative one stands for on a page of a web address. -/
def join (base relative : String) : Except UrlFault String := do
  if relative.isEmpty then return base
  let b ← parse base []
  let url ← parse relative b.scheme
  if url.scheme ≠ b.scheme then return relative
  if !url.authority.isEmpty then return url.text
  let url := { url with authority := b.authority }
  if url.path.isEmpty && url.params.isEmpty then
    let query := if url.query.isEmpty then b.query else url.query
    return { url with path := b.path, params := b.params, query }.text
  return { url with path := joinPath b.path url.path }.text

private def percentEncode (isSafe : Char → Bool) (text : List Char) : List Char :=
  text.flatMap fun c =>
    if 0x20 < c.toNat && c.toNat < 0x7F && isSafe c then [c]
    else (String.singleton c).toUTF8.toList.flatMap fun byte =>
      '%' :: (Text.hexDigits 2 byte.toNat).map Char.toUpper

private def isQuerySafe (c : Char) : Bool :=
  c ≠ '"' && c ≠ '#' && c ≠ '<' && c ≠ '>'

private def isPathSafe (c : Char) : Bool :=
  isQuerySafe c && c ≠ '?' && c ≠ '\x60' && c ≠ '\x7b' && c ≠ '\x7d'

private def dropStandardEnding (scheme host : List Char) : List Char :=
  let ending := if scheme = "https".toList then ":443" else ":80"
  if ending.toList.isSuffixOf host then host.take (host.length - ending.length) else host

def canonical (text : String) : String :=
  match parse text [] with
  | .error _ => text
  | .ok url =>
      let host := dropStandardEnding url.scheme (url.authority.map Char.toLower)
      let path := if url.params.isEmpty then url.path else url.path ++ ';' :: url.params
      let segments := (Text.splitAt '/' path).foldl walk []
      let isFolder := ["/.".toList, "/..".toList].any (·.isSuffixOf path)
      let path := Text.joinWith ['/'] (if isFolder then segments ++ [[]] else segments)
      { url with
        authority := host
        path := percentEncode isPathSafe path
        params := []
        query := percentEncode isQuerySafe url.query }.text

end Url

end ApiCompiler
