import ApiCompiler.Text.Segments
import ApiCompiler.Tree.Value

/-!
Pointers into a document tree: segments between slashes, where `~1` stands for a slash and `~0` for
a tilde. Slashes at either end do not count.
-/

namespace ApiCompiler.Pointer

/-- A segment as it is written: first the tildes, then the slashes are escaped. -/
def escape (segment : List Char) : List Char :=
  segment.flatMap fun c => if c = '~' then ['~', '0'] else if c = '/' then ['~', '1'] else [c]

/-- First the slashes, then the tildes of a written segment. -/
def unescape (segment : List Char) : List Char :=
  Text.replace ['~', '0'] ['~'] (Text.replace ['~', '1'] ['/'] segment)

def trimSlashes (text : List Char) : List Char :=
  let isSlash (c : Char) : Bool := c = '/'
  ((text.dropWhile isSlash).reverse.dropWhile isSlash).reverse

def segments (pointer : List Char) : List (List Char) :=
  if pointer = [] || pointer = ['/'] then []
  else (Text.splitAt '/' (trimSlashes pointer)).map unescape

/-- The item at a position; a negative one counts from the end. -/
def item? (items : List Value) (position : Int) : Option Value :=
  let index := if position < 0 then position + items.length else position
  if index < 0 then none else items[index.toNat]?

/-- One step down: a member of an object by its name, an item of a list by its position. -/
def step? (value : Value) (segment : List Char) : Option Value :=
  match value with
  | .object members => Members.find? (String.ofList segment) members
  | .list items => (Text.readInteger? segment).bind (item? items)
  | .scalar _ => none

def resolve? (root : Value) (pointer : List Char) : Option Value :=
  (segments pointer).foldlM step? root

end ApiCompiler.Pointer
