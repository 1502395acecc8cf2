import AffectedTests.Text.Utf8
/-!
# Paths

Paths are texts with `/` between names. Nothing here looks at a disk: joining, cutting, normalising and
relating paths are functions of the text alone, and there are no symbolic links.

- `Path.normalize` removes empty names and single dots and lets a double dot cancel the name before it.
- `Path.resolve` is the absolute path of the same place, provided that every name can exist on a disk.
- `Path.storedName` and `Path.spelled` relate a name to the bytes under which a disk keeps it.
-/

namespace AffectedTests

namespace Path

def separator : CodePoint := '/'

/-- The name of the directory itself. -/
def here : Text := "."

/-- The name of the directory above. -/
def above : Text := ".."

def isAbsolute (p : Text) : Bool :=
  p.head? == some separator

/-- A path read from a base; an absolute path stays as it is. -/
def join (base p : Text) : Text :=
  if isAbsolute p then p
  else if base.isEmpty || base.getLast? == some separator then base ++ p
  else base ++ separator :: p

/-- The paths that a path leads through, one for each of its names, the outermost first; the last one is
the path itself, but for needless separators. -/
def way (p : Text) : List Text :=
  leads (if isAbsolute p then [separator] else []) ((p.splitOn separator).filter fun name => name ≠ [])
where
  /-- The paths that names lead to one after the other. -/
  leads (sofar : Text) : List Text → List Text
    | [] => []
    | name :: rest => join sofar name :: leads (join sofar name) rest

/-! ## Names, directories and extensions -/

/-- What follows the last separator. -/
def fileName (p : Text) : Text :=
  (p.reverse.takeWhile (· != separator)).reverse

/-- What precedes the last separator, without separators at its end unless it has nothing else. -/
def directory (p : Text) : Text :=
  let lead : Text := (p.reverse.dropWhile (· != separator)).reverse
  if lead.all (· == separator) then lead else lead.trimEnd separator

/-- The stem and the extension. The extension begins at the last dot of the file name, and a name has
one only if something other than dots precedes that dot. -/
def splitExtension (p : Text) : Text × Text :=
  let dot : CodePoint := '.'
  let name := fileName p
  let last := (name.reverse.takeWhile (· != dot)).reverse
  let cut := name.length - (last.length + 1)
  if last.length < name.length ∧ (name.take cut).any (· != dot) then
    (p.take (p.length - (last.length + 1)), dot :: last)
  else (p, [])

/-- The extension with its dot; empty when there is none. -/
def extension (p : Text) : Text :=
  (splitExtension p).2

/-- The path without its extension. -/
def stem (p : Text) : Text :=
  (splitExtension p).1

/-! ## Normal form -/

/-- Enters one name on a stack of names, the last one on top; `rooted` paths have nothing above their
first name. -/
def enter (rooted : Bool) (stack : List Text) (name : Text) : List Text :=
  if name = [] ∨ name = here then stack
  else if name = above then
    match stack with
    | [] => if rooted then [] else [above]
    | top :: below => if top = above then above :: stack else below
  else name :: stack

/-- The names of a path after all cancellation. -/
def names (p : Text) : List Text :=
  ((p.splitOn separator).foldl (enter (isAbsolute p)) []).reverse

/-- The separators that an absolute path begins with: exactly two are kept, any other number is one. -/
def rootMark (p : Text) : Text :=
  match (p.takeWhile (· == separator)).length with
  | 0 => []
  | 2 => [separator, separator]
  | _ => [separator]

/-- The shortest text with the same meaning; a path that cancels to nothing is `.`. -/
def normalize (p : Text) : Text :=
  let text := rootMark p ++ Text.join [separator] (names p)
  if text.isEmpty then here else text

/-- The absolute path with these names. -/
def ofNames (parts : List Text) : Text :=
  separator :: Text.join [separator] parts

/-- How to reach a path from a directory, both absolute. -/
def relativeTo (start p : Text) : Text :=
  shorten (names start) (names p)
where
  /-- Drops the names that both have in common. -/
  shorten : List Text → List Text → Text
    | a :: from', b :: to' => if a = b then shorten from' to' else steps (a :: from') (b :: to')
    | from', to' => steps from' to'
  /-- One step up for each name that is left, then down. -/
  steps (up down : List Text) : Text :=
    let route := up.map (fun _ => above) ++ down
    if route.isEmpty then here else Text.join [separator] route

/-! ## Names on a disk -/

/-- Why no file can have a name. -/
inductive NameFault
  | unencodable
  | holdsNul
  deriving DecidableEq

/-- The byte that a lone surrogate stands for in a name that is no UTF-8. -/
def escapedByte? (c : CodePoint) : Option UInt8 :=
  if 0xDC80 ≤ c.val ∧ c.val ≤ 0xDCFF then some (c.val - 0xDC00).toUInt8 else none

/-- The bytes of one code point of a name. -/
def nameByte? (c : CodePoint) : Option Bytes :=
  match escapedByte? c with
  | some b => some [b]
  | none => Utf8.encodePoint c

/-- The bytes under which a disk keeps a name. -/
def storedName (name : Text) : Except NameFault Bytes :=
  match name.mapM nameByte? with
  | none => .error .unencodable
  | some pieces =>
    let bytes := pieces.flatten
    if bytes.contains 0 then .error .holdsNul else .ok bytes

/-- The text that the bytes of a stored name spell; each stray byte is spelled by its lone surrogate. -/
def spelled (stored : Bytes) : Text :=
  (Utf8.pieces stored).map fun
    | .point c => c
    | .stray b => CodePoint.ofNat (0xDC00 + b.toNat)

/-- Checks the names of a path from left to right, leaving out those that move no further down. -/
def checkNames (p : Text) : Except NameFault Unit :=
  (p.splitOn separator).forM fun name =>
    if name = [] ∨ name = here ∨ name = above then .ok () else (storedName name).map fun _ => ()

/-- The absolute, normalised path of the same place, read from the root directory. -/
def resolve (p : Text) : Except NameFault Text :=
  (checkNames p).map fun _ => ofNames (names (separator :: p))

end Path

end AffectedTests
