import DocRun.Utf8

namespace DocRun

-- Equality of `Path` values is equality of the bytes.
structure Path where
  bytes : List UInt8
  deriving DecidableEq, Repr

namespace Path

def slash : UInt8 := 0x2F

def dot : UInt8 := 0x2E

def empty : Path := ⟨[]⟩

def isEmpty (path : Path) : Bool := path.bytes.isEmpty

def ofText (text : String) : Path := ⟨Utf8.encode text.toList⟩

def text? (path : Path) : Option String :=
  (Utf8.decode? path.bytes).map String.ofList

def consFirst (b : UInt8) : List (List UInt8) → List (List UInt8)
  | [] => [[b]]
  | segment :: segments => (b :: segment) :: segments

-- There is always one segment more than there are slashes.
def segments : List UInt8 → List (List UInt8)
  | [] => [[]]
  | b :: rest => if b = slash then [] :: segments rest else consFirst b (segments rest)

def isName (segment : List UInt8) : Bool := segment ≠ [] && segment ≠ [dot]

structure Components where
  absolute : Bool
  names : List (List UInt8)
  deriving DecidableEq, Repr

-- Segments that name nothing are dropped, except for the dot that a path starts with.
-- `..` is a name like any other.
def components (path : Path) : Components where
  absolute := path.bytes.head? = some slash
  names :=
    let names := (segments path.bytes).filter isName
    if (segments path.bytes).head? = some [dot] then [dot] :: names else names

def same (p q : Path) : Bool := p.components = q.components

end Path

end DocRun
