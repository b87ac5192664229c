import DocRun.Decimal.Shortest
import DocRun.Json.Literal

namespace DocRun.Json

def nullText : List Char := ['n', 'u', 'l', 'l']

def writeBool : Bool → List Char
  | true => ['t', 'r', 'u', 'e']
  | false => ['f', 'a', 'l', 's', 'e']

-- JSON has no text for infinities and NaN.
def writeFloat (x : Float) : List Char :=
  if x.isFinite then Decimal.renderFloat x else nullText

mutual

def compact : Json → List Char
  | .null => nullText
  | .bool value => writeBool value
  | .int value => Decimal.ofInt value
  | .float value => writeFloat value
  | .str text => Literal.write text.toList
  | .arr [] => ['[', ']']
  | .arr (item :: items) => '[' :: compact item ++ compactItems items ++ [']']
  | .obj [] => ['{', '}']
  | .obj (member :: members) =>
    '{' :: compactMember member ++ compactMembers members ++ ['}']

def compactItems : List Json → List Char
  | [] => []
  | item :: items => ',' :: compact item ++ compactItems items

def compactMember : String × Json → List Char
  | (key, value) => Literal.write key.toList ++ ':' :: compact value

def compactMembers : List (String × Json) → List Char
  | [] => []
  | member :: members => ',' :: compactMember member ++ compactMembers members

end

def newLine (depth : Nat) : List Char := '\n' :: List.replicate (2 * depth) ' '

mutual

-- Empty lists and objects stay on one line.
def pretty (depth : Nat) : Json → List Char
  | .null => nullText
  | .bool value => writeBool value
  | .int value => Decimal.ofInt value
  | .float value => writeFloat value
  | .str text => Literal.write text.toList
  | .arr [] => ['[', ']']
  | .arr (item :: items) =>
    '[' :: newLine (depth + 1) ++ pretty (depth + 1) item ++ prettyItems (depth + 1) items
      ++ newLine depth ++ [']']
  | .obj [] => ['{', '}']
  | .obj (member :: members) =>
    '{' :: newLine (depth + 1) ++ prettyMember (depth + 1) member
      ++ prettyMembers (depth + 1) members ++ newLine depth ++ ['}']

def prettyItems (depth : Nat) : List Json → List Char
  | [] => []
  | item :: items => ',' :: newLine depth ++ pretty depth item ++ prettyItems depth items

def prettyMember (depth : Nat) : String × Json → List Char
  | (key, value) => Literal.write key.toList ++ ':' :: ' ' :: pretty depth value

def prettyMembers (depth : Nat) : List (String × Json) → List Char
  | [] => []
  | member :: members =>
    ',' :: newLine depth ++ prettyMember depth member ++ prettyMembers depth members

end

end DocRun.Json
