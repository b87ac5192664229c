import DocRun.Json.Literal
import DocRun.Json.Number

namespace DocRun.Json

def readWord : Reader Json
  | [] => .error .endOfText
  | 'n' :: rest => (readLetters ['u', 'l', 'l'] rest).map fun rest => (.null, rest)
  | 't' :: rest => (readLetters ['r', 'u', 'e'] rest).map fun rest => (.bool true, rest)
  | 'f' :: rest => (readLetters ['a', 'l', 's', 'e'] rest).map fun rest => (.bool false, rest)
  | _ :: _ => .error .malformed

def readScalar : Reader Json
  | '"' :: rest => do
    let (body, rest) ← Literal.read rest
    .ok (.str (String.ofList body), rest)
  | c :: rest => if Number.startsWith c then Number.read (c :: rest) else readWord (c :: rest)
  | [] => .error .endOfText

def readKey (text : List Char) : Except Fault (String × List Char) :=
  match skipSpace text with
  | [] => .error .endOfText
  | '"' :: rest => do
    let (key, rest) ← Literal.read rest
    match skipSpace rest with
    | [] => .error .endOfText
    | ':' :: rest => .ok (String.ofList key, rest)
    | _ :: _ => .error .malformed
  | _ :: _ => .error .malformed

mutual

-- The fuel bounds the nesting and the number of items.
def readValue : Nat → Reader Json
  | 0, _ => .error .malformed
  | fuel + 1, text =>
    match skipSpace text with
    | '[' :: rest =>
      match skipSpace rest with
      | ']' :: rest => .ok (.arr [], rest)
      | rest => do
        let (items, rest) ← readItems fuel rest
        .ok (.arr items, rest)
    | '{' :: rest =>
      match skipSpace rest with
      | '}' :: rest => .ok (.obj [], rest)
      | rest => do
        let (members, rest) ← readMembers fuel rest
        .ok (.obj members, rest)
    | rest => readScalar rest

def readItems : Nat → Reader (List Json)
  | 0, _ => .error .malformed
  | fuel + 1, text => do
    let (item, rest) ← readValue fuel text
    match skipSpace rest with
    | [] => .error .endOfText
    | ']' :: rest => .ok ([item], rest)
    | ',' :: rest => do
      let (items, rest) ← readItems fuel rest
      .ok (item :: items, rest)
    | _ :: _ => .error .malformed

def readMembers : Nat → Reader (List (String × Json))
  | 0, _ => .error .malformed
  | fuel + 1, text => do
    let (key, rest) ← readKey text
    let (value, rest) ← readValue fuel rest
    match skipSpace rest with
    | [] => .error .endOfText
    | '}' :: rest => .ok ([(key, value)], rest)
    | ',' :: rest => do
      let (members, rest) ← readMembers fuel rest
      .ok ((key, value) :: members, rest)
    | _ :: _ => .error .malformed

end

-- Each character takes at most two units of fuel.
def parse (text : List Char) : Except Fault Json := do
  let (value, rest) ← readValue (2 * text.length + 2) text
  if (skipSpace rest).isEmpty then .ok value else .error .malformed

end DocRun.Json
