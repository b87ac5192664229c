import DocRun.Json.Reader
import DocRun.Tier.Reading

namespace DocRun.Tier

-- Why a text is no tier. Whatever is found first, from left to right, decides.
inductive TextError where
  | data (problem : Problem)
  | fault (fault : Json.Fault)

def TextError.ofFault {α : Type} (result : Except Json.Fault α) : Except TextError α :=
  result.mapError .fault

def TextError.ofProblem {α : Type} (result : Except Problem α) : Except TextError α :=
  result.mapError .data

def readName (text : List Char) : Except TextError (Tier × List Char) := do
  let (body, rest) ← TextError.ofFault (Json.Literal.read text)
  let tier ← TextError.ofProblem (ofName (String.ofList body))
  .ok (tier, rest)

-- A list or an object is known by its first character, any other value is read to its end.
def unexpectedValue (wanted : Wanted) : List Char → TextError
  | '[' :: _ => .data (.unexpected .sequence wanted)
  | '{' :: _ => .data (.unexpected .map wanted)
  | text =>
    match Json.readScalar text with
    | .ok (value, _) => .data (.unexpected value.shape wanted)
    | .error fault => .fault fault

def readKey (text : List Char) : Except TextError (Tier × List Char) :=
  match Json.skipSpace text with
  | '"' :: rest => readName rest
  | rest => .error (unexpectedValue .name rest)

def readNull (text : List Char) : Except TextError (List Char) :=
  match Json.skipSpace text with
  | 'n' :: rest => TextError.ofFault (Json.readLetters ['u', 'l', 'l'] rest)
  | rest => .error (unexpectedValue .unit rest)

def readMark (mark : Char) (text : List Char) : Except TextError (List Char) :=
  match Json.skipSpace text with
  | [] => .error (.fault .endOfText)
  | c :: rest => if c = mark then .ok rest else .error (.fault .malformed)

def readMember (text : List Char) : Except TextError (Tier × List Char) := do
  let (tier, rest) ← readKey text
  let rest ← readMark ':' rest
  let rest ← readNull rest
  let rest ← readMark '}' rest
  .ok (tier, rest)

def readTier (text : List Char) : Except TextError (Tier × List Char) :=
  match Json.skipSpace text with
  | [] => .error (.fault .endOfText)
  | '"' :: rest => readName rest
  | '{' :: rest => readMember rest
  | _ :: _ => .error (.fault .malformed)

def ofText (text : List Char) : Except TextError Tier := do
  let (tier, rest) ← readTier text
  if (Json.skipSpace rest).isEmpty then .ok tier else .error (.fault .malformed)

end DocRun.Tier
