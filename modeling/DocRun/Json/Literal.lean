import DocRun.Json.Basic
import DocRun.Text.Hex
import DocRun.Utf8

namespace DocRun.Json.Literal

-- Only quotes, backslashes and control characters below U+0020 are escaped.
def escape (c : Char) : List Char :=
  if c = '"' then ['\\', '"']
  else if c = '\\' then ['\\', '\\']
  else if c = '\x08' then ['\\', 'b']
  else if c = '\t' then ['\\', 't']
  else if c = '\n' then ['\\', 'n']
  else if c = '\x0c' then ['\\', 'f']
  else if c = '\r' then ['\\', 'r']
  else if c.toNat < 0x20 then ['\\', 'u', '0', '0'] ++ Hex.lower c.toNat
  else [c]

def write (text : List Char) : List Char := '"' :: text.flatMap escape ++ ['"']

def short? : Char → Option Char
  | '"' => some '"'
  | '\\' => some '\\'
  | '/' => some '/'
  | 'b' => some '\x08'
  | 'f' => some '\x0c'
  | 'n' => some '\n'
  | 'r' => some '\r'
  | 't' => some '\t'
  | _ => none

def isLeading (n : Nat) : Bool := 0xD800 ≤ n && n ≤ 0xDBFF

def isTrailing (n : Nat) : Bool := 0xDC00 ≤ n && n ≤ 0xDFFF

def scalarOfPair (lead trail : Nat) : Char :=
  Char.ofNat (0x10000 + (lead - 0xD800) * 0x400 + (trail - 0xDC00))

-- Four hexadecimal digits. The text has ended if fewer than four bytes of it are left.
def readUnit : Reader Nat
  | a :: b :: c :: d :: rest =>
    match Hex.value? a, Hex.value? b, Hex.value? c, Hex.value? d with
    | some a, some b, some c, some d => .ok (a * 0x1000 + b * 0x100 + c * 0x10 + d, rest)
    | _, _, _, _ => .error .malformed
  | rest => if (Utf8.encode rest).length < 4 then .error .endOfText else .error .malformed

-- The second half of a surrogate pair, which has to be escaped as well.
def readTrail (lead : Nat) : Reader Char
  | [] => .error .endOfText
  | ['\\'] => .error .endOfText
  | '\\' :: 'u' :: rest => do
    let (trail, rest) ← readUnit rest
    if isTrailing trail then .ok (scalarOfPair lead trail, rest) else .error .malformed
  | _ => .error .malformed

-- What follows `\u`. A trailing surrogate cannot come first.
def readUnicode (text : List Char) : Except Fault (Char × List Char) := do
  let (unit, rest) ← readUnit text
  if isTrailing unit then .error .malformed
  else if isLeading unit then readTrail unit rest
  else .ok (Char.ofNat unit, rest)

def readEscape : Reader Char
  | [] => .error .endOfText
  | 'u' :: rest => readUnicode rest
  | c :: rest =>
    match short? c with
    | some d => .ok (d, rest)
    | none => .error .malformed

-- The next item between quotes: a character however it is spelt, or the closing quote as `none`.
def readItem : Reader (Option Char)
  | [] => .error .endOfText
  | '"' :: rest => .ok (none, rest)
  | '\\' :: rest => do
    let (c, rest) ← readEscape rest
    .ok (some c, rest)
  | c :: rest => if c.toNat < 0x20 then .error .malformed else .ok (some c, rest)

theorem length_of_readUnit {text rest : List Char} {n : Nat} (h : readUnit text = .ok (n, rest)) :
    text.length = rest.length + 4 := by
  unfold readUnit at h
  split at h
  · split at h
    · simp only [Except.ok.injEq, Prod.mk.injEq] at h
      simp [← h.2]
    · simp at h
  · split at h <;> simp at h

theorem length_of_readTrail {lead : Nat} {text rest : List Char} {c : Char}
    (h : readTrail lead text = .ok (c, rest)) : rest.length < text.length := by
  unfold readTrail at h
  split at h
  · simp at h
  · simp at h
  · rename_i inner
    cases hu : readUnit inner with
    | error e => simp [hu, bind, Except.bind] at h
    | ok p =>
      obtain ⟨n, left⟩ := p
      have := length_of_readUnit hu
      simp only [hu, bind, Except.bind] at h
      split at h
      · simp only [Except.ok.injEq, Prod.mk.injEq] at h
        simp only [List.length_cons, ← h.2]
        omega
      · simp at h
  · simp at h

theorem length_of_readUnicode {text rest : List Char} {c : Char}
    (h : readUnicode text = .ok (c, rest)) : rest.length < text.length := by
  unfold readUnicode at h
  cases hu : readUnit text with
  | error e => simp [hu, bind, Except.bind] at h
  | ok p =>
    obtain ⟨n, left⟩ := p
    have := length_of_readUnit hu
    simp only [hu, bind, Except.bind] at h
    split at h
    · simp at h
    · split at h
      · have := length_of_readTrail h
        omega
      · simp only [Except.ok.injEq, Prod.mk.injEq] at h
        simp only [← h.2]
        omega

theorem length_of_readEscape {text rest : List Char} {c : Char}
    (h : readEscape text = .ok (c, rest)) : rest.length < text.length := by
  unfold readEscape at h
  split at h
  · simp at h
  · have := length_of_readUnicode h
    simp only [List.length_cons]
    omega
  · split at h
    · simp only [Except.ok.injEq, Prod.mk.injEq] at h
      simp [← h.2]
    · simp at h

theorem length_of_readItem {text rest : List Char} {item : Option Char}
    (h : readItem text = .ok (item, rest)) : rest.length < text.length := by
  unfold readItem at h
  split at h
  · simp at h
  · simp only [Except.ok.injEq, Prod.mk.injEq] at h
    simp [← h.2]
  · rename_i inner
    cases he : readEscape inner with
    | error e => simp [he, bind, Except.bind] at h
    | ok p =>
      have := length_of_readEscape he
      simp only [he, bind, Except.bind, Except.ok.injEq, Prod.mk.injEq] at h
      simp only [List.length_cons, ← h.2]
      omega
  · split at h
    · simp at h
    · simp only [Except.ok.injEq, Prod.mk.injEq] at h
      simp [← h.2]

def read (text : List Char) : Except Fault (List Char × List Char) :=
  match _h : readItem text with
  | .error fault => .error fault
  | .ok (none, rest) => .ok ([], rest)
  | .ok (some c, rest) =>
    match read rest with
    | .error fault => .error fault
    | .ok (body, rest) => .ok (c :: body, rest)
termination_by text.length
decreasing_by exact length_of_readItem _h

end DocRun.Json.Literal
