import DocRun.Text.Hex
import DocRun.Utf8

namespace DocRun.Quoted

-- `hidden` says which characters cannot be seen and are shown by their number.
def escape (hidden : Char → Bool) (c : Char) : List Char :=
  if c = '\x00' then ['\\', '0']
  else if c = '\t' then ['\\', 't']
  else if c = '\r' then ['\\', 'r']
  else if c = '\n' then ['\\', 'n']
  else if c = '\\' then ['\\', '\\']
  else if c = '"' then ['\\', '"']
  else if hidden c then ['\\', 'u', '{'] ++ Nat.toDigits 16 c.toNat ++ ['}']
  else [c]

def text (hidden : Char → Bool) (body : List Char) : List Char :=
  '"' :: body.flatMap (escape hidden) ++ ['"']

def strayByte (b : UInt8) : List Char := ['\\', 'x'] ++ Hex.upper b.toNat

def piece (hidden : Char → Bool) : Utf8.Piece → List Char
  | .scalar c => escape hidden c
  | .stray bytes => bytes.flatMap strayByte

-- Bytes are shown as the text that they encode, except for the stray ones.
def bytes (hidden : Char → Bool) (body : List UInt8) : List Char :=
  '"' :: (Utf8.pieces body).flatMap (piece hidden) ++ ['"']

end DocRun.Quoted
