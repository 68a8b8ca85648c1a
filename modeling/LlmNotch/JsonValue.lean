import Mathlib.Data.String.Basic

/-!
# JSON values and their compact text

`Json` is a parsed document. Object fields are kept sorted by key, as an ordered map
keeps them : `setField` replaces a value in place or inserts it at its sorted position.
`text` is the compact serialisation, with the short escapes for the seven characters
that have one and `\u00xx` for the other control characters.
-/

namespace LlmNotch

/-- A JSON value. A number is kept as its canonical text. -/
inductive Json where
  | null
  | bool (b : Bool)
  | num (digits : String)
  | str (s : String)
  | arr (items : List Json)
  | obj (fields : List (String × Json))

namespace Json

/-- The value of the first field named `key`. -/
def fieldOf (key : String) : List (String × Json) → Option Json
  | [] => none
  | (k, v) :: rest => if k = key then some v else fieldOf key rest

def asStr : Json → Option String
  | str s => some s
  | _ => none

def asArray : Json → Option (List Json)
  | arr items => some items
  | _ => none

def asObject : Json → Option (List (String × Json))
  | obj fields => some fields
  | _ => none

/-- The field `key` of an object. -/
def get (v : Json) (key : String) : Option Json :=
  v.asObject.bind (fieldOf key)

/-- The field `key` of an object, when it is a string. -/
def getStr (v : Json) (key : String) : Option String :=
  (v.get key).bind asStr

/-- The field `key` of an object, when it is an array. -/
def getArray (v : Json) (key : String) : Option (List Json) :=
  (v.get key).bind asArray

/-! ## Text -/

/-- A hexadecimal digit, lower case. -/
def hexDigit (n : ℕ) : Char :=
  if n < 10 then Char.ofNat (48 + n) else Char.ofNat (87 + n)

/-- The text of one character inside a string. -/
def escapeChar (c : Char) : List Char :=
  if c = '"' then ['\\', '"']
  else if c = '\\' then ['\\', '\\']
  else if c = '\n' then ['\\', 'n']
  else if c = '\r' then ['\\', 'r']
  else if c = '\t' then ['\\', 't']
  else if c.toNat = 8 then ['\\', 'b']
  else if c.toNat = 12 then ['\\', 'f']
  else if c.toNat < 32 then
    ['\\', 'u', '0', '0', hexDigit (c.toNat / 16), hexDigit (c.toNat % 16)]
  else [c]

/-- A quoted string. -/
def quote (s : String) : String :=
  "\"" ++ String.ofList (s.toList.flatMap escapeChar) ++ "\""

mutual

/-- Compact text of a value. -/
def text : Json → String
  | null => "null"
  | bool b => if b then "true" else "false"
  | num digits => digits
  | str s => quote s
  | arr items => "[" ++ textItems items ++ "]"
  | obj fields => "\x7b" ++ textFields fields ++ "\x7d"

def textItems : List Json → String
  | [] => ""
  | [v] => v.text
  | v :: w :: rest => v.text ++ "," ++ textItems (w :: rest)

def textFields : List (String × Json) → String
  | [] => ""
  | [(k, v)] => quote k ++ ":" ++ v.text
  | (k, v) :: f :: rest => quote k ++ ":" ++ v.text ++ "," ++ textFields (f :: rest)

end

end Json

end LlmNotch
