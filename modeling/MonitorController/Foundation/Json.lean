import Mathlib.Data.List.Sort
import Mathlib.Data.String.Basic

/-! # JSON values and their text

A value and its compact text in printable ASCII.
-/

/-- A JSON value without fractions; an object keeps the entries it was built from. -/
inductive Json where
  | null
  | bool (b : Bool)
  | int (n : Int)
  | str (s : String)
  | arr (items : List Json)
  | obj (entries : List (String × Json))

namespace Json

section Text

def hex4 (n : Nat) : List Char :=
  [Nat.digitChar (n / 4096 % 16), Nat.digitChar (n / 256 % 16), Nat.digitChar (n / 16 % 16),
    Nat.digitChar (n % 16)]

/-- A character inside of quotes; whatever is not printable ASCII is spelled by its code units. -/
def escape (c : Char) : List Char :=
  if c = '"' then ['\\', '"']
  else if c = '\\' then ['\\', '\\']
  else if c = '\n' then ['\\', 'n']
  else if c = '\r' then ['\\', 'r']
  else if c = '\t' then ['\\', 't']
  else if c = '\x0c' then ['\\', 'f']
  else if c = '\x08' then ['\\', 'b']
  else if 0x20 ≤ c.toNat ∧ c.toNat ≤ 0x7e then [c]
  else if c.toNat < 0x10000 then '\\' :: 'u' :: hex4 c.toNat
  else
    let n := c.toNat - 0x10000
    '\\' :: 'u' :: hex4 (0xd800 + n / 1024) ++ '\\' :: 'u' :: hex4 (0xdc00 + n % 1024)

def quote (s : String) : List Char :=
  '"' :: (s.toList.flatMap escape ++ ['"'])

def digits : Int → List Char
  | .ofNat n => Nat.toDigits 10 n
  | .negSucc n => '-' :: Nat.toDigits 10 (n + 1)

mutual

def chars : Json → List Char
  | .null => ['n', 'u', 'l', 'l']
  | .bool true => ['t', 'r', 'u', 'e']
  | .bool false => ['f', 'a', 'l', 's', 'e']
  | .int n => digits n
  | .str s => quote s
  | .arr [] => ['[', ']']
  | .arr (item :: items) => '[' :: (item.chars ++ charsItems items)
  | .obj [] => ['{', '}']
  | .obj ((key, value) :: entries) =>
    '{' :: (quote key ++ ':' :: (value.chars ++ charsEntries entries))

def charsItems : List Json → List Char
  | [] => [']']
  | item :: items => ',' :: (item.chars ++ charsItems items)

/-- The text of the later entries of an object, up to its end. -/
def charsEntries : List (String × Json) → List Char
  | [] => ['}']
  | (key, value) :: entries => ',' :: (quote key ++ ':' :: (value.chars ++ charsEntries entries))

end

/-- `json.dumps` with compact separators. -/
def dumps (j : Json) : String := String.ofList j.chars

end Text

end Json
