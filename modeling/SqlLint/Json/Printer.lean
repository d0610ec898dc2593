import SqlLint.Json.Basic
import SqlLint.Binary64.Shortest

/-! # Compact JSON text

Values are written without blanks. Of the characters in a string only the quote, the backslash and
the control characters are escaped. -/

namespace SqlLint.Json

/-! ## Strings -/

/-- The hexadecimal digits of a number below 256, in two places. -/
def hexPair (n : Nat) : List Char := [Nat.digitChar (n / 16), Nat.digitChar (n % 16)]

/-- A character as it stands inside a string. -/
def escaped (c : Char) : List Char :=
  match c with
  | '"' => ['\\', '"']
  | '\\' => ['\\', '\\']
  | '\n' => ['\\', 'n']
  | '\r' => ['\\', 'r']
  | '\t' => ['\\', 't']
  | '\x08' => ['\\', 'b']
  | '\x0c' => ['\\', 'f']
  | c => if c.toNat < 0x20 then ['\\', 'u', '0', '0'] ++ hexPair c.toNat else [c]

def quoted (s : String) : List Char := '"' :: s.toList.flatMap escaped ++ ['"']

/-! ## Numbers -/

def digits (n : Nat) : List Char := Nat.toDigits 10 n

/-- An integer: a minus sign if it is negative, then its digits. -/
def intChars : Int → List Char
  | .ofNat n => digits n
  | .negSucc n => '-' :: digits (n + 1)

/-- An exponent, with its sign in both directions. -/
def exponentChars : Int → List Char
  | .ofNat n => '+' :: digits n
  | .negSucc n => '-' :: digits (n + 1)

/-- The decimal with the digits `ds` before `exponent` further places. It is written with a point as
long as the point stands at most five places before and sixteen places after the first digit, and
with an exponent otherwise. -/
def placed (ds : List Char) (exponent : Int) : List Char :=
  let point : Int := ds.length + exponent
  if 0 ≤ exponent && point ≤ 16 then ds ++ List.replicate exponent.toNat '0' ++ ['.', '0']
  else if 0 < point && point ≤ 16 then ds.take point.toNat ++ '.' :: ds.drop point.toNat
  else if -5 < point && point ≤ 0 then '0' :: '.' :: List.replicate (-point).toNat '0' ++ ds
  else
    let shown := 'e' :: exponentChars (point - 1)
    match ds with
    | [d] => d :: shown
    | d :: rest => d :: '.' :: rest ++ shown
    | [] => []

/-- A floating-point number by its shortest decimal. -/
def sizeChars (size : Binary64) : List Char :=
  let (coefficient, exponent) := size.shortest?.getD (0, 0)
  placed (digits coefficient) exponent

def Number.chars : Number → List Char
  | .int value => intChars value
  | .decimal negative size => (if negative then ['-'] else []) ++ sizeChars size

/-! ## Values -/

mutual

def chars : Json → List Char
  | .null => ['n', 'u', 'l', 'l']
  | .bool true => ['t', 'r', 'u', 'e']
  | .bool false => ['f', 'a', 'l', 's', 'e']
  | .number value => value.chars
  | .string value => quoted value
  | .array items => '[' :: itemsChars items
  | .object members => '\x7b' :: membersChars members

/-- The items of an array and its closing bracket. -/
def itemsChars : List Json → List Char
  | [] => [']']
  | [item] => chars item ++ [']']
  | item :: rest => chars item ++ ',' :: itemsChars rest

/-- The members of an object and its closing brace. -/
def membersChars : List (String × Json) → List Char
  | [] => ['\x7d']
  | [(key, value)] => quoted key ++ ':' :: chars value ++ ['\x7d']
  | (key, value) :: rest => quoted key ++ ':' :: chars value ++ ',' :: membersChars rest

end

def compress (value : Json) : String := String.ofList value.chars

end SqlLint.Json
