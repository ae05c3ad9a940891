import TrackerLinks.Text.Digits

/-! JSON values, written over several lines with two spaces for each level. -/

namespace TrackerLinks

inductive Json
  | null
  | bool (value : Bool)
  | number (value : Nat)
  | text (value : Text)
  | list (items : List Json)
  | object (fields : List (Text × Json))

namespace Json

def option (encode : α → Json) : Option α → Json
  | none => null
  | some value => encode value

/-- Control characters without a short escape are written as four digits. -/
def escape (c : Char) : Text :=
  match c with
  | '"' => ['\\', '"']
  | '\\' => ['\\', '\\']
  | '\x08' => ['\\', 'b']
  | '\x0c' => ['\\', 'f']
  | '\n' => ['\\', 'n']
  | '\r' => ['\\', 'r']
  | '\t' => ['\\', 't']
  | _ =>
      if c < ' ' then
        let digits := Text.hexadecimal c.toNat
        "\\u".toList ++ List.replicate (4 - digits.length) '0' ++ digits
      else [c]

def quoted (text : Text) : Text :=
  '"' :: (text.flatMap escape ++ ['"'])

def newline (depth : Nat) : Text :=
  '\n' :: List.replicate (2 * depth) ' '

/-- Members one level deeper than their brackets, which stay together around none. -/
def enclosed (opening closing : Char) (depth : Nat) (members : List Text) : Text :=
  if members.isEmpty then [opening, closing]
  else
    opening :: (newline (depth + 1) ++
      (Text.joined (',' :: newline (depth + 1)) members ++ (newline depth ++ [closing])))

mutual

def prettyAt (depth : Nat) : Json → Text
  | null => "null".toList
  | bool true => "true".toList
  | bool false => "false".toList
  | number value => Text.decimal value
  | text value => quoted value
  | list items => enclosed '[' ']' depth (prettyItems (depth + 1) items)
  | object fields => enclosed '\x7b' '\x7d' depth (prettyFields (depth + 1) fields)

def prettyItems (depth : Nat) : List Json → List Text
  | [] => []
  | item :: more => item.prettyAt depth :: prettyItems depth more

def prettyFields (depth : Nat) : List (Text × Json) → List Text
  | [] => []
  | (name, value) :: more =>
      (quoted name ++ (": ".toList ++ value.prettyAt depth)) :: prettyFields depth more

end

def pretty (json : Json) : Text :=
  json.prettyAt 0

end Json

end TrackerLinks
