import TrackerLinks.Text.Basic

namespace TrackerLinks.Text

/-- White space is the `White_Space` property of Unicode, line breaks included. -/
def isBlank (c : Char) : Bool :=
  let code := c.toNat
  (9 ≤ code && code ≤ 13) || code == 0x20 || code == 0x85 || code == 0xA0 ||
    code == 0x1680 || (0x2000 ≤ code && code ≤ 0x200A) || code == 0x2028 ||
    code == 0x2029 || code == 0x202F || code == 0x205F || code == 0x3000

def trimStart (text : Text) : Text :=
  text.dropWhile isBlank

def trimEnd (text : Text) : Text :=
  trimEndWhile isBlank text

def trim (text : Text) : Text :=
  trimEnd (trimStart text)

end TrackerLinks.Text
