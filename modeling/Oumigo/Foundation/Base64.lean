import Oumigo.Foundation.Python

/-!
# Base64 as the standard library decodes it

`base64.b64decode(data, validate=False)`: characters outside the alphabet are skipped, a
complete padding ends the data, and anything else that does not end on a group of four is
an error.
-/

namespace Python

/-- The six bits a character of the alphabet stands for. -/
def b64Value (c : Char) : Option Nat :=
  if c.isUpper then some (c.toNat - 65)
  else if c.isLower then some (c.toNat - 97 + 26)
  else if c.isDigit then some (c.toNat - 48 + 52)
  else if c = '+' then some 62
  else if c = '/' then some 63
  else none

/-- The loop of `binascii.a2b_base64`: the place in the group of four, the bits left over,
and the padding characters seen there. -/
def a2bBase64 (quadPos left pads : Nat) : List Char → Option (List UInt8)
  | [] => if quadPos = 0 then some [] else none
  | c :: rest =>
      if c = '=' then
        if quadPos < 2 then a2bBase64 quadPos left pads rest
        else if 4 ≤ quadPos + (pads + 1) then some []
        else a2bBase64 quadPos left (pads + 1) rest
      else
        match b64Value c with
        | none => a2bBase64 quadPos left pads rest
        | some v =>
            match quadPos with
            | 0 => a2bBase64 1 v 0 rest
            | 1 => (a2bBase64 2 (v % 16) 0 rest).map (UInt8.ofNat (left * 4 + v / 16) :: ·)
            | 2 => (a2bBase64 3 (v % 4) 0 rest).map (UInt8.ofNat (left * 16 + v / 4) :: ·)
            | _ => (a2bBase64 0 0 0 rest).map (UInt8.ofNat (left * 64 + v) :: ·)

example : a2bBase64 2 1 0 ['=', '=', 'A'] = some [] := by simp [a2bBase64]

/-- `base64.b64decode(data, validate=False)`, or nothing where it raises. -/
def b64decode (data : String) : Option (List UInt8) :=
  if isAscii data then a2bBase64 0 0 0 data.toList else none

example : b64decode "UklG\nRg==" = some [82, 73, 70, 70] := by decide

end Python
