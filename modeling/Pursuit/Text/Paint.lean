/-!
Coloured text for terminals. A style is a list of codes; painted text stands between the style and
a reset, and a reset inside the text is followed by the style again.
-/
namespace Pursuit.Text

structure Paint where
  isOn : Bool

namespace Paint

def bold : Nat := 1
def dimmed : Nat := 2
def red : Nat := 31
def green : Nat := 32
def yellow : Nat := 33
def cyan : Nat := 36

def control (codes : List Nat) : List Char :=
  '\x1b' :: '[' :: (String.intercalate ";" (codes.map Nat.repr)).toList ++ ['m']

/-- Puts a style after every reset in a text. -/
def restyle (style : List Char) : List Char → List Char
  | '\x1b' :: '[' :: '0' :: 'm' :: s => control [0] ++ style ++ restyle style s
  | c :: s => c :: restyle style s
  | [] => []

def apply (p : Paint) (codes : List Nat) (s : String) : String :=
  if p.isOn then
    let style := control codes
    .ofList (style ++ restyle style s.toList ++ control [0])
  else s

end Paint

end Pursuit.Text
