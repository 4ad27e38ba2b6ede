/-!
# Colours on a terminal

A style is the number of a terminal attribute or several of them. Styled text is put between the
sequence that sets the style and the one that resets it; a reset inside the text is followed by the
style again. Without colours text is left as it is.
-/
namespace Lineage

/-- What makes a text stand out, as terminal codes. -/
structure Style where
  codes : String
  deriving DecidableEq, Repr, Inhabited

namespace Style

def redBold : Style := ⟨"1;31"⟩

def yellow : Style := ⟨"33"⟩

def yellowBold : Style := ⟨"1;33"⟩

def dimmed : Style := ⟨"2"⟩

def bold : Style := ⟨"1"⟩

def red : Style := ⟨"31"⟩

def green : Style := ⟨"32"⟩

/-- The sequence that ends a style. -/
def reset : List Char := ['\x1b', '[', '0', 'm']

def opening (s : Style) : List Char := ['\x1b', '['] ++ s.codes.toList ++ ['m']

/-- The text with the style set again behind each reset. -/
def restore (s : Style) : List Char → List Char
  | '\x1b' :: '[' :: '0' :: 'm' :: rest => reset ++ s.opening ++ restore s rest
  | c :: rest => c :: restore s rest
  | [] => []

/-- The text in this style, if there are colours. -/
def paint (s : Style) (color : Bool) (text : String) : String :=
  if color then String.ofList (s.opening ++ s.restore text.toList ++ reset) else text

end Style

end Lineage
