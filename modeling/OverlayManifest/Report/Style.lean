/-
# Styled text

On a terminal that shows colours, a text is written between the sequence that
sets its style and the one that resets it. A reset inside the text is followed
by the style again. Elsewhere a text is written as it is.
-/

namespace OverlayManifest.Report

/-- How a piece of a report looks. -/
inductive Style
  | headline
  | removedTitle
  | addedTitle
  | removedMark
  | addedMark
  | origin
  | command
  | success
  deriving DecidableEq, Repr

namespace Style

/-- The numbers of a style. -/
def codes : Style → List Char
  | .headline => ['1', ';', '3', '3']
  | .removedTitle => ['1', ';', '3', '1']
  | .addedTitle => ['1', ';', '3', '2']
  | .removedMark => ['3', '1']
  | .addedMark => ['3', '2']
  | .origin => ['2']
  | .command => ['1', ';', '3', '6']
  | .success => ['3', '2']

/-- The sequence that sets a style. -/
def sequence (style : Style) : List Char := ['\x1b', '['] ++ style.codes ++ ['m']

/-- The sequence that resets the style. -/
def reset : List Char := ['\x1b', '[', '0', 'm']

/-- A text in which every reset is followed by a style again. -/
def renew (style : Style) : List Char → List Char
  | '\x1b' :: '[' :: '0' :: 'm' :: text => reset ++ style.sequence ++ renew style text
  | c :: text => c :: renew style text
  | [] => []

/-- A text in a style, where colours are shown. -/
def paint (coloured : Bool) (style : Style) (text : List Char) : List Char :=
  if coloured then style.sequence ++ renew style text ++ reset else text

end Style

end OverlayManifest.Report
