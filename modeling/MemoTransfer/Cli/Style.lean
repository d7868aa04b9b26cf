/-!
# Colours

How parts of the output are marked in a terminal. Without colours every part is plain text.
-/

namespace MemoTransfer.Cli

/-- Whether the output has colours. -/
structure Style where
  colored : Bool
  deriving DecidableEq, Repr

namespace Style

/-- Colours are used in a terminal, unless they are not wanted. -/
def ofTerminal (isTerminal noColor : Bool) : Style := ⟨isTerminal && !noColor⟩

/-- The text between two control sequences. -/
def between (s : Style) (before after text : String) : String :=
  if s.colored then "\x1b[" ++ before ++ "m" ++ text ++ "\x1b[" ++ after ++ "m" else text

/-- The text in one of the 256 colours. -/
def color (s : Style) (number text : String) : String := s.between ("38;5;" ++ number) "39" text

/-- An error. -/
def error (s : Style) (text : String) : String := s.color "9" text

/-- A warning. -/
def warning (s : Style) (text : String) : String := s.color "11" text

/-- A success. -/
def success (s : Style) (text : String) : String := s.color "10" text

/-- A label. -/
def label (s : Style) (text : String) : String := s.color "11" text

/-- A number. -/
def figure (s : Style) (text : String) : String := s.color "14" text

/-- A secondary text. -/
def dim (s : Style) (text : String) : String := s.color "8" text

/-- A heading. -/
def header (s : Style) (text : String) : String := s.between "1" "0" text

/-- The number of characters that are shown of a text key. -/
def shownUid : Nat := 8

/-- A text key, cut if it is long. -/
def shortUid (s : Style) (uid : String) : String :=
  let shown := String.ofList (uid.toList.take shownUid)
  if uid.length ≤ shownUid then shown else s.color "12" shown ++ s.color "4" "…"

end Style

end MemoTransfer.Cli
