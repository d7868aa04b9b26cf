import MemoTransfer.Text.Blank

/-!
# Tokens of a filter

A filter is cut at white space into tokens. White space between double quotes does not cut, and the
quotes themselves are dropped. A token remembers whether it began with a quote: then it is a phrase
to look for, whatever it contains.
-/

namespace MemoTransfer.Query

open MemoTransfer.Text

/-- A token of a filter. -/
structure Token where
  text : List Char
  quoted : Bool
  deriving DecidableEq, Repr

/-- The characters of an unfinished token, the last one first, and whether it began with a quote:
the token, if there are any. -/
def Token.ofPending (pending : List Char) (quoted : Bool) : List Token :=
  if pending.isEmpty then [] else [⟨pending.reverse, quoted⟩]

/-- The tokens of the rest of a text, after an unfinished one. The text has no tokens if a quote
stays open. -/
def tokensFrom (pending : List Char) (inQuote quoted : Bool) : List Char → Option (List Token)
  | [] => if inQuote then none else some (Token.ofPending pending quoted)
  | c :: cs =>
    if c = '"' then
      if inQuote then tokensFrom pending false quoted cs
      else tokensFrom pending true (quoted || pending.isEmpty) cs
    else if !inQuote && isBlank c then
      (tokensFrom [] false false cs).map (Token.ofPending pending quoted ++ ·)
    else tokensFrom (c :: pending) inQuote quoted cs

/-- The tokens of a filter, unless a quote stays open. -/
def tokens? (cs : List Char) : Option (List Token) := tokensFrom [] false false cs

end MemoTransfer.Query
