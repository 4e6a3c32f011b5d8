/-!
# Tokens of query texts

A query text is cut at separators and at closing parentheses. A separator only divides; a closing
parenthesis is a token of its own; everything between is a word. An opening parenthesis divides like
a blank, because an operator needs no mark beyond its name.
-/

namespace Retrieval

/-- A token of a query text. -/
inductive Token where
  /-- A closing parenthesis. -/
  | close
  /-- A run of characters without separators and closing parentheses. -/
  | word (text : String)
deriving DecidableEq, Repr

namespace Token

/-- The character divides words and is no token. -/
def isSeparator (character : Char) : Bool :=
  character = ' ' || character = '\t' || character = '\n' || character = '\r' ||
    character = ',' || character = '('

/-- The characters of a token. -/
def characters : Token → List Char
  | .close => [')']
  | .word text => text.toList

/-- The word with the given characters, backwards, ahead of other tokens; no token if there are
none. -/
def finish (run : List Char) (tokens : List Token) : List Token :=
  if run.isEmpty then tokens else .word (String.ofList run.reverse) :: tokens

/-- The tokens of a text whose current word, backwards, is `run`. -/
def scanAfter : List Char → List Char → List Token
  | run, [] => finish run []
  | run, character :: later =>
      if isSeparator character then finish run (scanAfter [] later)
      else if character = ')' then finish run (.close :: scanAfter [] later)
      else scanAfter (character :: run) later

/-- The tokens of a text. -/
def scan (text : String) : List Token :=
  scanAfter [] text.toList

end Token

end Retrieval
