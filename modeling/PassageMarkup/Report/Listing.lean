/-
Module: PassageMarkup.Report.Listing
Layer: Report
Purpose: Tokens listed one to a line: the kind in angle brackets, the quoted text, and the byte range.
Imports: Text.Quoted, Token.Basic
Main exports: Token.listingLine, listing
-/
import PassageMarkup.Text.Quoted
import PassageMarkup.Token.Basic

namespace PassageMarkup

/-- The line of a token. -/
def Token.listingLine (token : Token) : String :=
  token.kind.display ++ " " ++ Text.quote token.text ++ " " ++ toString token.start ++ ".." ++
    toString token.stop ++ "\n"

/-- The lines of tokens in order. -/
def listing (tokens : List Token) : String :=
  String.join (tokens.map Token.listingLine)

end PassageMarkup
