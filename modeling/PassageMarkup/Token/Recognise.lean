/-
Module: PassageMarkup.Token.Recognise
Layer: Token
Purpose: How each kind of token is spelled. A recogniser looks at the characters from one place on and
  answers how many of them, at least one, form a token of its kind.
Imports: Text.Blank, Text.Digit, Text.Word, Token.Kind
Main exports: Kind.recognise
-/
import PassageMarkup.Text.Blank
import PassageMarkup.Text.Digit
import PassageMarkup.Text.Word
import PassageMarkup.Token.Kind

namespace PassageMarkup.Recognise

open PassageMarkup.Text

/-- A fixed spelling. -/
def exactly (spelling cs : List Char) : Option Nat :=
  if spelling.isPrefixOf cs then some spelling.length else none

/-- A reserved word: a fixed spelling that ends at a word boundary. -/
def reserved (word cs : List Char) : Option Nat :=
  if word.isPrefixOf cs && atBoundary (cs.drop word.length) then some word.length else none

/-- Length of the run of characters of a class in front. -/
def runLength (accept : Char → Bool) (cs : List Char) : Nat :=
  (cs.takeWhile accept).length

/-- A nonempty run of characters of a class. -/
def run (accept : Char → Bool) (cs : List Char) : Option Nat :=
  if runLength accept cs = 0 then none else some (runLength accept cs)

/-- Two spellings in a row: the second is looked for where the first ends. -/
def followedBy (first : List Char → Option Nat) (second : List Char → Option Nat)
    (cs : List Char) : Option Nat :=
  match first cs with
  | none => none
  | some n =>
      match second (cs.drop n) with
      | none => none
      | some m => some (n + m)

/-- The first of several spellings that fits. -/
def firstOf (choices : List (List Char → Option Nat)) (cs : List Char) : Option Nat :=
  choices.findSome? (· cs)

/-- ASCII letters and the underscore start a name. -/
def isNameStart (c : Char) : Bool :=
  c.isAlpha || c == '_'

/-- ASCII letters, digits and the underscore continue a name. -/
def isNameRest (c : Char) : Bool :=
  c.isAlphanum || c == '_'

/-- A name behind its mark, with the given characters to continue it. -/
def nameAfter (mark : Char) (continues : Char → Bool) : List Char → Option Nat
  | m :: c :: cs => if m == mark && isNameStart c then some (2 + runLength continues cs) else none
  | _ => none

/-- `(name:`; the name may hold hyphens. -/
def callHead : List Char → Option Nat :=
  followedBy (nameAfter '(' fun c => isNameRest c || c == '-') (exactly [':'])

/-- Length of what completes a string literal whose opening quote has been read: up to the next quote
that no backslash escapes. A backslash escapes any character but a line feed. -/
def closingQuote : List Char → Option Nat
  | [] => none
  | '"' :: _ => some 1
  | ['\\'] => none
  | '\\' :: c :: cs => if c = '\n' then none else (closingQuote cs).map (· + 2)
  | _ :: cs => (closingQuote cs).map (· + 1)

/-- A string literal. -/
def string : List Char → Option Nat
  | '"' :: cs => (closingQuote cs).map (· + 1)
  | _ => none

/-- A point with digits behind it. -/
def fraction : List Char → Option Nat :=
  followedBy (exactly ['.']) (run isDigit)

/-- Digits, with a fraction where one follows. -/
def digits : List Char → Option Nat :=
  firstOf [followedBy (run isDigit) fraction, run isDigit]

/-- A spelling that ends at a word boundary. -/
def bounded (spelling : List Char → Option Nat) (cs : List Char) : Option Nat :=
  match spelling cs with
  | none => none
  | some n => if atBoundary (cs.drop n) then some n else none

/-- A duration in seconds or milliseconds. -/
def time : List Char → Option Nat :=
  followedBy digits (firstOf [reserved ['m', 's'], reserved ['s']])

/-- A number. Where a letter follows the fraction, the digits before the point are a number alone. -/
def number : List Char → Option Nat :=
  firstOf [bounded (followedBy (run isDigit) fraction), bounded (run isDigit)]

/-- A comparison, by sign or in words; between the words of one there may be any blanks. -/
def comparison : List Char → Option Nat :=
  firstOf
    [exactly ['>', '='], exactly ['<', '='], exactly ['>'], exactly ['<'],
     followedBy (exactly ['i', 's']) (followedBy (run isBlank) (reserved ['n', 'o', 't'])),
     reserved ['i', 's'],
     reserved ['c', 'o', 'n', 't', 'a', 'i', 'n', 's'],
     followedBy (exactly ['d', 'o', 'e', 's']) (followedBy (run isBlank)
       (followedBy (exactly ['n', 'o', 't']) (followedBy (run isBlank)
         (reserved ['c', 'o', 'n', 't', 'a', 'i', 'n']))))]

/-- A character that ends a word, because another token may start with it. -/
def endsWord (c : Char) : Bool :=
  isBlank c || "[]()$\",<>+*/-".toList.contains c

/-- A word, or any single character. -/
def text : List Char → Option Nat
  | [] => none
  | c :: cs => some (if endsWord c then 1 else 1 + runLength (fun d => !endsWord d) cs)

end PassageMarkup.Recognise

namespace PassageMarkup

open Recognise

/-- The number of characters in front that form a token of a kind, if they do. -/
def Kind.recognise : Kind → List Char → Option Nat
  | .whitespace => run Text.isBlank
  | .linkOpen => exactly ['[', '[']
  | .linkClose => exactly [']', ']']
  | .linkArrow => exactly ['-', '>']
  | .hookOpen => exactly ['[']
  | .hookClose => exactly [']']
  | .callHead => Recognise.callHead
  | .closeParen => exactly [')']
  | .keyword => reserved ['t', 'o']
  | .variable => nameAfter '$' isNameRest
  | .string => Recognise.string
  | .time => Recognise.time
  | .number => Recognise.number
  | .boolean => firstOf [reserved ['t', 'r', 'u', 'e'], reserved ['f', 'a', 'l', 's', 'e']]
  | .comparison => Recognise.comparison
  | .arithmetic => firstOf [exactly ['-'], exactly ['+'], exactly ['*'], exactly ['/']]
  | .logical => firstOf [reserved ['a', 'n', 'd'], reserved ['o', 'r']]
  | .property =>
      firstOf [reserved ['\x27', 's'], reserved ['i', 't', 's'], reserved ['o', 'f']]
  | .binding => firstOf [reserved ['2', 'b', 'i', 'n', 'd'], reserved ['b', 'i', 'n', 'd']]
  | .comma => exactly [',']
  | .text => Recognise.text

end PassageMarkup
