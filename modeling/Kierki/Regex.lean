import Kierki.Common
import Kierki.Lib.RegExp

/-!
The regular expressions of `regex.cpp`. A check is `boost::regex_match`, so the whole line has to
match and the anchors `^` and `$` say nothing more; the two extractions walk a text with
`sregex_iterator`, from one leftmost match to the next.
-/

namespace Kierki.Regex

open RegularExpression Kierki.Lib.RegExp

/-! ### The expressions -/

/-- `[NESW]` -/
def seatRegex : RegularExpression Char := oneOf ['N', 'E', 'S', 'W']

/-- `([2-9]|1[0]|J|Q|K|A)` -/
def figureRegex : RegularExpression Char :=
  oneOf ['2', '3', '4', '5', '6', '7', '8', '9'] + (text ['1', '0'] + oneOf ['J', 'Q', 'K', 'A'])

/-- `[CDHS]` -/
def suitRegex : RegularExpression Char := oneOf ['C', 'D', 'H', 'S']

/-- `([2-9]|1[0]|J|Q|K|A)[CDHS]` -/
def cardRegex : RegularExpression Char := figureRegex * suitRegex

/-- `([1-9]|1[0-3])` -/
def trickNrRegex : RegularExpression Char :=
  oneOf ['1', '2', '3', '4', '5', '6', '7', '8', '9'] + text ['1'] * oneOf ['0', '1', '2', '3']

/-- `[NESW]\d+` -/
def seatScoreRegex : RegularExpression Char :=
  seatRegex * many1 (oneOf ['0', '1', '2', '3', '4', '5', '6', '7', '8', '9'])

/-! ### The checks -/

def IAMCheck (s : Text) : Bool :=
  (text ['I', 'A', 'M'] * (seatRegex * text delimeter)).rmatch s

def BUSYCheck (s : Text) : Bool :=
  (text ['B', 'U', 'S', 'Y'] * (upTo 4 seatRegex * text delimeter)).rmatch s

def DEALCheck (s : Text) : Bool :=
  (text ['D', 'E', 'A', 'L'] * (oneOf ['1', '2', '3', '4', '5', '6', '7'] *
    (seatRegex * (times 13 cardRegex * text delimeter)))).rmatch s

def TRICKCheck (s : Text) (trickNr : ℕ) : Bool :=
  (text (['T', 'R', 'I', 'C', 'K'] ++ toText trickNr) * (upTo 3 cardRegex * text delimeter)).rmatch s

def TRICKClientCheck (s : Text) : Bool :=
  (text ['T', 'R', 'I', 'C', 'K'] * (trickNrRegex * (cardRegex * text delimeter))).rmatch s

def WRONGCheck (s : Text) : Bool :=
  (text ['W', 'R', 'O', 'N', 'G'] * (trickNrRegex * text delimeter)).rmatch s

def TAKENCheck (s : Text) (trickNr : ℕ) : Bool :=
  (text (['T', 'A', 'K', 'E', 'N'] ++ toText trickNr) *
    (times 4 cardRegex * (seatRegex * text delimeter))).rmatch s

def SCORECheck (s : Text) : Bool :=
  (text ['S', 'C', 'O', 'R', 'E'] * (times 4 seatScoreRegex * text delimeter)).rmatch s

def TOTALCheck (s : Text) : Bool :=
  (text ['T', 'O', 'T', 'A', 'L'] * (times 4 seatScoreRegex * text delimeter)).rmatch s

/-! ### The extraction of cards -/

/-- A figure of one character. -/
def isFigure1 (c : Char) : Bool :=
  c ∈ ['2', '3', '4', '5', '6', '7', '8', '9', 'J', 'Q', 'K', 'A']

/-- A suit. -/
def isSuit (c : Char) : Bool := c ∈ ['C', 'D', 'H', 'S']

/-- `extract_cards`: the matches of `cardRegex`, each the leftmost after the one before. At one
position the alternatives exclude each other, so at most one of the two lengths matches. -/
def extractCards : Text → List Text
  | a :: b :: c :: s =>
    if a = '1' ∧ b = '0' ∧ isSuit c then [a, b, c] :: extractCards s
    else if isFigure1 a ∧ isSuit b then [a, b] :: extractCards (c :: s)
    else extractCards (b :: c :: s)
  | [a, b] => if isFigure1 a ∧ isSuit b then [[a, b]] else []
  | _ => []

/-- `extract_seat_score`: the matches of `seatScoreRegex`; `\d+` takes all the digits there are. -/
def extractSeatScore (s : Text) : List Text := leftmost seatScoreRegex s

end Kierki.Regex
