import Kierki.Regex

/-!
What the client prints of the lines of the server, after `klient_printer.cpp`: a function gives the
text that is written to the standard output.
-/

namespace Kierki

open Regex

/-- `print_data`: the entries after a blank, with commas between them. -/
def printData : List Text → Text
  | [] => []
  | card :: cards => ' ' :: card ++ cards.flatMap fun card => ',' :: ' ' :: card

/-! ### Slicing -/

/-- The cards of a `DEAL` line. -/
def dealCut (s : Text) : Text := substr s 6 (s.length - 8)

/-- The cards of a `TAKEN` line, by the number of the trick. -/
def takenCut (s : Text) (trickNr : ℕ) : Text :=
  if trickNr < 10 then substr s 6 (s.length - 9) else substr s 7 (s.length - 10)

/-- The cards of a `TRICK` line, by the number of the trick. -/
def trickCut (s : Text) (trickNr : ℕ) : Text :=
  if trickNr < 10 then substr s 6 (s.length - 8) else substr s 7 (s.length - 9)

/-- The scores of a `SCORE` or a `TOTAL` line. -/
def scoresCut (s : Text) : Text := substr s 5 (s.length - 7)

/-! ### The printers -/

def printBusy (s : Text) : Text :=
  "Place busy, list of busy places received:".toList ++
    printData ((substr s 4 (s.length - 6)).map fun c => [c]) ++ ".\n".toList

def printDeal (s : Text) : Text :=
  "New deal ".toList ++ (s[4]?).toList ++ ": staring place: ".toList ++ (s[5]?).toList ++
    ", your cards:".toList ++ printData (extractCards (dealCut s)) ++ ".\n".toList

def printWrong (trickNr : ℕ) : Text :=
  "Wrong message received in trick ".toList ++ toText trickNr ++ ".\n".toList

def printTaken (s : Text) (trickNr : ℕ) : Text :=
  "A trick ".toList ++ toText trickNr ++ " is taken by ".toList ++ (s[s.length - 3]?).toList ++
    ", cards".toList ++ printData (extractCards (takenCut s trickNr)) ++ ".\n".toList

/-- The rows of `print_score` and `print_total`: the seat, and the points behind it. -/
def printRows (s : Text) : Text :=
  (extractSeatScore (scoresCut s)).flatMap fun score =>
    (score.head?).toList ++ " | ".toList ++ substr score 1 (score.length - 1) ++ ['\n']

def printScore (s : Text) : Text := "The scores are:\n".toList ++ printRows s

def printTotal (s : Text) : Text := "The total scores are:\n".toList ++ printRows s

def printTrick (s : Text) (trickNr : ℕ) (myCards : List Text) : Text :=
  "Trick: (".toList ++ toText trickNr ++ [')'] ++ printData (extractCards (trickCut s trickNr)) ++
    "\nAvailable cards:".toList ++ printData myCards ++ ['\n']

end Kierki
