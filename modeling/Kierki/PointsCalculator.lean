import Kierki.Common

/-!
The points of one trick, after `points_calculator.cpp`: the cards are laid out by seat, the taker
is found among the cards of the suit led, and the deal type says what the trick costs.
-/

namespace Kierki

/-- The fields of `PointsCalculator`; the two arrays are indexed by the seats. -/
structure PointsCalculator where
  trickType : ℕ
  trick : ℕ
  starter : Seat
  colors : Seat → Text
  figures : Seat → ℕ

namespace PointsCalculator

/-- The value of a figure; `none` where `std::stoi` throws. -/
def figureVal (figure : Text) : Option ℕ :=
  if figure = ['J'] then some 11
  else if figure = ['Q'] then some 12
  else if figure = ['K'] then some 13
  else if figure = ['A'] then some 14
  else stoi figure

/-- The colour of a card, its last character. -/
def color (card : Text) : Text := substr card (card.length - 1) 1

/-- The figure of a card, what stands before its colour. -/
def figure (card : Text) : Text := substr card 0 (card.length - 1)

/-- One turn of the constructor's loop: the card of the seat `(beginning + i) % 4`. -/
def place (playedCards : List Text) (pc : PointsCalculator) (i : ℕ) : Option PointsCalculator :=
  (playedCards[i]?).bind fun card => (figureVal (figure card)).map fun v =>
    let s := Seat.at4 (pc.starter.idx + i)
    { pc with
      colors := Function.update pc.colors s (color card)
      figures := Function.update pc.figures s v }

/-- The constructor; `none` where it reads past the end of `playedCards` or `std::stoi` throws. -/
def construct (playedCards : List Text) (starter : Seat) (trickType trick : ℕ) :
    Option PointsCalculator :=
  [0, 1, 2, 3].foldlM (place playedCards)
    { trickType := trickType, trick := trick, starter := starter, colors := fun _ => [],
      figures := fun _ => 0 }

/-- One turn of the loop of `find_taker`, on the taker so far and its figure. -/
def better (pc : PointsCalculator) (best : Seat × ℕ) (i : ℕ) : Seat × ℕ :=
  let s := Seat.at4 (pc.starter.idx + i)
  if pc.colors s = pc.colors pc.starter ∧ best.2 < pc.figures s then (s, pc.figures s) else best

def findTaker (pc : PointsCalculator) : Seat :=
  ([1, 2, 3].foldl pc.better (pc.starter, pc.figures pc.starter)).1

/-- The points the four cards give, `f` saying what one card gives. -/
def sumCards (pc : PointsCalculator) (f : Text → ℕ → ℤ) : ℤ :=
  Seat.all.foldl (fun points s => points + f (pc.colors s) (pc.figures s)) 0

def noTricks (_pc : PointsCalculator) : ℤ := 1

def noHearts (pc : PointsCalculator) : ℤ :=
  pc.sumCards fun color _ => if color = ['H'] then 1 else 0

def noQueens (pc : PointsCalculator) : ℤ :=
  pc.sumCards fun _ figure => if figure = 12 then 5 else 0

def noMisters (pc : PointsCalculator) : ℤ :=
  pc.sumCards fun _ figure => if figure = 11 ∨ figure = 13 then 2 else 0

def noHeartsKing (pc : PointsCalculator) : ℤ :=
  pc.sumCards fun color figure => if color = ['H'] ∧ figure = 13 then 18 else 0

def noSeventhLastTrick (pc : PointsCalculator) : ℤ :=
  pc.sumCards fun _ _ => if pc.trick = 7 ∨ pc.trick = 13 then 10 else 0

def bandit (pc : PointsCalculator) : ℤ :=
  pc.noTricks + pc.noHearts + pc.noQueens + pc.noMisters + pc.noHeartsKing + pc.noSeventhLastTrick

/-- `calculate_points`: the taker and the points. -/
def calculatePoints (pc : PointsCalculator) : Seat × ℤ :=
  let taker := pc.findTaker
  (taker, match pc.trickType with
    | 1 => pc.noTricks
    | 2 => pc.noHearts
    | 3 => pc.noQueens
    | 4 => pc.noMisters
    | 5 => pc.noHeartsKing
    | 6 => pc.noSeventhLastTrick
    | 7 => pc.bandit
    | _ => -1)

end PointsCalculator

end Kierki
