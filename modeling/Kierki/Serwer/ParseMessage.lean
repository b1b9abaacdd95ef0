import Kierki.Regex

/-!
The decision of `parse_message` on a line that passed `TRICK_client_check`, for a client whose turn
it is: the line is cut at the offsets of the current trick, and the card is accepted when the
number is right, the hand holds it and the suit of the table is followed.
-/

namespace Kierki.Serwer

/-- The number read off the line, `extracted_trick`. -/
def extractedTrick (message : Text) (currentTrick : ℕ) : Option ℕ :=
  if currentTrick < 10 then stoi (substr message 5 1) else stoi (substr message 5 2)

/-- What is left of the line when the head and the delimiter are cut off. -/
def cutMessage (message : Text) (currentTrick : ℕ) : Text :=
  if currentTrick < 10 then substr message 6 (message.length - 8)
  else substr message 7 (message.length - 9)

/-- `b_played_right_color`, for the card `message` of the hand `hand`. -/
def playedRightColor (hand cardsOnTable : List Text) (rightTrick : Bool) (message : Text) : Bool :=
  match cardsOnTable with
  | [] => rightTrick
  | first :: _ =>
    if rightTrick then
      first.getLast? == message.getLast? || hand.all fun card => card.getLast? != first.getLast?
    else false

/-- The card `parse_message` accepts, `none` when it answers with `WRONG`. -/
def acceptedCard (hand cardsOnTable : List Text) (currentTrick : ℕ) (message : Text) :
    Option Text :=
  let card := cutMessage message currentTrick
  let rightTrick := extractedTrick message currentTrick == some currentTrick
  if card ∈ hand ∧ playedRightColor hand cardsOnTable rightTrick card then some card else none

theorem mem_of_acceptedCard {hand table : List Text} {n : ℕ} {m card : Text}
    (h : acceptedCard hand table n m = some card) : card ∈ hand := by
  simp only [acceptedCard] at h
  split at h
  · rename_i hc
    cases h
    exact hc.1
  · cases h

end Kierki.Serwer
