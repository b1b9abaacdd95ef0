import Kierki.Common

/-!
The lines of `senders.cpp`: what each sender puts into `message` before it writes it to the
socket.
-/

namespace Kierki.Senders

def iamLine (seat : Seat) : Text := ['I', 'A', 'M'] ++ seat.name ++ delimeter

def busyLine (seats : List Seat) : Text :=
  ['B', 'U', 'S', 'Y'] ++ seats.flatMap Seat.name ++ delimeter

def dealLine (dealType : ℕ) (startSeat : Seat) (cards : List Text) : Text :=
  ['D', 'E', 'A', 'L'] ++ toText dealType ++ startSeat.name ++ cards.flatten ++ delimeter

def trickLine (trickNumber : ℕ) (cards : List Text) : Text :=
  ['T', 'R', 'I', 'C', 'K'] ++ toText trickNumber ++ cards.flatten ++ delimeter

def wrongLine (trickNumber : ℕ) : Text :=
  ['W', 'R', 'O', 'N', 'G'] ++ toText trickNumber ++ delimeter

def takenLine (trickNumber : ℕ) (cards : List Text) (takingSeat : Seat) : Text :=
  ['T', 'A', 'K', 'E', 'N'] ++ toText trickNumber ++ cards.flatten ++ takingSeat.name ++ delimeter

/-- The scores of the four seats, in the order of the map. -/
def scoresText (scores : Seat → ℤ) : Text :=
  Seat.mapOrder.flatMap fun s => s.name ++ intText (scores s)

def scoreLine (scores : Seat → ℤ) : Text :=
  ['S', 'C', 'O', 'R', 'E'] ++ scoresText scores ++ delimeter

def totalLine (scores : Seat → ℤ) : Text :=
  ['T', 'O', 'T', 'A', 'L'] ++ scoresText scores ++ delimeter

end Kierki.Senders
