import Kierki.Common
import Mathlib.Logic.Function.Basic
import Mathlib.Tactic.Simps.Basic

/-!
# What the threads of the server share

The fields of `Serwer` that the main thread and the seat threads read and write, the pipes between
them, and a history of what happened. A field that the source indexes by `seats_to_array[seat]` or
keeps in a map over the seat names is a function of the seat.

`server_read_pipes[i]` carries bytes from the thread of a seat to the main thread and
`server_write_pipes[i]` the other way; a pipe is the list of the bytes written and not yet read,
oldest first. The history `log` is written by the steps and read by none of them.
-/

namespace Kierki.Serwer

/-- What the history records, `c` being the number of a connection. -/
inductive Event
  /-- `reserve_spot` marked the seat as taken by the connection. -/
  | took (c : ℕ) (s : Seat)
  /-- A write to the client failed in `reserve_spot` after the seat was taken. -/
  | lost (c : ℕ) (s : Seat)
  /-- `close_thread` gave the seat back. -/
  | released (c : ℕ) (s : Seat)
  /-- `close_thread` ran because the server ended the thread, and kept the seat. -/
  | dismissed (c : ℕ) (s : Seat)
  /-- The `DISCONNECTED` byte of the seat was written. -/
  | reported (c : ℕ) (s : Seat)
  /-- The `DISCONNECTED` byte of the seat could not be written. -/
  | unreported (c : ℕ) (s : Seat)
  /-- The connection processed a `BARRIER_RESPONSE` byte. -/
  | acked (c : ℕ) (s : Seat)
  /-- `parse_message` accepted a card. -/
  | accepted (c : ℕ) (s : Seat) (card : Text)
  /-- `barrier` reset the count. -/
  | reset
  /-- `barrier` answered a `DISCONNECTED` byte with another `BARRIER_RESPONSE`. -/
  | resent (s : Seat)
  /-- `barrier` left its waiting loop. -/
  | passed
  /-- `run_deal` set `player_turn`. -/
  | turn (s : Seat)
  /-- `run_deal` wrote the `CARD_PLAY` byte. -/
  | asked (s : Seat)
  deriving DecidableEq

/-- The state the threads share. -/
structure Shared where
  /-- The configured timeout in milliseconds. -/
  timeout : ℤ
  occupied : ℤ := 0
  seatsStatus : Seat → ℤ := fun _ => -1
  serverReadPipes : Seat → List Byte := fun _ => []
  serverWritePipes : Seat → List Byte := fun _ => []
  cardsOnTable : List Text := []
  roundScores : Seat → ℤ := fun _ => 0
  totalScores : Seat → ℤ := fun _ => 0
  trickNumber : ℕ := 0
  cards : Seat → List Text := fun _ => []
  deal : Seat → List Text := fun _ => []
  takenTricks : List (List Text) := []
  takenTakers : List Seat := []
  /-- The seat that starts the deal; empty, and not read, before the first deal. -/
  dealStarter : Seat := .N
  trickTypeGlobal : ℕ := 0
  /-- The last taker; empty, and not read, before the first deal. -/
  lastTaker : Seat := .N
  /-- The seat whose turn it is; `none` stands for the text `x`. -/
  playerTurn : Option Seat := none
  bIsBarrierOngoing : Bool := false
  barrierMessages : Seat → List Text := fun _ => []
  log : List Event := []

namespace Shared

/-- `write_to_pipe` to the thread of a seat. -/
@[simps] def tell (sh : Shared) (s : Seat) (b : Byte) : Shared :=
  { sh with serverWritePipes :=
      Function.update sh.serverWritePipes s (sh.serverWritePipes s ++ [b]) }

/-- A read of the thread of a seat left `rest` in its pipe. -/
@[simps] def heard (sh : Shared) (s : Seat) (rest : List Byte) : Shared :=
  { sh with serverWritePipes := Function.update sh.serverWritePipes s rest }

/-- `write_to_pipe` to the main thread. -/
@[simps] def report (sh : Shared) (s : Seat) (b : Byte) : Shared :=
  { sh with serverReadPipes := Function.update sh.serverReadPipes s (sh.serverReadPipes s ++ [b]) }

/-- A read of the main thread left `rest` in the pipe of a seat. -/
@[simps] def noticed (sh : Shared) (s : Seat) (rest : List Byte) : Shared :=
  { sh with serverReadPipes := Function.update sh.serverReadPipes s rest }

/-- One more event of the history. -/
@[simps] def note (sh : Shared) (e : Event) : Shared := { sh with log := e :: sh.log }

lemma mem_tell {sh : Shared} {s s₀ : Seat} {b x : Byte} :
    x ∈ (sh.tell s₀ b).serverWritePipes s ↔ x ∈ sh.serverWritePipes s ∨ s = s₀ ∧ x = b := by
  by_cases hs : s = s₀
  · subst hs
    simp
  · simp [hs]

lemma count_tell {sh : Shared} {s s₀ : Seat} {b x : Byte} :
    ((sh.tell s₀ b).serverWritePipes s).count x =
      (sh.serverWritePipes s).count x + if s = s₀ ∧ b = x then 1 else 0 := by
  by_cases hs : s = s₀
  · subst hs
    simp [List.count_singleton]
  · simp [hs]

lemma count_heard {sh : Shared} {s s₀ : Seat} {b x : Byte} {rest : List Byte}
    (hp : sh.serverWritePipes s₀ = b :: rest) (hb : b ≠ x) :
    ((sh.heard s₀ rest).serverWritePipes s).count x = (sh.serverWritePipes s).count x := by
  by_cases hs : s = s₀
  · subst hs
    simp [hp, hb]
  · simp [hs]

lemma count_report {sh : Shared} {s s₀ : Seat} {b x : Byte} :
    ((sh.report s₀ b).serverReadPipes s).count x =
      (sh.serverReadPipes s).count x + if s = s₀ ∧ b = x then 1 else 0 := by
  by_cases hs : s = s₀
  · subst hs
    simp [List.count_singleton]
  · simp [hs]

/-- The seats taken, in the order in which `reserve_spot` lists them. -/
def occupiedSeats (sh : Shared) : List Seat := Seat.mapOrder.filter fun s => sh.seatsStatus s ≠ -1

end Shared

/-! ### Reading the history -/

/-- The connection processed a `BARRIER_RESPONSE` since `barrier` last reset the count. -/
def ackedSinceReset (c : ℕ) : List Event → Bool
  | [] => false
  | .reset :: _ => false
  | .acked c' _ :: l => c' == c || ackedSinceReset c l
  | _ :: l => ackedSinceReset c l

/-- The connections that left a seat since `barrier` last reset the count, less the times it sent
another `BARRIER_RESPONSE` to that seat. -/
def owed (s : Seat) : List Event → ℤ
  | [] => 0
  | .reset :: _ => 0
  | .released _ s' :: l => owed s l + if s' = s then 1 else 0
  | .resent s' :: l => owed s l - if s' = s then 1 else 0
  | _ :: l => owed s l

/-- A connection left its seat since `barrier` last left its waiting loop. -/
def releasedSincePassed : List Event → Bool
  | [] => false
  | .passed :: _ => false
  | .released _ _ :: _ => true
  | _ :: l => releasedSincePassed l

/-- A card was accepted since `run_deal` last set `player_turn`. -/
def acceptedSinceTurn : List Event → Bool
  | [] => false
  | .turn _ :: _ => false
  | .accepted _ _ _ :: _ => true
  | _ :: l => acceptedSinceTurn l

/-- The connection took the seat and has not given it back. -/
def Between (log : List Event) (c : ℕ) (s : Seat) : Prop :=
  .took c s ∈ log ∧ .released c s ∉ log

end Kierki.Serwer
