import Kierki.Lines

/-!
# The client

The worker thread of the client, `handle_client`, as a function of a line of the server: the checks
are tried one after another, and the first that passes decides what becomes of the cards and of the
trick number. An AI client answers a request for a card at once.

What is printed for a user is left out, and so is the card that a user types: it is sent as it is,
and touches nothing but the cards of an AI client, which has no user.
-/

namespace Kierki

open Regex Senders

/-- The fields of `Klient` that the worker thread reads and writes for the lines of the server. -/
structure Klient where
  seat : Seat
  isAi : Bool
  takenTricks : List (List Text) := []
  myCards : List Text := []
  playedCards : List Text := []
  trickNumber : ℕ := 1
  gotScore : Bool := false
  gotTotal : Bool := false
  expectedColor : Text := ['n', 'o', 'n', 'e']

namespace Klient

/-- `strategy`, the last card: the card, empty when there is none, and the client without it. -/
def playLast (k : Klient) : Text × Klient :=
  match k.myCards.getLast? with
  | none => ([], k)
  | some card =>
    (card, { k with myCards := k.myCards.dropLast, playedCards := k.playedCards ++ [card] })

/-- `strategy`: the first card of the colour, or the last one. -/
def strategy (k : Klient) (color : Text) : Text × Klient :=
  match color with
  | [] => k.playLast
  | c :: _ =>
    match k.myCards.find? fun card => card.getLast? == some c with
    | some card =>
      (card, { k with myCards := k.myCards.erase card, playedCards := k.playedCards ++ [card] })
    | none => k.playLast

/-- `DEAL`: a new deal begins. -/
def takeDeal (k : Klient) (message : Text) : Klient :=
  { k with
    trickNumber := 1
    gotScore := false
    gotTotal := false
    takenTricks := []
    myCards := extractCards (substr message 6 (message.length - 8)) }

/-- `TAKEN`: the cards of the trick, cut out of the line. -/
def takenCards (k : Klient) (message : Text) : List Text :=
  extractCards (if k.trickNumber < 10 then substr message 6 (message.length - 9)
    else substr message 7 (message.length - 10))

/-- `TAKEN`: the cards played go back to the hand, and those of the trick are taken out of it. -/
def takeTrick (k : Klient) (message : Text) : Klient :=
  { k with
    myCards := (k.takenCards message).foldl List.erase (k.myCards ++ k.playedCards)
    playedCards := []
    takenTricks := if message[message.length - 3]? = some k.seat.letter
      then k.takenTricks ++ [k.takenCards message] else k.takenTricks
    trickNumber := k.trickNumber + 1 }

/-- `TRICK`: the colour of the first card on the table, cut out of the line. A line that is longer
than nine characters and passes the check holds a card. -/
def trickColor (k : Klient) (message : Text) : Text :=
  if message.length ≤ 9 then []
  else
    let cards := extractCards (if k.trickNumber < 10 then substr message 6 (message.length - 8)
      else substr message 7 (message.length - 9))
    ((cards.head?.bind List.getLast?).map fun c => [c]).getD []

/-- `TRICK`: an AI client chooses a card and sends it. -/
def answer (k : Klient) (message : Text) : Klient × List Text :=
  let color := k.trickColor message
  let k := { k with expectedColor := color }
  if k.isAi then
    let (card, k) := k.strategy color
    (k, [trickLine k.trickNumber [card]])
  else (k, [])

/-- **A line of the server**: the client after it and the lines it sends, `none` when the worker
ends because its seat is taken. -/
def receive (k : Klient) (message : Text) : Option (Klient × List Text) :=
  if BUSYCheck message then none
  else if DEALCheck message then some (k.takeDeal message, [])
  else if WRONGCheck message then some (k, [])
  else if TAKENCheck message k.trickNumber then some (k.takeTrick message, [])
  else if SCORECheck message then some ({ k with gotScore := true }, [])
  else if TOTALCheck message then some ({ k with gotTotal := true }, [])
  else if TRICKCheck message k.trickNumber then some (k.answer message)
  else some (k, [])

/-- What becomes of a line of a kind. -/
def react (k : Klient) (message : Text) : LineKind → Option (Klient × List Text)
  | .busy => none
  | .deal => some (k.takeDeal message, [])
  | .wrong => some (k, [])
  | .taken => some (k.takeTrick message, [])
  | .score => some ({ k with gotScore := true }, [])
  | .total => some ({ k with gotTotal := true }, [])
  | .trick => some (k.answer message)

/-- **The check that passes decides what becomes of a line**, and a line that passes none is ignored. -/
lemma receive_eq (k : Klient) (message : Text) :
    k.receive message = (LineKind.dispatch k.trickNumber message).elim (some (k, [])) (k.react message) := by
  unfold receive LineKind.dispatch LineKind.order
  simp only [List.find?_cons, List.find?_nil, LineKind.check]
  cases BUSYCheck message with
  | true => rfl
  | false =>
  cases DEALCheck message with
  | true => rfl
  | false =>
  cases WRONGCheck message with
  | true => rfl
  | false =>
  cases TAKENCheck message k.trickNumber with
  | true => rfl
  | false =>
  cases SCORECheck message with
  | true => rfl
  | false =>
  cases TOTALCheck message with
  | true => rfl
  | false => cases TRICKCheck message k.trickNumber <;> rfl

lemma receive_of_check {k : Klient} {message : Text} {kind : LineKind}
    (h : kind.check k.trickNumber message = true) : k.receive message = k.react message kind := by
  rw [receive_eq, LineKind.dispatch_eq_some_iff.mpr h]
  rfl

lemma receive_of_word {k : Klient} {message : Text} (kind : LineKind) (h : kind.word <+: message) :
    k.receive message = if kind.check k.trickNumber message then k.react message kind
      else some (k, []) := by
  rw [receive_eq, LineKind.dispatch_of_word h]
  split <;> rfl

lemma receive_cases {k : Klient} {message : Text} {r : Klient × List Text}
    (h : k.receive message = some r) :
    r = (k, []) ∨ ∃ kind : LineKind, kind.check k.trickNumber message = true ∧
      k.react message kind = some r := by
  rw [receive_eq] at h
  cases hd : LineKind.dispatch k.trickNumber message with
  | none =>
    rw [hd] at h
    exact .inl (Option.some.inj h).symm
  | some kind =>
    rw [hd] at h
    exact .inr ⟨kind, LineKind.dispatch_eq_some_iff.mp hd, h⟩

/-- The lines of the server one after another, the answers being sent. -/
def receiveAll (k : Klient) (messages : List Text) : Option Klient :=
  messages.foldlM (fun k message => (k.receive message).map Prod.fst) k

/-- The lines sent meanwhile; none when the worker has ended. -/
def answers : Klient → List Text → List Text
  | _, [] => []
  | k, message :: messages =>
    match k.receive message with
    | none => []
    | some (k', out) => out ++ answers k' messages

lemma receiveAll_cons (k : Klient) (message : Text) (messages : List Text) :
    k.receiveAll (message :: messages) =
      (k.receive message).bind fun r => r.1.receiveAll messages := by
  unfold receiveAll
  rw [List.foldlM_cons]
  cases k.receive message <;> rfl

lemma receiveAll_append (ls ls' : List Text) (k : Klient) :
    k.receiveAll (ls ++ ls') = (k.receiveAll ls).bind fun k => k.receiveAll ls' := by
  unfold receiveAll
  rw [List.foldlM_append]
  rfl

/-! ### The card the client chooses -/

variable {k : Klient}

lemma playLast_spec (hne : k.myCards ≠ []) : k.playLast.1 ∈ k.myCards := by
  unfold playLast
  cases h : k.myCards.getLast? with
  | none => exact absurd (List.getLast?_eq_none_iff.mp h) hne
  | some card => exact List.mem_of_getLast? h

/-- The card chosen is in the hand, and has the colour asked for if any card of the hand has it. -/
lemma strategy_spec (hne : k.myCards ≠ []) (color : Text) :
    (k.strategy color).1 ∈ k.myCards ∧ ∀ c, color = [c] →
      (k.strategy color).1.getLast? = some c ∨ ∀ card ∈ k.myCards, card.getLast? ≠ some c := by
  unfold strategy
  cases color with
  | nil => exact ⟨playLast_spec hne, fun c hc => by cases hc⟩
  | cons c s =>
    dsimp only
    cases h : k.myCards.find? fun card => card.getLast? == some c with
    | none =>
      refine ⟨playLast_spec hne, ?_⟩
      rintro _ ⟨⟩
      right
      intro card hcard
      have := List.find?_eq_none.mp h card hcard
      simpa using this
    | some card =>
      refine ⟨List.mem_of_find?_eq_some h, ?_⟩
      rintro _ ⟨⟩
      left
      simpa using List.find?_some h

lemma strategy_expectedColor (color color' : Text) :
    ({ k with expectedColor := color' }.strategy color).1 = (k.strategy color).1 ∧
      ({ k with expectedColor := color' }.strategy color).2.trickNumber = k.trickNumber := by
  unfold strategy playLast
  dsimp only
  constructor <;> (repeat' split) <;> rfl

end Klient

end Kierki
