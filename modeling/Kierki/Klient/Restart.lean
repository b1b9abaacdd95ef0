import Kierki.Klient.Replay

/-!
# What a `DEAL` line leaves behind

The worker forgets most of its state at a `DEAL` line: the hand, the tricks taken, the number of the
trick and the scores are set anew, and the colour remembered is written before anything reads it.
The cards played are not. So two clients of one seat go on alike after a `DEAL` line if and only if
they had played the same cards when it came.
-/

namespace Kierki

open Regex Senders

namespace Klient

/-- Two clients that agree in what the lines of the server decide. -/
structure Same (k₁ k₂ : Klient) : Prop where
  myCards : k₁.myCards = k₂.myCards
  playedCards : k₁.playedCards = k₂.playedCards
  trickNumber : k₁.trickNumber = k₂.trickNumber
  takenTricks : k₁.takenTricks = k₂.takenTricks
  gotScore : k₁.gotScore = k₂.gotScore
  gotTotal : k₁.gotTotal = k₂.gotTotal

/-- Two clients agree after every one of the lines, and send the same answers. -/
def SameRun (k₁ k₂ : Klient) (messages : List Text) : Prop :=
  (∀ n, 0 < n → n ≤ messages.length →
    Option.Rel Same (k₁.receiveAll (messages.take n)) (k₂.receiveAll (messages.take n))) ∧
  k₁.answers messages = k₂.answers messages

/-! ### Clients that differ in the colour remembered -/

section Alike

variable {k₁ k₂ : Klient}

/-- The clients of one seat that agree differ in nothing but `expected_color`. -/
def Alike (k₁ k₂ : Klient) : Prop := ∃ color, k₂ = { k₁ with expectedColor := color }

lemma Alike.same (h : Alike k₁ k₂) : Same k₁ k₂ := by
  obtain ⟨color, rfl⟩ := h
  exact ⟨rfl, rfl, rfl, rfl, rfl, rfl⟩

lemma Alike.answer_eq (h : Alike k₁ k₂) (message : Text) : k₁.answer message = k₂.answer message := by
  obtain ⟨color, rfl⟩ := h
  rfl

/-- **Clients that agree still do after one more line**, and answer it alike. -/
lemma Alike.receive (h : Alike k₁ k₂) (message : Text) :
    Option.Rel (fun r₁ r₂ => Alike r₁.1 r₂.1 ∧ r₁.2 = r₂.2) (k₁.receive message)
      (k₂.receive message) := by
  have hanswer := h.answer_eq message
  obtain ⟨color, rfl⟩ := h
  have hrefl : ∀ k : Klient, Alike k k := fun k => ⟨k.expectedColor, rfl⟩
  rw [receive_eq, receive_eq]
  cases LineKind.dispatch k₁.trickNumber message with
  | none => exact .some ⟨⟨color, rfl⟩, rfl⟩
  | some kind =>
    cases kind with
    | busy => exact .none
    | trick =>
      show Option.Rel _ (some (k₁.answer message)) (some (answer _ message))
      rw [← hanswer]
      exact .some ⟨hrefl _, rfl⟩
    | _ => exact .some ⟨⟨color, rfl⟩, rfl⟩

lemma Alike.receiveAll (h : Alike k₁ k₂) (messages : List Text) :
    Option.Rel Alike (k₁.receiveAll messages) (k₂.receiveAll messages) := by
  induction messages generalizing k₁ k₂ with
  | nil => exact .some h
  | cons message messages ih =>
    have hr := h.receive message
    rw [receiveAll_cons, receiveAll_cons]
    generalize k₁.receive message = r₁, k₂.receive message = r₂ at hr
    rcases hr with ⟨hr, -⟩ | _
    · exact ih hr
    · exact .none

lemma Alike.answers (h : Alike k₁ k₂) (messages : List Text) :
    k₁.answers messages = k₂.answers messages := by
  induction messages generalizing k₁ k₂ with
  | nil => rfl
  | cons message messages ih =>
    have hr := h.receive message
    unfold Klient.answers
    generalize k₁.receive message = r₁, k₂.receive message = r₂ at hr
    rcases hr with ⟨hr, hout⟩ | _
    · exact congrArg₂ _ hout (ih hr)
    · rfl

end Alike

lemma Alike.takeDeal {k₁ k₂ : Klient} (hseat : k₁.seat = k₂.seat) (hai : k₁.isAi = k₂.isAi)
    (hplayed : k₁.playedCards = k₂.playedCards) (message : Text) :
    Alike (k₁.takeDeal message) (k₂.takeDeal message) := by
  refine ⟨k₂.expectedColor, ?_⟩
  unfold Klient.takeDeal
  simp [hseat, hai, hplayed]

lemma receive_dealt {message : Text} (h : DEALCheck message = true) (k : Klient) :
    k.receive message = some (k.takeDeal message, []) ∧
      (k.takeDeal message).playedCards = k.playedCards :=
  ⟨receive_of_check (show LineKind.deal.check k.trickNumber message = true from h), rfl⟩

/-- **A client is restarted by a `DEAL` line but for the cards it has played.** Of two clients of one
seat, in any two states, that get one sequence of lines beginning with an accepted `DEAL`: they agree
after every line and send the same answers exactly when they had played the same cards before. -/
theorem deal_restarts {k₁ k₂ : Klient} (hseat : k₁.seat = k₂.seat) (hai : k₁.isAi = k₂.isAi)
    {message : Text} (hdeal : DEALCheck message = true) (messages : List Text) :
    SameRun k₁ k₂ (message :: messages) ↔ k₁.playedCards = k₂.playedCards := by
  obtain ⟨hr₁, hp₁⟩ := receive_dealt hdeal k₁
  obtain ⟨hr₂, hp₂⟩ := receive_dealt hdeal k₂
  constructor
  · rintro ⟨hrun, -⟩
    -- the cards played are compared right after the `DEAL` line
    have hfirst := hrun 1 (by omega) (by simp)
    have hone : ∀ k : Klient, k.receive message = some (k.takeDeal message, []) →
        k.receiveAll ((message :: messages).take 1) = some (k.takeDeal message) := by
      intro k hr
      show k.receiveAll [message] = _
      rw [receiveAll_cons, hr]
      rfl
    rw [hone k₁ hr₁, hone k₂ hr₂] at hfirst
    cases hfirst with
    | some hsame => rw [← hp₁, ← hp₂, hsame.playedCards]
  · intro hplayed
    have halike := Alike.takeDeal hseat hai hplayed message
    constructor
    · intro n hpos _
      obtain ⟨n, rfl⟩ : ∃ m, n = m + 1 := ⟨n - 1, by omega⟩
      rw [List.take_succ_cons, receiveAll_cons, receiveAll_cons, hr₁, hr₂]
      have hrel := halike.receiveAll (messages.take n)
      show Option.Rel Same ((k₁.takeDeal message).receiveAll _) ((k₂.takeDeal message).receiveAll _)
      generalize (k₁.takeDeal message).receiveAll (messages.take n) = r₁,
        (k₂.takeDeal message).receiveAll (messages.take n) = r₂ at hrel
      cases hrel with
      | some h => exact .some h.same
      | none => exact .none
    · unfold Klient.answers
      rw [hr₁, hr₂]
      exact halike.answers messages

end Klient

/-! ### A card that comes back -/

/-- A client asked for a card, between two `DEAL` lines of one deal, and one that comes anew: with the
second `DEAL` and `TAKEN1` both hold the spades less the ace that the trick has taken. -/
def rejoinLines : List Text :=
  [dealLine 1 .E spades, takenLine 1 [['A', 'S'], ['2', 'C'], ['3', 'C'], ['4', 'C']] .E]

lemma receive_spades (k : Klient) : k.receive (dealLine 1 .E spades) = some ({ k with
    trickNumber := 1, gotScore := false, gotTotal := false, takenTricks := [], myCards := spades }, []) :=
  Klient.receive_deal (by decide) (by decide) (by decide)

theorem deal_restarts_fresh : Klient.SameRun { seat := .E, isAi := true }
    { seat := .E, isAi := true, trickNumber := 14, gotTotal := true } rejoinLines := by
  have hdeal : DEALCheck (dealLine 1 .E spades) = true :=
    DEALCheck_dealLine (by decide) (by decide) (by decide) .E
  exact (@Klient.deal_restarts { seat := .E, isAi := true }
    { seat := .E, isAi := true, trickNumber := 14, gotTotal := true } rfl rfl _ hdeal _).mpr rfl

/-- The ace of spades was played before the second `DEAL` and taken with the first trick, and is in
the hand again. -/
theorem played_card_comes_back : ∃ k k' : Klient,
    Klient.receiveAll { seat := .E, isAi := true } [dealLine 1 .E spades, trickLine 1 []] = some k ∧
    k.receiveAll rejoinLines = some k' ∧ k.playedCards = [['A', 'S']] ∧ ['A', 'S'] ∈ k'.myCards ∧
    ¬Klient.SameRun { seat := .E, isAi := true } k rejoinLines := by
  have htrick : ∀ k : Klient, k.trickNumber = 1 →
      k.receive (trickLine 1 []) = some (k.answer (trickLine 1 [])) := by
    intro k hk
    have hcheck : LineKind.trick.check k.trickNumber (trickLine 1 []) = true := by
      rw [hk]
      exact TRICKCheck_trickLine (by simp) (by simp) 1
    exact Klient.receive_of_check hcheck
  -- the client after `TRICK1`
  let k : Klient :=
    { seat := .E, isAi := true, myCards := spades.dropLast, playedCards := [['A', 'S']],
      expectedColor := [] }
  have hk : Klient.receiveAll { seat := .E, isAi := true } [dealLine 1 .E spades, trickLine 1 []] =
      some k := by
    rw [Klient.receiveAll_cons, receive_spades, Option.bind_some, Klient.receiveAll_cons,
      htrick _ rfl]
    rfl
  have hagain : k.receiveAll rejoinLines = some { k with
      myCards := (spades ++ [['A', 'S']]).diff [['A', 'S'], ['2', 'C'], ['3', 'C'], ['4', 'C']]
      playedCards := []
      takenTricks := [[['A', 'S'], ['2', 'C'], ['3', 'C'], ['4', 'C']]]
      trickNumber := 2 } := by
    unfold rejoinLines
    rw [Klient.receiveAll_cons, receive_spades, Option.bind_some, Klient.receiveAll_cons]
    rw [Klient.receive_taken (k := { k with myCards := spades }) .E (by decide) (by decide) (by decide)]
    rfl
  refine ⟨k, _, hk, hagain, rfl, by decide, ?_⟩
  rintro ⟨hrun, -⟩
  have hfirst := hrun 1 (by omega) (by decide)
  rw [show rejoinLines.take 1 = [dealLine 1 .E spades] from rfl, Klient.receiveAll_cons,
    Klient.receiveAll_cons, receive_spades, receive_spades] at hfirst
  cases hfirst with
  | some hsame => exact absurd hsame.playedCards (by decide)

end Kierki
