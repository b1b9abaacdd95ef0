import Kierki.Klient.Agreement
import Kierki.Klient.Answers

/-!
# A client and the lines on their way

What becomes of a client when more lines are sent to it: the lines are read in order, so the client
after all of them, and the answers it owes, are computed from those after the first ones. A request
that is on its way will take one card out of the hand of an AI client, and the answer to it is one
the server accepts. `Understands` says that a check takes each of the lines when its time comes.
-/

namespace Kierki

open Regex Senders Serwer

namespace Klient

variable {k k' : Klient}

lemma receive_seat {message : Text} {r : Klient × List Text} (h : k.receive message = some r) :
    r.1.seat = k.seat := by
  obtain rfl | ⟨kind, -, hr⟩ := receive_cases h
  · rfl
  · cases kind with
    | busy => cases hr
    | trick =>
      obtain rfl : k.answer message = r := Option.some.inj hr
      exact (answer_keeps message).seat
    | _ =>
      cases hr
      rfl

lemma answers_append {ls : List Text} (h : k.receiveAll ls = some k') (ls' : List Text) :
    k.answers (ls ++ ls') = k.answers ls ++ k'.answers ls' := by
  induction ls generalizing k with
  | nil =>
    cases h
    rfl
  | cons l ls ih =>
    rw [receiveAll_cons] at h
    obtain ⟨⟨k₁, out⟩, hr, hk'⟩ := Option.bind_eq_some_iff.mp h
    simp only [List.cons_append, answers, hr, ih hk', List.append_assoc]

lemma answers_prefix (k : Klient) (ls ls' : List Text) : k.answers ls <+: k.answers (ls ++ ls') := by
  induction ls generalizing k with
  | nil => exact List.nil_prefix
  | cons l ls ih =>
    simp only [List.cons_append, answers]
    cases k.receive l with
    | none => exact List.prefix_rfl
    | some r => exact (List.prefix_append_right_inj _).mpr (ih r.1)

lemma answers_quiet {messages : List Text} (hq : ∀ l ∈ messages, ∀ n, TRICKCheck l n = false)
    (k : Klient) : k.answers messages = [] := by
  induction messages generalizing k with
  | nil => rfl
  | cons l messages ih =>
    simp only [answers]
    cases hr : k.receive l with
    | none => rfl
    | some r =>
      obtain ⟨k', out⟩ := r
      have hquiet : out = [] := receive_quiet (by rw [hq l (by simp)]; simp) hr
      show out ++ k'.answers messages = []
      rw [ih (fun l' hl' => hq l' (by simp [hl'])), hquiet]
      rfl

/-! ### Lines that make sense -/

/-- The client can make sense of the line: a check takes it. A line of scores passes none if one of them
is negative. -/
def Takes (k : Klient) (l : Text) : Prop :=
  (LineKind.dispatch k.trickNumber l).isSome ∨
    ∃ scores : Seat → ℤ, (∃ s, scores s < 0) ∧ (l = scoreLine scores ∨ l = totalLine scores)

/-- The client can make sense of the lines, each at the time when it reads it. -/
def Understands : Klient → List Text → Prop
  | _, [] => True
  | k, l :: ls => k.Takes l ∧ ∃ r, k.receive l = some r ∧ r.1.Understands ls

lemma takes_of_check (kind : LineKind) {l : Text} (h : kind.check k.trickNumber l = true) :
    k.Takes l := by
  refine .inl ?_
  rw [LineKind.dispatch_eq_some_iff.mpr h]
  rfl

lemma takes_scoreLine (k : Klient) (scores : Seat → ℤ) : k.Takes (scoreLine scores) := by
  by_cases h : ∀ s, 0 ≤ scores s
  · exact takes_of_check .score (SCORECheck_scoreLine h)
  · push Not at h
    exact .inr ⟨scores, h, .inl rfl⟩

lemma takes_totalLine (k : Klient) (scores : Seat → ℤ) : k.Takes (totalLine scores) := by
  by_cases h : ∀ s, 0 ≤ scores s
  · exact takes_of_check .total (TOTALCheck_totalLine h)
  · push Not at h
    exact .inr ⟨scores, h, .inr rfl⟩

lemma Understands.append {ls : List Text} (h : k.Understands ls) (hk : k.receiveAll ls = some k')
    {ls' : List Text} (h' : k'.Understands ls') : k.Understands (ls ++ ls') := by
  induction ls generalizing k with
  | nil =>
    cases hk
    exact h'
  | cons l ls ih =>
    obtain ⟨htakes, r, hr, hrest⟩ := h
    rw [receiveAll_cons, hr] at hk
    exact ⟨htakes, r, hr, ih hrest hk⟩

/-- **A line between others makes sense** to the client that has read the lines before it. -/
lemma Understands.split {ls : List Text} {l : Text} {ls' : List Text}
    (h : k.Understands (ls ++ l :: ls')) : ∃ k', k.receiveAll ls = some k' ∧ k'.Takes l := by
  induction ls generalizing k with
  | nil => exact ⟨k, rfl, h.1⟩
  | cons l₀ ls ih =>
    obtain ⟨-, r, hr, hrest⟩ := h
    obtain ⟨k', hk', htakes⟩ := ih hrest
    refine ⟨k', ?_, htakes⟩
    rw [receiveAll_cons, hr]
    exact hk'

lemma receiveAll_scores (k : Klient) (scores totals : Seat → ℤ) :
    ∃ k', k.receiveAll [scoreLine scores, totalLine totals] = some k' ∧
      k.Understands [scoreLine scores, totalLine totals] ∧
      ∃ score total, k' = { k with gotScore := score, gotTotal := total } := by
  obtain ⟨score, total, h₁⟩ := receive_closing (k := k) (l := scoreLine scores)
    ⟨.score, by simp, by simp [scoreLine, LineKind.word]⟩
  obtain ⟨score', total', h₂⟩ := receive_closing (k := { k with gotScore := score, gotTotal := total })
    (l := totalLine totals) ⟨.total, by simp, by simp [totalLine, LineKind.word]⟩
  refine ⟨{ k with gotScore := score', gotTotal := total' }, ?_, ⟨takes_scoreLine k scores, _, h₁,
    takes_totalLine _ totals, _, h₂, trivial⟩, score', total', rfl⟩
  rw [receiveAll_cons, h₁, Option.bind_some, receiveAll_cons, h₂]
  rfl

/-! ### The card that is chosen -/

lemma playLast_played (hne : k.myCards ≠ []) :
    k.playLast.2.playedCards = k.playedCards ++ [k.playLast.1] := by
  unfold playLast
  cases h : k.myCards.getLast? with
  | none => exact absurd (List.getLast?_eq_none_iff.mp h) hne
  | some card => rfl

lemma strategy_played (hne : k.myCards ≠ []) (color : Text) :
    (k.strategy color).2.playedCards = k.playedCards ++ [(k.strategy color).1] := by
  unfold strategy
  cases color with
  | nil => exact playLast_played hne
  | cons c s =>
    dsimp only
    cases h : k.myCards.find? fun card => card.getLast? == some c with
    | none => exact playLast_played hne
    | some card => rfl

/-- **An AI client that has been asked for a card**: it has laid `card` aside, and its answer is one
that the server accepts from the hand `hand`. -/
structure Ready (n : ℕ) (table hand : List Text) (k k' : Klient) (card : Text) : Prop where
  keeps : k.Keeps k'
  played : k'.playedCards = [card]
  left : (card :: k'.myCards).Perm hand
  isCard : IsCard card
  check : TRICKClientCheck (trickLine n [card]) = true
  accepted : acceptedCard hand table n (trickLine n [card]) = some card

/-- **A request is answered with a card that the server accepts.** -/
theorem receive_request {n : ℕ} {table hand : List Text} (hn : 1 ≤ n ∧ n ≤ 13)
    (h3 : table.length ≤ 3) (htable : ∀ card ∈ table, IsCard card) (hne : hand ≠ [])
    (hhand : ∀ card ∈ hand, IsCard card) (hai : k.isAi = true) (hnum : k.trickNumber = n)
    (hperm : k.myCards.Perm hand) (hplayed : k.playedCards = []) :
    ∃ k' card, k.receive (trickLine n table) = some (k', [trickLine n [card]]) ∧
      Ready n table hand k k' card := by
  have hnonempty : k.myCards ≠ [] := fun h => hne (by simpa [h] using hperm)
  have hcolor := trickColor_trickLine hn htable hnum
  obtain ⟨hmem, hsuit⟩ := strategy_spec hnonempty (k.trickColor (trickLine n table))
  obtain ⟨hcard, hnum'⟩ := strategy_expectedColor (k := k)
    (k.trickColor (trickLine n table)) (k.trickColor (trickLine n table))
  have hkeeps := answer_keeps (k := k) (trickLine n table)
  have hlaid : (k.answer (trickLine n table)).1.playedCards =
      [(k.strategy (k.trickColor (trickLine n table))).1] := by
    have := strategy_played (k := { k with expectedColor := k.trickColor (trickLine n table) })
      hnonempty (k.trickColor (trickLine n table))
    unfold answer
    dsimp only
    rw [if_pos hai]
    dsimp only
    rw [this, hcard]
    simp [hplayed]
  generalize hc : (k.strategy (k.trickColor (trickLine n table))).1 = card at *
  have hmem' : card ∈ hand := hperm.mem_iff.mp hmem
  refine ⟨(k.answer (trickLine n table)).1, card, ?_, hkeeps, hlaid, ?_, hhand card hmem',
    TRICKClientCheck_trickLine hn (hhand card hmem'), ?_⟩
  · rw [receive_of_check (show LineKind.trick.check k.trickNumber _ = true from
      hnum ▸ TRICKCheck_trickLine htable h3 _)]
    show some (k.answer _) = _
    congr 1
    refine Prod.ext rfl ?_
    unfold answer
    dsimp only
    rw [if_pos hai]
    dsimp only
    rw [hcard, hnum', hnum]
  · have hcards := hkeeps.cards
    rw [hlaid, hplayed, List.append_nil] at hcards
    exact (List.perm_append_singleton _ _).symm.trans (hcards.trans hperm)
  · apply acceptedCard_answer hn hmem' _ htable
    intro first rest c htab hfirst
    rcases hsuit c (by rw [hcolor, htab]; simp [hfirst]) with hs | hs
    · exact .inl hs
    · exact .inr fun x hx => hs x (hperm.mem_iff.mpr hx)

end Klient

end Kierki
