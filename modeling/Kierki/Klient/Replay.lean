import Kierki.Klient.ServerLines
import Mathlib.Data.List.Nodup

/-!
# What the client makes of the lines of a deal

Between a `DEAL` line and the `TAKEN` lines that follow it, requests for a card move cards from the
hand of an AI client to those it has played, and back with the next `TAKEN` line; lines of earlier
tricks do not pass the check with the number of the current one. So after each `TAKEN` line the
client holds the cards dealt that no trick has taken, whatever came in between: a client that is
replayed the `DEAL` and the `TAKEN` lines is where one is that was there all along.

`expectedColor` is left out of the comparison: nothing reads it but the handling of a typed card.
-/

namespace Kierki

open Regex Senders

/-- One trick as the client hears of it: the lines before its `TAKEN` line, its cards and its
taker. -/
structure Round where
  chatter : List Text
  cards : List Text
  taker : Seat

/-- A line that may come before the `TAKEN` line of trick `n`: a request for a card, a `WRONG` line,
or the `TAKEN` line of an earlier trick. -/
inductive Chatter (n : ℕ) : Text → Prop
  | trick (l : Text) : Chatter n (['T', 'R', 'I', 'C', 'K'] ++ l)
  | wrong (l : Text) : Chatter n (['W', 'R', 'O', 'N', 'G'] ++ l)
  | taken (j : ℕ) (cards : List Text) (taker : Seat) (hj : j < n) (h4 : cards.length = 4)
      (hcards : ∀ card ∈ cards, IsCard card) : Chatter n (takenLine j cards taker)

/-- The cards dealt that no trick has taken. -/
def remaining (hand : List Text) (rounds : List Round) : List Text :=
  hand.filter fun card => card ∉ rounds.flatMap Round.cards

/-- The tricks of a deal in order: each has four cards, exactly one of them out of the hand. -/
inductive Played (hand : List Text) : List Round → Prop
  | start : Played hand []
  | trick (rounds : List Round) (r : Round) (h : Played hand rounds)
      (hchatter : ∀ l ∈ r.chatter, Chatter (rounds.length + 1) l) (h4 : r.cards.length = 4)
      (hcards : ∀ card ∈ r.cards, IsCard card)
      (hone : (r.cards.filter fun card => card ∈ remaining hand rounds).length = 1) :
      Played hand (rounds ++ [r])

/-- The lines of a trick. -/
def Round.lines (r : Round) (n : ℕ) : List Text := r.chatter ++ [takenLine n r.cards r.taker]

/-- The lines of the tricks of a deal, `n` being the number of the first. -/
def linesFrom : ℕ → List Round → List Text
  | _, [] => []
  | n, r :: rounds => r.lines n ++ linesFrom (n + 1) rounds

lemma takenLine_eq (n : ℕ) (cards : List Text) (taker : Seat) : takenLine n cards taker =
    ['T', 'A', 'K', 'E', 'N'] ++ (toText n ++ (cards.flatten ++ (taker.name ++ delimeter))) := by
  simp [takenLine]

lemma linesFrom_append (rounds : List Round) (r : Round) (n : ℕ) :
    linesFrom n (rounds ++ [r]) = linesFrom n rounds ++ r.lines (n + rounds.length) := by
  induction rounds generalizing n with
  | nil => simp [linesFrom]
  | cons r' rounds ih =>
    simp only [List.cons_append, linesFrom, ih, List.append_assoc, List.length_cons]
    rw [show n + 1 + rounds.length = n + (rounds.length + 1) by omega]

/-! ### The hand that remains -/

section Remaining

variable {hand : List Text} {rounds : List Round} {r : Round}

lemma remaining_append : remaining hand (rounds ++ [r]) =
    (remaining hand rounds).filter fun card => card ∉ r.cards := by
  unfold remaining
  rw [List.filter_filter]
  apply List.filter_congr
  intro card _
  simp [and_comm]

lemma nodup_remaining (h : hand.Nodup) : (remaining hand rounds).Nodup := h.filter _

/-- **A trick takes one card out of the hand.** -/
lemma length_remaining (hnodup : hand.Nodup) (h : Played hand rounds) :
    (remaining hand rounds).length + rounds.length = hand.length := by
  induction h with
  | start => simp [remaining]
  | trick rounds r h _ h4 hcards hone ih =>
    obtain ⟨card, hcard⟩ := List.length_eq_one_iff.mp hone
    have hmem : ∀ c, c ∈ r.cards ∧ c ∈ remaining hand rounds ↔ c = card := by
      intro c
      rw [← List.mem_singleton, ← hcard, List.mem_filter, decide_eq_true_eq]
    have hr := (hmem card).mpr rfl
    have herase : remaining hand (rounds ++ [r]) = (remaining hand rounds).erase card := by
      rw [remaining_append, (nodup_remaining hnodup).erase_eq_filter]
      apply List.filter_congr
      intro c hc
      have := hmem c
      by_cases he : c = card <;> simp_all
    have hpos : 0 < (remaining hand rounds).length := List.length_pos_of_mem hr.2
    rw [herase, List.length_erase_of_mem hr.2, List.length_append, List.length_singleton]
    omega

end Remaining

/-! ### The lines one by one -/

namespace Klient

variable {k : Klient}

/-- The client after a line that takes nothing and deals nothing: cards may have moved between the
hand and those played. -/
structure Keeps (k k' : Klient) : Prop where
  seat : k'.seat = k.seat
  isAi : k'.isAi = k.isAi
  takenTricks : k'.takenTricks = k.takenTricks
  trickNumber : k'.trickNumber = k.trickNumber
  gotScore : k'.gotScore = k.gotScore
  gotTotal : k'.gotTotal = k.gotTotal
  cards : (k'.myCards ++ k'.playedCards).Perm (k.myCards ++ k.playedCards)

lemma Keeps.refl (k : Klient) : k.Keeps k := ⟨rfl, rfl, rfl, rfl, rfl, rfl, .refl _⟩

lemma Keeps.trans {k k' k'' : Klient} (h : k.Keeps k') (h' : k'.Keeps k'') : k.Keeps k'' :=
  ⟨h'.seat.trans h.seat, h'.isAi.trans h.isAi, h'.takenTricks.trans h.takenTricks,
    h'.trickNumber.trans h.trickNumber, h'.gotScore.trans h.gotScore, h'.gotTotal.trans h.gotTotal,
    h'.cards.trans h.cards⟩

lemma move_perm {card : Text} {hand hand' played : List Text} (h : hand.Perm (card :: hand')) :
    (hand' ++ (played ++ [card])).Perm (hand ++ played) := by
  rw [← List.append_assoc]
  calc (hand' ++ played) ++ [card]
    _ |>.Perm (card :: (hand' ++ played)) := List.perm_append_singleton card _
    _ |>.Perm (hand ++ played) := h.symm.append_right played

lemma playLast_keeps : k.Keeps k.playLast.2 := by
  unfold playLast
  cases h : k.myCards.getLast? with
  | none => exact .refl k
  | some card =>
    obtain ⟨cards, hcards⟩ := List.getLast?_eq_some_iff.mp h
    refine ⟨rfl, rfl, rfl, rfl, rfl, rfl, move_perm ?_⟩
    rw [hcards, List.dropLast_concat]
    exact List.perm_append_singleton card cards

lemma strategy_keeps (color : Text) : k.Keeps (k.strategy color).2 := by
  unfold strategy
  cases color with
  | nil => exact playLast_keeps
  | cons c s =>
    dsimp only
    cases h : k.myCards.find? fun card => card.getLast? == some c with
    | none => exact playLast_keeps
    | some card =>
      have hmem := List.mem_of_find?_eq_some h
      exact ⟨rfl, rfl, rfl, rfl, rfl, rfl, move_perm (List.perm_cons_erase hmem)⟩

lemma answer_keeps (message : Text) : k.Keeps (k.answer message).1 := by
  have hcolor : k.Keeps { k with expectedColor := k.trickColor message } :=
    ⟨rfl, rfl, rfl, rfl, rfl, rfl, .refl _⟩
  unfold answer
  dsimp only
  split
  · exact hcolor.trans (strategy_keeps _)
  · exact hcolor

lemma isAi_receive {message : Text} {r : Klient × List Text} (h : k.receive message = some r) :
    r.1.isAi = k.isAi := by
  obtain rfl | ⟨kind, -, hr⟩ := receive_cases h
  · rfl
  · cases kind with
    | busy => cases hr
    | trick =>
      obtain rfl : k.answer message = r := Option.some.inj hr
      exact (answer_keeps message).isAi
    | _ =>
      cases hr
      rfl

/-- What comes between two `TAKEN` lines is a request for a card, or is ignored. -/
lemma receive_between {l : Text} (h : Chatter k.trickNumber l) : k.receive l =
    if TRICKCheck l k.trickNumber then some (k.answer l) else some (k, []) := by
  have hother : ∀ {kind : LineKind}, kind ≠ .trick → kind.word <+: l →
      TRICKCheck l k.trickNumber = false :=
    fun hne hw => show LineKind.trick.check k.trickNumber l = false from
      LineKind.check_of_word hw hne.symm
  cases h with
  | trick l =>
    have hword : LineKind.trick.word <+: ['T', 'R', 'I', 'C', 'K'] ++ l := List.prefix_append _ _
    exact receive_of_word _ hword
  | wrong l =>
    have hword : LineKind.wrong.word <+: ['W', 'R', 'O', 'N', 'G'] ++ l := List.prefix_append _ _
    rw [receive_of_word _ hword, hother (by decide) hword]
    split <;> rfl
  | taken j cards taker hj h4 hcards =>
    have hstale : ¬LineKind.taken.check k.trickNumber (takenLine j cards taker) = true :=
      fun hc => hj.ne (TAKENCheck_unique hcards h4 hc)
    have hword : LineKind.taken.word <+: takenLine j cards taker := by
      rw [takenLine_eq]
      exact List.prefix_append _ _
    rw [receive_of_word _ hword, if_neg hstale, hother (by decide) hword]
    rfl

/-- **What comes between two `TAKEN` lines only moves cards** between the hand and those played. -/
lemma receive_chatter {l : Text} (h : Chatter k.trickNumber l) :
    ∃ k' out, k.receive l = some (k', out) ∧ k.Keeps k' := by
  rw [receive_between h]
  split
  · exact ⟨_, _, rfl, answer_keeps _⟩
  · exact ⟨_, _, rfl, .refl k⟩

section Deal

variable {hand : List Text} {dealType : ℕ} {starter : Seat}

/-- **`DEAL` starts from the hand dealt.** -/
lemma receive_deal (hd : 1 ≤ dealType ∧ dealType ≤ 7) (h13 : hand.length = 13)
    (hcards : ∀ card ∈ hand, IsCard card) :
    k.receive (dealLine dealType starter hand) = some ({ k with
      trickNumber := 1, gotScore := false, gotTotal := false, takenTricks := [], myCards := hand }, []) := by
  have hcheck : LineKind.deal.check k.trickNumber (dealLine dealType starter hand) = true :=
    DEALCheck_dealLine hcards hd h13 starter
  have hcut : extractCards (dealCut (dealLine dealType starter hand)) = hand := by
    rw [dealCut_dealLine hd, extractCards_flatten hcards]
  rw [receive_of_check hcheck]
  show some (k.takeDeal _, []) = _
  unfold takeDeal
  unfold dealCut at hcut
  rw [hcut]

/-- **`TAKEN` gives back what was played and takes the cards of the trick.** -/
lemma receive_taken {cards : List Text} (taker : Seat) (hn : 1 ≤ k.trickNumber ∧ k.trickNumber ≤ 13)
    (h4 : cards.length = 4) (hcards : ∀ card ∈ cards, IsCard card) :
    k.receive (takenLine k.trickNumber cards taker) = some ({ k with
      myCards := (k.myCards ++ k.playedCards).diff cards
      playedCards := []
      takenTricks := if taker = k.seat then k.takenTricks ++ [cards] else k.takenTricks
      trickNumber := k.trickNumber + 1 }, []) := by
  have hcheck : LineKind.taken.check k.trickNumber (takenLine k.trickNumber cards taker) = true :=
    TAKENCheck_takenLine hcards h4 k.trickNumber taker
  have hcut : k.takenCards (takenLine k.trickNumber cards taker) = cards := by
    show extractCards (takenCut (takenLine k.trickNumber cards taker) k.trickNumber) = cards
    rw [takenCut_takenLine hn, extractCards_flatten hcards]
  have hletter : some taker.letter = some k.seat.letter ↔ taker = k.seat := by
    cases taker <;> cases k.seat <;> simp [Seat.letter]
  rw [receive_of_check hcheck]
  show some (k.takeTrick _, []) = _
  unfold takeTrick
  simp only [hcut, taker_takenLine, hletter, List.diff_eq_foldl]

end Deal

/-! ### The lines of a deal -/

lemma receiveAll_chatter {ls : List Text} (h : ∀ l ∈ ls, Chatter k.trickNumber l) :
    ∃ k', k.receiveAll ls = some k' ∧ k.Keeps k' := by
  induction ls generalizing k with
  | nil => exact ⟨k, rfl, .refl k⟩
  | cons l ls ih =>
    obtain ⟨k₁, out, hk₁, hkeeps⟩ := receive_chatter (h l (by simp))
    obtain ⟨k₂, hk₂, hkeeps'⟩ := ih (k := k₁) fun l' hl' => by
      rw [hkeeps.trickNumber]
      exact h l' (by simp [hl'])
    refine ⟨k₂, ?_, hkeeps.trans hkeeps'⟩
    unfold receiveAll at hk₂ ⊢
    rw [List.foldlM_cons, hk₁]
    exact hk₂

/-- **The client after the `TAKEN` lines of some tricks of a deal.** -/
structure After (k : Klient) (hand : List Text) (rounds : List Round) (k' : Klient) : Prop where
  seat : k'.seat = k.seat
  isAi : k'.isAi = k.isAi
  myCards : k'.myCards.Perm (remaining hand rounds)
  left : k'.myCards.length = 13 - rounds.length
  playedCards : k'.playedCards = []
  trickNumber : k'.trickNumber = rounds.length + 1
  takenTricks : k'.takenTricks = (rounds.filter fun r => r.taker = k.seat).map Round.cards
  gotScore : k'.gotScore = false
  gotTotal : k'.gotTotal = false

variable {hand : List Text} {rounds : List Round}

/-- **The client rebuilds the state of the deal from its lines**, right after each `TAKEN`. -/
theorem receiveAll_deal {dealType : ℕ} (hd : 1 ≤ dealType ∧ dealType ≤ 7) (starter : Seat)
    (hplayed : k.playedCards = []) (h13 : hand.length = 13) (hcards : ∀ card ∈ hand, IsCard card)
    (hnodup : hand.Nodup) (h : Played hand rounds) :
    ∃ k', k.receiveAll (dealLine dealType starter hand :: linesFrom 1 rounds) = some k' ∧
      k.After hand rounds k' := by
  induction h with
  | start =>
    refine ⟨{ k with
      trickNumber := 1, gotScore := false, gotTotal := false, takenTricks := [], myCards := hand }, ?_,
      rfl, rfl, by simp [remaining], by simpa using h13, hplayed, rfl, rfl, rfl, rfl⟩
    unfold receiveAll linesFrom
    rw [List.foldlM_cons, receive_deal hd h13 hcards]
    rfl
  | trick rounds r h hchatter h4 htrick hone ih =>
    obtain ⟨k₁, hk₁, hafter⟩ := ih
    have hnum := hafter.trickNumber
    rw [← hnum] at hchatter
    obtain ⟨k₂, hk₂, hkeeps⟩ := receiveAll_chatter hchatter
    have hnum₂ : k₂.trickNumber = rounds.length + 1 := hkeeps.trickNumber.trans hnum
    -- the trick takes a card, so it is one of the thirteen
    have hlen := length_remaining hnodup h
    have hlen' := length_remaining hnodup (h.trick rounds r (hnum ▸ hchatter) h4 htrick hone)
    rw [List.length_append, List.length_singleton] at hlen'
    have htaken := receive_taken (k := k₂) r.taker (by omega) h4 htrick
    have hperm : (k₂.myCards ++ k₂.playedCards).Perm (remaining hand rounds) := by
      have := hkeeps.cards
      rw [hafter.playedCards, List.append_nil] at this
      exact this.trans hafter.myCards
    have hdiff : ((k₂.myCards ++ k₂.playedCards).diff r.cards).Perm
        (remaining hand (rounds ++ [r])) := by
      rw [remaining_append, ← (nodup_remaining hnodup).sdiff_eq_filter]
      exact hperm.diff_right r.cards
    have hrun : k.receiveAll (dealLine dealType starter hand :: linesFrom 1 (rounds ++ [r])) =
        some { k₂ with
          myCards := (k₂.myCards ++ k₂.playedCards).diff r.cards
          playedCards := []
          takenTricks :=
            if r.taker = k₂.seat then k₂.takenTricks ++ [r.cards] else k₂.takenTricks
          trickNumber := k₂.trickNumber + 1 } := by
      rw [linesFrom_append, Round.lines, ← List.cons_append, receiveAll_append, hk₁, Option.bind_some,
        receiveAll_append, hk₂, Option.bind_some, Nat.add_comm, ← hnum₂]
      unfold receiveAll
      rw [List.foldlM_cons, htaken]
      rfl
    refine ⟨_, hrun, hkeeps.seat.trans hafter.seat, hkeeps.isAi.trans hafter.isAi, hdiff, ?_, rfl, ?_,
      ?_, hkeeps.gotScore.trans hafter.gotScore, hkeeps.gotTotal.trans hafter.gotTotal⟩
    · dsimp only
      rw [hdiff.length_eq, List.length_append, List.length_singleton]
      omega
    · dsimp only
      rw [hnum₂, List.length_append, List.length_singleton]
    · dsimp only
      rw [hkeeps.takenTricks, hkeeps.seat, hafter.takenTricks, hafter.seat, List.filter_append,
        List.map_append]
      split <;> simp_all

end Klient

/-! ### The client that comes back -/

/-- A trick as it is replayed: its `TAKEN` line alone. -/
def Round.replayed (r : Round) : Round := { r with chatter := [] }

section Replayed

variable {hand : List Text} {rounds : List Round}

lemma remaining_replayed : remaining hand (rounds.map Round.replayed) = remaining hand rounds := by
  unfold remaining
  rw [List.flatMap_map]
  rfl

lemma Played.replayed (h : Played hand rounds) : Played hand (rounds.map Round.replayed) := by
  induction h with
  | start => exact .start
  | trick rounds r h hchatter h4 hcards hone ih =>
    rw [List.map_append]
    apply ih.trick _ r.replayed
    · intro l hl
      cases hl
    · exact h4
    · exact hcards
    · rw [remaining_replayed]
      exact hone

/-- **The client follows the deal, and catches up with it.** After the `DEAL` line of its hand and
the lines of some tricks, ending with a `TAKEN` line, a client holds the cards of the hand that no
trick has taken, has played none, waits for the next trick and has the tricks its seat took. And a
client of the same seat that comes back and is replayed `DEAL` and the `TAKEN` lines alone is in
the same state, up to the order of the cards. -/
theorem client_follows_deal {k : Klient} {dealType : ℕ} (hd : 1 ≤ dealType ∧ dealType ≤ 7)
    (starter : Seat) (hplayed : k.playedCards = []) (h13 : hand.length = 13)
    (hcards : ∀ card ∈ hand, IsCard card) (hnodup : hand.Nodup) (h : Played hand rounds) :
    ∃ k', k.receiveAll (dealLine dealType starter hand :: linesFrom 1 rounds) = some k' ∧
      k.After hand rounds k' ∧
      ∀ (back : Klient) (dealType' : ℕ) (starter' : Seat), back.seat = k.seat →
        back.playedCards = [] → 1 ≤ dealType' ∧ dealType' ≤ 7 →
        ∃ back', back.receiveAll (dealLine dealType' starter' hand ::
            linesFrom 1 (rounds.map Round.replayed)) = some back' ∧
          back'.myCards.Perm k'.myCards ∧ back'.playedCards = k'.playedCards ∧
          back'.trickNumber = k'.trickNumber ∧ back'.takenTricks = k'.takenTricks ∧
          back'.gotScore = k'.gotScore ∧ back'.gotTotal = k'.gotTotal := by
  obtain ⟨k', hk', hafter⟩ := Klient.receiveAll_deal hd starter hplayed h13 hcards hnodup h
  refine ⟨k', hk', hafter, ?_⟩
  intro back dealType' starter' hseat hplayed' hd'
  obtain ⟨back', hback', hafter'⟩ := Klient.receiveAll_deal hd' starter' hplayed' h13 hcards
    hnodup h.replayed
  refine ⟨back', hback', ?_, ?_, ?_, ?_, ?_, ?_⟩
  · have := hafter'.myCards
    rw [remaining_replayed] at this
    exact this.trans hafter.myCards.symm
  · rw [hafter'.playedCards, hafter.playedCards]
  · rw [hafter'.trickNumber, hafter.trickNumber, List.length_map]
  · rw [hafter'.takenTricks, hafter.takenTricks, hseat, List.filter_map, List.map_map]
    rfl
  · rw [hafter'.gotScore, hafter.gotScore]
  · rw [hafter'.gotTotal, hafter.gotTotal]

end Replayed

def spades : List Text :=
  [['2', 'S'], ['3', 'S'], ['4', 'S'], ['5', 'S'], ['6', 'S'], ['7', 'S'], ['8', 'S'], ['9', 'S'],
    ['1', '0', 'S'], ['J', 'S'], ['Q', 'S'], ['K', 'S'], ['A', 'S']]

/-- The first trick of the holder of the spades, who is asked twice, and takes it. -/
def firstTrick : Round where
  chatter := [trickLine 1 [], wrongLine 1, trickLine 1 []]
  cards := [['2', 'S'], ['3', 'C'], ['4', 'H'], ['5', 'D']]
  taker := .E

theorem client_follows_deal_first : ∃ k', Klient.receiveAll { seat := .E, isAi := true }
      (dealLine 1 .E spades :: linesFrom 1 [firstTrick]) = some k' ∧
    k'.myCards.length = 12 ∧ k'.playedCards = [] ∧ k'.trickNumber = 2 ∧
    k'.takenTricks = [[['2', 'S'], ['3', 'C'], ['4', 'H'], ['5', 'D']]] := by
  have hchatter : ∀ l ∈ firstTrick.chatter, Chatter 1 l := by
    intro l hl
    rcases List.mem_cons.mp hl with rfl | hl
    · exact .trick ['1', '\r', '\n']
    rcases List.mem_cons.mp hl with rfl | hl
    · exact .wrong ['1', '\r', '\n']
    rw [List.mem_singleton.mp hl]
    exact .trick ['1', '\r', '\n']
  have hrounds : Played spades [firstTrick] :=
    .trick [] firstTrick .start hchatter (by decide) (by decide) (by decide)
  obtain ⟨k', hk', hafter, -⟩ := client_follows_deal (k := { seat := .E, isAi := true })
    (show 1 ≤ 1 ∧ 1 ≤ 7 by decide) .E rfl (by decide) (by decide) (by decide) hrounds
  exact ⟨k', hk', hafter.left, hafter.playedCards, hafter.trickNumber, hafter.takenTricks⟩

end Kierki
