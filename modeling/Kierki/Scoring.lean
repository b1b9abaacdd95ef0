import Kierki.Lines
import Kierki.PointsCalculator
import Mathlib.Algebra.BigOperators.Group.List.Basic

/-!
# What a trick costs and who takes it

The rules of the first five deal types, stated for the cards alone, and `PointsCalculator` compared
with them: the taker is the seat of the highest card of the suit led, and the points are what the
four cards cost. Over the whole deck the costs add up to a number that does not depend on how the
cards are played.
-/

namespace Kierki

/-! ### The rules -/

/-- The rank of a card, counted from the twos up. -/
def rank (card : Text) : ℕ := figures.idxOf card.dropLast

/-- What a card costs its taker. -/
def cardCost : ℕ → Text → ℤ
  | 2, card => if card.getLast? = some 'H' then 1 else 0
  | 3, card => if card.dropLast = ['Q'] then 5 else 0
  | 4, card => if card.dropLast = ['J'] ∨ card.dropLast = ['K'] then 2 else 0
  | 5, card => if card = ['K', 'H'] then 18 else 0
  | _, _ => 0

/-- What a trick costs its taker: in the first deal type the trick, then the cards. -/
def trickCost (trickType : ℕ) (trick : List Text) : ℤ :=
  (if trickType = 1 then 1 else 0) + (trick.map (cardCost trickType)).sum

lemma sum_trickCost (trickType : ℕ) (tricks : List (List Text)) :
    (tricks.map (trickCost trickType)).sum =
      (if trickType = 1 then (tricks.length : ℤ) else 0) + (tricks.flatten.map (cardCost trickType)).sum := by
  induction tricks with
  | nil => simp
  | cons trick tricks ih =>
    rw [List.map_cons, List.sum_cons, ih, trickCost, List.flatten_cons, List.map_append, List.sum_append,
      List.length_cons]
    split
    · push_cast
      omega
    · omega

/-- **All the cards together cost the same**, however they are divided into tricks. -/
lemma dealCost {tricks : List (List Text)} (h13 : tricks.length = 13) (hdeck : tricks.flatten.Perm deck) :
    ∀ p ∈ [(1, 13), (2, 13), (3, 20), (4, 16), (5, 18)], (tricks.map (trickCost p.1)).sum = p.2 := by
  intro p hp
  rw [sum_trickCost, h13, (hdeck.map _).sum_eq]
  revert p
  decide

namespace PointsCalculator

/-! ### The cards as the calculator sees them -/

lemma color_card (figure : Text) (suit : Char) : color (figure ++ [suit]) = [suit] := by
  simp [color, substr]

lemma figure_card (f : Text) (suit : Char) : figure (f ++ [suit]) = f := by
  simp [figure, substr]

lemma color_eq {card : Text} (h : card ∈ deck) : color card = card.getLast?.toList := by
  obtain ⟨suit, -, f, -, rfl⟩ := mem_deck.mp h
  rw [color_card, List.getLast?_concat]
  rfl

lemma figureVal_card {card : Text} (h : card ∈ deck) : figureVal (figure card) = some (rank card + 2) := by
  obtain ⟨suit, -, f, hf, rfl⟩ := mem_deck.mp h
  have hall : ∀ f ∈ Kierki.figures, figureVal f = some (Kierki.figures.idxOf f + 2) := by decide
  rw [figure_card, rank, List.dropLast_concat]
  exact hall f hf

lemma card_unique {card card' : Text} (h : card ∈ deck) (h' : card' ∈ deck)
    (hs : card.getLast? = card'.getLast?) (hr : rank card = rank card') : card = card' := by
  obtain ⟨suit, -, f, hf, rfl⟩ := mem_deck.mp h
  obtain ⟨suit', -, f', hf', rfl⟩ := mem_deck.mp h'
  unfold rank at hr
  rw [List.dropLast_concat, List.dropLast_concat] at hr
  rw [List.getLast?_concat, List.getLast?_concat] at hs
  rw [(List.idxOf_inj hf).mp hr, Option.some.inj hs]

/-! ### The constructor -/

/-- The cards of a trick, by the seats that laid them. -/
structure Lays (pc : PointsCalculator) (trick : List Text) : Prop where
  colors : ∀ i card, trick[i]? = some card → pc.colors (Seat.at4 (pc.starter.idx + i)) = color card
  figures : ∀ i card, trick[i]? = some card →
    pc.figures (Seat.at4 (pc.starter.idx + i)) = rank card + 2

/-- **The constructor lays out the four cards from the starter on.** -/
lemma construct_lays {trick : List Text} (h4 : trick.length = 4) (hcards : ∀ card ∈ trick, card ∈ deck)
    (starter : Seat) (trickType n : ℕ) : ∃ pc, construct trick starter trickType n = some pc ∧
      pc.starter = starter ∧ pc.trickType = trickType ∧ pc.trick = n ∧ pc.Lays trick := by
  obtain ⟨a, b, c, d, rfl⟩ : ∃ a b c d, trick = [a, b, c, d] := by
    match trick, h4 with
    | [a, b, c, d], _ => exact ⟨a, b, c, d, rfl⟩
  have ha := figureVal_card (hcards a (by simp))
  have hb := figureVal_card (hcards b (by simp))
  have hc := figureVal_card (hcards c (by simp))
  have hd := figureVal_card (hcards d (by simp))
  refine ⟨_, by simp [construct, place, ha, hb, hc, hd]; rfl, rfl, rfl, rfl, ?_, ?_⟩
  all_goals
    intro i card hi
    obtain ⟨hlt, rfl⟩ := List.getElem?_eq_some_iff.mp hi
    have hlt' : i < 4 := hlt
    interval_cases i <;> cases starter <;> simp [Seat.at4, Seat.idx, Function.update]

/-! ### The taker -/

/-- The seat that lays the card number `i` of the trick. -/
abbrev seatAt (pc : PointsCalculator) (i : ℕ) : Seat := Seat.at4 (pc.starter.idx + i)

/-- **The loop of `find_taker`** keeps the best of the cards of the suit led. -/
lemma better_foldl (pc : PointsCalculator) (l : List ℕ) (best : Seat × ℕ) :
    best.2 ≤ (l.foldl pc.better best).2 ∧
    (l.foldl pc.better best = best ∨ ∃ i ∈ l, pc.colors (pc.seatAt i) = pc.colors pc.starter ∧
      l.foldl pc.better best = (pc.seatAt i, pc.figures (pc.seatAt i))) ∧
    ∀ i ∈ l, pc.colors (pc.seatAt i) = pc.colors pc.starter →
      pc.figures (pc.seatAt i) ≤ (l.foldl pc.better best).2 := by
  induction l generalizing best with
  | nil => exact ⟨le_refl _, .inl rfl, by simp⟩
  | cons j l ih =>
    obtain ⟨hle, hfrom, hall⟩ := ih (pc.better best j)
    rw [List.foldl_cons]
    generalize l.foldl pc.better (pc.better best j) = r at *
    by_cases hb : pc.colors (pc.seatAt j) = pc.colors pc.starter ∧ best.2 < pc.figures (pc.seatAt j)
    · have hj : pc.better best j = (pc.seatAt j, pc.figures (pc.seatAt j)) := if_pos hb
      rw [hj] at hle hfrom
      refine ⟨hb.2.le.trans hle, ?_, ?_⟩
      · rcases hfrom with rfl | ⟨i, hi, hc, rfl⟩
        · exact .inr ⟨j, by simp, hb.1, rfl⟩
        · exact .inr ⟨i, by simp [hi], hc, rfl⟩
      · rintro i (_ | ⟨_, hi⟩) hc
        · exact hle
        · exact hall i hi hc
    · have hj : pc.better best j = best := if_neg hb
      rw [hj] at hle hfrom
      refine ⟨hle, ?_, ?_⟩
      · rcases hfrom with rfl | ⟨i, hi, hc, rfl⟩
        · exact .inl rfl
        · exact .inr ⟨i, by simp [hi], hc, rfl⟩
      · rintro i (_ | ⟨_, hi⟩) hc
        · exact (not_lt.mp fun h => hb ⟨hc, h⟩).trans hle
        · exact hall i hi hc

lemma seatAt_zero (pc : PointsCalculator) : pc.seatAt 0 = pc.starter := by
  unfold seatAt
  cases pc.starter <;> rfl

lemma findTaker_spec (pc : PointsCalculator) : ∃ i < 4, pc.findTaker = pc.seatAt i ∧
    pc.colors (pc.seatAt i) = pc.colors pc.starter ∧
    ∀ j < 4, pc.colors (pc.seatAt j) = pc.colors pc.starter →
      pc.figures (pc.seatAt j) ≤ pc.figures (pc.seatAt i) := by
  obtain ⟨hle, hfrom, hall⟩ := pc.better_foldl [1, 2, 3] (pc.starter, pc.figures pc.starter)
  have htaker : pc.findTaker = ([1, 2, 3].foldl pc.better (pc.starter, pc.figures pc.starter)).1 := rfl
  rw [htaker]
  generalize [1, 2, 3].foldl pc.better (pc.starter, pc.figures pc.starter) = r at *
  have hhigh : ∀ j < 4, pc.colors (pc.seatAt j) = pc.colors pc.starter →
      pc.figures (pc.seatAt j) ≤ r.2 := by
    intro j hj hc
    rcases Nat.eq_zero_or_pos j with rfl | hpos
    · rw [seatAt_zero]
      exact hle
    · exact hall j (by simp; omega) hc
  rcases hfrom with rfl | ⟨i, hi, hc, rfl⟩
  · refine ⟨0, by omega, pc.seatAt_zero.symm, by rw [seatAt_zero], fun j hj hc => ?_⟩
    rw [seatAt_zero]
    exact hhigh j hj hc
  · refine ⟨i, ?_, rfl, hc, hhigh⟩
    simp only [List.mem_cons, List.not_mem_nil, or_false] at hi
    omega

/-- **The taker laid the highest card of the suit led.** -/
lemma findTaker_highest {trick : List Text} (hcards : ∀ card ∈ trick, card ∈ deck) (h4 : trick.length = 4)
    {pc : PointsCalculator} (hlays : pc.Lays trick) :
    ∃ i card, trick[i]? = some card ∧ pc.findTaker = pc.seatAt i ∧
      card.getLast? = trick.head?.bind List.getLast? ∧
      ∀ card' ∈ trick, card' ≠ card → card'.getLast? = trick.head?.bind List.getLast? →
        rank card' < rank card := by
  have hsuit : ∀ i < 4, ∃ card, trick[i]? = some card ∧ card ∈ trick ∧
      (pc.colors (pc.seatAt i) = pc.colors pc.starter ↔
        card.getLast? = trick.head?.bind List.getLast?) := by
    intro i hi
    have hlt : i < trick.length := by omega
    have hlt0 : 0 < trick.length := by omega
    refine ⟨trick[i], List.getElem?_eq_getElem hlt, List.getElem_mem hlt, ?_⟩
    have hcard := hlays.colors i _ (List.getElem?_eq_getElem hlt)
    have hled := hlays.colors 0 _ (List.getElem?_eq_getElem hlt0)
    rw [show Seat.at4 (pc.starter.idx + 0) = pc.starter from pc.seatAt_zero] at hled
    rw [hcard, hled, color_eq (hcards _ (List.getElem_mem hlt)), color_eq (hcards _ (List.getElem_mem hlt0)),
      List.head?_eq_getElem?, List.getElem?_eq_getElem hlt0, Option.bind_some]
    constructor
    · intro h
      generalize trick[i].getLast? = o, trick[0].getLast? = o' at h
      cases o <;> cases o' <;> simp_all
    · intro h
      rw [h]
  obtain ⟨i, hi, htaker, hcolor, hbest⟩ := pc.findTaker_spec
  obtain ⟨card, hcard, hmem, hled⟩ := hsuit i hi
  refine ⟨i, card, hcard, htaker, hled.mp hcolor, ?_⟩
  intro card' hmem' hne hsuit'
  obtain ⟨j, hj, rfl⟩ := List.getElem_of_mem hmem'
  obtain ⟨card'', hcard'', -, hled''⟩ := hsuit j (by omega)
  obtain rfl : trick[j] = card'' := by
    rw [List.getElem?_eq_getElem hj] at hcard''
    exact Option.some.inj hcard''
  have hle := hbest j (by omega) (hled''.mpr hsuit')
  rw [hlays.figures j _ hcard'', hlays.figures i _ hcard] at hle
  have hrank : rank trick[j] ≠ rank card := fun h =>
    hne (card_unique (hcards _ hmem') (hcards _ hmem) (hsuit'.trans (hled.mp hcolor).symm) h)
  omega

/-! ### The points -/

lemma sumCards_eq {trick : List Text} (h4 : trick.length = 4) {pc : PointsCalculator}
    (hlays : pc.Lays trick) (f : Text → ℕ → ℤ) :
    pc.sumCards f = (trick.map fun card => f (color card) (rank card + 2)).sum := by
  obtain ⟨a, b, c, d, rfl⟩ : ∃ a b c d, trick = [a, b, c, d] := by
    match trick, h4 with
    | [a, b, c, d], _ => exact ⟨a, b, c, d, rfl⟩
  have hcolors := hlays.colors
  have hfigures := hlays.figures
  have hca := hcolors 0 a rfl
  have hcb := hcolors 1 b rfl
  have hcc := hcolors 2 c rfl
  have hcd := hcolors 3 d rfl
  have hfa := hfigures 0 a rfl
  have hfb := hfigures 1 b rfl
  have hfc := hfigures 2 c rfl
  have hfd := hfigures 3 d rfl
  unfold sumCards
  cases hs : pc.starter <;>
  · simp only [hs, Seat.idx, Seat.at4] at hca hcb hcc hcd hfa hfb hfc hfd
    simp [Seat.all, hca, hcb, hcc, hcd, hfa, hfb, hfc, hfd]
    try omega

/-- **The points are what the trick costs.** -/
lemma points_eq {trick : List Text} (hcards : ∀ card ∈ trick, card ∈ deck) (h4 : trick.length = 4)
    {pc : PointsCalculator} (hlays : pc.Lays trick) (ht : 1 ≤ pc.trickType ∧ pc.trickType ≤ 5) :
    pc.calculatePoints.2 = trickCost pc.trickType trick := by
  have hsum : ∀ f g, (∀ card ∈ deck, f (color card) (rank card + 2) = g card) →
      pc.sumCards f = (trick.map g).sum := by
    intro f g h
    rw [sumCards_eq h4 hlays]
    congr 1
    exact List.map_congr_left fun card hcard => h card (hcards card hcard)
  obtain ⟨h1, h5⟩ := ht
  unfold calculatePoints trickCost
  dsimp only
  generalize pc.trickType = ty at *
  interval_cases ty
  · have hzero : trick.map (cardCost 1) = trick.map fun _ => 0 := rfl
    simp [noTricks, hzero]
  · rw [noHearts, hsum _ (cardCost 2) (by decide)]
    simp
  · rw [noQueens, hsum _ (cardCost 3) (by decide)]
    simp
  · rw [noMisters, hsum _ (cardCost 4) (by decide)]
    simp
  · rw [noHeartsKing, hsum _ (cardCost 5) (by decide)]
    simp

end PointsCalculator

end Kierki
