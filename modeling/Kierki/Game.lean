import Kierki.Lines
import Kierki.PointsCalculator
import Mathlib.Data.List.Forall2

/-!
# A deal by the rules

What a deal is, without threads and pipes: four hands, the tricks taken and their takers, and the
cards on the table. The seats lay their cards in turn from the one that leads, and four cards are
taken by the seat that `PointsCalculator` finds. Whatever the cards are, a deal played by these
rules neither loses nor doubles a card.
-/

namespace Kierki

open scoped List

/-- A deal in play. -/
structure Game where
  hands : Seat → List Text
  tricks : List (List Text)
  takers : List Seat
  table : List Text

/-- The cards of a trick come from the hands of the seats in playing order. -/
def InOrder (deal : Seat → List Text) (beginning : Seat) (table : List Text) : Prop :=
  List.Forall₂ (fun s card => card ∈ deal s) (beginning.order.take table.length) table

/-- The seat takes the trick. -/
def TakenBy (beginning : Seat) (trick : List Text) (taker : Seat) : Prop :=
  ∃ trickType n calculator, PointsCalculator.construct trick beginning trickType n = some calculator ∧
    calculator.findTaker = taker

/-- The tricks of a deal have four cards each, from the seats in playing order, where the taker of a
trick leads the next. -/
def TakenInOrder (deal : Seat → List Text) : Seat → List (List Text) → List Seat → Prop
  | _, [], [] => True
  | beginning, trick :: tricks, taker :: takers =>
    trick.length = 4 ∧ InOrder deal beginning trick ∧ TakenBy beginning trick taker ∧
      TakenInOrder deal taker tricks takers
  | _, _, _ => False

/-- The seat that leads after the tricks taken. -/
def leader (starter : Seat) : List Seat → Seat
  | [] => starter
  | taker :: takers => leader taker takers

namespace Game

/-- The seat lays a card of its hand on the table. -/
@[simps] def lay (g : Game) (s : Seat) (card : Text) : Game :=
  { g with
    hands := Function.update g.hands s ((g.hands s).erase card)
    table := g.table ++ [card] }

/-- The seat takes the cards on the table. -/
@[simps] def take (g : Game) (taker : Seat) : Game :=
  { g with
    tricks := g.tricks ++ [g.table]
    takers := g.takers ++ [taker]
    table := [] }

/-- **The states of a deal played by the rules.** -/
inductive ByRules (deal : Seat → List Text) (starter : Seat) : Game → Prop
  | start : ByRules deal starter { hands := deal, tricks := [], takers := [], table := [] }
  | lay (g : Game) (s : Seat) (card : Text) (h : ByRules deal starter g)
      (hs : (leader starter g.takers).order[g.table.length]? = some s) (hc : card ∈ g.hands s) :
      ByRules deal starter (g.lay s card)
  | take (g : Game) (trickType n : ℕ) (calculator : PointsCalculator) (h : ByRules deal starter g)
      (h4 : g.table.length = 4)
      (hc : PointsCalculator.construct g.table (leader starter g.takers) trickType n =
        some calculator) :
      ByRules deal starter (g.take calculator.findTaker)

end Game

/-! ### The playing order -/

lemma Seat.mem_order (s s' : Seat) : s' ∈ s.order := by
  cases s <;> cases s' <;> decide

lemma Seat.nodup_order (s : Seat) : s.order.Nodup := by
  cases s <;> decide

lemma leader_append (starter taker : Seat) (takers : List Seat) :
    leader starter (takers ++ [taker]) = taker := by
  induction takers generalizing starter with
  | nil => rfl
  | cons t takers ih => exact ih t

lemma Seat.take_order {s s₀ : Seat} {n : ℕ} (h : s.order[n]? = some s₀) :
    s.order.take (n + 1) = s.order.take n ++ [s₀] ∧ s₀ ∉ s.order.take n := by
  have htake : s.order.take (n + 1) = s.order.take n ++ [s₀] := by
    rw [List.take_add_one, h]
    rfl
  refine ⟨htake, fun hmem => ?_⟩
  have hnodup : (s.order.take (n + 1)).Nodup := s.nodup_order.sublist (List.take_sublist _ _)
  rw [htake, List.nodup_append] at hnodup
  exact hnodup.2.2 s₀ hmem s₀ (by simp) rfl

lemma InOrder.lay {deal : Seat → List Text} {beginning s : Seat} {table : List Text} {card : Text}
    (h : InOrder deal beginning table) (hs : beginning.order[table.length]? = some s)
    (hc : card ∈ deal s) : InOrder deal beginning (table ++ [card]) := by
  unfold InOrder
  rw [List.length_append, List.length_singleton, (Seat.take_order hs).1]
  exact List.rel_append h (.cons hc .nil)

lemma TakenInOrder.append {deal : Seat → List Text} {trick : List Text} {taker : Seat}
    (h4 : trick.length = 4) {beginning : Seat} {tricks : List (List Text)} {takers : List Seat}
    (h : TakenInOrder deal beginning tricks takers)
    (ho : InOrder deal (leader beginning takers) trick)
    (ht : TakenBy (leader beginning takers) trick taker) :
    TakenInOrder deal beginning (tricks ++ [trick]) (takers ++ [taker]) := by
  induction tricks generalizing beginning takers with
  | nil =>
    cases takers with
    | nil => exact ⟨h4, ho, ht, trivial⟩
    | cons => exact h.elim
  | cons trick' tricks ih =>
    cases takers with
    | nil => exact h.elim
    | cons taker' takers => exact ⟨h.1, h.2.1, h.2.2.1, ih h.2.2.2 ho ht⟩

lemma perm_hands {hands : Seat → List Text} {s : Seat} {card : Text} (hc : card ∈ hands s) :
    (Seat.all.flatMap hands).Perm
      ([card] ++ Seat.all.flatMap (Function.update hands s ((hands s).erase card))) := by
  have hall : Seat.all.Perm (s :: Seat.all.erase s) := List.perm_cons_erase (Seat.mem_all s)
  have hrest : (Seat.all.erase s).flatMap (Function.update hands s ((hands s).erase card)) =
      (Seat.all.erase s).flatMap hands := by
    apply List.flatMap_congr
    intro s' hs'
    rw [Function.update_of_ne]
    rintro rfl
    exact List.Nodup.not_mem_erase (by decide) hs'
  calc Seat.all.flatMap hands
    _ ~ hands s ++ (Seat.all.erase s).flatMap hands := hall.flatMap_right hands
    _ ~ ([card] ++ (hands s).erase card) ++ (Seat.all.erase s).flatMap hands :=
      (List.perm_cons_erase hc).append_right _
    _ = [card] ++ (s :: Seat.all.erase s).flatMap
          (Function.update hands s ((hands s).erase card)) := by
      rw [List.flatMap_cons, Function.update_self, hrest, List.append_assoc]
    _ ~ [card] ++ Seat.all.flatMap (Function.update hands s ((hands s).erase card)) :=
      (hall.flatMap_right _).symm.append_left _

/-! ### What holds in a deal by the rules -/

namespace Game.ByRules

variable {deal : Seat → List Text} {starter : Seat} {g : Game}

lemma sublist (h : ByRules deal starter g) (s : Seat) : (g.hands s).Sublist (deal s) := by
  induction h with
  | start => exact List.Sublist.refl _
  | lay g s₀ card _ _ _ ih =>
    rw [lay_hands]
    by_cases hs : s = s₀
    · subst hs
      rw [Function.update_self]
      exact (List.erase_sublist).trans ih
    · rwa [Function.update_of_ne hs]
  | take => assumption

/-- **The cards of the unfinished trick come from the seats in playing order.** -/
theorem inOrder (h : ByRules deal starter g) : InOrder deal (leader starter g.takers) g.table := by
  induction h with
  | start => exact .nil
  | lay g s card h hs hc ih => exact ih.lay hs ((h.sublist s).subset hc)
  | take => exact .nil

/-- **So do the cards of the tricks taken, and the taker of a trick leads the next.** -/
theorem takenInOrder (h : ByRules deal starter g) :
    TakenInOrder deal starter g.tricks g.takers := by
  induction h with
  | start => trivial
  | lay => assumption
  | take g trickType n calculator h h4 hc ih =>
    exact ih.append h4 h.inOrder ⟨trickType, n, calculator, hc, rfl⟩

/-- **A seat has laid one card for each trick taken, and one for the trick on the table once its
turn has come.** -/
theorem length_hands (h : ByRules deal starter g) (s : Seat) :
    (g.hands s).length + g.tricks.length +
      (if s ∈ (leader starter g.takers).order.take g.table.length then 1 else 0) =
    (deal s).length := by
  induction h with
  | start => simp
  | lay g s₀ card _ hs hc ih =>
    obtain ⟨htake, hnot⟩ := Seat.take_order hs
    rw [lay_hands, lay_tricks, lay_takers, lay_table, List.length_append, List.length_singleton, htake]
    by_cases hst : s = s₀
    · subst hst
      have hpos : 0 < (g.hands s).length := List.length_pos_of_mem hc
      rw [Function.update_self, List.length_erase_of_mem hc]
      simp [hnot] at ih ⊢
      omega
    · rw [Function.update_of_ne hst]
      simpa [hst] using ih
  | take g _ _ _ _ h4 _ ih =>
    have hmem : s ∈ (leader starter g.takers).order.take 4 := Seat.mem_order _ s
    rw [h4, if_pos hmem] at ih
    simp only [take_hands, take_tricks, take_table, List.length_append, List.length_singleton,
      List.length_nil, List.take_zero, List.not_mem_nil, if_false]
    omega

/-- **No card is lost and none is doubled.** -/
theorem perm (h : ByRules deal starter g) :
    (Seat.all.flatMap g.hands ++ g.tricks.flatten ++ g.table).Perm (Seat.all.flatMap deal) := by
  induction h with
  | start => simp
  | lay g s card _ _ hc ih =>
    refine List.Perm.trans ?_ ih
    show (Seat.all.flatMap (Function.update g.hands s ((g.hands s).erase card)) ++ g.tricks.flatten ++
      (g.table ++ [card])).Perm _
    rw [← List.append_assoc]
    refine List.perm_append_comm.trans ?_
    rw [List.append_assoc, List.append_assoc, ← List.append_assoc [card]]
    exact (perm_hands hc).symm.append_right _
  | take g trickType n calculator h h4 _ ih =>
    show (Seat.all.flatMap g.hands ++ (g.tricks ++ [g.table]).flatten ++ []).Perm _
    simpa [List.append_assoc] using ih

lemma mem_table (h : ByRules deal starter g) {card : Text} (hc : card ∈ g.table) :
    ∃ s, card ∈ deal s := by
  have hmem : card ∈ Seat.all.flatMap deal := h.perm.subset (List.mem_append_right _ hc)
  obtain ⟨s, -, hs⟩ := List.mem_flatMap.mp hmem
  exact ⟨s, hs⟩

end Game.ByRules

/-! ### Four cards can be taken -/

namespace PointsCalculator

lemma figureVal_isSome {card : Text} (h : IsCard card) : (figureVal (figure card)).isSome := by
  rcases isCard_iff.mp h with ⟨a, b, rfl, ha, -⟩ | ⟨b, rfl, -⟩
  · simp only [Regex.isFigure1, decide_eq_true_eq, List.mem_cons, List.not_mem_nil, or_false] at ha
    rcases ha with rfl | rfl | rfl | rfl | rfl | rfl | rfl | rfl | rfl | rfl | rfl | rfl <;> rfl
  · rfl

/-- **The constructor goes through on a trick of four cards.** -/
theorem construct_isSome {playedCards : List Text} (h4 : playedCards.length = 4)
    (hcards : ∀ card ∈ playedCards, IsCard card) (starter : Seat) (trickType trick : ℕ) :
    (construct playedCards starter trickType trick).isSome := by
  have hfold : ∀ (l : List ℕ) (pc : PointsCalculator), (∀ i ∈ l, i < 4) →
      (l.foldlM (place playedCards) pc).isSome := by
    intro l
    induction l with
    | nil => exact fun _ _ => rfl
    | cons i l ih =>
      intro pc hl
      have hi : i < playedCards.length := h4 ▸ hl i (by simp)
      obtain ⟨v, hv⟩ := Option.isSome_iff_exists.mp
        (figureVal_isSome (hcards _ (List.getElem_mem hi)))
      rw [List.foldlM_cons]
      simp only [place, List.getElem?_eq_getElem hi, Option.bind_some, hv, Option.map_some]
      exact ih _ fun j hj => hl j (List.mem_cons_of_mem _ hj)
  exact hfold _ _ (by decide)

end PointsCalculator

end Kierki
