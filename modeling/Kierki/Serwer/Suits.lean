import Kierki.Game
import Kierki.Serwer.LegalMoves
import Kierki.Serwer.ThreadMoves

/-!
# Following suit

Nobody revokes: a seat that lays a card of another suit than the one led has no card of that suit, and
so lays none in the tricks that follow. `parse_message` looks at the hand and at the first card on the
table only; what it lets through comes to that over the whole deal.
-/

namespace Kierki

/-! ### The cards laid in a deal -/

/-- A card laid: by whom, of which suit, and the suit led. -/
structure Lay where
  seat : Seat
  suit : Option Char
  led : Option Char
  deriving DecidableEq

/-- If the first card does not follow suit, the second, of the same seat, is not of the suit led then. -/
def Lay.NoRevoke (a b : Lay) : Prop := a.seat = b.seat → a.suit ≠ a.led → b.suit ≠ a.led

/-- The suit led in a trick. -/
def led (trick : List Text) : Option Char := trick.head?.bind List.getLast?

/-- The cards of a trick that `beginning` leads. -/
def layTrick (beginning : Seat) (trick : List Text) : List Lay :=
  (beginning.order.zip trick).map fun laid => ⟨laid.1, laid.2.getLast?, led trick⟩

/-- The cards of the tricks, the taker of a trick leading the next. -/
def layTricks : Seat → List (List Text) → List Seat → List Lay
  | beginning, trick :: tricks, taker :: takers => layTrick beginning trick ++ layTricks taker tricks takers
  | _, _, _ => []

/-- The cards laid in a deal, with those on the table. -/
def Game.lays (starter : Seat) (g : Game) : List Lay :=
  layTricks starter g.tricks g.takers ++ layTrick (leader starter g.takers) g.table

/-- **Nobody has revoked**, and nobody can any more with what it has in its hand. -/
structure Game.Suited (starter : Seat) (g : Game) : Prop where
  pairwise : (g.lays starter).Pairwise Lay.NoRevoke
  hands : ∀ a ∈ g.lays starter, a.suit ≠ a.led → ∀ card ∈ g.hands a.seat, card.getLast? ≠ a.led

lemma TakenInOrder.lengths {deal : Seat → List Text} {beginning : Seat} {tricks : List (List Text)}
    {takers : List Seat} (h : TakenInOrder deal beginning tricks takers) :
    takers.length = tricks.length ∧ ∀ trick ∈ tricks, trick.length = 4 := by
  induction tricks generalizing beginning takers with
  | nil =>
    cases takers with
    | nil => exact ⟨rfl, fun _ ht => (by cases ht)⟩
    | cons => exact h.elim
  | cons trick tricks ih =>
    cases takers with
    | nil => exact h.elim
    | cons taker takers =>
      obtain ⟨h4, -, -, hrest⟩ := h
      obtain ⟨hlength, hall⟩ := ih hrest
      refine ⟨by simp [hlength], fun t ht => ?_⟩
      rcases List.mem_cons.mp ht with rfl | ht
      · exact h4
      · exact hall t ht

lemma zip_concat {α β : Type*} {l : List α} {l' : List β} {a : α} {b : β} (h : l[l'.length]? = some a) :
    l.zip (l' ++ [b]) = l.zip l' ++ [(a, b)] := by
  induction l' generalizing l with
  | nil =>
    cases l with
    | nil => cases h
    | cons x l =>
      obtain rfl : x = a := Option.some.inj h
      simp
  | cons y l' ih =>
    cases l with
    | nil => cases h
    | cons x l => simp [ih (l := l) (by simpa using h)]

section Lays

variable {starter beginning taker s : Seat} {tricks : List (List Text)} {takers : List Seat}
  {trick table : List Text} {card : Text} {g : Game}

lemma layTricks_concat (h : takers.length = tricks.length) :
    layTricks beginning (tricks ++ [trick]) (takers ++ [taker]) =
      layTricks beginning tricks takers ++ layTrick (leader beginning takers) trick := by
  induction tricks generalizing beginning takers with
  | nil =>
    obtain rfl := List.length_eq_zero_iff.mp h
    exact List.append_nil _
  | cons trick' tricks ih =>
    cases takers with
    | nil => cases h
    | cons taker' takers =>
      simp only [List.cons_append, layTricks, ih (Nat.succ.inj h), leader, List.append_assoc]

lemma layTrick_concat (hs : beginning.order[table.length]? = some s) :
    layTrick beginning (table ++ [card]) =
      layTrick beginning table ++ [⟨s, card.getLast?, led (table ++ [card])⟩] := by
  unfold layTrick
  rw [zip_concat hs, List.map_append]
  cases table with
  | nil => simp
  | cons first rest => rfl

namespace Game.Suited

lemma lay (h : g.Suited starter) (hs : (leader starter g.takers).order[g.table.length]? = some s)
    (hc : card ∈ g.hands s) (hf : Serwer.FollowsSuit (g.hands s) g.table card) :
    (g.lay s card).Suited starter := by
  have hlays : (g.lay s card).lays starter =
      g.lays starter ++ [⟨s, card.getLast?, led (g.table ++ [card])⟩] := by
    unfold lays
    rw [lay_table, lay_takers, lay_tricks, layTrick_concat hs, List.append_assoc]
  have hsub : ∀ s', ∀ x ∈ (g.lay s card).hands s', x ∈ g.hands s' := by
    intro s' x hx
    rw [lay_hands] at hx
    by_cases hs' : s' = s
    · subst hs'
      rw [Function.update_self] at hx
      exact List.mem_of_mem_erase hx
    · rwa [Function.update_of_ne hs'] at hx
  refine ⟨?_, fun a ha hne x hx => ?_⟩
  · rw [hlays, List.pairwise_append]
    refine ⟨h.pairwise, List.pairwise_singleton _ _, fun a ha b hb => ?_⟩
    rw [List.mem_singleton] at hb
    subst hb
    rintro rfl hne
    exact h.hands a ha hne card hc
  · rw [hlays, List.mem_append, List.mem_singleton] at ha
    rcases ha with ha | rfl
    · exact h.hands a ha hne x (hsub _ x hx)
    · -- the card just laid
      rcases hf with htable | ⟨first, rest, htable, hfollows | hnone⟩
      · simp [htable, led] at hne
      · simp [htable, led, hfollows] at hne
      · simpa [htable, led] using hnone x (hsub _ x hx)

lemma take (h : g.Suited starter) (hlength : g.takers.length = g.tricks.length) :
    (g.take taker).Suited starter := by
  have hlays : (g.take taker).lays starter = g.lays starter := by
    unfold lays
    rw [take_tricks, take_takers, take_table, layTricks_concat hlength]
    simp [layTrick]
  exact ⟨by rw [hlays]; exact h.pairwise, by rw [hlays]; exact h.hands⟩

end Game.Suited

end Lays

namespace Serwer

/-- The fields that say where the deal is. -/
def Shared.course (sh : Shared) : (Seat → List Text) × Seat × Seat × List (List Text) × List Seat :=
  (sh.deal, sh.dealStarter, sh.lastTaker, sh.takenTricks, sh.takenTakers)

lemma followsSuit_of_acceptedCard {hand table : List Text} {n : ℕ} {l card : Text}
    (h : acceptedCard hand table n l = some card) : FollowsSuit hand table card := by
  unfold acceptedCard at h
  dsimp only at h
  split at h
  · rename_i hplay
    obtain rfl := Option.some.inj h
    obtain ⟨-, hcolor⟩ := hplay
    cases table with
    | nil => exact .inl rfl
    | cons first rest =>
      refine .inr ⟨first, rest, rfl, ?_⟩
      unfold playedRightColor at hcolor
      dsimp only at hcolor
      split at hcolor
      · simp only [Bool.or_eq_true, beq_iff_eq, List.all_eq_true, bne_iff_ne] at hcolor
        exact hcolor.imp Eq.symm id
      · cases hcolor
  · cases h

/-- A thread changes the deal by an accepted card only, and that follows suit. -/
lemma ThreadMove.game {sh sh' : Shared} {c : ℕ} {t t' : Thread} {o : Outcome}
    (hm : ThreadMove sh c t o sh' t') : sh'.course = sh.course ∧
    ((sh'.cards = sh.cards ∧ sh'.cardsOnTable = sh.cardsOnTable ∧
        acceptedSinceTurn sh'.log = acceptedSinceTurn sh.log) ∨
      ∃ card ∈ sh.cards t.seat, t.accepts sh = true ∧
        FollowsSuit (sh.cards t.seat) sh.cardsOnTable card ∧
        sh'.cards = Function.update sh.cards t.seat ((sh.cards t.seat).erase card) ∧
        sh'.cardsOnTable = sh.cardsOnTable ++ [card] ∧ acceptedSinceTurn sh'.log = true) := by
  cases hm with
  | accept l k card hpc hl hd ha =>
    exact ⟨rfl, .inr ⟨card, mem_of_acceptedCard ha, by simp [Thread.accepts, hpc, hl, hd, ha],
      followsSuit_of_acceptedCard ha, rfl, rfl, rfl⟩⟩
  | byte b => cases b <;> exact ⟨rfl, .inl ⟨rfl, rfl, rfl⟩⟩
  | close b => cases b <;> exact ⟨rfl, .inl ⟨rfl, rfl, rfl⟩⟩
  | notSent l p => cases p <;> exact ⟨rfl, .inl ⟨rfl, rfl, rfl⟩⟩
  | _ => exact ⟨rfl, .inl ⟨rfl, rfl, rfl⟩⟩

end Serwer

end Kierki
