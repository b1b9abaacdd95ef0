import Kierki.Serwer.Departures
import Kierki.Serwer.Wake

/-!
# A deal on the server

When every client stays, the hands, the tricks taken and the cards on the table of the server are at
every point those of a deal played by the rules: a card is accepted from the seat whose turn it is
and from no other, and four of them make a trick. So no card is lost or doubled, whatever the
clients send and whenever they send it, and the server closes only after the last deal.
-/

namespace Kierki.Serwer

open Lib.Lts

/-- The deal in play, as the fields of the server show it. -/
def Shared.game (sh : Shared) (pc : MainPc) : Game where
  hands := sh.cards
  tricks := sh.takenTricks
  takers := sh.takenTakers
  table := if pc.toPlay.isSome then sh.cardsOnTable else []

/-- **The invariant of the deal**: it is played by the rules, and the main thread is where the cards
say. -/
structure Plays (sh : Shared) (pc : MainPc) (m : Main) : Prop where
  game : Game.ByRules sh.deal sh.dealStarter (sh.game pc)
  cards : ∀ s, ∀ card ∈ sh.deal s, IsCard card
  leads : pc ≠ .dealStart → sh.lastTaker = leader sh.dealStarter sh.takenTakers
  starts : pc = .dealStart → m.seat = leader sh.dealStarter sh.takenTakers
  begins : pc.toPlay.isSome → m.beginning = sh.lastTaker
  served : ∀ left, pc.toPlay = some left → ∃ served, m.beginning.order = served ++ left ∧
    sh.cardsOnTable.length = served.length + heardLate sh pc
  taken : ∀ n, pc.taken m.i = some n → sh.takenTricks.length = n
  done : pc.dealDone = true → 13 ≤ sh.takenTricks.length
  closes : ∀ e, pc.errorMessage = some e → (e = "" ∧ m.deals = []) ∧ pc.wait = none

/-- The server closes only after the last deal. -/
def ClosesLast (pc : MainPc) (m : Main) : Prop :=
  ∀ e, pc.errorMessage = some e → (e = "" ∧ m.deals = []) ∧ pc.wait = none

section Steps

variable {sh sh' : Shared} {pc : MainPc} {m m' : Main} {v : ℕ → View}

lemma ClosesLast.main (h : ClosesLast m.pc m) (hsane : ¬m'.pc.Confused) (hm : MainMove sh m sh' m') :
    ClosesLast m'.pc m' := by
  cases hm with
  | badBarrier => exact absurd (.inl rfl) hsane
  | badDeal => exact absurd (.inr rfl) hsane
  | gameOver hpc hd => exact fun e he => ⟨⟨(Option.some.inj he).symm, hd⟩, rfl⟩
  | close e w hpc | closeSeat s left e w hpc =>
    rw [hpc] at h
    exact h
  | releaseLast s r =>
    intro e he
    rw [afterBarrier_errorMessage] at he
    cases he
  | announceLast b => cases b <;> exact fun e he => (by cases he)
  | _ => exact fun e he => (by cases he)

lemma upcoming_eq_toPlay (hst : Staying sh pc v) (hc : ClosesLast pc m) : pc.upcoming = pc.toPlay := by
  have hcaller := hst.caller
  cases pc with
  | barrierReset r | barrierAsk _ r | barrierPoll r | barrierScan _ r | barrierResend _ _ r
  | barrierRelease _ r =>
    have := hcaller r rfl
    cases r <;> first | rfl | cases this
  | closeServer e w | closeSeats l e w =>
    obtain rfl : w = none := (hc e rfl).2
    rfl
  | _ => rfl

lemma tricks_eq_taken (hst : Staying sh pc v) (i : ℕ) : pc.tricks i = pc.taken i := by
  have hcaller := hst.caller
  cases pc with
  | barrierReset r | barrierAsk _ r | barrierPoll r | barrierScan _ r | barrierResend _ _ r
  | barrierRelease _ r =>
    have := hcaller r rfl
    cases r <;> first | rfl | cases this
  | _ => rfl

lemma inPlay_eq_game (hst : Staying sh pc v) (hc : ClosesLast pc m) : sh.inPlay pc = sh.game pc := by
  unfold Shared.inPlay Shared.game
  rw [upcoming_eq_toPlay hst hc]

/-- **A deal through departures is one in which nobody leaves**, when every client stays. -/
theorem PlaysOn.plays (h : PlaysOn sh pc m) (hst : Staying sh pc v) (hc : ClosesLast pc m) :
    Plays sh pc m := by
  have hup := upcoming_eq_toPlay hst hc
  refine ⟨?_, h.cards, h.leads, h.starts, hup ▸ h.begins, fun left hleft => ?_, fun n hn => ?_, h.done, hc⟩
  · rw [← inPlay_eq_game hst hc]
    exact h.game
  · obtain ⟨served, after, horder, hlength, hafter⟩ := h.served left (hup ▸ hleft)
    obtain rfl := hafter (MainPc.of_toPlay hleft m.i).2.2.1
    exact ⟨served, by simpa using horder, hlength⟩
  · exact h.taken n ((tricks_eq_taken hst m.i).trans hn)

lemma Plays.toPlay_of_open (h : Plays sh pc m) (hst : Staying sh pc v) {s : Seat}
    (ho : Open sh pc s) : ∃ rest, pc.toPlay = some (s :: rest) := by
  have hw := ho.1
  have hcaller := hst.caller
  have hcloses := h.closes
  revert hw
  cases pc <;> simp_all [MainPc.wait, MainPc.toPlay, MainPc.caller, MainPc.errorMessage]

lemma Plays.full_trick (h : Plays sh .trickEnd m) : sh.cardsOnTable.length = 4 := by
  obtain ⟨served, ho, hl⟩ := h.served [] rfl
  rw [List.append_nil] at ho
  rw [hl, ← ho]
  rfl

end Steps

lemma MainPc.not_toPlay_of_done {pc : MainPc} (h : pc.dealDone = true) : pc.toPlay = none := by
  cases pc <;> first | rfl | cases h

/-! ### The runs -/

/-- Four hands of 13 cards, all of them different. -/
def FullDeal (deal : Seat → List Text) : Prop :=
  (∀ s, (deal s).length = 13) ∧ (Seat.all.flatMap deal).Nodup

instance (deal : Seat → List Text) : Decidable (FullDeal deal) :=
  inferInstanceAs (Decidable (_ ∧ _))

/-- All the cards of the server: the hands, the tricks taken and the trick on the table. -/
def State.allCards (st : State) : List Text :=
  Seat.all.flatMap st.sh.cards ++ st.sh.takenTricks.flatten ++ (st.sh.game st.main.pc).table

/-- **The deal goes its way**: every trick gets one card of each seat in playing order, the taker of a
trick leads the next, the cards are those dealt, and each trick takes one card out of each hand. -/
structure WellPlayed (st : State) : Prop where
  /-- The trick on the table. -/
  table : st.main.pc.toPlay.isSome → st.main.beginning =
    leader st.sh.dealStarter st.sh.takenTakers ∧ InOrder st.sh.deal st.main.beginning st.sh.cardsOnTable
  full : st.main.pc = .trickEnd → st.sh.cardsOnTable.length = 4
  tricks : TakenInOrder st.sh.deal st.sh.dealStarter st.sh.takenTricks st.sh.takenTakers
  kept : st.allCards.Perm (Seat.all.flatMap st.sh.deal) ∧ st.allCards.length = 52 ∧ st.allCards.Nodup
  hands : ∀ s, (st.sh.cards s).length + st.sh.takenTricks.length +
    (if s ∈ (leader st.sh.dealStarter st.sh.takenTakers).order.take
      (st.sh.game st.main.pc).table.length then 1 else 0) = 13
  /-- Between the tricks. -/
  between : st.main.pc.toPlay = none → ∀ s, (st.sh.cards s).length = 13 - st.sh.takenTricks.length
  done : st.main.pc.dealDone = true → st.sh.takenTricks.length = 13 ∧ ∀ s, st.sh.cards s = []

section Runs

variable {timeout : ℤ} {deals : List Deal} {st : State}

lemma turnGuarded_of_calm (h : RunsTo Calm timeout deals st) : RunsTo TurnGuarded timeout deals st :=
  (h.with_known (J := fun st => Unasked st.sh st.main.pc st.view ∧ Gathered st.sh st.main.pc st.view)
    fun _ hr => ⟨(turn_of_calm hr).2, gathered hr⟩).mono
    fun _ a hok => turnGuarded_of_unasked hok.2.1 hok.2.2 a

lemma closes_of_calm (h : RunsTo Calm timeout deals st) : ClosesLast st.main.pc st.main :=
  RunsTo.keeps (I := fun _ m _ => ClosesLast m.pc m)
    (J := fun sh m v => Understood sh m.pc v) (fun _ hr => (understood_of_calm hr).1)
    (fun _ he => (by cases he))
    (fun _ _ _ _ hj hi _ hm => hi.main (hj.sane_next hm) hm) (fun _ _ _ _ _ _ hi _ _ => hi)
    (fun _ _ _ _ _ _ hi _ _ => hi) h

lemma plays (h : RunsTo Calm timeout deals st) : Plays st.sh st.main.pc st.main :=
  (playsOn (turnGuarded_of_calm h)).plays (staying h) (closes_of_calm h)

lemma Plays.wellPlayed (h : Plays st.sh st.main.pc st.main) (hd : FullDeal st.sh.deal) :
    WellPlayed st := by
  have hands := fun s => (h.game.length_hands s).trans (hd.1 s)
  have hbetween : st.main.pc.toPlay = none →
      ∀ s, (st.sh.cards s).length + st.sh.takenTricks.length = 13 := by
    intro hp s
    have := hands s
    simpa [Shared.game, hp] using this
  have hperm : st.allCards.Perm (Seat.all.flatMap st.sh.deal) := h.game.perm
  refine ⟨fun hp => ?_, fun hpc => ?_, h.game.takenInOrder, ⟨hperm, ?_, hperm.nodup_iff.mpr hd.2⟩, hands,
    fun hp s => ?_, fun hdone => ?_⟩
  · have hnot : st.main.pc ≠ .dealStart := by
      intro hpc
      rw [hpc] at hp
      cases hp
    have hbegins := (h.begins hp).trans (h.leads hnot)
    refine ⟨hbegins, ?_⟩
    have := h.game.inOrder
    rw [hbegins]
    simpa [Shared.game, hp] using this
  · rw [hpc] at h
    exact h.full_trick
  · rw [hperm.length_eq]
    simp [Seat.all, hd.1]
  · have := hbetween hp s
    omega
  · have h13 := h.done hdone
    have hall := hbetween (MainPc.not_toPlay_of_done hdone)
    refine ⟨?_, fun s => ?_⟩
    · have := hall .N
      omega
    · have := hall s
      exact List.eq_nil_of_length_eq_zero (by omega)

/-- **Every deal is played by the rules**, when every client stays: the server closes only after the
last deal, `run_deal` does not stop in `PointsCalculator`, and no card is lost or doubled. -/
theorem deal_played_out (h : RunsTo Calm timeout deals st) :
    (∀ e, st.main.pc.errorMessage = some e → e = "" ∧ st.main.deals = []) ∧
    (st.main.pc = .trickEnd → (Main.endTrick st.sh st.main).isSome) ∧
    (FullDeal st.sh.deal → WellPlayed st) := by
  have hp := plays h
  refine ⟨fun e he => (hp.closes e he).1, fun hpc => ?_, hp.wellPlayed⟩
  have hcards : ∀ card ∈ st.sh.cardsOnTable, IsCard card := by
    intro card hc
    have htable : card ∈ (st.sh.game st.main.pc).table := by
      rw [hpc]
      exact hc
    obtain ⟨s, hs⟩ := hp.game.mem_table htable
    exact hp.cards s card hs
  unfold Main.endTrick
  rw [Option.isSome_map]
  rw [hpc] at hp
  exact PointsCalculator.construct_isSome hp.full_trick hcards _ _ _

/-- The first trick is played. -/
theorem deal_played_out_trick : ∃ st, RunsTo Calm 5000 [suitsDeal] st ∧
    st.sh.takenTricks = [[['2', 'C'], ['2', 'D'], ['2', 'H'], ['2', 'S']]] ∧ WellPlayed st := by
  obtain ⟨st, hr, hp⟩ := exists_run Calm [suitsDeal]
    (opening ++ mains 8 ++ playsCard 0 .N ['2', 'C'] ++ playsCard 1 .E ['2', 'D'] ++
      playsCard 2 .S ['2', 'H'] ++ playsCard 3 .W ['2', 'S'])
    (fun st => decide (FullDeal st.sh.deal ∧
      st.sh.takenTricks = [[['2', 'C'], ['2', 'D'], ['2', 'H'], ['2', 'S']]])) (by decide +kernel)
  obtain ⟨hd, htricks⟩ := of_decide_eq_true hp
  exact ⟨st, hr, htricks, (deal_played_out hr).2.2 hd⟩

/-! ### Nobody revokes -/

lemma suited (h : RunsTo Calm timeout deals st) :
    (st.sh.game st.main.pc).Suited st.sh.dealStarter := by
  rw [← inPlay_eq_game (staying h) (closes_of_calm h)]
  exact (playsOn (turnGuarded_of_calm h)).suited

/-- **Nobody revokes** in a run in which every client stays and sends no lines but cards, whatever cards
and whenever: a seat that laid a card of another suit than the one led lays no card of that suit later
in the deal, and has none left. -/
theorem nobody_revokes (h : RunsTo Calm timeout deals st) :
    ((st.sh.game st.main.pc).lays st.sh.dealStarter).Pairwise Lay.NoRevoke ∧
    ∀ a ∈ (st.sh.game st.main.pc).lays st.sh.dealStarter, a.suit ≠ a.led →
      ∀ card ∈ st.sh.cards a.seat, card.getLast? ≠ a.led :=
  ⟨(suited h).pairwise, (suited h).hands⟩

/-- `E` lays a diamond on the club that is led, and has no clubs. -/
theorem nobody_revokes_diamond : ∃ st, RunsTo Calm 5000 [suitsDeal] st ∧
    ⟨.E, some 'D', some 'C'⟩ ∈ (st.sh.game st.main.pc).lays st.sh.dealStarter ∧
    ∀ card ∈ st.sh.cards .E, card.getLast? ≠ some 'C' := by
  obtain ⟨st, hr, hp⟩ := exists_run Calm [suitsDeal]
    (opening ++ mains 8 ++ playsCard 0 .N ['2', 'C'] ++ playsCard 1 .E ['2', 'D'])
    (fun st => decide (⟨.E, some 'D', some 'C'⟩ ∈ (st.sh.game st.main.pc).lays st.sh.dealStarter))
    (by decide +kernel)
  have hlay := of_decide_eq_true hp
  exact ⟨st, hr, hlay, (nobody_revokes hr).2 _ hlay (by decide)⟩

end Runs

end Kierki.Serwer
