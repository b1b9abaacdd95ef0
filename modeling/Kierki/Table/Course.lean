import Kierki.Table.Told

/-!
# The course of a game

The deals of a game are those of the file in their order, each is played out by the rules before the
next is loaded, and what `run_deal` announces at its end are the points of its tricks and the sums of
the points so far.
-/

namespace Kierki.Serwer

open Regex Senders Lib.Lts

/-- The scores of a deal are being told. -/
def MainPc.scoring : MainPc → Bool
  | announce .scores _ => true
  | _ => false

/-- The next step is the last word on a deal. -/
def MainPc.lastWord : MainPc → Bool
  | announce .scores [_] => true
  | _ => false

/-- How the deal on the board was played. -/
def Shared.play (sh : Shared) : Play := { tricks := sh.takenTricks, takers := sh.takenTakers }

/-- The totals of a new game. -/
def noPoints : Seat → ℤ := fun _ => 0

/-- **The course of a game**: `plays` says how the deals were played that are over. -/
structure Course (deals : List Deal) (plays : List Play) (sh : Shared) (m : Main) : Prop where
  count : plays.length ≤ deals.length
  left : m.pc.inDeal = false → deals.drop plays.length = m.deals
  loaded : m.pc.inDeal = true → ∃ d, deals.drop plays.length = d :: m.deals ∧ sh.deal = d.hands ∧
    sh.dealStarter = d.seat ∧ m.trickType = d.trickType
  first : m.pc.opening = true → plays = []
  scores : m.pc.ended m.i ≠ none → m.scores = sh.play.points m.trickType
  rounds : m.pc.scoring = true → sh.roundScores = sh.play.points m.trickType ∧
    sh.totalScores = addPoints (totalsAfter noPoints (deals.zip plays)) sh.roundScores
  totals : m.pc.scoring = false → sh.totalScores = totalsAfter noPoints (deals.zip plays)
  played : ∀ played ∈ deals.zip plays, played.2.Of played.1

section Main

variable {deals : List Deal} {plays : List Play} {sh sh' : Shared} {m m' : Main} {st : State} {d : Deal}
  {rest : List Deal} {p : Play}

lemma Course.quiet (h : Course deals plays sh m) (hdeals : m'.deals = m.deals)
    (hdeal : sh'.deal = sh.deal ∧ sh'.dealStarter = sh.dealStarter ∧ m'.trickType = m.trickType)
    (hplay : sh'.play = sh.play) (hscores : m'.scores = m.scores)
    (hround : sh'.roundScores = sh.roundScores ∧ sh'.totalScores = sh.totalScores)
    (hin : m'.pc.inDeal = m.pc.inDeal) (hopening : m'.pc.opening = true → m.pc.opening = true)
    (hended : m'.pc.ended m'.i ≠ none → m.pc.ended m.i ≠ none)
    (hscoring : m'.pc.scoring = m.pc.scoring) : Course deals plays sh' m' where
  count := h.count
  left hd := by
    rw [hdeals]
    exact h.left (hin ▸ hd)
  loaded hd := by
    rw [hdeals, hdeal.1, hdeal.2.1, hdeal.2.2]
    exact h.loaded (hin ▸ hd)
  first ho := h.first (hopening ho)
  scores he := by
    rw [hscores, hplay, hdeal.2.2]
    exact h.scores (hended he)
  rounds hs := by
    rw [hround.1, hround.2, hplay, hdeal.2.2]
    exact h.rounds (hscoring ▸ hs)
  totals hs := by
    rw [hround.2]
    exact h.totals (hscoring ▸ hs)
  played := h.played

lemma getElem?_of_drop (h : deals.drop plays.length = d :: rest) : deals[plays.length]? = some d := by
  rw [← List.head?_drop, h]
  rfl

lemma MainMove.opening_before (hm : MainMove sh m sh' m') (h : m'.pc.opening = true) :
    m.pc.opening = true := by
  cases hm with
  | reset r hpc | ask _ _ r hpc | askLast _ r hpc | poll _ r hpc | lost _ _ r _ hpc
  | woken _ _ r _ hpc | stay r hpc | resend _ _ r hpc =>
    rw [hpc]
    cases r <;> first | rfl | cases h
  | announceLast b => cases b <;> cases h
  | releaseLast s r =>
    cases r with
    | endOfTrick =>
      simp only [Main.afterBarrier] at h
      split at h <;> cases h
    | _ => cases h
  | _ => cases h

lemma Known.play_of (hk : Known st) (hb : Board st.sh st.main)
    (hs : (st.sh.game st.main.pc).Suited st.sh.dealStarter) {left : List Seat}
    (hpc : st.main.pc = .announce .scores left) (hdeal : st.sh.deal = d.hands)
    (hstarter : st.sh.dealStarter = d.seat) : st.sh.play.Of d := by
  have hw := hk.plays.wellPlayed (hb.deal (by rw [hpc]; rfl)).1
  obtain ⟨h13, hcards⟩ := hw.done (by rw [hpc]; rfl)
  refine ⟨h13, ?_, ?_, ?_⟩
  · rw [← hdeal, ← hstarter]
    exact hw.tricks
  · have hall : st.allCards = st.sh.play.tricks.flatten := by
      simp [State.allCards, hcards, Shared.game, hpc, MainPc.toPlay, Shared.play]
    rw [← hdeal, ← hall]
    exact hw.kept.1
  · have hlays : (st.sh.game st.main.pc).lays st.sh.dealStarter =
        layTricks st.sh.dealStarter st.sh.play.tricks st.sh.play.takers := by
      simp [Game.lays, Shared.game, hpc, MainPc.toPlay, Shared.play, layTrick]
    rw [← hstarter, ← hlays]
    exact hs.pairwise

/-- **The main thread keeps the course.** -/
theorem Course.main (h : Course deals plays st.sh st.main) (hk : Known st) (hb : Board st.sh st.main)
    (hs : (st.sh.game st.main.pc).Suited st.sh.dealStarter)
    (hm : MainMove st.sh st.main sh' m') :
    Course deals (if st.main.pc.lastWord then plays ++ [st.sh.play] else plays) sh' m' := by
  have hsane := hk.understood.sane_next hm
  have hopening := hm.opening_before
  have hkeep : ∀ {pc : MainPc}, st.main.pc = pc → pc.lastWord = false → Course deals plays sh' m' →
      Course deals (if st.main.pc.lastWord then plays ++ [st.sh.play] else plays) sh' m' := by
    intro pc hpc hno hc
    rwa [hpc, hno]
  cases hm with
  | reset r hpc | ask s₀ left r hpc | askLast s₀ r hpc | poll ready r hpc | woken s₀ ready r rest hpc
  | stay r hpc | pass r hpc | release s₀ left r hpc | gameOver hpc | trick hpc | turnSet s₀ rest hpc
  | turnSend s₀ rest hpc | cardPoll s₀ rest ready hpc | gotCard s₀ rest ready got left hpc
  | waitOn s₀ rest hpc | nextTurn s₀ rest hpc | lastTurn s₀ hpc | close e w hpc
  | closeSeat s₀ left e w hpc =>
    refine hkeep hpc rfl (h.quiet rfl ⟨rfl, rfl, rfl⟩ rfl rfl ⟨rfl, rfl⟩ ?_ hopening ?_ ?_) <;>
      rw [hpc] <;> first | rfl | exact id
  | lost s₀ ready r rest hpc hp => exact (hk.staying.silent s₀ (by simp [hp])).elim
  | lostPlayer s₀ j rest ready got left hpc hp => exact (hk.staying.silent j (by simp [hp])).elim
  | resend s₀ ready r hpc =>
    have := hk.staying.answering
    rw [hpc] at this
    cases this
  | badBarrier => exact absurd (.inl rfl) hsane
  | badDeal => exact absurd (.inr rfl) hsane
  | announce b s₀ left hpc hleft =>
    have hno : (MainPc.announce b (s₀ :: left)).lastWord = false := by
      cases left with
      | nil => exact absurd rfl hleft
      | cons => cases b <;> rfl
    refine hkeep hpc hno (h.quiet rfl ⟨rfl, rfl, rfl⟩ rfl rfl ⟨rfl, rfl⟩ ?_ hopening ?_ ?_) <;>
      rw [hpc] <;> cases b <;> first | rfl | exact id
  | releaseLast s₀ r hpc =>
    have hwait := hk.staying.caller r (by rw [hpc]; rfl)
    refine hkeep hpc rfl ?_
    cases r with
    | cardWait => cases hwait
    | startGame | endOfDeal =>
      refine h.quiet rfl ⟨rfl, rfl, rfl⟩ rfl rfl ⟨rfl, rfl⟩ ?_ hopening ?_ ?_ <;> rw [hpc] <;>
        first | rfl | exact id
    | endOfTrick =>
      by_cases hi : st.main.i + 1 < 13 <;>
      · refine h.quiet rfl ⟨rfl, rfl, rfl⟩ rfl rfl ⟨rfl, rfl⟩ ?_ hopening ?_ ?_ <;> rw [hpc] <;>
          simp [Main.afterBarrier, hi, MainPc.inDeal, MainPc.caller, Caller.inDeal, MainPc.ended,
            Caller.ended, MainPc.scoring]
  | load d rest hpc hd =>
    refine hkeep hpc rfl ?_
    have hleft := h.left (by rw [hpc]; rfl)
    rw [hd] at hleft
    have htotals := h.totals (by rw [hpc]; rfl)
    exact ⟨h.count, fun hin => (by cases hin), fun _ => ⟨d, hleft, rfl, rfl, rfl⟩,
      fun ho => (by cases ho), fun he => absurd rfl he, fun hs => (by cases hs), fun _ => htotals, h.played⟩
  | start hpc =>
    refine hkeep hpc rfl ?_
    have htricks : st.sh.takenTricks = [] :=
      List.length_eq_zero_iff.mp (hk.plays.taken 0 (by rw [hpc]; rfl))
    have hpoints : ∀ ty, st.sh.play.points ty = noPoints := by
      intro ty
      funext s
      simp [Play.points, Shared.play, seatPoints, htricks, noPoints]
    exact ⟨h.count, fun hin => (by cases hin), fun _ => h.loaded (by rw [hpc]; rfl),
      fun ho => (by cases ho), fun _ => (hpoints _).symm, fun hs => (by cases hs),
      fun _ => h.totals (by rw [hpc]; rfl), h.played⟩
  | announceLast b s₀ hpc =>
    cases b with
    | deal | taken =>
      refine hkeep hpc rfl (h.quiet rfl ⟨rfl, rfl, rfl⟩ rfl rfl ⟨rfl, rfl⟩ ?_ hopening ?_ ?_) <;>
        rw [hpc] <;> first | rfl | exact id
    | scores =>
      obtain ⟨d, hdrop, hdeal, hstarter, htype⟩ := h.loaded (by rw [hpc]; rfl)
      obtain ⟨hround, htotal⟩ := h.rounds (by rw [hpc]; rfl)
      have hzip := zip_concat (b := st.sh.play) (getElem?_of_drop hdrop)
      have hcount : plays.length < deals.length := by
        have := congrArg List.length hdrop
        simp only [List.length_drop, List.length_cons] at this
        omega
      rw [hpc]
      show Course deals (plays ++ [st.sh.play]) _ _
      refine ⟨?_, fun _ => ?_, fun hin => (by cases hin), fun ho => (by cases ho),
        fun he => absurd rfl he, fun hs => (by cases hs), fun _ => ?_, fun played hmem => ?_⟩
      · rw [List.length_append, List.length_singleton]
        omega
      · rw [List.length_append, List.length_singleton, ← List.drop_drop, hdrop]
        rfl
      · rw [hzip, totalsAfter_concat, ← htype, ← hround, ← htotal]
        rfl
      · rw [hzip, List.mem_append, List.mem_singleton] at hmem
        rcases hmem with hmem | rfl
        · exact h.played played hmem
        · exact hk.play_of hb hs hpc hdeal hstarter
  | trickEnd calculator taker points hpc hc hr =>
    refine hkeep hpc rfl ?_
    have hin : st.main.pc.inDeal = true := by
      rw [hpc]
      rfl
    have hplays := hk.plays
    rw [hpc] at hplays
    have h4 := hplays.full_trick
    have hcards : ∀ card ∈ st.sh.cardsOnTable, IsCard card := by
      intro card hcard
      obtain ⟨s, hs⟩ := hplays.game.mem_table (show card ∈ (st.sh.game .trickEnd).table from hcard)
      exact hplays.cards s card hs
    have hpaid := points_paid h4 hcards (hb.deal hin).2 hc
    rw [hr] at hpaid
    have htaken := hplays.taken st.main.i rfl
    have hall : st.sh.takenTakers.length = st.sh.takenTricks.length :=
      hk.plays.game.takenInOrder.lengths.1
    have hscores := h.scores (by rw [hpc]; simp [MainPc.ended])
    refine ⟨h.count, fun hin => (by cases hin), fun _ => h.loaded hin, fun ho => (by cases ho),
      fun _ => ?_, fun hs => (by cases hs), fun _ => h.totals (by rw [hpc]; rfl), h.played⟩
    funext s
    show Function.update st.main.scores taker (st.main.scores taker + points) s =
      seatPoints (paid st.main.trickType) (st.sh.takenTakers ++ [taker])
        (st.sh.takenTricks ++ [st.sh.cardsOnTable]) s
    rw [seatPoints_concat hall, htaken, ← hpaid, hscores]
    by_cases hs : taker = s
    · subst hs
      rw [Function.update_self, if_pos rfl]
      rfl
    · rw [Function.update_of_ne (Ne.symm hs), if_neg hs, add_zero]
      rfl
  | dealEnd hpc =>
    refine hkeep hpc rfl ?_
    have hscores := h.scores (by rw [hpc]; simp [MainPc.ended])
    have htotals := h.totals (by rw [hpc]; rfl)
    refine ⟨h.count, fun hin => (by cases hin), fun _ => h.loaded (by rw [hpc]; rfl),
      fun ho => (by cases ho), fun he => absurd rfl he, fun _ => ⟨hscores, ?_⟩, fun hs => (by cases hs),
      h.played⟩
    rw [← htotals]
    rfl

end Main

end Kierki.Serwer
