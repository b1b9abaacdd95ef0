import Kierki.Serwer.Bandit
import Kierki.Table.Talk
import Kierki.Table.Board

/-!
# What a seat is told of a game

The lines that the player of a seat is to get in a game, from the deals of the file and the way they
were played: `tellGame`. The main thread tells nothing else: with every step what it has told a seat,
`tellGame` of the deals that are over and `telling` of the deal in play, grows by what the byte it
writes stands for.
-/

namespace Kierki.Serwer

open Regex Senders Lib.Lts

/-! ### The lines of a game -/

/-- How a deal was played: the tricks, with their cards in playing order, and their takers. -/
structure Play where
  tricks : List (List Text)
  takers : List Seat

/-- What the taker of the trick `n` is paid, by the type of the deal. -/
def paid (trickType n : ℕ) (trick : List Text) : ℤ :=
  if trickType ≤ 5 then trickCost trickType trick else overpaid trickType n trick

/-- The points of a deal. -/
def Play.points (p : Play) (trickType : ℕ) : Seat → ℤ :=
  seatPoints (paid trickType) p.takers p.tricks

/-- The totals after one more deal. -/
def addPoints (totals points : Seat → ℤ) : Seat → ℤ := fun s => int32 (totals s + points s)

/-- What the seat is told of the tricks from the trick `n` on, which `beginning` leads: the cards on the
table when it is its turn, and then the whole trick and its taker. -/
def tellTricks (s : Seat) : ℕ → Seat → List (List Text) → List Seat → List Text
  | n, beginning, trick :: tricks, taker :: takers =>
    trickLine n (trick.take (beginning.order.idxOf s)) :: takenLine n trick taker ::
      tellTricks s (n + 1) taker tricks takers
  | _, _, _, _ => []

/-- What the seat is told of a deal, `totals` being those after it. -/
def tellDeal (s : Seat) (d : Deal) (p : Play) (totals : Seat → ℤ) : List Text :=
  dealLine d.trickType d.seat (d.hands s) :: tellTricks s 1 d.seat p.tricks p.takers ++
    [scoreLine (p.points d.trickType), totalLine totals]

/-- What the seat is told of the deals of a game, `totals` being those before them. -/
def tellGame (s : Seat) : (totals : Seat → ℤ) → List (Deal × Play) → List Text
  | _, [] => []
  | totals, played :: game =>
    let totals' := addPoints totals (played.2.points played.1.trickType)
    tellDeal s played.1 played.2 totals' ++ tellGame s totals' game

/-- The totals after the deals of a game. -/
def totalsAfter (totals : Seat → ℤ) (game : List (Deal × Play)) : Seat → ℤ :=
  game.foldl (fun totals played => addPoints totals (played.2.points played.1.trickType)) totals

/-- **The deal was played by the rules**: thirteen tricks of four cards, laid by the seats in turn out of
the hands they were dealt, where the taker of a trick leads the next; all the cards of the deal; and
nobody revoked. -/
structure Play.Of (p : Play) (d : Deal) : Prop where
  tricks : p.tricks.length = 13
  taken : TakenInOrder d.hands d.seat p.tricks p.takers
  cards : p.tricks.flatten.Perm (Seat.all.flatMap d.hands)
  suits : (layTricks d.seat p.tricks p.takers).Pairwise Lay.NoRevoke

section Game

variable {s : Seat} {n : ℕ} {beginning taker : Seat} {tricks : List (List Text)} {takers : List Seat}
  {trick : List Text} {totals : Seat → ℤ} {game : List (Deal × Play)} {d : Deal} {p : Play}

lemma tellTricks_concat (h : takers.length = tricks.length) :
    tellTricks s n beginning (tricks ++ [trick]) (takers ++ [taker]) =
      tellTricks s n beginning tricks takers ++
        [trickLine (n + tricks.length) (trick.take ((leader beginning takers).order.idxOf s)),
          takenLine (n + tricks.length) trick taker] := by
  induction tricks generalizing n beginning takers with
  | nil =>
    obtain rfl := List.length_eq_zero_iff.mp h
    rfl
  | cons trick' tricks ih =>
    cases takers with
    | nil => cases h
    | cons taker' takers =>
      have hn : n + 1 + tricks.length = n + (tricks.length + 1) := by omega
      simp only [List.cons_append, tellTricks, ih (Nat.succ.inj h), leader, List.length_cons, hn]

lemma totalsAfter_concat : totalsAfter totals (game ++ [(d, p)]) =
    addPoints (totalsAfter totals game) (p.points d.trickType) := by
  unfold totalsAfter
  rw [List.foldl_append]
  rfl

lemma tellGame_concat : tellGame s totals (game ++ [(d, p)]) =
    tellGame s totals game ++ tellDeal s d p (totalsAfter totals (game ++ [(d, p)])) := by
  induction game generalizing totals with
  | nil => exact List.append_nil _
  | cons played game ih =>
    simp only [List.cons_append, tellGame, ih, List.append_assoc]
    rfl

/-- **What the calculator pays.** -/
lemma points_paid (h4 : trick.length = 4) (hcards : ∀ card ∈ trick, IsCard card) {trickType : ℕ}
    (ht : 1 ≤ trickType ∧ trickType ≤ 7) {calculator : PointsCalculator}
    (hc : PointsCalculator.construct trick beginning trickType n = some calculator) :
    calculator.calculatePoints.2 = paid trickType n trick := by
  have hdeck : ∀ card ∈ trick, card ∈ deck := fun card h => isCard_iff_mem_deck.mp (hcards card h)
  obtain ⟨pc, hpc, -, rfl, rfl, hlays⟩ :=
    PointsCalculator.construct_lays h4 hdeck beginning trickType n
  obtain rfl : pc = calculator := Option.some.inj (hpc.symm.trans hc)
  unfold paid
  split
  · rename_i h5
    exact PointsCalculator.points_eq hdeck h4 hlays ⟨ht.1, h5⟩
  · exact PointsCalculator.points_overpaid hdeck h4 hlays (by omega)

end Game

/-! ### What was told of the deal in play -/

/-- The seat was told of the deal in play. -/
def MainPc.dealt : MainPc → Seat → Bool
  | announce .deal left, s => s ∉ left
  | dealStart, _ => false
  | pc, _ => pc.inDeal

/-- The seat is still to be told of the last trick. -/
def MainPc.withheld : MainPc → Seat → Bool
  | announce .taken left, s => s ∈ left
  | _, _ => false

/-- The seat was told of the scores of the deal. -/
def MainPc.scored : MainPc → Seat → Bool
  | announce .scores left, s => s ∉ left
  | _, _ => false

/-- How many of the tricks taken the seat was told of. -/
def Shared.toldTricks (sh : Shared) (pc : MainPc) (s : Seat) : ℕ :=
  if pc.withheld s then sh.takenTricks.length - 1 else sh.takenTricks.length

/-- The request for the card of the seat, after `k` tricks. -/
def Shared.request (sh : Shared) (s : Seat) (k : ℕ) : Text :=
  trickLine sh.trickNumber
    (sh.cardsOnTable.take ((leader sh.dealStarter (sh.takenTakers.take k)).order.idxOf s))

/-- What the seat was told of the deal in play. -/
def Shared.telling (sh : Shared) (pc : MainPc) (s : Seat) : List Text :=
  (if pc.dealt s then dealLine sh.trickTypeGlobal sh.dealStarter (sh.deal s) ::
    tellTricks s 1 sh.dealStarter (sh.takenTricks.take (sh.toldTricks pc s))
      (sh.takenTakers.take (sh.toldTricks pc s)) else []) ++
  (if pc.asked s then [sh.request s (sh.toldTricks pc s)] else []) ++
  if pc.scored s then [scoreLine sh.roundScores, totalLine sh.totalScores] else []

/-- The fields that `telling` reads. -/
def Shared.tale (sh : Shared) : (ℕ × Seat × (Seat → List Text)) × (List (List Text) × List Seat) ×
    (ℕ × List Text) × (Seat → ℤ) × (Seat → ℤ) :=
  ((sh.trickTypeGlobal, sh.dealStarter, sh.deal), (sh.takenTricks, sh.takenTakers),
    (sh.trickNumber, sh.cardsOnTable), sh.roundScores, sh.totalScores)

section Telling

variable {sh sh' : Shared} {pc pc' : MainPc} {m m' : Main} {s s₀ : Seat} {left : List Seat} {b : Bulletin}

lemma Shared.telling_congr (ht : sh'.tale = sh.tale) (hdealt : pc'.dealt s = pc.dealt s)
    (hwithheld : pc'.withheld s = pc.withheld s) (hasked : pc'.asked s = pc.asked s)
    (hscored : pc'.scored s = pc.scored s) : sh'.telling pc' s = sh.telling pc s := by
  simp only [tale, Prod.mk.injEq] at ht
  obtain ⟨⟨htype, hstarter, hdeal⟩, ⟨htricks, htakers⟩, ⟨hnumber, htable⟩, hround, htotal⟩ := ht
  unfold telling toldTricks request
  rw [htype, hstarter, hdeal, htricks, htakers, hnumber, htable, hround, htotal, hdealt, hwithheld,
    hasked, hscored]

lemma Shared.telling_eq_nil (hdealt : pc.dealt s = false) (hasked : pc.asked s = false)
    (hscored : pc.scored s = false) : sh.telling pc s = [] := by
  unfold telling
  rw [hdealt, hasked, hscored]
  rfl

lemma Shared.telling_outside (h : pc.opening = true ∨ pc.closing = true) : sh.telling pc s = [] := by
  rcases h with h | h
  · unfold MainPc.opening at h
    split at h <;> first | exact telling_eq_nil rfl rfl rfl | cases h
  · cases pc <;> first | exact telling_eq_nil rfl rfl rfl | cases h

end Telling

section Steps

variable {st : State} {sh' : Shared} {m' : Main} {s s₀ : Seat} {left : List Seat} {b : Bulletin}

private lemma Known.deal_told (hk : Known st) (hb : Board st.sh st.main)
    (hpc : st.main.pc = .announce .deal left) : st.sh.takenTricks = [] ∧ st.sh.takenTakers = [] ∧
      st.sh.lastTaker = st.sh.dealStarter ∧ ∀ s, st.sh.cards s = st.sh.deal s := by
  have htricks : st.sh.takenTricks = [] := by
    have := hk.plays.taken st.main.i (by rw [hpc]; rfl)
    rw [hb.first left hpc] at this
    exact List.length_eq_zero_iff.mp this
  have hlength : st.sh.takenTakers.length = st.sh.takenTricks.length :=
    hk.plays.game.takenInOrder.lengths.1
  have htakers : st.sh.takenTakers = [] := by
    rw [htricks] at hlength
    exact List.length_eq_zero_iff.mp hlength
  refine ⟨htricks, htakers, ?_, fun s => ?_⟩
  · rw [hk.plays.leads (by rw [hpc]; simp), htakers]
    rfl
  · have hlen := hk.plays.game.length_hands s
    have hsub := hk.plays.game.sublist s
    refine hsub.eq_of_length ?_
    simpa [Shared.game, hpc, MainPc.toPlay, htricks] using hlen

private lemma Known.trick_told (hk : Known st) (hb : Board st.sh st.main)
    (hpc : st.main.pc = .announce .taken left) : ∃ tricks takers,
      st.sh.takenTricks = tricks ++ [st.sh.cardsOnTable] ∧
      st.sh.takenTakers = takers ++ [st.sh.lastTaker] ∧ takers.length = tricks.length ∧
      st.sh.trickNumber = 1 + tricks.length := by
  obtain ⟨tricks, htricks⟩ := List.getLast?_eq_some_iff.mp (hb.trick left hpc).1
  obtain ⟨takers, htakers⟩ := List.getLast?_eq_some_iff.mp (hb.trick left hpc).2
  have hlength : st.sh.takenTakers.length = st.sh.takenTricks.length :=
    hk.plays.game.takenInOrder.lengths.1
  have htaken := hk.plays.taken (st.main.i + 1) (by rw [hpc]; rfl)
  obtain ⟨hnumber, -⟩ := hk.tricks.number (st.main.i + 1) (by rw [hpc]; rfl)
  rw [htricks, htakers] at hlength
  rw [htricks] at htaken
  simp only [List.length_append, List.length_singleton] at hlength htaken
  exact ⟨tricks, takers, htricks, htakers, by omega, by omega⟩

private lemma speaks_announce (hpc : st.main.pc = .announce b (s₀ :: left)) :
    st.main.pc.speaks s = if s = s₀ then some b.byte else none := by
  rw [hpc]
  rfl

/-- **A bulletin is told to a seat.** -/
lemma Known.telling_announce (hk : Known st) (hb : Board st.sh st.main)
    (hpc : st.main.pc = .announce b (s₀ :: left)) :
    (st.sh.tell s₀ b.byte).telling (.announce b left) s = st.sh.telling st.main.pc s ++
      (((if s = s₀ then some b.byte else none : Option Byte)).map (st.sh.meaning s)).getD [] := by
  have hlisted := hk.listed
  rw [hpc] at hlisted
  have hnot : s₀ ∉ left := (List.nodup_cons.mp (hlisted.2.sublist.nodup (by decide))).1
  by_cases hs : s = s₀
  · subst hs
    rw [if_pos rfl]
    cases b with
    | deal =>
      obtain ⟨htricks, htakers, hlast, hcards⟩ := hk.deal_told hb hpc
      have hbefore : st.sh.telling (.announce .deal (s :: left)) s = [] :=
        Shared.telling_eq_nil (decide_eq_false (not_not_intro List.mem_cons_self)) rfl rfl
      rw [hpc, hbefore]
      simp [Shared.telling, MainPc.dealt, hnot, MainPc.asked, MainPc.scored, htricks, htakers,
        tellTricks, Shared.meaning, hlast, hcards, Bulletin.byte]
    | taken =>
      obtain ⟨tricks, takers, htricks, htakers, hlength, hnumber⟩ := hk.trick_told hb hpc
      have hmeaning : st.sh.meaning s .taken =
          [takenLine (1 + tricks.length) st.sh.cardsOnTable st.sh.lastTaker] := by
        simp [Shared.meaning, hnumber]
      rw [hpc]
      show _ = _ ++ st.sh.meaning s .taken
      rw [hmeaning]
      have hfull : (tricks ++ [st.sh.cardsOnTable]).take (tricks.length + 1) =
          tricks ++ [st.sh.cardsOnTable] := List.take_of_length_le (by simp)
      have hfull' : (takers ++ [st.sh.lastTaker]).take (tricks.length + 1) =
          takers ++ [st.sh.lastTaker] := List.take_of_length_le (by simp [hlength])
      simp [Shared.telling, MainPc.dealt, MainPc.inDeal, hnot, MainPc.asked, MainPc.scored,
        Shared.toldTricks, MainPc.withheld, htricks, htakers, hfull, hfull', hlength,
        tellTricks_concat hlength, hnumber, Shared.request]
    | scores =>
      rw [hpc]
      simp [Shared.telling, MainPc.dealt, MainPc.inDeal, hnot, MainPc.asked, MainPc.scored,
        Shared.toldTricks, MainPc.withheld]
      rfl
  · rw [if_neg hs, hpc]
    show _ = _ ++ []
    rw [List.append_nil]
    refine Shared.telling_congr rfl ?_ ?_ ?_ ?_ <;> cases b <;>
      simp [MainPc.dealt, MainPc.withheld, MainPc.asked, MainPc.scored, MainPc.inDeal, hs]

/-- **A seat is asked for its card**, and told of the cards on the table. -/
lemma Known.telling_turn (hk : Known st) {rest : List Seat} (hpc : st.main.pc = .turnSend s₀ rest) :
    ((st.sh.tell s₀ .cardPlay).note (.asked s₀)).telling (.cardPoll s₀ rest) s =
      st.sh.telling st.main.pc s ++
      (((if s = s₀ then some .cardPlay else none : Option Byte)).map (st.sh.meaning s)).getD [] := by
  by_cases hs : s = s₀
  · subst hs
    -- nobody but the seats before it has laid a card
    have hopen : Open st.sh st.main.pc s := by
      by_contra hno
      exact (hk.turn.closed s hno).2.2.1 (by rw [hpc]; rfl)
    have hsome : st.main.pc.toPlay.isSome := by
      rw [hpc]
      rfl
    obtain ⟨served, horder, hlength⟩ := hk.plays.served (s :: rest) (by rw [hpc]; rfl)
    rw [heardLate, if_neg (by simp [hopen.2]), Nat.add_zero] at hlength
    have hnodup := st.main.beginning.nodup_order
    rw [horder, List.nodup_append] at hnodup
    have hnot : s ∉ served := fun hs => hnodup.2.2 s hs s (by simp) rfl
    have hrest : s ∉ rest := (List.nodup_cons.mp hnodup.2.1).1
    have hlead : leader st.sh.dealStarter st.sh.takenTakers = st.main.beginning :=
      ((hk.plays.begins hsome).trans (hk.plays.leads (by rw [hpc]; simp))).symm
    have hidx : (leader st.sh.dealStarter st.sh.takenTakers).order.idxOf s =
        st.sh.cardsOnTable.length := by
      rw [hlead, horder, List.idxOf_append_of_notMem hnot, List.idxOf_cons_self, hlength, Nat.add_zero]
    have hall : st.sh.takenTakers.length = st.sh.takenTricks.length :=
      hk.plays.game.takenInOrder.lengths.1
    rw [if_pos rfl, hpc]
    simp [Shared.telling, MainPc.dealt, MainPc.inDeal, MainPc.asked, MainPc.scored, hrest,
      Shared.toldTricks, MainPc.withheld, Shared.meaning, Shared.request, ← hall, hidx]
  · rw [if_neg hs, hpc]
    show _ = _ ++ []
    rw [List.append_nil]
    exact Shared.telling_congr rfl rfl rfl (by simp [MainPc.asked, hs]) rfl

private lemma telling_quiet {pc : MainPc} (hpc : st.main.pc = pc) (hspeaks : pc.speaks s = none)
    (htelling : sh'.telling m'.pc s = st.sh.telling pc s) : sh'.telling m'.pc s =
      st.sh.telling st.main.pc s ++ ((st.main.pc.speaks s).map (st.sh.meaning s)).getD [] := by
  rw [hpc, hspeaks, htelling]
  exact (List.append_nil _).symm

/-- **What the main thread says in a step**, if it does not end the deal with it. -/
theorem Known.telling_main (hk : Known st) (hb : Board st.sh st.main)
    (hm : MainMove st.sh st.main sh' m') (hends : ∀ s₀, st.main.pc ≠ .announce .scores [s₀]) :
    sh'.telling m'.pc s =
      st.sh.telling st.main.pc s ++ ((st.main.pc.speaks s).map (st.sh.meaning s)).getD [] := by
  have hsane := hk.understood.sane_next hm
  have hnil : ∀ {sh : Shared} {pc : MainPc}, pc.dealt s = false → pc.asked s = false →
      pc.scored s = false → sh.telling pc s = [] := Shared.telling_eq_nil
  cases hm with
  | reset r hpc | ask s₀ left r hpc | askLast s₀ r hpc | poll ready r hpc | woken s₀ ready r rest hpc
  | stay r hpc | pass r hpc | release s₀ left r hpc | gameOver hpc | turnSet s₀ rest hpc
  | cardPoll s₀ rest ready hpc | gotCard s₀ rest ready got left hpc | waitOn s₀ rest hpc
  | nextTurn s₀ rest hpc | close e w hpc | closeSeat s₀ left e w hpc =>
    exact telling_quiet hpc rfl (Shared.telling_congr rfl rfl rfl rfl rfl)
  | lastTurn s₀ hpc =>
    refine telling_quiet hpc rfl (Shared.telling_congr rfl rfl rfl ?_ rfl)
    simp [MainPc.asked]
  | lost s₀ ready r rest hpc hp => exact (hk.staying.silent s₀ (by simp [hp])).elim
  | lostPlayer s₀ j rest ready got left hpc hp => exact (hk.staying.silent j (by simp [hp])).elim
  | resend s₀ ready r hpc =>
    have := hk.staying.answering
    rw [hpc] at this
    cases this
  | badBarrier => exact absurd (.inl rfl) hsane
  | badDeal => exact absurd (.inr rfl) hsane
  | releaseLast s₀ r hpc =>
    have hwait := hk.staying.caller r (by rw [hpc]; rfl)
    refine telling_quiet hpc rfl ?_
    cases r with
    | cardWait => cases hwait
    | startGame | endOfDeal => exact Shared.telling_congr rfl rfl rfl rfl rfl
    | endOfTrick =>
      simp only [Main.afterBarrier]
      split <;> exact Shared.telling_congr rfl rfl rfl rfl rfl
  | load d rest hpc =>
    exact telling_quiet hpc rfl ((hnil rfl rfl rfl).trans (hnil rfl rfl rfl).symm)
  | start hpc =>
    have hall : (MainPc.announce .deal Seat.all).dealt s = false :=
      decide_eq_false (not_not_intro (Seat.mem_all s))
    exact telling_quiet hpc rfl ((hnil hall rfl rfl).trans (hnil rfl rfl rfl).symm)
  | announce b s₀ left hpc =>
    rw [speaks_announce hpc]
    exact hk.telling_announce hb hpc
  | announceLast b s₀ hpc =>
    have hstep := hk.telling_announce (s := s) hb hpc
    rw [← speaks_announce hpc] at hstep
    cases b with
    | scores => exact absurd hpc (hends s₀)
    | deal =>
      have hafter : (st.sh.tell s₀ .deal).telling .trickStart s =
          (st.sh.tell s₀ .deal).telling (.announce .deal []) s :=
        Shared.telling_congr rfl rfl rfl rfl rfl
      exact hafter.trans hstep
    | taken =>
      have hafter : (st.sh.tell s₀ .taken).telling (.barrierReset .endOfTrick) s =
          (st.sh.tell s₀ .taken).telling (.announce .taken []) s :=
        Shared.telling_congr rfl rfl rfl rfl rfl
      exact hafter.trans hstep
  | trick hpc =>
    refine telling_quiet hpc rfl ?_
    have hasked : (MainPc.turnSet st.sh.lastTaker.order).asked s = false :=
      decide_eq_false (not_not_intro (Seat.mem_order _ s))
    unfold Shared.telling
    rw [hasked]
    rfl
  | turnSend s₀ rest hpc =>
    rw [show (st.main.goto (.cardPoll s₀ rest)).pc = .cardPoll s₀ rest from rfl, hk.telling_turn hpc]
    rw [hpc]
    rfl
  | trickEnd calculator taker points hpc =>
    refine telling_quiet hpc rfl ?_
    have hall : st.sh.takenTakers.length = st.sh.takenTricks.length :=
      hk.plays.game.takenInOrder.lengths.1
    have htakers : (st.sh.takenTakers ++ [taker]).take st.sh.takenTricks.length = st.sh.takenTakers :=
      List.take_left' hall
    simp [Shared.telling, MainPc.dealt, MainPc.inDeal, MainPc.asked, MainPc.scored, Shared.toldTricks,
      MainPc.withheld, Seat.mem_all, Shared.request, List.take_of_length_le hall.le, htakers]
  | dealEnd hpc =>
    refine telling_quiet hpc rfl ?_
    have hscored : (MainPc.announce .scores Seat.all).scored s = false :=
      decide_eq_false (not_not_intro (Seat.mem_all s))
    show Shared.telling _ (.announce .scores Seat.all) s = _
    unfold Shared.telling
    rw [hscored]
    rfl

lemma Known.telling_last (hk : Known st) (hb : Board st.sh st.main)
    (hpc : st.main.pc = .announce .scores [s₀]) :
    st.sh.telling st.main.pc s ++ ((st.main.pc.speaks s).map (st.sh.meaning s)).getD [] =
      dealLine st.sh.trickTypeGlobal st.sh.dealStarter (st.sh.deal s) ::
        tellTricks s 1 st.sh.dealStarter st.sh.takenTricks st.sh.takenTakers ++
      [scoreLine st.sh.roundScores, totalLine st.sh.totalScores] := by
  have hall : st.sh.takenTakers.length = st.sh.takenTricks.length :=
    hk.plays.game.takenInOrder.lengths.1
  rw [speaks_announce hpc, ← hk.telling_announce hb hpc]
  simp [Shared.telling, MainPc.dealt, MainPc.inDeal, MainPc.asked, MainPc.scored, Shared.toldTricks,
    MainPc.withheld, List.take_of_length_le hall.le]
  exact ⟨rfl, rfl⟩

private lemma Known.asked_idx (hk : Known st) {rest : List Seat}
    (hplay : st.main.pc.toPlay = some (s₀ :: rest)) (hasked : st.main.pc.asked s = true) :
    (leader st.sh.dealStarter st.sh.takenTakers).order.idxOf s ≤ st.sh.cardsOnTable.length := by
  obtain ⟨served, horder, hlength⟩ := hk.plays.served _ hplay
  have hsome : st.main.pc.toPlay.isSome := by
    rw [hplay]
    rfl
  have hnot : st.main.pc ≠ .dealStart := by
    intro hpc
    rw [hpc] at hplay
    cases hplay
  have hlead : leader st.sh.dealStarter st.sh.takenTakers = st.main.beginning :=
    ((hk.plays.begins hsome).trans (hk.plays.leads hnot)).symm
  have hrest : s ∉ rest := by
    generalize st.main.pc = pc at hplay hasked
    unfold MainPc.toPlay at hplay
    split at hplay <;> cases hplay <;> simp_all [MainPc.asked]
  rw [hlead, horder, hlength]
  by_cases hs : s ∈ served
  · rw [List.idxOf_append_of_mem hs]
    have := List.idxOf_lt_length_of_mem hs
    omega
  · have hmem := Seat.mem_order st.main.beginning s
    rw [horder, List.mem_append, List.mem_cons] at hmem
    obtain rfl : s = s₀ := by tauto
    rw [List.idxOf_append_of_notMem hs, List.idxOf_cons_self]
    omega

lemma Known.telling_accepted (hk : Known st) {sh : Shared} (hopen : Open st.sh st.main.pc s₀) {card : Text}
    (htale : sh.tale = { st.sh with cardsOnTable := st.sh.cardsOnTable ++ [card] }.tale) :
    sh.telling st.main.pc s = st.sh.telling st.main.pc s := by
  obtain ⟨rest, hplay⟩ := hk.plays.toPlay_of_open hk.staying hopen
  rw [Shared.telling_congr htale rfl rfl rfl rfl]
  by_cases hasked : st.main.pc.asked s = true
  · have hidx := hk.asked_idx hplay hasked
    have hwithheld : st.main.pc.withheld s = false := by
      generalize st.main.pc = pc at hplay
      unfold MainPc.toPlay at hplay
      split at hplay <;> first | rfl | cases hplay
    have hall : st.sh.takenTakers.length = st.sh.takenTricks.length :=
      hk.plays.game.takenInOrder.lengths.1
    unfold Shared.telling Shared.request Shared.toldTricks
    simp only [hwithheld, Bool.false_eq_true, if_false]
    rw [List.take_of_length_le hall.le, List.take_append_of_le_length hidx]
  · unfold Shared.telling
    simp only [hasked]
    rfl

end Steps

end Kierki.Serwer
