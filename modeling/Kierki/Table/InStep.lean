import Kierki.Table.Board
import Kierki.Table.Talk

/-!
# The clients in step with the server

What a client knows once it has heard everything that is on its way to it: the number of the trick
that the server is about to play, the tricks it has taken, and the hand the server holds for it. While
it is asked for a card, it has laid aside the card that the server will accept.
-/

namespace Kierki

open Regex Senders Serwer Lib.Lts

namespace Serwer

def Caller.expects (n : ℕ) : Caller → Option ℕ
  | endOfTrick => some (n + 1)
  | _ => none

/-- The number of the trick that the client of the seat has to expect, `n` being the number on the
server; `none` where it was not told of the deal. -/
def MainPc.expects (n : ℕ) : MainPc → Seat → Option ℕ
  | announce .deal left, s => if s ∈ left then none else some (n + 1)
  | announce .taken left, s => if s ∈ left then some n else some (n + 1)
  | trickStart, _ => some (n + 1)
  | turnSet _, _ | turnSend _ _, _ | cardPoll _ _, _ | cardScan _ _ _ _, _ | trickEnd, _ => some n
  | pc, _ => pc.caller.bind (Caller.expects n)

/-- The tricks that the seat has taken of the first `n`. -/
def Shared.won (sh : Shared) (s : Seat) (n : ℕ) : List (List Text) :=
  (((sh.takenTricks.zip sh.takenTakers).take n).filter fun trick => trick.2 = s).map Prod.fst

/-- The client has been asked for a card and has laid `card` aside; `owed` are the lines of it that
are still to be judged. -/
structure Laid (sh : Shared) (pc : MainPc) (s : Seat) (k : Klient) (owed : List Text) (card : Text) :
    Prop where
  played : k.playedCards = [card]
  opened : Open sh pc s → owed = [trickLine sh.trickNumber [card]] ∧
    (card :: k.myCards).Perm (sh.cards s) ∧ TRICKClientCheck (trickLine sh.trickNumber [card]) = true ∧
    acceptedCard (sh.cards s) sh.cardsOnTable sh.trickNumber (trickLine sh.trickNumber [card]) = some card
  closed : ¬Open sh pc s → owed = [] ∧ k.myCards.Perm (sh.cards s) ∧ card ∈ sh.cardsOnTable

/-- **The client of the seat is in step**: `k` is the client that has heard everything, and `owed` are
the lines of it that are then still to be judged. -/
structure InStep (sh : Shared) (pc : MainPc) (s : Seat) (k : Klient) (owed : List Text) : Prop where
  isAi : k.isAi = true
  seat : k.seat = s
  number : ∀ n, pc.expects sh.trickNumber s = some n →
    k.trickNumber = n ∧ k.takenTricks = sh.won s (n - 1)
  rests : pc.asked s = false → k.playedCards = [] ∧ owed = [] ∧
    (pc.expects sh.trickNumber s ≠ none → k.myCards.Perm (sh.cards s))
  laid : pc.asked s = true → ∃ card, Laid sh pc s k owed card

section Main

variable {sh sh' : Shared} {m m' : Main} {s : Seat} {k : Klient} {owed : List Text} {v : ℕ → View}

lemma InStep.still {pc pc' : MainPc} (h : InStep sh pc s k owed)
    (hexpects : ∀ n, pc'.expects sh'.trickNumber s = some n →
      pc.expects sh.trickNumber s = some n ∧ sh'.won s (n - 1) = sh.won s (n - 1) ∧
        sh'.cards s = sh.cards s)
    (hasked : pc'.asked s = pc.asked s)
    (hlaid : pc.asked s = true → (Open sh' pc' s ↔ Open sh pc s) ∧ sh'.trickNumber = sh.trickNumber ∧
      sh'.cardsOnTable = sh.cardsOnTable ∧ sh'.cards s = sh.cards s) : InStep sh' pc' s k owed := by
  refine ⟨h.isAi, h.seat, fun n hn => ?_, fun ha => ?_, fun ha => ?_⟩
  · obtain ⟨hn', hwon, -⟩ := hexpects n hn
    rw [hwon]
    exact h.number n hn'
  · obtain ⟨hplayed, howed, hcards⟩ := h.rests (hasked ▸ ha)
    refine ⟨hplayed, howed, fun hne => ?_⟩
    obtain ⟨n, hn⟩ := Option.ne_none_iff_exists'.mp hne
    obtain ⟨hn', -, hsame⟩ := hexpects n hn
    rw [hsame]
    exact hcards (by rw [hn']; simp)
  · obtain ⟨hopen, hnumber, htable, hcards⟩ := hlaid (hasked ▸ ha)
    obtain ⟨card, hl⟩ := h.laid (hasked ▸ ha)
    refine ⟨card, hl.played, fun ho => ?_, fun ho => ?_⟩
    · rw [hnumber, htable, hcards]
      exact hl.opened (hopen.mp ho)
    · rw [htable, hcards]
      exact hl.closed (mt hopen.mpr ho)

lemma InStep.outside {pc pc' : MainPc} (h : InStep sh pc s k owed)
    (hexpects : pc'.expects sh'.trickNumber s = none) (hasked : pc.asked s = false)
    (hasked' : pc'.asked s = false) : InStep sh' pc' s k owed :=
  h.still (fun n hn => by rw [hexpects] at hn; cases hn) (hasked'.trans hasked.symm)
    fun ha => by rw [hasked] at ha; cases ha

lemma InStep.told {pc' : MainPc} {k' : Klient} (hai : k'.isAi = true) (hseat : k'.seat = s)
    (hplayed : k'.playedCards = []) (howed : owed = []) (hasked : pc'.asked s = false)
    (hnumber : ∀ n, pc'.expects sh'.trickNumber s = some n →
      k'.trickNumber = n ∧ k'.takenTricks = sh'.won s (n - 1) ∧ k'.myCards.Perm (sh'.cards s)) :
    InStep sh' pc' s k' owed := by
  refine ⟨hai, hseat, fun n hn => ⟨(hnumber n hn).1, (hnumber n hn).2.1⟩,
    fun _ => ⟨hplayed, howed, fun hne => ?_⟩, fun ha => by rw [hasked] at ha; cases ha⟩
  obtain ⟨n, hn⟩ := Option.ne_none_iff_exists'.mp hne
  exact (hnumber n hn).2.2

lemma Shared.meaning_quiet {b : Byte} (hb : b ≠ .cardPlay) (s : Seat) :
    ∀ l ∈ sh.meaning s b, ∀ n, TRICKCheck l n = false := by
  have hword : ∀ (kind : LineKind) {l : Text}, kind ≠ .trick → kind.word <+: l →
      ∀ n, TRICKCheck l n = false := fun _ _ hne hw n =>
    show LineKind.trick.check n _ = false from LineKind.check_of_word hw hne.symm
  intro l hl
  cases b with
  | cardPlay => exact absurd rfl hb
  | deal =>
    obtain rfl := List.mem_singleton.mp hl
    exact hword .deal (by decide) (by simp [dealLine, LineKind.word])
  | taken =>
    obtain rfl := List.mem_singleton.mp hl
    exact hword .taken (by decide) (by simp [takenLine, LineKind.word])
  | scores =>
    rcases List.mem_cons.mp hl with rfl | hl
    · exact hword .score (by decide) (by simp [scoreLine, LineKind.word])
    · obtain rfl := List.mem_singleton.mp hl
      exact hword .total (by decide) (by simp [totalLine, LineKind.word])
  | disconnected | barrierResponse | barrierEnd => cases hl

end Main

section Tell

variable {st : State} {s : Seat} {k : Klient} {owed : List Text}

/-- **The deal is told.** -/
lemma InStep.tellDeal (h : InStep st.sh st.main.pc s k owed) (hk : Known st)
    (hb : Board st.sh st.main) {left : List Seat} (hpc : st.main.pc = .announce .deal left) :
    st.sh.trickNumber = 0 ∧ owed = [] ∧ k.Understands (st.sh.meaning s .deal) ∧
      ∃ k', k.receiveAll (st.sh.meaning s .deal) = some k' ∧ k'.isAi = true ∧ k'.seat = s ∧
        k'.playedCards = [] ∧ k'.trickNumber = 1 ∧ k'.takenTricks = [] ∧ k'.myCards = st.sh.cards s := by
  have hin : st.main.pc.inDeal = true := by rw [hpc]; rfl
  obtain ⟨hfull, htype⟩ := hb.deal hin
  have hi := hb.first left hpc
  obtain ⟨hnumber, -⟩ := hk.tricks.number st.main.i (by rw [hpc]; rfl)
  have htricks : st.sh.takenTricks.length = 0 := hi ▸ hk.plays.taken st.main.i (by rw [hpc]; rfl)
  obtain ⟨hplayed, howed, -⟩ := h.rests (by rw [hpc]; rfl)
  have h13 : (st.sh.cards s).length = 13 := by
    rw [(hk.plays.wellPlayed hfull).between (by rw [hpc]; rfl) s, htricks]
  have hcards : ∀ card ∈ st.sh.cards s, IsCard card := fun card hc =>
    hk.plays.cards s card ((hk.plays.game.sublist s).subset hc)
  have hglobal := (hb.type hin (by rw [hpc]; simp)).symm ▸ htype
  have hrec : k.receive (dealLine st.sh.trickTypeGlobal st.sh.lastTaker (st.sh.cards s)) = _ :=
    Klient.receive_deal hglobal h13 hcards
  have htakes := Klient.takes_of_check (k := k) .deal
    (DEALCheck_dealLine hcards hglobal h13 st.sh.lastTaker)
  refine ⟨hnumber.trans hi, howed, ⟨htakes, _, hrec, trivial⟩, { k with
    trickNumber := 1, gotScore := false, gotTotal := false, takenTricks := [], myCards := st.sh.cards s },
    ?_, h.isAi, h.seat, hplayed, rfl, rfl, rfl⟩
  show k.receiveAll [_] = _
  rw [Klient.receiveAll_cons, hrec]
  rfl

lemma Shared.won_succ {sh : Shared} {n : ℕ} {trick : List Text} {taker : Seat}
    (htrick : sh.takenTricks.getLast? = some trick) (htaker : sh.takenTakers.getLast? = some taker)
    (hlength : sh.takenTakers.length = sh.takenTricks.length) (hn : sh.takenTricks.length = n + 1) :
    sh.won s (n + 1) = if taker = s then sh.won s n ++ [trick] else sh.won s n := by
  obtain ⟨tricks, htricks⟩ := List.getLast?_eq_some_iff.mp htrick
  obtain ⟨takers, htakers⟩ := List.getLast?_eq_some_iff.mp htaker
  have hl₁ : tricks.length = n := by simpa [htricks] using hn
  have hl₂ : takers.length = tricks.length := by simpa [htricks, htakers] using hlength
  unfold Shared.won
  rw [htricks, htakers, List.zip_append hl₂.symm]
  have hzip : (tricks.zip takers).length = n := by simp [hl₁, hl₂]
  rw [List.take_of_length_le (by simp [hzip]), List.take_append_of_le_length hzip.ge,
    List.take_of_length_le hzip.le, List.filter_append, List.map_append]
  split <;> simp [*]

/-- **The end of the trick is told.** -/
lemma InStep.tellTaken (h : InStep st.sh st.main.pc s k owed) (hk : Known st)
    (hb : Board st.sh st.main) {left : List Seat} (hpc : st.main.pc = .announce .taken (s :: left)) :
    owed = [] ∧ k.Understands (st.sh.meaning s .taken) ∧
      ∃ k', k.receiveAll (st.sh.meaning s .taken) = some k' ∧ k'.isAi = true ∧ k'.seat = s ∧
        k'.playedCards = [] ∧ k'.trickNumber = st.sh.trickNumber + 1 ∧
        k'.takenTricks = st.sh.won s st.sh.trickNumber ∧ k'.myCards.Perm (st.sh.cards s) := by
  obtain ⟨h4, hcards, hdisjoint⟩ := hb.told hk.plays hpc
  obtain ⟨htrick, htaker⟩ := hb.trick _ hpc
  have hin : st.main.pc.inDeal = true := by rw [hpc]; rfl
  have hno : ¬Open st.sh st.main.pc s := by simp [Open, hpc, MainPc.wait]
  obtain ⟨card, hlaid⟩ := h.laid (by simp [hpc, MainPc.asked])
  obtain ⟨howed, hperm, hmem⟩ := hlaid.closed hno
  obtain ⟨hnumber, hi⟩ := hk.tricks.number (st.main.i + 1) (by rw [hpc]; rfl)
  have hlength : st.sh.takenTricks.length = st.main.i + 1 := hk.plays.taken _ (by rw [hpc]; rfl)
  have htakers : st.sh.takenTakers.length = st.sh.takenTricks.length :=
    hk.plays.game.takenInOrder.lengths.1
  obtain ⟨hk₁, hk₂⟩ := h.number st.sh.trickNumber (by simp [hpc, MainPc.expects])
  have hrec := Klient.receive_taken (k := k) st.sh.lastTaker (by omega) h4 hcards
  have htakes := Klient.takes_of_check (k := k) .taken
    (TAKENCheck_takenLine hcards h4 k.trickNumber st.sh.lastTaker)
  rw [hk₁] at htakes hrec
  -- the hand is what the card laid leaves of it
  have hnodup : (k.myCards ++ [card]).Nodup := by
    have hhand : k.myCards.Nodup := by
      refine hperm.nodup_iff.mpr ((hk.plays.game.sublist s).nodup ?_)
      exact (List.nodup_flatMap.mp (hb.deal hin).1.2).1 s (Seat.mem_all s)
    rw [List.nodup_append]
    refine ⟨hhand, List.nodup_singleton _, fun a ha b hb => ?_⟩
    obtain rfl := List.mem_singleton.mp hb
    rintro rfl
    exact hdisjoint s a (hperm.mem_iff.mp ha) hmem
  have hdiff : (k.myCards ++ k.playedCards).diff st.sh.cardsOnTable = k.myCards := by
    have hkeep : ∀ x ∈ k.myCards, x ∉ st.sh.cardsOnTable := fun x hx =>
      hdisjoint s x (hperm.mem_iff.mp hx)
    rw [hlaid.played, hnodup.sdiff_eq_filter, List.filter_append,
      List.filter_eq_self.mpr (by simpa using hkeep)]
    simp [hmem]
  refine ⟨howed, ⟨htakes, _, hrec, trivial⟩, { k with
    myCards := k.myCards
    playedCards := []
    takenTricks := if st.sh.lastTaker = k.seat then k.takenTricks ++ [st.sh.cardsOnTable]
      else k.takenTricks
    trickNumber := st.sh.trickNumber + 1 }, ?_, h.isAi, h.seat, rfl, rfl, ?_, hperm⟩
  · show k.receiveAll [_] = _
    rw [Klient.receiveAll_cons, hrec, hdiff]
    rfl
  · obtain ⟨n, hn⟩ : ∃ n, st.sh.trickNumber = n + 1 := ⟨_, hnumber⟩
    simp only [h.seat, hk₂, hn, Nat.add_sub_cancel]
    rw [Shared.won_succ htrick htaker htakers (by omega)]

lemma InStep.tellScores (h : InStep st.sh st.main.pc s k owed) {left : List Seat}
    (hpc : st.main.pc = .announce .scores left) : owed = [] ∧
      k.Understands (st.sh.meaning s .scores) ∧
      ∃ k', k.receiveAll (st.sh.meaning s .scores) = some k' ∧ k'.isAi = true ∧ k'.seat = s ∧
        k'.playedCards = [] := by
  obtain ⟨hplayed, howed, -⟩ := h.rests (by rw [hpc]; rfl)
  obtain ⟨k', hk', hunderstands, score, total, rfl⟩ :=
    k.receiveAll_scores st.sh.roundScores st.sh.totalScores
  exact ⟨howed, hunderstands, _, hk', h.isAi, h.seat, hplayed⟩

/-- In its turn a seat holds a card, and at most three are on the table. -/
lemma Known.turnTable (hk : Known st) (hb : Board st.sh st.main) {rest : List Seat}
    (hpc : st.main.pc = .turnSend s rest) : Open st.sh st.main.pc s ∧
      st.sh.cardsOnTable.length ≤ 3 ∧ (∀ card ∈ st.sh.cardsOnTable, IsCard card) ∧
      st.sh.cards s ≠ [] := by
  have hopen : Open st.sh st.main.pc s := by
    by_contra hno
    exact (hk.turn.closed s hno).2.2.1 (by rw [hpc]; rfl)
  have hin : st.main.pc.inDeal = true := by rw [hpc]; rfl
  have hsome : st.main.pc.toPlay.isSome := by rw [hpc]; rfl
  obtain ⟨served, horder, hlength⟩ := hk.plays.served (s :: rest) (by rw [hpc]; rfl)
  rw [heardLate, if_neg (by simp [hopen.2]), Nat.add_zero] at hlength
  have htable : (st.sh.game st.main.pc).table = st.sh.cardsOnTable := by
    simp [Shared.game, hsome]
  have hfour : served.length + (rest.length + 1) = 4 := by
    have := congrArg List.length horder
    simpa [Seat.order] using this.symm
  refine ⟨hopen, by omega, fun card hc => ?_, fun hnil => ?_⟩
  · obtain ⟨s', hs'⟩ := hk.plays.game.mem_table (htable ▸ hc)
    exact hk.plays.cards s' card hs'
  · have hhand := (hk.plays.wellPlayed (hb.deal hin).1).hands s
    have hlead : leader st.sh.dealStarter st.sh.takenTakers = st.main.beginning :=
      ((hk.plays.begins hsome).trans (hk.plays.leads (by rw [hpc]; simp))).symm
    have hserved : st.main.beginning.order.take st.sh.cardsOnTable.length = served := by
      rw [hlength, horder, List.take_left]
    have hnot : s ∉ served := by
      have hnodup := st.main.beginning.nodup_order
      rw [horder, List.nodup_append] at hnodup
      exact fun hs => hnodup.2.2 s hs s (by simp) rfl
    obtain ⟨-, hi⟩ := hk.tricks.number (st.main.i + 1) (by rw [hpc]; rfl)
    have htaken : st.sh.takenTricks.length = st.main.i := hk.plays.taken _ (by rw [hpc]; rfl)
    rw [htable, hlead, hserved, if_neg hnot, hnil] at hhand
    simp only [List.length_nil] at hhand
    omega

/-- **A card is asked for.** -/
lemma InStep.ask (h : InStep st.sh st.main.pc s k owed) (hk : Known st) (hb : Board st.sh st.main)
    {rest : List Seat} (hpc : st.main.pc = .turnSend s rest) : owed = [] ∧
      k.Understands (st.sh.meaning s .cardPlay) ∧
      ∃ k' card, k.receiveAll (st.sh.meaning s .cardPlay) = some k' ∧
        k.answers (st.sh.meaning s .cardPlay) = [trickLine st.sh.trickNumber [card]] ∧
        Klient.Ready st.sh.trickNumber st.sh.cardsOnTable (st.sh.cards s) k k' card := by
  obtain ⟨hopen, h3, htable, hne⟩ := hk.turnTable hb hpc
  obtain ⟨hplayed, howed, hperm⟩ := h.rests (by simp [hpc, MainPc.asked])
  obtain ⟨hnumber, hi⟩ := hk.tricks.number (st.main.i + 1) (by rw [hpc]; rfl)
  have hexpects : st.main.pc.expects st.sh.trickNumber s = some st.sh.trickNumber := by
    rw [hpc]
    rfl
  have hcards : ∀ card ∈ st.sh.cards s, IsCard card := fun card hc =>
    hk.plays.cards s card ((hk.plays.game.sublist s).subset hc)
  obtain ⟨k', card, hrec, hready⟩ := Klient.receive_request (n := st.sh.trickNumber)
    (by omega) h3 htable hne hcards h.isAi (h.number _ hexpects).1 (hperm (by rw [hexpects]; simp))
    hplayed
  have htakes : k.Takes (trickLine st.sh.trickNumber st.sh.cardsOnTable) :=
    Klient.takes_of_check .trick
      ((h.number _ hexpects).1 ▸ TRICKCheck_trickLine htable h3 k.trickNumber)
  refine ⟨howed, ⟨htakes, _, hrec, trivial⟩, k', card, ?_, ?_, hready⟩
  · show k.receiveAll [_] = _
    rw [Klient.receiveAll_cons, hrec]
    rfl
  · show k.answers [_] = _
    simp only [Klient.answers, hrec]
    rfl

end Tell

section Steps

variable {st : State} {sh' : Shared} {m' : Main} {s : Seat} {k : Klient} {owed : List Text}

private lemma not_open_of_wait {sh : Shared} {pc : MainPc} {s : Seat} (h : pc.wait = none) :
    ¬Open sh pc s := by
  simp [Open, h]

private lemma Known.not_open_of_got (hk : Known st) (hg : st.main.pc.got = true) :
    ¬Open st.sh st.main.pc s := fun ho => by
  have := hk.turn.flight.received hg
  rw [ho.2] at this
  cases this

/-- **A step of the main thread that tells the seat nothing** leaves its client in step. -/
theorem InStep.quiet (h : InStep st.sh st.main.pc s k owed) (hk : Known st)
    (hm : MainMove st.sh st.main sh' m') (hspeaks : st.main.pc.speaks s = none) :
    InStep sh' m'.pc s k owed := by
  have hsane := hk.understood.sane_next hm
  cases hm with
  | reset r hpc | ask s₀ left r hpc | askLast s₀ r hpc | poll ready r hpc | woken s₀ ready r rest hpc
  | stay r hpc | pass r hpc | release s₀ left r hpc =>
    rw [hpc] at h
    exact h.still (fun n hn => ⟨hn, rfl, rfl⟩) rfl fun ha => (by cases ha)
  | lost s₀ ready r rest hpc hp | lostPlayer s₀ j rest ready got left hpc hp =>
    exact (hk.staying.silent _ (hp ▸ List.mem_cons_self)).elim
  | resend s₀ ready r hpc =>
    have := hk.staying.answering
    rw [hpc] at this
    cases this
  | badBarrier => exact absurd (.inl rfl) hsane
  | badDeal => exact absurd (.inr rfl) hsane
  | releaseLast s₀ r hpc =>
    have hcaller := hk.staying.caller r (by rw [hpc]; rfl)
    rw [hpc] at h
    cases r with
    | cardWait => cases hcaller
    | startGame | endOfDeal => exact h.outside rfl rfl rfl
    | endOfTrick =>
      simp only [Main.afterBarrier]
      split
      · exact h.still (fun n hn => ⟨hn, rfl, rfl⟩) rfl fun ha => (by cases ha)
      · exact h.outside rfl rfl rfl
  | gameOver hpc | load d rest hpc | close e w hpc | closeSeat s₀ left e w hpc | dealEnd hpc =>
    rw [hpc] at h
    exact h.outside rfl rfl rfl
  | start hpc =>
    rw [hpc] at h
    exact h.outside (by simp [Main.startDeal, MainPc.expects]) rfl rfl
  | announce b s₀ left hpc =>
    rw [hpc] at h hspeaks
    have hne : s ≠ s₀ := by
      rintro rfl
      simp [MainPc.speaks] at hspeaks
    cases b with
    | deal =>
      exact h.still (fun n hn => ⟨by simpa [MainPc.expects, hne] using hn, rfl, rfl⟩) rfl
        fun ha => (by cases ha)
    | taken =>
      exact h.still (fun n hn => ⟨by simpa [MainPc.expects, hne] using hn, rfl, rfl⟩)
        (by simp [MainPc.asked, hne])
        fun _ => ⟨iff_of_false (not_open_of_wait rfl) (not_open_of_wait rfl), rfl, rfl, rfl⟩
    | scores => exact h.outside rfl rfl rfl
  | announceLast b s₀ hpc =>
    rw [hpc] at h hspeaks
    have hne : s ≠ s₀ := by
      rintro rfl
      simp [MainPc.speaks] at hspeaks
    cases b with
    | deal =>
      have hold : (MainPc.announce .deal [s₀]).expects st.sh.trickNumber s =
          some (st.sh.trickNumber + 1) := by simp [MainPc.expects, hne]
      exact h.still (fun n hn => ⟨hold.trans hn, rfl, rfl⟩) rfl fun ha => (by cases ha)
    | taken =>
      have hold : (MainPc.announce .taken [s₀]).expects st.sh.trickNumber s =
          some (st.sh.trickNumber + 1) := by simp [MainPc.expects, hne]
      exact h.still (fun n hn => ⟨hold.trans hn, rfl, rfl⟩)
        (by simp [MainPc.asked, hne, Main.afterBulletin])
        fun _ => ⟨iff_of_false (not_open_of_wait rfl) (not_open_of_wait rfl), rfl, rfl, rfl⟩
    | scores => exact h.outside rfl rfl rfl
  | trick hpc =>
    rw [hpc] at h
    exact h.still (fun n hn => ⟨hn, rfl, rfl⟩) (by simp [MainPc.asked, Seat.mem_order])
      fun ha => (by cases ha)
  | turnSet s₀ rest hpc =>
    rw [hpc] at h
    refine h.still (fun n hn => ⟨hn, rfl, rfl⟩) rfl fun ha => ⟨iff_of_false ?_ (not_open_of_wait rfl),
      rfl, rfl, rfl⟩
    rintro ⟨hw, -⟩
    obtain rfl : s₀ = s := Option.some.inj hw
    simp [MainPc.asked] at ha
  | turnSend s₀ rest hpc =>
    rw [hpc] at h hspeaks
    have hne : s ≠ s₀ := by
      rintro rfl
      simp [MainPc.speaks] at hspeaks
    exact h.still (fun n hn => ⟨hn, rfl, rfl⟩) (by simp [MainPc.asked, hne])
      fun _ => ⟨Iff.rfl, rfl, rfl, rfl⟩
  | cardPoll s₀ rest ready hpc | gotCard s₀ rest ready got left hpc | waitOn s₀ rest hpc =>
    rw [hpc] at h
    exact h.still (fun n hn => ⟨hn, rfl, rfl⟩) rfl fun _ => ⟨Iff.rfl, rfl, rfl, rfl⟩
  | nextTurn s₀ rest hpc | lastTurn s₀ hpc =>
    have hno := hk.not_open_of_got (s := s) (by rw [hpc]; rfl)
    rw [hpc] at h hno
    exact h.still (fun n hn => ⟨hn, rfl, rfl⟩) (by simp [MainPc.asked])
      fun _ => ⟨iff_of_false (not_open_of_wait rfl) hno, rfl, rfl, rfl⟩
  | trickEnd calculator taker points hpc =>
    obtain ⟨hnumber, -⟩ := hk.tricks.number (st.main.i + 1) (by rw [hpc]; rfl)
    have htaken : st.sh.takenTricks.length = st.main.i := hk.plays.taken _ (by rw [hpc]; rfl)
    have htakers : st.sh.takenTakers.length = st.sh.takenTricks.length :=
      hk.plays.game.takenInOrder.lengths.1
    rw [hpc] at h
    refine h.still (fun n hn => ?_) (by simp [MainPc.asked])
      fun _ => ⟨iff_of_false (not_open_of_wait rfl) (not_open_of_wait rfl), rfl, rfl, rfl⟩
    obtain rfl : st.sh.trickNumber = n := by simpa [MainPc.expects] using hn
    refine ⟨rfl, ?_, rfl⟩
    unfold Shared.won
    rw [List.zip_append htakers.symm, List.take_append_of_le_length]
    simp only [List.length_zip]
    omega

private lemma MainMove.tells {sh sh' : Shared} {m m' : Main} (hm : MainMove sh m sh' m') {b : Byte}
    (hspeaks : m.pc.speaks s = some b) :
    (∃ bulletin left, m.pc = .announce bulletin (s :: left) ∧ b = bulletin.byte ∧
      sh' = sh.tell s b ∧ m'.pc = Main.loop left (.announce bulletin left) (Main.afterBulletin bulletin)) ∨
    ∃ rest, m.pc = .turnSend s rest ∧ b = .cardPlay ∧
      sh' = (sh.tell s .cardPlay).note (.asked s) ∧ m'.pc = .cardPoll s rest := by
  cases hm with
  | announce bulletin s₀ left hpc hleft =>
    rw [hpc] at hspeaks
    obtain ⟨rfl, rfl⟩ : s = s₀ ∧ bulletin.byte = b := by simpa [MainPc.speaks] using hspeaks
    exact .inl ⟨bulletin, left, hpc, rfl, rfl, by simp [Main.loop, hleft]⟩
  | announceLast bulletin s₀ hpc =>
    rw [hpc] at hspeaks
    obtain ⟨rfl, rfl⟩ : s = s₀ ∧ bulletin.byte = b := by simpa [MainPc.speaks] using hspeaks
    exact .inl ⟨bulletin, [], hpc, rfl, rfl, by simp [Main.loop]⟩
  | turnSend s₀ rest hpc =>
    rw [hpc] at hspeaks
    obtain ⟨rfl, rfl⟩ : s = s₀ ∧ Byte.cardPlay = b := by simpa [MainPc.speaks] using hspeaks
    exact .inr ⟨rest, hpc, rfl, rfl, rfl⟩
  | _ => simp_all [MainPc.speaks]

/-- **A step of the main thread keeps the clients in step**: what it tells a client brings it to the
next point. -/
theorem InStep.main (h : InStep st.sh st.main.pc s k owed) (hk : Known st) (hb : Board st.sh st.main)
    (hm : MainMove st.sh st.main sh' m') :
    k.Understands (((st.main.pc.speaks s).map (st.sh.meaning s)).getD []) ∧
      ∃ k', k.receiveAll (((st.main.pc.speaks s).map (st.sh.meaning s)).getD []) = some k' ∧
        InStep sh' m'.pc s k'
          (owed ++ k.answers (((st.main.pc.speaks s).map (st.sh.meaning s)).getD [])) := by
  cases hspeaks : st.main.pc.speaks s with
  | none =>
    refine ⟨trivial, k, rfl, ?_⟩
    show InStep sh' m'.pc s k (owed ++ [])
    rw [List.append_nil]
    exact h.quiet hk hm hspeaks
  | some b =>
    show k.Understands (st.sh.meaning s b) ∧ ∃ k', k.receiveAll (st.sh.meaning s b) = some k' ∧
      InStep sh' m'.pc s k' (owed ++ k.answers (st.sh.meaning s b))
    obtain ⟨bulletin, left, hpc, rfl, rfl, hpc'⟩ | ⟨rest, hpc, rfl, rfl, hpc'⟩ := hm.tells hspeaks
    · have hquiet : k.answers (st.sh.meaning s bulletin.byte) = [] :=
        Klient.answers_quiet (Shared.meaning_quiet bulletin.byte_ne.1 s) k
      have hnot : s ∉ left := by
        have hlisted := hk.listed
        rw [hpc] at hlisted
        exact (List.nodup_cons.mp (hlisted.2.sublist.nodup (by decide))).1
      rw [hquiet, List.append_nil, hpc']
      cases bulletin with
      | deal =>
        obtain ⟨hzero, howed, hsense, k', hrec, hai, hseat, hplayed, hnumber, hwon, hcards⟩ :=
          h.tellDeal hk hb hpc
        refine ⟨hsense, k', hrec, .told hai hseat hplayed howed ?_ fun n hn => ?_⟩
        · unfold Main.loop
          split <;> rfl
        · have hone : 1 = n := by
            unfold Main.loop at hn
            split at hn <;> simpa [Main.afterBulletin, MainPc.expects, hzero, hnot] using hn
          subst hone
          exact ⟨hnumber, by rw [hwon]; rfl, by rw [hcards]; exact .refl _⟩
      | taken =>
        obtain ⟨howed, hsense, k', hrec, hai, hseat, hplayed, hnumber, hwon, hcards⟩ :=
          h.tellTaken hk hb hpc
        refine ⟨hsense, k', hrec, .told hai hseat hplayed howed ?_ fun n hn => ?_⟩
        · unfold Main.loop
          split
          · rfl
          · simpa [MainPc.asked] using hnot
        · have hsucc : st.sh.trickNumber + 1 = n := by
            unfold Main.loop at hn
            split at hn <;>
              simpa [Main.afterBulletin, MainPc.expects, MainPc.caller, Caller.expects, hnot] using hn
          subst hsucc
          exact ⟨hnumber, hwon, hcards⟩
      | scores =>
        obtain ⟨howed, hsense, k', hrec, hai, hseat, hplayed⟩ := h.tellScores hpc
        refine ⟨hsense, k', hrec, .told hai hseat hplayed howed ?_ fun n hn => ?_⟩
        · unfold Main.loop
          split <;> rfl
        · unfold Main.loop at hn
          split at hn <;> cases hn
    · obtain ⟨howed, hsense, k', card, hrec, hanswer, hready⟩ := h.ask hk hb hpc
      have hopen := (hk.turnTable hb hpc).1
      have hlisted := hk.listed
      rw [hpc] at hlisted
      have hnot : s ∉ rest := (List.nodup_cons.mp
        (hlisted.sublist.nodup st.main.beginning.nodup_order)).1
      refine ⟨hsense, k', hrec, ?_⟩
      rw [hanswer, howed, hpc']
      refine ⟨hready.keeps.isAi.trans h.isAi, hready.keeps.seat.trans h.seat, fun n hn => ?_,
        fun ha => ?_, fun _ => ⟨card, hready.played, fun _ => ⟨rfl, hready.left, hready.check,
          hready.accepted⟩, fun hno => ?_⟩⟩
      · obtain ⟨hnumber, hwon⟩ := h.number n (by rw [hpc]; exact hn)
        exact ⟨hready.keeps.trickNumber.trans hnumber, hready.keeps.takenTricks.trans hwon⟩
      · simp [MainPc.asked, hnot] at ha
      · refine absurd ⟨rfl, ?_⟩ hno
        exact hopen.2

end Steps

end Serwer

end Kierki
