import Kierki.Serwer.SeatThread

/-!
# The steps of a thread, one by one

`ThreadMove` spells `threadStep` out: one constructor for each branch of the code, with the point it
is taken at, what it tests and the state after it. What is true of every step is proved by cases
over this list, and nothing opens `threadStep` again.
-/

namespace Kierki.Serwer

open Kierki.Regex Kierki.Senders

/-- The part of the code a thread is in. -/
inductive Kind
  /-- Before it took a seat. -/
  | fresh
  /-- Finished, or about to be, without a seat to give back. -/
  | finished
  /-- `reserve_spot`, from the seat being taken to the test of `player_turn`. -/
  | reserve
  /-- `reserve_spot`, after the test of `player_turn`. -/
  | joining
  /-- `client_poll`, outside `parse_message` and the two loops over the queue. -/
  | play
  /-- `parse_message` and the two loops over the queue. -/
  | parsing
  /-- `parse_message`, a card accepted and `CARD_PLAY` not yet written. -/
  | card
  /-- `client_poll`, about to wake the main thread with `BARRIER_RESPONSE`. -/
  | wake
  /-- `client_poll`, sending the `TRICK` line of a `CARD_PLAY` byte. -/
  | asked
  /-- `close_thread`, before its critical section. -/
  | leaving (bWasEndedByServer : Bool)
  /-- `close_thread`, the seat given back and `DISCONNECTED` not yet written. -/
  | gone
  deriving DecidableEq

/-- The thread is between taking its seat and giving it back. -/
def Kind.holds : Kind → Bool
  | fresh | finished | gone => false
  | _ => true

/-- The thread is in `client_poll`. -/
def Kind.polls : Kind → Bool
  | play | parsing | card | wake | asked => true
  | _ => false

lemma Kind.holds_of_polls {k : Kind} (h : k.polls = true) : k.holds = true := by
  cases k <;> first | rfl | cases h

def Pc.kind : Pc → Kind
  | absent | readIam | take => .fresh
  | dealLine _ _ | replay _ | takenLine _ | send _ (.replay _) => .reserve
  | joinFlag | send _ .joinTrick => .joining
  | loopTop | poll | readSocket _ | again _ | readPipe _ => .play
  | send _ (.again _) | send _ .inform | send _ (.score _) => .play
  | drain | parse _ _ | drainEnd | send _ (.wrong _) => .parsing
  | send _ .cardPlay => .asked
  | writeCardPlay _ => .card
  | writeBarrierResponse => .wake
  | closeLock b => .leaving b
  | closeNotify => .gone
  | send _ .busy | finish | done => .finished

/-- The line that is parsed is not one a player sends. -/
def Pc.isBadLine : Pc → Prop
  | parse message _ => Regex.TRICKClientCheck message = false
  | _ => False

open Thread in
/-- **One step of the thread of connection `c`.** -/
inductive ThreadMove (sh : Shared) (c : ℕ) (t : Thread) : Outcome → Shared → Thread → Prop
  | iam (l : Text) (s : Seat) (hpc : t.pc = .readIam) (hs : iamSeat l = some s) :
      ThreadMove sh c t (.line l) sh { t with seat := s, pc := .take }
  | refuse (o : Outcome) (hpc : t.pc = .readIam) : ThreadMove sh c t o sh (t.goto .finish)
  | take (pc' : Pc) (hpc : t.pc = .take) (hs : sh.seatsStatus t.seat = -1)
      (hpc' : pc' = .dealLine sh.trickTypeGlobal sh.dealStarter ∧ sh.deal .N ≠ [] ∨
        pc' = .joinFlag ∧ sh.deal .N = []) :
      ThreadMove sh c t .tick
        ({ sh with seatsStatus := Function.update sh.seatsStatus t.seat t.clientFd }.note
          (.took c t.seat))
        (t.goto pc')
  | busy (hpc : t.pc = .take) (hs : sh.seatsStatus t.seat ≠ -1) :
      ThreadMove sh c t .tick sh (t.goto (.send (busyLine sh.occupiedSeats) .busy))
  | copied (trickTypeLoc : ℕ) (dealStarterLoc : Seat)
      (hpc : t.pc = .dealLine trickTypeLoc dealStarterLoc) :
      ThreadMove sh c t .tick sh
        (t.goto (.send (dealLine trickTypeLoc dealStarterLoc (sh.deal t.seat)) (.replay 0)))
  | next (i : ℕ) (hpc : t.pc = .replay i) (hi : i < sh.takenTricks.length) :
      ThreadMove sh c t .tick sh (t.goto (.takenLine i))
  | turn (i : ℕ) (hpc : t.pc = .replay i) (hi : sh.takenTricks.length ≤ i)
      (ht : sh.playerTurn = some t.seat) :
      ThreadMove sh c t .tick sh
        { t with
          bIsMyTurn := true
          pc := .send (trickLine sh.trickNumber sh.cardsOnTable) .joinTrick }
  | noTurn (i : ℕ) (hpc : t.pc = .replay i) (hi : sh.takenTricks.length ≤ i)
      (ht : sh.playerTurn ≠ some t.seat) : ThreadMove sh c t .tick sh (t.goto .joinFlag)
  | taken (i : ℕ) (cards : List Text) (taker : Seat) (hpc : t.pc = .takenLine i)
      (hcards : sh.takenTricks[i]? = some cards) (htaker : sh.takenTakers[i]? = some taker) :
      ThreadMove sh c t .tick sh
        (t.goto (.send (Senders.takenLine (i + 1) cards taker) (.replay (i + 1))))
  | join (hpc : t.pc = .joinFlag) : ThreadMove sh c t .tick sh (t.join sh)
  | sent (l : Text) (p : Purpose) (hpc : t.pc = .send l p) :
      ThreadMove sh c t .tick sh (sent { t with outbox := l :: t.outbox } p)
  | notSent (l : Text) (p : Purpose) (hpc : t.pc = .send l p) :
      ThreadMove sh c t .fail (notSent sh c t p).1 (notSent sh c t p).2
  | top (hpc : t.pc = .loopTop) : ThreadMove sh c t .tick sh (t.atLoopTop sh)
  | drained (after : Pc)
      (hpc : t.pc = .drain ∧ after = .poll ∨ t.pc = .drainEnd ∧ after = .loopTop)
      (hq : sh.barrierMessages t.seat = []) : ThreadMove sh c t .tick sh (t.goto after)
  | popped (k : After) (m : Text) (q : List Text)
      (hpc : t.pc = .drain ∧ k = .drain ∨ t.pc = .drainEnd ∧ k = .drainEnd)
      (hq : sh.barrierMessages t.seat = m :: q) :
      ThreadMove sh c t .tick
        { sh with barrierMessages := Function.update sh.barrierMessages t.seat q }
        (t.goto (.parse m k))
  | expired (pc' : Pc) (hpc : t.pc = .poll) (hd : t.bWasDestinedToPlay = true)
      (hpc' : pc' = .loopTop ∨ pc' = .again false ∧ t.bIsBarrier = false) :
      ThreadMove sh c t .expire sh (t.goto pc')
  | readable (pipe : Bool) (ms : ℤ) (hpc : t.pc = .poll) :
      ThreadMove sh c t (.ready true pipe ms) sh (t.goto (.readSocket pipe))
  | waited (pc' : Pc) (pipe : Bool) (ms : ℤ) (hpc : t.pc = .poll)
      (hd : t.bWasDestinedToPlay = true) (hpc' : pc' = .again pipe ∨ pc' = .readPipe pipe) :
      ThreadMove sh c t (.ready false pipe ms) sh
        { t with timeoutCopy := int32 (t.timeoutCopy - ms), pc := pc' }
  | heard (pipe : Bool) (ms : ℤ) (hpc : t.pc = .poll) (hd : t.bWasDestinedToPlay = false) :
      ThreadMove sh c t (.ready false pipe ms) sh (t.goto (.readPipe pipe))
  | queued (pipe : Bool) (l : Text) (hpc : t.pc = .readSocket pipe) (hb : t.bIsBarrier = true) :
      ThreadMove sh c t (.line l)
        { sh with
          barrierMessages :=
            Function.update sh.barrierMessages t.seat (sh.barrierMessages t.seat ++ [l]) }
        (t.goto (.readPipe pipe))
  | direct (pipe : Bool) (l : Text) (hpc : t.pc = .readSocket pipe) (hb : t.bIsBarrier = false) :
      ThreadMove sh c t (.line l) sh (t.goto (.parse l (.pipe pipe)))
  | leave (o : Outcome) (hk : t.pc.kind.polls = true) (ho : o = .fail ∨ o = .eof ∨ t.pc.isBadLine) :
      ThreadMove sh c t o sh (t.goto (.closeLock false))
  | again (pipe : Bool) (hpc : t.pc = .again pipe) :
      ThreadMove sh c t .tick sh (t.againStep sh pipe)
  | skip (hpc : t.pc = .readPipe false) : ThreadMove sh c t .tick sh (t.goto .loopTop)
  | byte (b : Byte) (rest : List Byte) (hpc : t.pc = .readPipe true)
      (hp : sh.serverWritePipes t.seat = b :: rest) :
      ThreadMove sh c t .tick (t.gotByte (sh.heard t.seat rest) c b).1
        (t.gotByte (sh.heard t.seat rest) c b).2
  | early (m : Text) (k : After) (hpc : t.pc = .parse m k) (hm : TRICKClientCheck m = true)
      (hd : t.bWasDestinedToPlay = false) :
      ThreadMove sh c t .tick sh (t.goto (.send (wrongLine t.currentTrick) (.wrong k)))
  | wrong (m : Text) (k : After) (hpc : t.pc = .parse m k) (hm : TRICKClientCheck m = true)
      (hd : t.bWasDestinedToPlay = true)
      (ha : acceptedCard (sh.cards t.seat) sh.cardsOnTable t.currentTrick m = none) :
      ThreadMove sh c t .tick sh
        { t with
          timeoutCopy := sh.timeout
          pc := .send (wrongLine t.currentTrick) (.wrong k) }
  | accept (m : Text) (k : After) (card : Text) (hpc : t.pc = .parse m k)
      (hm : TRICKClientCheck m = true) (hd : t.bWasDestinedToPlay = true)
      (ha : acceptedCard (sh.cards t.seat) sh.cardsOnTable t.currentTrick m = some card) :
      ThreadMove sh c t .tick
        ({ sh with
            cards := Function.update sh.cards t.seat ((sh.cards t.seat).erase card)
            cardsOnTable := sh.cardsOnTable ++ [card]
            playerTurn := none }.note (.accepted c t.seat card))
        { t with timeoutCopy := sh.timeout, pc := .writeCardPlay k }
  | played (k : After) (hpc : t.pc = .writeCardPlay k) :
      ThreadMove sh c t .tick (sh.report t.seat .cardPlay)
        { t with bWasDestinedToPlay := false, pc := k.pc }
  | woke (hpc : t.pc = .writeBarrierResponse) :
      ThreadMove sh c t .tick (sh.report t.seat .barrierResponse) (t.goto .loopTop)
  | close (b : Bool) (hpc : t.pc = .closeLock b) :
      ThreadMove sh c t .tick (t.closeStep sh c b).1 (t.closeStep sh c b).2
  | reported (hpc : t.pc = .closeNotify) :
      ThreadMove sh c t .tick ((sh.report t.seat .disconnected).note (.reported c t.seat))
        (t.goto .finish)
  | unreported (hpc : t.pc = .closeNotify) :
      ThreadMove sh c t .fail (sh.note (.unreported c t.seat)) (t.goto .finish)
  | done (hpc : t.pc = .finish) : ThreadMove sh c t .tick sh (t.goto .done)

section Complete

variable {sh sh' : Shared} {c : ℕ} {t t' : Thread} {o : Outcome}

private lemma threadMove_takeSeat (hpc : t.pc = .take) :
    ThreadMove sh c t .tick (t.takeSeat sh c).1 (t.takeSeat sh c).2 := by
  unfold Thread.takeSeat
  split_ifs with hs hd
  · exact .take _ hpc hs (.inl ⟨rfl, fun h => hd (by rw [h]; rfl)⟩)
  · exact .take _ hpc hs (.inr ⟨rfl, List.length_eq_zero_iff.mp (not_not.mp hd)⟩)
  · exact .busy hpc hs

private lemma threadMove_replayAt {i : ℕ} (hpc : t.pc = .replay i) :
    ThreadMove sh c t .tick sh (t.replayAt sh i) := by
  unfold Thread.replayAt
  split_ifs with hi ht
  · exact .next i hpc hi
  · exact .turn i hpc (not_lt.mp hi) ht
  · exact .noTurn i hpc (not_lt.mp hi) ht

private lemma threadMove_takenLineAt {i : ℕ} (hpc : t.pc = .takenLine i)
    (h : t.takenLineAt sh i = some t') : ThreadMove sh c t .tick sh t' := by
  simp only [Thread.takenLineAt, Option.map_eq_some_iff, Option.bind_eq_some_iff] at h
  obtain ⟨cards, hcards, taker, htaker, rfl⟩ := h
  exact .taken i cards taker hpc hcards htaker

private lemma threadMove_drainStep {k : After} {after : Pc}
    (hpc : t.pc = .drain ∧ k = .drain ∧ after = .poll ∨
      t.pc = .drainEnd ∧ k = .drainEnd ∧ after = .loopTop) :
    ThreadMove sh c t .tick (t.drainStep sh k after).1 (t.drainStep sh k after).2 := by
  unfold Thread.drainStep
  split
  · rename_i hq
    exact .drained after (hpc.imp (And.imp_right And.right) (And.imp_right And.right)) hq
  · rename_i m q hq
    exact .popped k m q (hpc.imp (And.imp_right And.left) (And.imp_right And.left)) hq

private lemma threadMove_pollStep (hpc : t.pc = .poll) (h : t.pollStep sh o = some t') :
    ThreadMove sh c t o sh t' := by
  cases o with
  | expire =>
    simp only [Thread.pollStep, Option.ite_none_right_eq_some, Option.some.injEq] at h
    obtain ⟨hd, rfl⟩ := h
    cases hb : t.bIsBarrier with
    | true => exact .expired _ hpc hd (.inl rfl)
    | false => exact .expired _ hpc hd (.inr ⟨rfl, hb⟩)
  | fail =>
    cases h
    exact .leave _ (by rw [hpc]; rfl) (.inl rfl)
  | ready socket pipe passedMs =>
    simp only [Thread.pollStep] at h
    split_ifs at h with hr hs hd hms <;> cases h
    · subst hs
      exact .readable pipe passedMs hpc
    · rw [Bool.not_eq_true] at hs
      subst hs
      exact .waited _ pipe passedMs hpc hd (.inl rfl)
    · rw [Bool.not_eq_true] at hs
      subst hs
      exact .waited _ pipe passedMs hpc hd (.inr rfl)
    · rw [Bool.not_eq_true] at hs hd
      subst hs
      exact .heard pipe passedMs hpc hd
  | tick | line | eof => simp [Thread.pollStep] at h

private lemma threadMove_gotLine {pipe : Bool} {l : Text} (hpc : t.pc = .readSocket pipe) :
    ThreadMove sh c t (.line l) (t.gotLine sh pipe l).1 (t.gotLine sh pipe l).2 := by
  unfold Thread.gotLine
  split
  · rename_i hb
    exact .queued pipe l hpc hb
  · rename_i hb
    exact .direct pipe l hpc (Bool.not_eq_true _ ▸ hb)

private lemma threadMove_pipeStep {pipe : Bool} (hpc : t.pc = .readPipe pipe)
    (h : t.pipeStep sh c pipe o = some (sh', t')) : ThreadMove sh c t o sh' t' := by
  cases o with
  | fail =>
    cases h
    exact .leave _ (by rw [hpc]; rfl) (.inl rfl)
  | tick =>
    simp only [Thread.pipeStep] at h
    split at h
    · rename_i hpipe
      subst hpipe
      split at h
      · cases h
      · rename_i b rest hp
        have hmove : ThreadMove sh c t .tick _ _ := .byte b rest hpc hp
        rwa [Option.some.inj h] at hmove
    · rename_i hpipe
      rw [Bool.not_eq_true] at hpipe
      subst hpipe
      cases h
      exact .skip hpc
  | _ => simp [Thread.pipeStep] at h

private lemma threadMove_parseStep {m : Text} {k : After} (hpc : t.pc = .parse m k) :
    ThreadMove sh c t .tick (t.parseStep sh c m k).1 (t.parseStep sh c m k).2 := by
  unfold Thread.parseStep
  split
  · rename_i hm
    split
    · rename_i hd
      split
      · rename_i ha
        exact .wrong m k hpc hm hd ha
      · rename_i card ha
        exact .accept m k card hpc hm hd ha
    · rename_i hd
      exact .early m k hpc hm (Bool.not_eq_true _ ▸ hd)
  · rename_i hm
    refine .leave _ (by rw [hpc]; rfl) (.inr (.inr ?_))
    rw [hpc]
    exact (Bool.not_eq_true _).mp hm

/-- **The list is complete.** -/
theorem threadMove_of_threadStep (h : threadStep sh c t o = some (sh', t')) :
    ThreadMove sh c t o sh' t' := by
  unfold threadStep at h
  split at h
  case h_1 l hpc =>
    split at h
    · rename_i s hs
      cases h
      exact .iam l s hpc hs
    · cases h
      exact .refuse _ hpc
  case h_2 hpc | h_3 hpc =>
    cases h
    exact .refuse _ hpc
  case h_4 hpc =>
    have hmove : ThreadMove sh c t .tick _ _ := threadMove_takeSeat hpc
    rwa [Option.some.inj h] at hmove
  case h_5 a b hpc =>
    cases h
    exact .copied a b hpc
  case h_6 i hpc =>
    cases h
    exact threadMove_replayAt hpc
  case h_7 i hpc =>
    obtain ⟨t'', ht, he⟩ := Option.map_eq_some_iff.mp h
    cases he
    exact threadMove_takenLineAt hpc ht
  case h_8 hpc =>
    cases h
    exact .join hpc
  case h_9 l p hpc =>
    cases h
    exact .sent l p hpc
  case h_10 l p hpc =>
    have hmove : ThreadMove sh c t .fail _ _ := .notSent l p hpc
    rwa [Option.some.inj h] at hmove
  case h_11 hpc =>
    cases h
    exact .top hpc
  case h_12 hpc =>
    have hmove : ThreadMove sh c t .tick _ _ := threadMove_drainStep (.inl ⟨hpc, rfl, rfl⟩)
    rwa [Option.some.inj h] at hmove
  case h_13 hpc =>
    obtain ⟨t'', ht, he⟩ := Option.map_eq_some_iff.mp h
    cases he
    exact threadMove_pollStep hpc ht
  case h_14 pipe l hpc =>
    have hmove : ThreadMove sh c t (.line l) _ _ := threadMove_gotLine hpc
    rwa [Option.some.inj h] at hmove
  case h_15 hpc =>
    cases h
    exact .leave _ (by rw [hpc]; rfl) (.inr (.inl rfl))
  case h_16 hpc =>
    cases h
    exact .leave _ (by rw [hpc]; rfl) (.inl rfl)
  case h_17 pipe hpc =>
    cases h
    exact .again pipe hpc
  case h_18 hpc => exact threadMove_pipeStep hpc h
  case h_19 m k hpc =>
    have hmove : ThreadMove sh c t .tick _ _ := threadMove_parseStep hpc
    rwa [Option.some.inj h] at hmove
  case h_20 k hpc =>
    cases h
    exact .played k hpc
  case h_21 hpc =>
    cases h
    exact .leave _ (by rw [hpc]; rfl) (.inl rfl)
  case h_22 hpc =>
    cases h
    exact .woke hpc
  case h_23 hpc =>
    cases h
    exact .leave _ (by rw [hpc]; rfl) (.inl rfl)
  case h_24 hpc =>
    have hmove : ThreadMove sh c t .tick _ _ := threadMove_drainStep (.inr ⟨hpc, rfl, rfl⟩)
    rwa [Option.some.inj h] at hmove
  case h_25 b hpc =>
    have hmove : ThreadMove sh c t .tick _ _ := .close b hpc
    rwa [Option.some.inj h] at hmove
  case h_26 hpc =>
    cases h
    exact .reported hpc
  case h_27 hpc =>
    cases h
    exact .unreported hpc
  case h_28 hpc =>
    cases h
    exact .done hpc
  case h_29 => cases h

end Complete

/-! ### What a thread leaves alone -/

/-- What only the main thread writes is the same. -/
structure Framed (sh sh' : Shared) : Prop where
  roundScores : sh'.roundScores = sh.roundScores
  totalScores : sh'.totalScores = sh.totalScores
  trickNumber : sh'.trickNumber = sh.trickNumber
  deal : sh'.deal = sh.deal
  takenTricks : sh'.takenTricks = sh.takenTricks
  takenTakers : sh'.takenTakers = sh.takenTakers
  dealStarter : sh'.dealStarter = sh.dealStarter
  trickTypeGlobal : sh'.trickTypeGlobal = sh.trickTypeGlobal
  lastTaker : sh'.lastTaker = sh.lastTaker

section Frame

variable {sh sh' : Shared} {c : ℕ} {t t' : Thread} {o : Outcome}

/-- **No thread writes what only the main thread writes.** -/
theorem ThreadMove.framed (hm : ThreadMove sh c t o sh' t') : Framed sh sh' := by
  cases hm
  case' notSent l p _ => cases p
  case' byte b rest _ _ => cases b
  case' close b _ => cases b
  all_goals exact ⟨rfl, rfl, rfl, rfl, rfl, rfl, rfl, rfl, rfl⟩

theorem ThreadMove.writePipes (hm : ThreadMove sh c t o sh' t') (s : Seat) :
    sh'.serverWritePipes s <:+ sh.serverWritePipes s := by
  cases hm with
  | notSent l p => cases p <;> exact List.suffix_rfl
  | close b => cases b <;> exact List.suffix_rfl
  | byte b rest hpc hp =>
    have hheard : (sh.heard t.seat rest).serverWritePipes s <:+ sh.serverWritePipes s := by
      by_cases hs : s = t.seat
      · subst hs
        rw [Shared.heard_serverWritePipes, Function.update_self, hp]
        exact List.suffix_cons _ _
      · rw [Shared.heard_serverWritePipes, Function.update_of_ne hs]
    cases b <;> exact hheard
  | _ => exact List.suffix_rfl

theorem ThreadMove.pipe_of_other (hm : ThreadMove sh c t o sh' t') {s : Seat}
    (hs : t.pc.kind.holds = true → s ≠ t.seat) :
    sh'.serverWritePipes s = sh.serverWritePipes s := by
  cases hm with
  | notSent l p => cases p <;> rfl
  | close b => cases b <;> rfl
  | byte b rest hpc hp =>
    have hheard : (sh.heard t.seat rest).serverWritePipes s = sh.serverWritePipes s := by
      rw [Shared.heard_serverWritePipes, Function.update_of_ne (hs (by rw [hpc]; rfl))]
    cases b <;> exact hheard
  | _ => rfl

theorem ThreadMove.seat_eq (hm : ThreadMove sh c t o sh' t') (h : t.pc ≠ .readIam) :
    t'.seat = t.seat := by
  cases hm with
  | iam _ _ hpc => exact absurd hpc h
  | sent l p => cases p <;> rfl
  | notSent l p => cases p <;> rfl
  | byte b rest => cases b <;> rfl
  | close b => cases b <;> rfl
  | _ => rfl

end Frame

end Kierki.Serwer
