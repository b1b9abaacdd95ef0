import Kierki.Serwer.Views

/-!
# The lines a thread sends

Where each line to a client comes from: `Draft` lists the points at which a thread prepares a line
and what the line is made of, and `ThreadMove.draft` says that the list is complete. A line
prepared is sent by the next step of the thread, or not at all.
-/

namespace Kierki.Serwer

open Kierki.Regex Kierki.Senders

/-- **The lines that a thread may prepare**, and what they are sent for. -/
inductive Draft (sh : Shared) (t : Thread) : Text → Purpose → Prop
  | busy (hpc : t.pc = .take) : Draft sh t (busyLine sh.occupiedSeats) .busy
  | catchUp (trickTypeLoc : ℕ) (dealStarterLoc : Seat)
      (hpc : t.pc = .dealLine trickTypeLoc dealStarterLoc) :
      Draft sh t (dealLine trickTypeLoc dealStarterLoc (sh.deal t.seat)) (.replay 0)
  | replay (i : ℕ) (cards : List Text) (taker : Seat) (hpc : t.pc = .takenLine i)
      (hcards : sh.takenTricks[i]? = some cards) (htaker : sh.takenTakers[i]? = some taker) :
      Draft sh t (takenLine (i + 1) cards taker) (.replay (i + 1))
  | joinTrick (i : ℕ) (hpc : t.pc = .replay i) (ht : sh.playerTurn = some t.seat) :
      Draft sh t (trickLine sh.trickNumber sh.cardsOnTable) .joinTrick
  | again (pipe : Bool) (hpc : t.pc = .again pipe) :
      Draft sh t (trickLine t.currentTrick sh.cardsOnTable) (.again pipe)
  | ask (rest : List Byte) (hpc : t.pc = .readPipe true)
      (hp : sh.serverWritePipes t.seat = .cardPlay :: rest) :
      Draft sh t (trickLine sh.trickNumber sh.cardsOnTable) .cardPlay
  | deal (rest : List Byte) (hpc : t.pc = .readPipe true)
      (hp : sh.serverWritePipes t.seat = .deal :: rest) :
      Draft sh t (dealLine sh.trickTypeGlobal sh.lastTaker (sh.cards t.seat)) .inform
  | taken (rest : List Byte) (hpc : t.pc = .readPipe true)
      (hp : sh.serverWritePipes t.seat = .taken :: rest) :
      Draft sh t (takenLine t.currentTrick sh.cardsOnTable sh.lastTaker) .inform
  | score (rest : List Byte) (hpc : t.pc = .readPipe true)
      (hp : sh.serverWritePipes t.seat = .scores :: rest) :
      Draft sh t (scoreLine sh.roundScores) (.score (totalLine sh.totalScores))
  | total (l total : Text) (hpc : t.pc = .send l (.score total)) : Draft sh t total .inform
  | wrong (m : Text) (k : After) (hpc : t.pc = .parse m k) (hm : TRICKClientCheck m = true) :
      Draft sh t (wrongLine t.currentTrick) (.wrong k)

section Complete

variable {sh sh' : Shared} {c : ℕ} {t t' : Thread} {o : Outcome} {l : Text} {p : Purpose}

lemma Draft.not_readIam (h : Draft sh t l p) : t.pc ≠ .readIam := by
  cases h <;> simp [*]

private lemma draft_gotByte {b : Byte} {rest : List Byte} (hpc : t.pc = .readPipe true)
    (hp : sh.serverWritePipes t.seat = b :: rest)
    (h : (t.gotByte (sh.heard t.seat rest) c b).2.pc = .send l p) : Draft sh t l p := by
  cases b with
  | cardPlay =>
    cases h
    exact .ask rest hpc hp
  | deal =>
    cases h
    exact .deal rest hpc hp
  | taken =>
    cases h
    exact .taken rest hpc hp
  | scores =>
    cases h
    exact .score rest hpc hp
  | barrierResponse => by_cases ho : int16 (sh.occupied + 1) = 4 <;> simp [Thread.gotByte, ho] at h
  | disconnected | barrierEnd => cases h

private lemma draft_sent {l' : Text} {p' : Purpose} (hpc : t.pc = .send l' p')
    (h : (Thread.sent { t with outbox := l' :: t.outbox } p').pc = .send l p) : Draft sh t l p := by
  cases p' with
  | score total =>
    cases h
    exact .total l' l hpc
  | wrong k => cases k <;> cases h
  | _ => cases h

/-- **The list is complete**: a line about to be sent was prepared in the step before. -/
theorem ThreadMove.draft (hm : ThreadMove sh c t o sh' t') (hl : t'.pc = .send l p) :
    Draft sh t l p := by
  cases hm with
  | take pc' hpc hs hpc' => rcases hpc' with ⟨rfl, -⟩ | ⟨rfl, -⟩ <;> cases hl
  | busy hpc =>
    cases hl
    exact .busy hpc
  | copied a b hpc =>
    cases hl
    exact .catchUp a b hpc
  | turn i hpc _ ht =>
    cases hl
    exact .joinTrick i hpc ht
  | taken i cards taker hpc hcards htaker =>
    cases hl
    exact .replay i cards taker hpc hcards htaker
  | sent l' p' hpc => exact draft_sent hpc hl
  | notSent l' p' hpc => cases p' <;> cases hl
  | top hpc => by_cases hb : (t.bIsBarrier || sh.bIsBarrierOngoing) = true <;>
      simp [Thread.atLoopTop, hb] at hl
  | drained after hpc => rcases hpc with ⟨-, rfl⟩ | ⟨-, rfl⟩ <;> cases hl
  | expired pc' hpc _ hpc' => rcases hpc' with rfl | ⟨rfl, -⟩ <;> cases hl
  | waited pc' pipe ms hpc _ hpc' => rcases hpc' with rfl | rfl <;> cases hl
  | again pipe hpc =>
    cases hl
    exact .again pipe hpc
  | byte b rest hpc hp => exact draft_gotByte hpc hp hl
  | early m k hpc hm =>
    cases hl
    exact .wrong m k hpc hm
  | wrong m k hpc hm =>
    cases hl
    exact .wrong m k hpc hm
  | played k => cases k <;> cases hl
  | close b => cases b <;> cases hl
  | _ => cases hl

theorem ThreadMove.outbox (hm : ThreadMove sh c t o sh' t') :
    t'.outbox = t.outbox ∨ ∃ l p, t.pc = .send l p ∧ t'.outbox = l :: t.outbox := by
  cases hm with
  | sent l p hpc => exact .inr ⟨l, p, hpc, by cases p <;> rfl⟩
  | notSent l p => cases p <;> exact .inl rfl
  | byte b rest => cases b <;> exact .inl rfl
  | close b => cases b <;> exact .inl rfl
  | _ => exact .inl rfl

end Complete

/-! ### The catch-up of `reserve_spot` -/

/-- The points of `reserve_spot` up to the end of its loop. -/
def Pc.catchesUp : Pc → Bool
  | readIam | take | dealLine _ _ | replay _ | takenLine _ | send _ (.replay _) => true
  | _ => false

/-- **The steps of the catch-up**, up to the end of its loop. -/
inductive CatchUp (sh : Shared) (t : Thread) : Thread → Prop
  | asked (s : Seat) (hpc : t.pc = .readIam) : CatchUp sh t { t with seat := s, pc := .take }
  | copied (hpc : t.pc = .take) (hs : sh.seatsStatus t.seat = -1) (hd : sh.deal .N ≠ []) :
      CatchUp sh t (t.goto (.dealLine sh.trickTypeGlobal sh.dealStarter))
  | drafted (trickTypeLoc : ℕ) (dealStarterLoc : Seat)
      (hpc : t.pc = .dealLine trickTypeLoc dealStarterLoc) :
      CatchUp sh t
        (t.goto (.send (dealLine trickTypeLoc dealStarterLoc (sh.deal t.seat)) (.replay 0)))
  | sent (l : Text) (i : ℕ) (hpc : t.pc = .send l (.replay i)) :
      CatchUp sh t { t with outbox := l :: t.outbox, pc := .replay i }
  | next (i : ℕ) (hpc : t.pc = .replay i) (hi : i < sh.takenTricks.length) :
      CatchUp sh t (t.goto (.takenLine i))
  | taken (i : ℕ) (cards : List Text) (taker : Seat) (hpc : t.pc = .takenLine i)
      (hcards : sh.takenTricks[i]? = some cards) (htaker : sh.takenTakers[i]? = some taker) :
      CatchUp sh t (t.goto (.send (takenLine (i + 1) cards taker) (.replay (i + 1))))

theorem ThreadMove.catchUp {sh sh' : Shared} {c : ℕ} {t t' : Thread} {o : Outcome}
    (hm : ThreadMove sh c t o sh' t') (h : t'.pc.catchesUp = true) : CatchUp sh t t' := by
  cases hm with
  | iam l s hpc => exact .asked s hpc
  | take pc' hpc hs hpc' =>
    rcases hpc' with ⟨rfl, hd⟩ | ⟨rfl, -⟩
    · exact .copied hpc hs hd
    · cases h
  | copied a b hpc => exact .drafted a b hpc
  | next i hpc hi => exact .next i hpc hi
  | taken i cards taker hpc hcards htaker => exact .taken i cards taker hpc hcards htaker
  | sent l p hpc =>
    cases p with
    | replay i => exact .sent l i hpc
    | wrong k => cases k <;> cases h
    | _ => cases h
  | notSent l p => cases p <;> cases h
  | top => by_cases hb : (t.bIsBarrier || sh.bIsBarrierOngoing) = true <;>
      simp [Thread.atLoopTop, hb, Pc.catchesUp] at h
  | drained after hpc => rcases hpc with ⟨-, rfl⟩ | ⟨-, rfl⟩ <;> cases h
  | expired pc' hpc _ hpc' => rcases hpc' with rfl | ⟨rfl, -⟩ <;> cases h
  | waited pc' pipe ms hpc _ hpc' => rcases hpc' with rfl | rfl <;> cases h
  | byte b =>
    cases b with
    | barrierResponse =>
      by_cases ho : int16 (sh.occupied + 1) = 4 <;> simp [Thread.gotByte, ho, Pc.catchesUp] at h
    | _ => cases h
  | played k => cases k <;> cases h
  | close b => cases b <;> cases h
  | _ => cases h

end Kierki.Serwer
