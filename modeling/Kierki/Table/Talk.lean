import Kierki.Klient.Requests
import Kierki.Serwer.Queue
import Kierki.Table.Work

/-!
# The lines on their way

What a client is still to hear: the lines on the connection, those its thread is about to send, and
those the bytes in the pipe of its thread stand for. As long as what the bytes mean does not change, a
step of the thread or of the client only moves a line along, so the client that has heard everything
is the same before the step and after it, and so are the answers that come of it.
-/

namespace Kierki

open Regex Senders Serwer

namespace Serwer

/-! ### What a thread is about to say -/

/-- The lines of which the thread is sending the first. -/
def Pc.draft : Pc → List Text
  | .send l (.score total) => [l, total]
  | .send l _ => [l]
  | _ => []

/-- What the thread of a seat will tell its client for a byte. -/
def Shared.meaning (sh : Shared) (s : Seat) : Byte → List Text
  | .deal => [dealLine sh.trickTypeGlobal sh.lastTaker (sh.cards s)]
  | .cardPlay => [trickLine sh.trickNumber sh.cardsOnTable]
  | .taken => [takenLine sh.trickNumber sh.cardsOnTable sh.lastTaker]
  | .scores => [scoreLine sh.roundScores, totalLine sh.totalScores]
  | .barrierResponse | .barrierEnd | .disconnected => []

/-- What the bytes in the pipe of a seat stand for. -/
def Shared.announced (sh : Shared) (s : Seat) : List Text :=
  (sh.serverWritePipes s).flatMap (sh.meaning s)

/-- The lines of the client that its thread has still to judge, `written` being those it has not read
yet; the first line of a connection is not one of them. -/
def Thread.unjudged (t : Thread) (written : List Text) : List Text :=
  t.parses ++ if t.pc = .readIam then written.tail else written

section Announced

variable {sh sh' : Shared} {s s₀ : Seat} {b : Byte} {rest : List Byte}

lemma Shared.announced_tell : (sh.tell s₀ b).announced s =
    sh.announced s ++ if s = s₀ then sh.meaning s b else [] := by
  have hmeaning : (sh.tell s₀ b).meaning s = sh.meaning s := by
    funext b'
    cases b' <;> rfl
  unfold announced
  rw [hmeaning]
  by_cases hs : s = s₀
  · subst hs
    simp
  · simp [hs]

lemma Shared.announced_congr (hp : sh'.serverWritePipes s = sh.serverWritePipes s)
    (hb : ∀ b ∈ sh.serverWritePipes s, sh'.meaning s b = sh.meaning s b) :
    sh'.announced s = sh.announced s := by
  unfold announced
  rw [hp]
  exact List.flatMap_congr hb

lemma Shared.announced_eq_nil (hb : ∀ b : Bulletin, b.byte ∉ sh.serverWritePipes s)
    (hc : .cardPlay ∉ sh.serverWritePipes s) : sh.announced s = [] := by
  unfold announced
  rw [List.flatMap_eq_nil_iff]
  intro b hmem
  cases b with
  | cardPlay => exact absurd hmem hc
  | deal => exact absurd hmem (hb .deal)
  | taken => exact absurd hmem (hb .taken)
  | scores => exact absurd hmem (hb .scores)
  | disconnected | barrierResponse | barrierEnd => rfl

end Announced

section Work

variable {sh sh' : Shared} {c : ℕ} {t t' : Thread} {o : Outcome} {written : List Text}

/-- What the lines to the clients are made of, and what else only an accepted card changes. -/
def Shared.board (sh : Shared) : (ℕ × Seat × (Seat → List Text)) × (ℕ × List Text) ×
    ((Seat → ℤ) × (Seat → ℤ)) × (List (List Text) × List Seat) × Bool :=
  ((sh.trickTypeGlobal, sh.lastTaker, sh.cards), (sh.trickNumber, sh.cardsOnTable),
    (sh.roundScores, sh.totalScores), (sh.takenTricks, sh.takenTakers), acceptedSinceTurn sh.log)

lemma Shared.meaning_of_board (h : sh'.board = sh.board) : sh'.meaning = sh.meaning := by
  simp only [board, Prod.mk.injEq] at h
  obtain ⟨⟨htype, htaker, hcards⟩, ⟨hnumber, htable⟩, ⟨hround, htotal⟩, -⟩ := h
  funext s b
  cases b <;> simp only [meaning, htype, htaker, hcards, hnumber, htable, hround, htotal]

lemma Work.board (hw : Work sh c t o sh' t') (hno : t.parses = []) : sh'.board = sh.board := by
  cases hw with
  | byte b => cases b <;> rfl
  | accept m k card hpc =>
    unfold Thread.parses at hno
    rw [hpc] at hno
    cases hno
  | _ => rfl

private lemma After.draft (k : After) : k.pc.draft = [] := by
  cases k <;> rfl

private lemma Thread.sent_draft (l : Text) (p : Purpose) :
    (Pc.send l p).draft = l :: (t.sent p).pc.draft := by
  cases p with
  | wrong k => cases k <;> rfl
  | _ => rfl

/-- A byte is taken out of the pipe, and its meaning comes up. -/
lemma Thread.gotByte_told {b : Byte} {rest : List Byte}
    (hp : sh.serverWritePipes t.seat = b :: rest) (hnum : b = .taken → t.currentTrick = sh.trickNumber) :
    (t.gotByte (sh.heard t.seat rest) c b).2.pc.draft = sh.meaning t.seat b ∧
      (t.gotByte (sh.heard t.seat rest) c b).1.serverWritePipes t.seat = rest := by
  cases b with
  | barrierResponse =>
    refine ⟨?_, by simp [gotByte]⟩
    simp only [gotByte]
    split <;> rfl
  | taken => exact ⟨by simp [gotByte, Pc.draft, Shared.meaning, hnum rfl], by simp [gotByte]⟩
  | _ => exact ⟨rfl, by simp [gotByte]⟩

lemma Pc.Walks.draft {pc pc' : Pc} (h : pc.Walks o pc') :
    pc.draft = [] ∧ pc'.draft = [] ∧ ∀ l p, pc ≠ .send l p := by
  cases h <;> exact ⟨rfl, rfl, by simp⟩

lemma Pc.Walks.unread {pc pc' : Pc} (h : pc.Walks o pc') (written : List Text) :
    pc ≠ .readIam ∧ pc' ≠ .readIam ∧ o.unread written = written ∧ ∀ m k, pc' ≠ .parse m k := by
  cases h <;> exact ⟨by simp, by simp, rfl, by simp⟩

lemma Thread.writes_eq_nil (h : ∀ l p, t.pc ≠ .send l p) : t.writes o = [] := by
  unfold writes
  split
  · rename_i hpc
    exact absurd hpc (h _ _)
  · rfl

/-- **A thread moves a line along**, and makes of a byte what the byte means. -/
lemma Work.told (hw : Work sh c t o sh' t') (hno : t.parses = []) {s : Seat}
    (hs : t.pc = .readIam ∨ t.seat = s)
    (hnum : t.pc.kind.polls = true → .taken ∈ sh.serverWritePipes s →
      t.currentTrick = sh.trickNumber) :
    t.pc.draft ++ sh.announced s = t.writes o ++ (t'.pc.draft ++ sh'.announced s) := by
  have hm := Shared.meaning_of_board (hw.board hno)
  have hquiet : t.pc.draft = [] → t.writes o = [] → t'.pc.draft = [] →
      sh'.serverWritePipes s = sh.serverWritePipes s →
      t.pc.draft ++ sh.announced s = t.writes o ++ (t'.pc.draft ++ sh'.announced s) := by
    intro hd hwrites hd' hp
    rw [hd, hwrites, hd', Shared.announced_congr hp fun b _ => by rw [hm]]
    rfl
  cases hw with
  | tell l p hpc =>
    have hd := Thread.sent_draft (t := { t with outbox := l :: t.outbox }) l p
    have hwrites : t.writes .tick = [l] := by simp [Thread.writes, hpc]
    rw [← hpc] at hd
    rw [hd, hwrites]
    rfl
  | byte b rest hpc hp =>
    obtain rfl : t.seat = s := hs.resolve_left (by simp [hpc])
    obtain ⟨hdraft, hrest⟩ := Thread.gotByte_told (c := c) hp fun hb =>
      hnum (by rw [hpc]; rfl) (by simp [hp, hb])
    have hwrites : t.writes .tick = [] := by simp [Thread.writes, hpc]
    have hd : t.pc.draft = [] := by simp [Pc.draft, hpc]
    unfold Shared.announced
    rw [hm, hd, hwrites, hdraft, hrest, hp]
    rfl
  | accept m k card hpc =>
    unfold Thread.parses at hno
    rw [hpc] at hno
    cases hno
  | iam s' hpc | take hpc | join hpc | line pipe l hpc | woke hpc | dismissed hpc =>
    exact hquiet (by rw [hpc]; rfl) (by simp [Thread.writes, hpc]) rfl rfl
  | listen pipe ms hpc => exact hquiet (by rw [hpc]; rfl) (by simp [Thread.writes, hpc]) rfl rfl
  | played k hpc => exact hquiet (by rw [hpc]; rfl) (by simp [Thread.writes, hpc]) k.draft rfl
  | top hpc =>
    refine hquiet (by rw [hpc]; rfl) (by simp [Thread.writes, hpc]) ?_ rfl
    simp only [Thread.atLoopTop]
    split <;> rfl
  | walk o pc' h =>
    obtain ⟨hd, hd', hsend⟩ := h.draft
    exact hquiet hd (Thread.writes_eq_nil hsend) hd' rfl

lemma Work.pipe_other (hw : Work sh c t o sh' t') (s : Seat) (hs : t.pc = .readIam ∨ s ≠ t.seat) :
    sh'.serverWritePipes s = sh.serverWritePipes s := by
  cases hw with
  | byte b rest hpc =>
    have hne : s ≠ t.seat := hs.resolve_left (by simp [hpc])
    cases b <;> simp [Thread.gotByte, hne]
  | _ => rfl

lemma Work.announced_other (hw : Work sh c t o sh' t') (hno : t.parses = []) {s : Seat}
    (hs : t.pc = .readIam ∨ s ≠ t.seat) : sh'.announced s = sh.announced s :=
  Shared.announced_congr (hw.pipe_other s hs) fun b _ => by rw [Shared.meaning_of_board (hw.board hno)]

private lemma Thread.unjudged_of {up : List Text} (hpc : t.pc ≠ .readIam) :
    t.unjudged up = t.parses ++ up := by
  simp [unjudged, hpc]

/-- **A line of the client is moved along too.** -/
lemma Work.unjudged (hw : Work sh c t o sh' t') (hno : t.parses = []) (hfit : o.Fits written)
    (hiam : t.pc = .readIam → ∃ l, written = [l]) :
    t'.unjudged (o.unread written) = t.unjudged written := by
  have hquiet : t.pc ≠ .readIam → t'.pc ≠ .readIam → o.unread written = written → t'.parses = [] →
      t'.unjudged (o.unread written) = t.unjudged written := by
    intro hpc hpc' ho hno'
    rw [Thread.unjudged_of hpc, Thread.unjudged_of hpc', ho, hno, hno']
  cases hw with
  | iam s hpc =>
    obtain ⟨l, rfl⟩ := hiam hpc
    simp [Thread.unjudged, Thread.parses, hpc, Outcome.unread]
  | line pipe l hpc =>
    obtain ⟨rest, rfl⟩ : ∃ rest, written = l :: rest := by
      cases written with
      | nil => cases hfit
      | cons a rest =>
        obtain rfl : a = l := Option.some.inj hfit
        exact ⟨rest, rfl⟩
    simp [Thread.unjudged, Thread.parses, hpc, Outcome.unread]
  | accept m k card hpc =>
    unfold Thread.parses at hno
    rw [hpc] at hno
    cases hno
  | tell l p hpc =>
    refine hquiet (by simp [hpc]) ?_ rfl ?_ <;>
    cases p with
    | wrong k => cases k <;> simp [Thread.sent, After.pc, Thread.parses]
    | _ => simp [Thread.sent, Thread.parses]
  | byte b rest hpc =>
    refine hquiet (by simp [hpc]) ?_ rfl ?_ <;>
    cases b with
    | barrierResponse =>
      by_cases ho : int16 (sh.occupied + 1) = 4 <;> simp [Thread.gotByte, Thread.parses, ho]
    | _ => simp [Thread.gotByte, Thread.parses, Thread.close]
  | played k hpc =>
    refine hquiet (by simp [hpc]) ?_ rfl ?_ <;> cases k <;> simp [After.pc, Thread.parses]
  | top hpc =>
    by_cases hb : (t.bIsBarrier || sh.bIsBarrierOngoing) = true <;>
      exact hquiet (by simp [hpc]) (by simp [Thread.atLoopTop, hb]) rfl
        (by simp [Thread.atLoopTop, Thread.parses, hb])
  | walk o pc' h =>
    obtain ⟨hpc, hpc', ho, hparse⟩ := h.unread written
    exact hquiet hpc hpc' ho (by unfold Thread.parses; split <;> simp_all)
  | take hpc | join hpc | listen pipe ms hpc | woke hpc | dismissed hpc =>
    exact hquiet (by simp [hpc]) (by simp [Thread.join, Thread.closeStep]) rfl
      (by simp [Thread.parses, Thread.join, Thread.closeStep])

end Work

section Main

variable {sh sh' : Shared} {m m' : Main} {v : ℕ → View}

/-- The byte with a meaning that the main thread is about to write to the seat. -/
def MainPc.speaks : MainPc → Seat → Option Byte
  | announce b (s₀ :: _), s => if s = s₀ then some b.byte else none
  | turnSend s₀ _, s => if s = s₀ then some .cardPlay else none
  | _, _ => none

private lemma Piped.silent {pc : MainPc} (h : Piped sh pc) (hturn : TurnInv sh pc v)
    (hw : pc.wait = none) {s : Seat} (htold : pc.told s = none)
    (hp : sh'.serverWritePipes s = sh.serverWritePipes s) : sh'.announced s = sh.announced s := by
  have hb : ∀ b : Bulletin, b.byte ∉ sh.serverWritePipes s := by
    intro b hb
    have := h.told s b hb
    rw [htold] at this
    cases this
  have hc := (hturn.idle hw).1 s
  rw [Shared.announced_eq_nil hb hc, Shared.announced_eq_nil (by rwa [hp]) (by rwa [hp])]

/-- **What the main thread announces** is what it has just said, and nothing announced before changes
its meaning. -/
theorem MainMove.announced (hm : MainMove sh m sh' m') (hp : Piped sh m.pc)
    (hturn : TurnInv sh m.pc v) (s : Seat) :
    sh'.announced s = sh.announced s ++ ((m.pc.speaks s).map (sh.meaning s)).getD [] := by
  have hquiet : ∀ {b₀ : Byte} {s₀ : Seat}, sh.meaning s b₀ = [] →
      (sh.tell s₀ b₀).announced s = sh.announced s ++ [] := by
    intro b₀ s₀ hb
    rw [Shared.announced_tell, hb, ite_self]
  have hspeaks : ∀ {b₀ : Byte} {s₀ : Seat}, (sh.tell s₀ b₀).announced s = sh.announced s ++
      (((if s = s₀ then some b₀ else none : Option Byte)).map (sh.meaning s)).getD [] := by
    intro b₀ s₀
    rw [Shared.announced_tell]
    split <;> rfl
  cases hm with
  | ask s₀ left r hpc | askLast s₀ r hpc | resend s₀ ready r hpc | release s₀ left r hpc
  | releaseLast s₀ r hpc | closeSeat s₀ left e w hpc =>
    rw [hpc]
    exact hquiet rfl
  | announce b s₀ left hpc | announceLast b s₀ hpc | turnSend s₀ rest hpc =>
    rw [hpc]
    exact hspeaks
  | load d rest hpc | start hpc | trickEnd calculator taker points hpc | dealEnd hpc =>
    rw [hpc] at hp hturn ⊢
    show _ = sh.announced s ++ []
    rw [List.append_nil]
    exact hp.silent hturn rfl rfl rfl
  | trick hpc =>
    rw [hpc] at hp hturn ⊢
    have hno : ∀ b : Bulletin, b.byte ∈ sh.serverWritePipes s → b = .deal := by
      intro b hb
      exact (Option.some.inj (hp.told s b hb)).symm
    show _ = sh.announced s ++ []
    rw [List.append_nil]
    refine Shared.announced_congr rfl fun b hb => ?_
    cases b with
    | taken => cases hno .taken hb
    | cardPlay => exact absurd hb ((hturn.idle rfl).1 s)
    | scores => cases hno .scores hb
    | _ => rfl
  | reset r hpc | poll ready r hpc | lost s₀ ready r rest hpc | woken s₀ ready r rest hpc
  | badBarrier s₀ ready r b rest hpc | stay r hpc | pass r hpc | gameOver hpc | turnSet s₀ rest hpc
  | cardPoll s₀ rest ready hpc | gotCard s₀ rest ready got left hpc
  | lostPlayer s₀ j rest ready got left hpc | badDeal s₀ j rest ready got b left hpc
  | waitOn s₀ rest hpc | nextTurn s₀ rest hpc | lastTurn s₀ hpc | close e w hpc =>
    rw [hpc]
    exact (List.append_nil _).symm

end Main

end Serwer

/-! ### A client that has heard everything -/

namespace Table

variable {T T' : Table} {c : ℕ}

/-- What the client of connection `c` is still to hear. -/
def coming (T : Table) (c : ℕ) : List Text :=
  T.down c ++ ((T.server.threads c).pc.draft ++ T.server.sh.announced (T.clients c).seat)

/-- The client of connection `c` is `k` when it has heard everything, which it can make sense of, and
`owed` are the lines of it that are then still to be judged. -/
structure Hears (T : Table) (c : ℕ) (k : Klient) (owed : List Text) : Prop where
  hears : (T.clients c).receiveAll (T.coming c) = some k
  owes : (T.server.threads c).unjudged (T.up c) ++ (T.clients c).answers (T.coming c) = owed
  understands : (T.clients c).Understands (T.coming c)

lemma Hears.unique {k k' : Klient} {owed owed' : List Text} (h : T.Hears c k owed)
    (h' : T.Hears c k' owed') : k = k' ∧ owed = owed' :=
  ⟨Option.some.inj (h.1.symm.trans h'.1), h.2.symm.trans h'.2⟩

lemma Hears.still {k : Klient} {owed : List Text} (h : T.Hears c k owed)
    (hclient : T'.clients c = T.clients c)
    (hunjudged : (T'.server.threads c).unjudged (T'.up c) = (T.server.threads c).unjudged (T.up c))
    (hcoming : T'.coming c = T.coming c) : T'.Hears c k owed := by
  constructor
  · rw [hclient, hcoming]
    exact h.hears
  · rw [hclient, hunjudged, hcoming]
    exact h.owes
  · rw [hclient, hcoming]
    exact h.understands

lemma Hears.more {k k' : Klient} {owed ls : List Text} (h : T.Hears c k owed)
    (hclient : T'.clients c = T.clients c) (hthread : T'.server.threads c = T.server.threads c)
    (hup : T'.up c = T.up c) (hcoming : T'.coming c = T.coming c ++ ls)
    (hk : k.receiveAll ls = some k') (hls : k.Understands ls) :
    T'.Hears c k' (owed ++ k.answers ls) := by
  obtain ⟨hr, rfl, hunderstands⟩ := h
  constructor
  · rw [hclient, hcoming, Klient.receiveAll_append, hr]
    exact hk
  · rw [hclient, hcoming, hthread, hup, Klient.answers_append hr, List.append_assoc]
  · rw [hclient, hcoming]
    exact hunderstands.append hr hls

lemma coming_client (hs : T.step (.client c) = some T') :
    (∀ c', (T'.clients c').seat = (T.clients c').seat) ∧
      T.coming c = (T.down c).take 1 ++ T'.coming c ∧ ∀ c' ≠ c, T'.coming c' = T.coming c' := by
  obtain ⟨l, rest, k, out, hdown, hrec, hserver, hclients, hdown', -⟩ := step_client hs
  have hseat : ∀ c', (T'.clients c').seat = (T.clients c').seat := by
    intro c'
    rw [hclients]
    by_cases hcc : c' = c
    · subst hcc
      rw [Function.update_self]
      exact Klient.receive_seat hrec
    · rw [Function.update_of_ne hcc]
  refine ⟨hseat, ?_, fun c' hcc => ?_⟩
  · unfold coming
    rw [hserver, hseat, hdown', hdown, Function.update_self]
    rfl
  · unfold coming
    rw [hserver, hseat, hdown', Function.update_of_ne hcc]

/-- A client that reads a line has heard the same in the end. -/
lemma Hears.read {k : Klient} {owed : List Text} (h : T.Hears c k owed)
    (hs : T.step (.client c) = some T') (hiam : (T.server.threads c).pc = .readIam → T.up c ≠ []) :
    T'.Hears c k owed := by
  obtain ⟨l, rest, k₁, out, hdown, hrec, hserver, hclients, hdown', hup'⟩ := step_client hs
  have hcoming : T.coming c = l :: T'.coming c := by
    rw [(coming_client hs).2.1, hdown]
    rfl
  obtain ⟨hr, rfl, hunderstands⟩ := h
  rw [hcoming] at hunderstands
  obtain ⟨-, r, hrec', hrest⟩ := hunderstands
  obtain rfl : r = (k₁, out) := Option.some.inj (hrec'.symm.trans hrec)
  rw [hcoming, Klient.receiveAll_cons, hrec] at hr
  have hclient : T'.clients c = k₁ := by rw [hclients, Function.update_self]
  refine ⟨by rw [hclient]; exact hr, ?_, by rw [hclient]; exact hrest⟩
  rw [hclient, hserver, hup', Function.update_self, hcoming]
  simp only [Klient.answers, hrec]
  have hunjudged : (T.server.threads c).unjudged (T.up c ++ out) =
      (T.server.threads c).unjudged (T.up c) ++ out := by
    unfold Thread.unjudged
    split
    · rename_i hpc
      rw [List.tail_append_of_ne_nil (hiam hpc), List.append_assoc]
    · rw [List.append_assoc]
  rw [hunjudged, List.append_assoc]

end Table

end Kierki
