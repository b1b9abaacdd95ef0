import Kierki.Table.Attends

/-!
# The table keeps in step

The runs in which all clients play on time. The server goes through one of its calm runs, and every
client, once it has heard what is on its way, is where the server is: so a card that comes in is the
one that the server waits for, and it is accepted.
-/

namespace Kierki

open Regex Senders Serwer Lib.Lts

namespace Serwer

section Accept

variable {sh : Shared} {pc : MainPc} {s s₀ : Seat} {k : Klient} {owed : List Text} {m card : Text}

/-- The board after an accepted card. -/
def Shared.accepted (sh : Shared) (c : ℕ) (s : Seat) (card : Text) : Shared :=
  { sh with
    cards := Function.update sh.cards s ((sh.cards s).erase card)
    cardsOnTable := sh.cardsOnTable ++ [card]
    playerTurn := none }.note (.accepted c s card)

lemma Shared.not_open_accepted (c : ℕ) : ¬Open (sh.accepted c s₀ card) pc s := by
  rintro ⟨-, ha⟩
  simp [accepted, acceptedSinceTurn] at ha

lemma InStep.board {sh' : Shared} (h : InStep sh pc s k owed) (hboard : sh'.board = sh.board) :
    InStep sh' pc s k owed := by
  simp only [Shared.board, Prod.mk.injEq] at hboard
  obtain ⟨⟨-, -, hcards⟩, ⟨hnumber, htable⟩, -, ⟨htricks, htakers⟩, hacc⟩ := hboard
  refine h.still (fun n hn => ⟨hnumber ▸ hn, ?_, by rw [hcards]⟩) rfl fun _ => ⟨?_, hnumber, htable,
    by rw [hcards]⟩
  · unfold Shared.won
    rw [htricks, htakers]
  · unfold Open
    rw [hacc]

/-- **The card of a client is accepted**, and the client is in step with it. -/
lemma InStep.accept (h : InStep sh pc s k owed) (c : ℕ) (hopen : Open sh pc s) (hne : owed ≠ []) :
    ∃ card, owed = [trickLine sh.trickNumber [card]] ∧
      TRICKClientCheck (trickLine sh.trickNumber [card]) = true ∧
      acceptedCard (sh.cards s) sh.cardsOnTable sh.trickNumber (trickLine sh.trickNumber [card]) =
        some card ∧ InStep (sh.accepted c s card) pc s k [] := by
  have hasked : pc.asked s = true := by
    by_contra hno
    exact hne (h.rests (by simpa using hno)).2.1
  obtain ⟨card, hlaid⟩ := h.laid hasked
  obtain ⟨howed, hperm, hcheck, hacc⟩ := hlaid.opened hopen
  refine ⟨card, howed, hcheck, hacc, h.isAi, h.seat, h.number, fun ha => ?_, fun _ => ⟨card,
    hlaid.played, fun ho => absurd ho (Shared.not_open_accepted c), fun _ => ⟨rfl, ?_, ?_⟩⟩⟩
  · rw [hasked] at ha
    cases ha
  · have := hperm.erase card
    rw [List.erase_cons_head] at this
    simpa [Shared.accepted] using this
  · simp [Shared.accepted]

lemma InStep.accepted (h : InStep sh pc s k owed) (c : ℕ) (hopen : Open sh pc s₀) (hne : s ≠ s₀) :
    InStep (sh.accepted c s₀ card) pc s k owed := by
  have hno : ¬Open sh pc s := fun ho => hne (Option.some.inj (ho.1.symm.trans hopen.1))
  have hcards : (sh.accepted c s₀ card).cards s = sh.cards s := by
    simp [Shared.accepted, hne]
  refine ⟨h.isAi, h.seat, h.number, fun ha => ?_, fun ha => ?_⟩
  · rw [hcards]
    exact h.rests ha
  · obtain ⟨card', hlaid⟩ := h.laid ha
    obtain ⟨howed, hperm, hmem⟩ := hlaid.closed hno
    refine ⟨card', hlaid.played, fun ho => absurd ho (Shared.not_open_accepted c),
      fun _ => ⟨howed, by rwa [hcards], List.mem_append_left _ hmem⟩⟩

lemma MainPc.told_of_wait (hw : pc.wait ≠ none) (s : Seat) :
    pc.told s ≠ some .taken ∧ pc.told s ≠ some .scores := by
  have hcaller : ∀ r : Caller, r.wait ≠ none → r.bulletin = none := by
    intro r hr
    cases r <;> first | rfl | exact absurd rfl hr
  cases pc <;> simp_all [MainPc.wait, MainPc.told]

lemma Known.announced_accepted {st : State} (hk : Known st) (c : ℕ)
    (hopen : Open st.sh st.main.pc s₀) (hne : s ≠ s₀) :
    (st.sh.accepted c s₀ card).announced s = st.sh.announced s := by
  have hno : ¬Open st.sh st.main.pc s := fun ho => hne (Option.some.inj (ho.1.symm.trans hopen.1))
  have hwait : st.main.pc.wait ≠ none := by rw [hopen.1]; simp
  have htold := MainPc.told_of_wait hwait s
  refine Shared.announced_congr rfl fun b hb => ?_
  cases b with
  | cardPlay => exact absurd hb (hk.turn.closed s hno).1
  | taken => exact absurd (hk.piped.told s .taken hb) htold.1
  | deal => simp [Shared.meaning, Shared.accepted, hne]
  | _ => rfl

end Accept

section Quiet

variable {st : State} {s : Seat} {k : Klient} {owed : List Text}

/-- Only in the turn of the seat there are lines of its client to be judged. -/
lemma InStep.owed_eq_nil {sh : Shared} {pc : MainPc} (h : InStep sh pc s k owed)
    (hno : ¬Open sh pc s) : owed = [] := by
  cases ha : pc.asked s with
  | false => exact (h.rests ha).2.1
  | true =>
    obtain ⟨card, hlaid⟩ := h.laid ha
    exact (hlaid.closed hno).1

lemma Known.outside (hk : Known st) (hpc : st.main.pc.opening = true ∨ st.main.pc.closing = true) :
    st.main.pc.wait = none ∧ ∀ s, st.main.pc.told s = none ∧ st.main.pc.asked s = false ∧
      ∀ n, st.main.pc.expects n s = none := by
  have hcloses := hk.plays.closes
  generalize st.main.pc = pc at hpc hcloses
  have hstart : ∀ r : Caller, r = .startGame →
      r.wait = none ∧ r.bulletin = none ∧ ∀ n, r.expects n = none := by
    rintro r rfl
    exact ⟨rfl, rfl, fun _ => rfl⟩
  rcases hpc with hpc | hpc
  · obtain ⟨r, hr, hcaller⟩ : ∃ r : Caller, r = .startGame ∧ pc.caller = some r := by
      unfold MainPc.opening at hpc
      split at hpc <;> first | exact ⟨_, rfl, rfl⟩ | cases hpc
    obtain ⟨hwait, hbulletin, hexpects⟩ := hstart r hr
    cases pc <;> cases hcaller <;>
      first
        | exact ⟨hwait, fun s => ⟨hbulletin, rfl, hexpects⟩⟩
        | exact ⟨hwait, fun s => ⟨rfl, rfl, hexpects⟩⟩
  · cases pc <;> cases hpc <;> exact ⟨(hcloses _ rfl).2, fun s => ⟨rfl, rfl, fun _ => rfl⟩⟩

lemma Known.announced_outside (hk : Known st)
    (hpc : st.main.pc.opening = true ∨ st.main.pc.closing = true) (s : Seat) :
    st.sh.announced s = [] := by
  obtain ⟨hwait, hquiet⟩ := hk.outside hpc
  refine Shared.announced_eq_nil (fun b hb => ?_) ((hk.turn.idle hwait).1 s)
  have := hk.piped.told s b hb
  rw [(hquiet s).1] at this
  cases this

end Quiet

end Serwer

namespace Table

variable {timeout : ℤ} {deals : List Deal} {T T' : Table} {c : ℕ}

/-- **The invariant of the table.** -/
structure Attuned (timeout : ℤ) (deals : List Deal) (T : Table) : Prop where
  calm : Serwer.RunsTo Calm timeout deals T.server
  seats : ∀ c < T.server.threadId, ∀ c' < T.server.threadId,
    (T.clients c).seat = (T.clients c').seat → c = c'
  unread : ∀ c, T.server.threadId ≤ c → T.down c = []
  unqueued : ∀ s, T.server.sh.barrierMessages s = []
  attends : ∀ c < T.server.threadId, Attends T.server.sh T.server.main.pc (T.server.threads c)
    (T.clients c) (T.down c) (T.up c)
  inStep : ∀ c < T.server.threadId, ∃ k owed, T.Hears c k owed ∧
    InStep T.server.sh T.server.main.pc (T.clients c).seat k owed

section Facts

variable (h : Attuned timeout deals T)
include h

lemma Attuned.known : Known T.server := Serwer.known h.calm

lemma Attuned.lt_of_pc (hpc : (T.server.threads c).pc ≠ .absent) : c < T.server.threadId := by
  by_contra hc
  exact hpc (h.known.numbered c (not_lt.mp hc))

lemma Attuned.exists_of_taken {s : Seat} (hs : T.server.sh.seatsStatus s ≠ -1) :
    ∃ c < T.server.threadId, (T.server.threads c).pc.kind ≠ .fresh ∧ (T.clients c).seat = s := by
  obtain ⟨c, hb⟩ := h.known.seated.taken s hs
  obtain ⟨hseat, hk⟩ := h.known.seated.seat_of_between hb
  have hpc : ∀ pc, (T.server.threads c).pc = pc → pc.kind ≠ .fresh := fun pc hpc hfresh =>
    hk ((Thread.kind_eq hpc).trans hfresh)
  have hlt : c < T.server.threadId := h.lt_of_pc fun habsent => hpc _ habsent rfl
  refine ⟨c, hlt, hpc _ rfl, ?_⟩
  rw [← (h.attends c hlt).seat fun hiam => hpc _ hiam rfl]
  exact hseat

lemma Attuned.free (hpc : (T.server.threads c).pc = .take) :
    T.server.sh.seatsStatus (T.server.threads c).seat = -1 := by
  have hlt : c < T.server.threadId := h.lt_of_pc (by rw [hpc]; simp)
  by_contra hs
  obtain ⟨c', hlt', hk, hseat⟩ := h.exists_of_taken hs
  rw [(h.attends c hlt).seat (by rw [hpc]; simp)] at hseat
  obtain rfl := h.seats c' hlt' c hlt hseat
  rw [hpc] at hk
  exact hk rfl

/-- **A line that is there to be judged** is the card that the server waits for. -/
lemma Attuned.turn (hc : c < T.server.threadId)
    (hk : (T.server.threads c).pc.kind = .play ∨ (T.server.threads c).pc.kind = .parsing)
    (hne : (T.server.threads c).unjudged (T.up c) ≠ []) :
    ∃ k card, T.Hears c k [trickLine T.server.sh.trickNumber [card]] ∧
      Open T.server.sh T.server.main.pc (T.clients c).seat ∧
      (T.server.threads c).seat = (T.clients c).seat ∧
      (T.server.threads c).bWasDestinedToPlay = true ∧
      (T.server.threads c).currentTrick = T.server.sh.trickNumber ∧
      T.server.sh.serverWritePipes (T.clients c).seat = [] ∧
      TRICKClientCheck (trickLine T.server.sh.trickNumber [card]) = true ∧
      acceptedCard (T.server.sh.cards (T.clients c).seat) T.server.sh.cardsOnTable
        T.server.sh.trickNumber (trickLine T.server.sh.trickNumber [card]) = some card ∧
      InStep (T.server.sh.accepted c (T.clients c).seat card) T.server.main.pc (T.clients c).seat k
        [] := by
  have hn := h.known
  have ha := h.attends c hc
  obtain ⟨k, owed, hears, hin⟩ := h.inStep c hc
  have hseat : (T.server.threads c).seat = (T.clients c).seat := ha.seat (by
    intro hpc
    rw [hpc] at hk
    rcases hk with hk | hk <;> cases hk)
  have hd := ha.destined (by simp [hne])
  have hperm : (T.server.view c).perm = true := by
    have hkind : (T.server.view c).kind = (T.server.threads c).pc.kind := rfl
    have hdestined : (T.server.view c).destined = true := hd
    unfold View.perm
    rw [hkind]
    rcases hk with hk | hk <;> rw [hk] <;> exact hdestined
  have hopen : Open T.server.sh T.server.main.pc (T.clients c).seat :=
    hn.turn.perm_open hseat hperm
  have howed : owed ≠ [] := by
    rw [← hears.2]
    simp [hne]
  obtain ⟨card, rfl, hcheck, hacc, hnext⟩ := hin.accept c hopen howed
  have hasked : T.server.main.pc.asked (T.clients c).seat = true := by
    by_contra hno
    exact howed (hin.rests (by simpa using hno)).2.1
  have hcard : .cardPlay ∉ T.server.sh.serverWritePipes (T.clients c).seat := by
    intro hb
    have := hn.unasked _ (.inl hb) c hseat
    rw [hperm] at this
    cases this
  have hpolls : (T.server.threads c).pc.kind.polls = true := by
    rcases hk with hk | hk <;> rw [hk] <;> rfl
  exact ⟨k, card, hears, hopen, hseat, hd, ha.copied hpolls hasked hcard,
    (hn.piped.asked _ hasked).eq_nil hcard, hcheck, hacc, hnext⟩

/-- In the turn of a seat its thread is in no barrier. -/
lemma Attuned.unbarred {pipe : Bool} (hpc : (T.server.threads c).pc = .readSocket pipe)
    (hne : T.up c ≠ []) : (T.server.threads c).bIsBarrier = false := by
  have hn := h.known
  have hlt : c < T.server.threadId := h.lt_of_pc (by rw [hpc]; simp)
  obtain ⟨k, card, -, hopen, hseat, -, -, hpipe, -⟩ := h.turn hlt (.inl (by rw [hpc]; rfl))
    (by simpa [Thread.unjudged, Thread.parses, hpc] using hne)
  have hwait : T.server.main.pc.wait ≠ none := by rw [hopen.1]; simp
  have hclosing : T.server.main.pc.closing = false := by
    by_contra hclosing
    exact hwait (hn.outside (.inr (by simpa using hclosing))).1
  have hending : T.server.main.pc.ending = [] := by
    have hcaller := hn.staying.caller
    revert hwait hcaller
    cases T.server.main.pc <;> simp_all [MainPc.ending, MainPc.caller, MainPc.wait]
  have hmode := (hn.flagged ⟨hn.staying.not_inBarrier hwait, hclosing⟩).threads hn.unreleased c
    (show (T.server.threads c).pc.kind.polls = true by rw [hpc]; rfl)
  have hcoming : Serwer.coming T.server.sh T.server.main.pc (T.server.view c).seat = [] := by
    show Serwer.coming _ _ (T.server.threads c).seat = []
    simp [Serwer.coming, hseat, hpipe, hending]
  rw [hcoming] at hmode
  exact hmode

/-- **All goes well for every thread.** -/
theorem Attuned.smooth (hc : c < T.server.threadId) :
    Smooth T.server.sh (T.server.threads c) (T.up c) where
  orderly := (h.attends c hc).orderly
  iam hpc := ⟨_, ((h.attends c hc).iam hpc).1⟩
  free hpc := ⟨h.free hpc, (h.known.gathered.free _ (h.free hpc)).1⟩
  good := h.known.checked c
  unbarred _ hpc := h.unbarred hpc
  unqueued := h.unqueued _
  legal m after hpc := by
    obtain ⟨k, card, hears, -, hseat, hd, hnumber, -, -, hacc, -⟩ := h.turn hc
      (.inr (by rw [hpc]; rfl)) (by simp [Thread.unjudged, Thread.parses, hpc])
    have hm : m :: (T.up c ++ (T.clients c).answers (T.coming c)) =
        [trickLine T.server.sh.trickNumber [card]] := by
      rw [← hears.2]
      simp [Thread.unjudged, Thread.parses, hpc]
    rw [hseat, hnumber, (List.cons.inj hm).1, hacc]
    exact ⟨hd, by simp⟩

end Facts

end Table

end Kierki
