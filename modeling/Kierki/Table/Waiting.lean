import Kierki.Serwer.Awaited
import Kierki.Table.Kept

/-!
# Nobody waits for ever

As long as the game is not over there is something to do at the table: a thread that waits in `poll`
has read everything, so its client has said all it has to say, and then the main thread finds the byte
it waits for.
-/

namespace Kierki

open Regex Senders Serwer Lib.Lts

namespace Serwer

/-- `poll` found the pipe readable, and the thread is still to read it. -/
def Pc.promised : Pc → Bool
  | readSocket pipe | readPipe pipe | parse _ (.pipe pipe) | writeCardPlay (.pipe pipe) => pipe
  | _ => false

/-- What a thread was told by `poll` is still so, it ends only when the server closes, and the time it
has left fits into its variable. -/
structure Alert (sh : Shared) (pc : MainPc) (t : Thread) (up : List Text) : Prop where
  readable : ∀ pipe, t.pc = .readSocket pipe → up ≠ []
  promised : t.pc.promised = true → sh.serverWritePipes t.seat ≠ []
  finished : t.pc.kind = .finished → pc.closing = true
  bounded : t.timeoutCopy < 2147483648

section Thread

variable {sh sh' : Shared} {pc : MainPc} {c : ℕ} {t t' : Thread} {o : Outcome} {up : List Text}

lemma threadStep_ready {socket pipe : Bool} {ms : ℤ} {r : Shared × Thread} (hpc : t.pc = .poll)
    (h : threadStep sh c t (.ready socket pipe ms) = some r) :
    (socket || pipe) = true ∧ (pipe = true → sh.serverWritePipes t.seat ≠ []) := by
  have hstep : (t.pollStep sh (.ready socket pipe ms)).map (fun t' => (sh, t')) = some r := by
    unfold threadStep at h
    rw [hpc] at h
    exact h
  obtain ⟨t₁, ht₁, -⟩ := Option.map_eq_some_iff.mp hstep
  simp only [Thread.pollStep] at ht₁
  split_ifs at ht₁ with hr <;> exact hr

/-- **A thread stays alert.** -/
lemma Alert.work (h : Alert sh pc t up) (hord : t.pc.orderly = true) (hw : Work sh c t o sh' t')
    (hfit : o.Fits up) (hstep : threadStep sh c t o = some (sh', t'))
    (hclosing : t.pc = .closeLock true → pc.closing = true) (htimeout : sh.timeout < 2147483648) :
    Alert sh' pc t' (o.unread up) := by
  -- a point at which nothing is to be remembered
  have hplain : ∀ {t'' : Thread}, (∀ pipe, t''.pc ≠ .readSocket pipe) → t''.pc.promised = false →
      t''.pc.kind ≠ .finished → t''.timeoutCopy < 2147483648 → Alert sh' pc t'' (o.unread up) :=
    fun hsocket hpromised hkind hbounded => ⟨fun pipe hp => absurd hp (hsocket pipe),
      fun hp => absurd hp (by simp [hpromised]), fun hk => absurd hk hkind, hbounded⟩
  cases hw with
  | iam s hpc => exact hplain (by simp) rfl (by simp [Pc.kind]) h.bounded
  | take hpc => exact hplain (by simp) rfl (by simp [Pc.kind]) h.bounded
  | join hpc => exact hplain (by simp [Thread.join]) rfl (by simp [Thread.join, Pc.kind]) htimeout
  | tell l p hpc =>
    rw [hpc] at hord
    cases p with
    | cardPlay | inform | score =>
      exact hplain (by simp [Thread.sent]) rfl (by simp [Thread.sent, Pc.kind]) h.bounded
    | _ => cases hord
  | top hpc =>
    by_cases hb : (t.bIsBarrier || sh.bIsBarrierOngoing) = true <;>
      exact hplain (by simp [Thread.atLoopTop, hb]) (by simp [Thread.atLoopTop, hb, Pc.promised])
        (by simp [Thread.atLoopTop, hb, Pc.kind]) h.bounded
  | walk o pc' hwalk =>
    generalize hpc : t.pc = pc₀ at hwalk
    cases hwalk with
    | drained | drainedEnd | skip => exact hplain (by simp) rfl (by simp [Pc.kind]) h.bounded
    | readable pipe ms =>
      exact ⟨fun _ _ => hfit rfl, (threadStep_ready hpc hstep).2, fun hk => (by cases hk), h.bounded⟩
    | heard pipe ms =>
      exact ⟨fun _ hp => (by cases hp), (threadStep_ready hpc hstep).2, fun hk => (by cases hk),
        h.bounded⟩
    | done =>
      exact ⟨fun _ hp => (by cases hp), fun hp => (by cases hp), fun _ => h.finished (by rw [hpc]; rfl),
        h.bounded⟩
  | listen pipe ms hpc htime =>
    exact ⟨fun _ hp => (by cases hp), (threadStep_ready hpc hstep).2, fun hk => (by cases hk),
      (int32_range _).2⟩
  | line pipe l hpc =>
    exact ⟨fun _ hp => (by cases hp), fun hp => h.promised (by rw [hpc]; exact hp),
      fun hk => (by cases hk), h.bounded⟩
  | byte b rest hpc hp =>
    cases b with
    | barrierResponse =>
      by_cases ho : int16 (sh.occupied + 1) = 4 <;>
        exact hplain (by simp [Thread.gotByte, ho]) (by simp [Thread.gotByte, ho, Pc.promised])
          (by simp [Thread.gotByte, ho, Pc.kind]) h.bounded
    | _ =>
      exact hplain (by simp [Thread.gotByte, Thread.close]) rfl
        (by simp [Thread.gotByte, Thread.close, Pc.kind]) h.bounded
  | accept m k card hpc =>
    refine ⟨fun _ hp => (by cases hp), fun hp => h.promised ?_, fun hk => (by cases hk), htimeout⟩
    rw [hpc]
    cases k <;> exact hp
  | played k hpc =>
    refine ⟨fun _ hp => ?_, fun hp => h.promised ?_, fun hk => ?_, h.bounded⟩
    · cases k <;> cases hp
    · rw [hpc]
      cases k <;> exact hp
    · cases k <;> cases hk
  | woke hpc => exact hplain (by simp) rfl (by simp [Pc.kind]) h.bounded
  | dismissed hpc =>
    exact ⟨fun _ hp => (by cases hp), fun hp => (by cases hp), fun _ => hclosing hpc, h.bounded⟩

lemma Alert.still {pc' : MainPc} (h : Alert sh pc t up)
    (hpipe : t.pc.promised = true → sh'.serverWritePipes t.seat = [] → sh.serverWritePipes t.seat = [])
    (hclosing : pc.closing = true → pc'.closing = true) : Alert sh' pc' t up :=
  { h with
    promised := fun hp hnil => h.promised hp (hpipe hp hnil)
    finished := fun hk => hclosing (h.finished hk) }

end Thread

end Serwer

namespace Table

variable {timeout : ℤ} {deals : List Deal} {T T' : Table} {c : ℕ} {o : Outcome}

/-- All the threads are alert. -/
def Watchful (T : Table) : Prop :=
  ∀ c < T.server.threadId,
    Alert T.server.sh T.server.main.pc (T.server.threads c) (T.up c)

lemma Watchful.thread (h : T.Watchful) (ht : Attuned timeout deals T) (htimeout : timeout < 2147483648)
    (hs : T.step (.thread c o) = some T') (htime : (T.server.threads c).inTime o = true) :
    T'.Watchful := by
  obtain ⟨hfit, hserver, -, -, hup⟩ := step_thread hs
  obtain ⟨hstep, hmain, hothers⟩ := Serwer.step_thread hserver
  have hid : T'.server.threadId = T.server.threadId := step_threadId hserver
  have hc := ht.lt_of_thread hs
  have hw := work_of_step (ht.smooth hc) hfit htime hstep
  intro c' hc'
  rw [hid] at hc'
  rw [hmain, hup]
  by_cases hcc : c' = c
  · subst hcc
    rw [Function.update_self]
    refine (h c' hc).work (ht.attends c' hc).orderly hw hfit hstep (fun hpc => ?_)
      (by rw [stored_timeout ht.calm]; exact htimeout)
    exact ht.known.counted.leaving c' (Thread.kind_eq hpc)
  · rw [Function.update_of_ne hcc, hothers c' hcc]
    refine (h c' hc').still (fun hp hnil => ?_) id
    rwa [hw.pipe_other] at hnil
    by_cases hpc : (T.server.threads c).pc = .readIam
    · exact .inl hpc
    · refine .inr fun hseat => hcc (ht.seats c' hc' c hc ?_)
      rw [← (ht.attends c hc).seat hpc, ← hseat, (ht.attends c' hc').seat]
      intro hpc'
      rw [hpc'] at hp
      cases hp

lemma watchful (hfair : ∀ d ∈ deals, d.Fair) (htimeout : 0 < timeout) (hbound : timeout < 2147483648)
    (h : T.RunsTo timeout deals) : T.Watchful := by
  refine h.invariant_with (I := Watchful) (J := Attuned timeout deals)
    (fun _ hr => attuned hfair htimeout hr) (fun _ hc => absurd hc (Nat.not_lt_zero _)) ?_
  rintro T a T' ht hi hok hs
  cases a with
  | main ready =>
    obtain ⟨hserver, -, -, hup⟩ := step_main hs
    obtain ⟨hmain, hthreads⟩ := Serwer.step_main hserver
    have hid : T'.server.threadId = T.server.threadId := step_threadId hserver
    have hm := mainMove_of_mainStep hmain
    intro c hc
    rw [hthreads, hup]
    refine (hi c (hid ▸ hc)).still (fun _ hnil => ?_) hm.closing
    refine List.eq_nil_iff_forall_not_mem.mpr fun b hb => ?_
    have := hm.mem_pipe hb
    rw [hnil] at this
    cases this
  | connect fd seat =>
    obtain ⟨hserver, -, -, hup⟩ := step_connect hs
    obtain ⟨hsh, hmain, hthreads⟩ := Serwer.step_accept hserver
    have hid : T'.server.threadId = T.server.threadId + 1 := step_threadId hserver
    intro c hc
    rw [hsh, hmain, hthreads, hup]
    by_cases hcn : c = T.server.threadId
    · subst hcn
      rw [Function.update_self, Function.update_self]
      exact ⟨fun _ hp => (by cases hp), fun hp => (by cases hp), fun hk => (by cases hk), by simp⟩
    · rw [Function.update_of_ne hcn, Function.update_of_ne hcn]
      exact hi c (by omega)
  | thread c o => exact hi.thread ht hbound hs hok
  | client c =>
    obtain ⟨l, rest, k, out, -, -, hserver, -, -, hup⟩ := step_client hs
    intro c' hc'
    rw [hserver] at hc' ⊢
    rw [hup]
    by_cases hcc : c' = c
    · subst hcc
      rw [Function.update_self]
      exact { hi c' hc' with readable := fun pipe hp => by simp [(hi c' hc').readable pipe hp] }
    · rw [Function.update_of_ne hcc]
      exact hi c' hc'

/-! ### When nothing more can be done -/

/-- No action of a run is possible. -/
def Stuck (T : Table) : Prop := ∀ a, T.Prompt a → T.step a = none

section Stuck

variable (hst : T.Stuck) (ht : Attuned timeout deals T) (hw : T.Watchful)

include hst in
lemma Stuck.main (ready : List Seat) : mainStep T.server.sh T.server.main ready = none := by
  have := hst (.main ready) trivial
  simpa [step, Serwer.step] using this

include hst in
lemma Stuck.thread (hfit : o.Fits (T.up c)) (htime : (T.server.threads c).inTime o = true) :
    threadStep T.server.sh c (T.server.threads c) o = none := by
  have := hst (.thread c o) htime
  simpa [step, Serwer.step, hfit] using this

include hst ht in
lemma Stuck.down (hc : c < T.server.threadId) : T.down c = [] := by
  cases hdown : T.down c with
  | nil => rfl
  | cons l rest =>
    obtain ⟨k, owed, hears, -⟩ := ht.inStep c hc
    have hrec := hears.1
    unfold coming at hrec
    rw [hdown, List.cons_append, Klient.receiveAll_cons] at hrec
    obtain ⟨r, hr, -⟩ := Option.bind_eq_some_iff.mp hrec
    have := hst (.client c) trivial
    simp [step, hdown, hr] at this

include hst in
lemma Stuck.tick : (T.server.threads c).pc.orderly = true → (T.server.threads c).pc = .readIam ∨
    (T.server.threads c).pc = .poll ∨ (∃ pipe, (T.server.threads c).pc = .readSocket pipe) ∨
    (T.server.threads c).pc = .readPipe true ∨ (T.server.threads c).pc = .absent ∨
    (T.server.threads c).pc = .done := by
  have h := Stuck.thread (c := c) hst (o := .tick) trivial rfl
  intro hord
  cases hpc : (T.server.threads c).pc with
  | readIam => exact .inl rfl
  | poll => exact .inr (.inl rfl)
  | readSocket pipe => exact .inr (.inr (.inl ⟨pipe, rfl⟩))
  | absent => exact .inr (.inr (.inr (.inr (.inl rfl))))
  | done => exact .inr (.inr (.inr (.inr (.inr rfl))))
  | readPipe pipe =>
    cases pipe with
    | true => exact .inr (.inr (.inr (.inl rfl)))
    | false => simp [threadStep, hpc, Thread.pipeStep] at h
  | dealLine | replay | takenLine | again | closeNotify =>
    rw [hpc] at hord
    cases hord
  | _ => simp [threadStep, hpc] at h

include hst ht hw in
/-- **A thread waits only for more to come.** -/
lemma Stuck.waits (hc : c < T.server.threadId) : (T.server.threads c).pc = .done ∨
    (T.server.threads c).pc = .poll ∧ T.up c = [] ∧
      T.server.sh.serverWritePipes (T.clients c).seat = [] := by
  have ha := ht.attends c hc
  have halert := hw c hc
  rcases Stuck.tick hst ha.orderly with hpc | hpc | ⟨pipe, hpc⟩ | hpc | hpc | hpc
  · have h := Stuck.thread (c := c) hst (o := .line (iamLine (T.clients c).seat))
      (by rw [(ha.iam hpc).1]; rfl) rfl
    simp [threadStep, hpc, iamSeat_iamLine] at h
  · have hseat := ha.seat (by rw [hpc]; simp)
    refine .inr ⟨hpc, ?_, ?_⟩
    · by_contra hup
      have h := Stuck.thread (c := c) hst (o := .ready true false 0) (fun _ => hup) rfl
      simp [threadStep, hpc, Thread.pollStep] at h
    · by_contra hp
      rw [← hseat] at hp
      have htime := ha.time (by rw [hpc]; rfl)
      have hint : int32 (T.server.threads c).timeoutCopy = (T.server.threads c).timeoutCopy :=
        int32_of_range (by omega) halert.bounded
      have h := Stuck.thread (c := c) hst (o := .ready false true 0) (by simp [Outcome.Fits])
        (by simp [Thread.inTime, hint, htime])
      simp only [threadStep, hpc, Thread.pollStep] at h
      split_ifs at h <;> simp_all
  · cases hup : T.up c with
    | nil => exact absurd hup (halert.readable pipe hpc)
    | cons l rest =>
      have h := Stuck.thread (c := c) hst (o := .line l) (by rw [hup]; rfl) rfl
      simp [threadStep, hpc] at h
  · obtain ⟨b, rest, hp⟩ := List.exists_cons_of_ne_nil (halert.promised (by rw [hpc]; rfl))
    have h := Stuck.thread (c := c) hst (o := .tick) trivial rfl
    simp [threadStep, hpc, Thread.pipeStep, hp] at h
  · exact absurd hpc ha.started
  · exact .inl hpc

include ht in
lemma Attuned.threadId_le : T.server.threadId ≤ 4 := by
  have hinj : Function.Injective fun c : Fin T.server.threadId => (T.clients c).seat :=
    fun c c' hs => Fin.ext (ht.seats c c.isLt c' c'.isLt hs)
  have hcard := Fintype.card_le_of_injective _ hinj
  rwa [Fintype.card_fin, show Fintype.card Seat = 4 from rfl] at hcard

include hst in
lemma Stuck.connected (hacc : T.server.main.pc.accepting = true) (s : Seat) :
    ∃ c < T.server.threadId, (T.clients c).seat = s := by
  by_contra hno
  have h := hst (.connect 0 s) fun c hc hs => hno ⟨c, hc, hs⟩
  simp [step, Serwer.step, hacc] at h

include ht in
lemma Attuned.seated (hopen : T.server.main.pc.opening = false) (s : Seat) :
    ∃ c < T.server.threadId, (T.clients c).seat = s := by
  have hs : T.server.sh.seatsStatus s ≠ -1 := fun hs => by
    have := (awaited ht.calm).filled s hs
    rw [hopen] at this
    cases this
  obtain ⟨c, hc, -, hseat⟩ := ht.exists_of_taken hs
  exact ⟨c, hc, hseat⟩

include hst ht hw in
lemma Stuck.not_underway (hread : ∀ s, T.server.sh.serverReadPipes s = []) (b : Byte) :
    ¬Underway T.server.sh T.server.view b := by
  rintro (⟨s, hb⟩ | ⟨c, hb⟩)
  · rw [hread s] at hb
    cases hb
  · have hkind : (T.server.threads c).pc.kind.byte = some b := hb
    have hc : c < T.server.threadId := ht.lt_of_pc fun hpc => by
      rw [hpc] at hkind
      cases hkind
    rcases Stuck.waits hst ht hw hc with hpc | ⟨hpc, -⟩ <;>
    · rw [hpc] at hkind
      cases hkind

include hst ht hw in
/-- Before the end every thread waits, with nothing left in its pipe. -/
lemma Stuck.polls (hclosing : T.server.main.pc.closing = false) (hc : c < T.server.threadId) :
    (T.server.threads c).pc = .poll ∧ T.up c = [] ∧
      T.server.sh.serverWritePipes (T.clients c).seat = [] := by
  refine (Stuck.waits hst ht hw hc).resolve_left fun hpc => ?_
  have := (hw c hc).finished (by rw [hpc]; rfl)
  rw [hclosing] at this
  cases this

include hst ht hw in
/-- **The waiting loop of `barrier` is not stuck.** -/
lemma Stuck.not_barrierPoll (r : Caller) : T.server.main.pc ≠ .barrierPoll r := by
  intro hpc
  have hread : ∀ s, T.server.sh.serverReadPipes s = [] := by
    intro s
    by_contra hne
    have h := Stuck.main hst [s]
    simp [mainStep, hpc, Ready, hne, Seat.mem_all] at h
  have hn := ht.known
  have hpipes : ∀ s, T.server.sh.serverWritePipes s = [] := by
    intro s
    obtain ⟨c, hc, rfl⟩ := Stuck.connected hst (by rw [hpc]; rfl) s
    exact (Stuck.polls hst ht hw (by rw [hpc]; rfl) hc).2.2
  have haw := awaited ht.calm
  have hbalanced := hn.counted.balanced (by rw [hpc]; rfl)
  have hdue : ∀ s, due T.server.sh T.server.main.pc s = 0 := by
    intro s
    simp [due, hpc, MainPc.asking, hpipes, haw.settled]
  have hfour : T.server.sh.occupied = 4 := by
    have := hbalanced.total
    simpa [hdue] using this
  exact Stuck.not_underway hst ht hw hread _
    (haw.full (by rw [hpc]; rfl) (by rw [hpc]; rfl) hfour)

include hst ht hw in
/-- **The wait for a card is not stuck.** -/
lemma Stuck.not_cardPoll (s : Seat) (rest : List Seat) : T.server.main.pc ≠ .cardPoll s rest := by
  intro hpc
  have hread : ∀ s, T.server.sh.serverReadPipes s = [] := by
    intro s
    by_contra hne
    have h := Stuck.main hst [s]
    simp [mainStep, hpc, Ready, hne, Seat.mem_all] at h
  have hn := ht.known
  obtain ⟨c, hc, rfl⟩ := ht.seated (by rw [hpc]; rfl) s
  obtain ⟨hpoll, hup, hpipe⟩ := Stuck.polls hst ht hw (by rw [hpc]; rfl) hc
  have hopen : Open T.server.sh T.server.main.pc (T.clients c).seat := by
    refine ⟨by rw [hpc]; rfl, ?_⟩
    by_contra hacc
    exact Stuck.not_underway hst ht hw hread _ ((awaited ht.calm).card (by rw [hpc]; simp [MainPc.wait])
      (by rw [hpc]; rfl) (by simpa using hacc))
  -- the client has been asked for its card, and has not answered
  have hlisted := hn.listed
  rw [hpc] at hlisted
  have hnot : (T.clients c).seat ∉ rest :=
    (List.nodup_cons.mp (hlisted.sublist.nodup (Seat.nodup_order _))).1
  obtain ⟨k, owed, hears, hin⟩ := ht.inStep c hc
  obtain ⟨card, hlaid⟩ := hin.laid (by simp [hpc, MainPc.asked, hnot])
  have hcoming : T.coming c = [] := by
    simp [coming, Stuck.down hst ht hc, hpoll, Pc.draft, Shared.announced, hpipe]
  have howed := hears.2
  rw [hcoming, (hlaid.opened hopen).1, hup] at howed
  simp [Thread.unjudged, Thread.parses, hpoll, Klient.answers] at howed

include ht in
/-- The main thread has something to do where it does not wait. -/
lemma Stuck.waitsMain (hnone : mainStep T.server.sh T.server.main [] = none) :
    (∃ r, T.server.main.pc = .barrierPoll r) ∨ (∃ s rest, T.server.main.pc = .cardPoll s rest) ∨
      ∃ e w, T.server.main.pc = .closeSeats [] e w := by
  have hn := ht.known
  have hlisted := hn.listed
  have hread : ∀ {s : Seat}, T.server.sh.serverReadPipes s ≠ [] →
      ∃ b rest, T.server.sh.serverReadPipes s = b :: rest := fun hne => List.exists_cons_of_ne_nil hne
  cases hpc : T.server.main.pc with
  | barrierPoll r => exact .inl ⟨r, rfl⟩
  | cardPoll s rest => exact .inr (.inl ⟨s, rest, rfl⟩)
  | closeSeats left e w =>
    cases left with
    | nil => exact .inr (.inr ⟨e, w, rfl⟩)
    | cons s left => simp [mainStep, hpc] at hnone
  | barrierAsk left r =>
    rw [hpc] at hlisted
    cases left with
    | nil => exact absurd rfl hlisted.1.1
    | cons s left => simp [mainStep, hpc] at hnone
  | barrierRelease left r =>
    rw [hpc] at hlisted
    cases left with
    | nil => exact absurd rfl hlisted.1.1
    | cons s left => simp [mainStep, hpc] at hnone
  | announce b left =>
    rw [hpc] at hlisted
    cases left with
    | nil => exact absurd rfl hlisted.1
    | cons s left => simp [mainStep, hpc] at hnone
  | turnSet left =>
    rw [hpc] at hlisted
    cases left with
    | nil => exact absurd rfl hlisted.1
    | cons s left => simp [mainStep, hpc] at hnone
  | barrierScan ready r =>
    cases ready with
    | nil => simp [mainStep, hpc] at hnone
    | cons s ready =>
      obtain ⟨b, rest, hp⟩ := hread (List.ne_nil_of_mem (hn.woken.scanning s ready r hpc).2)
      simp [mainStep, hpc, Main.readByte, hp] at hnone
  | cardScan s rest got ready =>
    cases ready with
    | nil => simp [mainStep, hpc] at hnone
    | cons j ready =>
      obtain ⟨-, rfl, hb⟩ := card_scanned ht.calm s rest got j ready hpc
      obtain ⟨b, left, hp⟩ := hread (List.ne_nil_of_mem hb)
      simp [mainStep, hpc, Main.readByte, hp] at hnone
  | nextDeal => cases hd : T.server.main.deals <;> simp [mainStep, hpc, hd] at hnone
  | trickEnd =>
    have hplays := hn.plays
    rw [hpc] at hplays
    have hcards : ∀ card ∈ T.server.sh.cardsOnTable, IsCard card := by
      intro card hc
      obtain ⟨s, hs⟩ := hplays.game.mem_table (by simpa [Shared.game, MainPc.toPlay] using hc)
      exact hplays.cards s card hs
    obtain ⟨calculator, hcalc⟩ := Option.isSome_iff_exists.mp (PointsCalculator.construct_isSome
      hplays.full_trick hcards T.server.main.beginning T.server.main.trickType (T.server.main.i + 1))
    simp [mainStep, hpc, Main.endTrick, hcalc] at hnone
  | _ => simp [mainStep, hpc] at hnone

end Stuck

/-- **The game is over**: all deals have been played, every client has heard everything that was said to
it, and its thread has ended. -/
def Ended (T : Table) : Prop :=
  (T.server.main.pc = .closeSeats [] "" none ∧ T.server.main.deals = []) ∧ T.server.threadId = 4 ∧
    ∀ c < 4, (T.server.threads c).pc = .done ∧ T.down c = [] ∧ T.up c = []

/-- **Only when the game is over nothing more can be done.** -/
theorem Stuck.ended (hst : T.Stuck) (ht : Attuned timeout deals T) (hw : T.Watchful) : T.Ended := by
  have hn := ht.known
  rcases Stuck.waitsMain ht (Stuck.main hst []) with ⟨r, hpc⟩ | ⟨s, rest, hpc⟩ | ⟨e, w, hpc⟩
  · exact absurd hpc (Stuck.not_barrierPoll hst ht hw r)
  · exact absurd hpc (Stuck.not_cardPoll hst ht hw s rest)
  obtain ⟨⟨rfl, hdeals⟩, hwait⟩ := hn.plays.closes e (by rw [hpc]; rfl)
  obtain rfl : w = none := by
    rw [hpc] at hwait
    exact hwait
  have hdone : ∀ c < T.server.threadId, (T.server.threads c).pc = .done := by
    intro c hc
    refine (Stuck.waits hst ht hw hc).resolve_right ?_
    rintro ⟨hpoll, -, hpipe⟩
    have hkind : (T.server.view c).kind = .play := Thread.kind_eq hpoll
    have hb := (awaited ht.calm).parting _ _ _ hpc c (by rw [hkind]; rfl) (by rw [hkind]; simp) (by simp)
    have hseat : (T.server.view c).seat = (T.clients c).seat :=
      (ht.attends c hc).seat (by rw [hpoll]; simp)
    rw [hseat, hpipe] at hb
    cases hb
  have hfour : T.server.threadId = 4 := by
    refine le_antisymm ht.threadId_le ?_
    have hsurj : Function.Surjective fun c : Fin T.server.threadId => (T.clients c).seat := by
      intro s
      obtain ⟨c, hc, hs⟩ := ht.seated (by rw [hpc]; rfl) s
      exact ⟨⟨c, hc⟩, hs⟩
    have hcard := Fintype.card_le_of_surjective _ hsurj
    rwa [Fintype.card_fin, show Fintype.card Seat = 4 from rfl] at hcard
  refine ⟨⟨hpc, hdeals⟩, hfour, fun c hc => ?_⟩
  rw [← hfour] at hc
  refine ⟨hdone c hc, Stuck.down hst ht hc, ?_⟩
  obtain ⟨k, owed, hears, hin⟩ := ht.inStep c hc
  have howed := hears.2
  rw [hin.owed_eq_nil (by simp [Open, hpc, MainPc.wait]), List.append_eq_nil_iff] at howed
  simpa [Thread.unjudged, Thread.parses, hdone c hc] using howed.1

end Table

end Kierki
