import Kierki.Serwer.Waits
import Kierki.Table.Attuned

/-!
# The table keeps in step, one step at a time

Each of the four actions at the table leaves it attuned: the main thread, a client that connects, a
thread of the server, and a client that reads a line.
-/

namespace Kierki

open Regex Senders Serwer Lib.Lts

namespace Serwer

lemma stored_timeout {ok : State → Act → Prop} {timeout : ℤ} {deals : List Deal} {st : State}
    (h : RunsTo ok timeout deals st) : st.sh.timeout = timeout := by
  refine h.invariant (I := fun st => st.sh.timeout = timeout) rfl ?_
  rintro st a st' hi - hs
  obtain ⟨ready, rfl, hm, -⟩ | ⟨fd, rfl, hsh, -⟩ | ⟨c, o, rfl, hm, -⟩ := step_moves hs
  · exact hm.timeout_eq.trans hi
  · rwa [hsh]
  · exact hm.timeout_eq.trans hi

lemma step_threadId {st st' : State} {a : Act} (h : step st a = some st') :
    st'.threadId = st.threadId + (match a with | .accept _ => 1 | _ => 0) := by
  cases a with
  | main ready =>
    simp only [step, Option.map_eq_some_iff] at h
    obtain ⟨⟨sh, m⟩, -, rfl⟩ := h
    rfl
  | accept fd =>
    simp only [step, Option.ite_none_right_eq_some, Option.some.injEq] at h
    obtain ⟨-, rfl⟩ := h
    rfl
  | thread c o =>
    simp only [step, Option.map_eq_some_iff] at h
    obtain ⟨⟨sh, t⟩, -, rfl⟩ := h
    rfl

lemma Pc.Walks.not_line {pc pc' : Pc} {l : Text} : ¬pc.Walks (.line l) pc' := fun h => by cases h

lemma Work.barrierMessages {sh sh' : Shared} {c : ℕ} {t t' : Thread} {o : Outcome}
    (hw : Work sh c t o sh' t') : sh'.barrierMessages = sh.barrierMessages := by
  cases hw with
  | byte b => cases b <;> rfl
  | _ => rfl

end Serwer

namespace Table

variable {timeout : ℤ} {deals : List Deal} {T T' : Table} {c : ℕ} {o : Outcome}

section Steps

variable (h : Attuned timeout deals T)
include h

theorem Attuned.main (hfair : ∀ d ∈ deals, d.Fair) {ready : List Seat}
    (hs : T.step (.main ready) = some T') : Attuned timeout deals T' := by
  obtain ⟨hserver, hclients, hdown, hup⟩ := step_main hs
  obtain ⟨hmain, hthreads⟩ := Serwer.step_main hserver
  have hm := mainMove_of_mainStep hmain
  have hid : T'.server.threadId = T.server.threadId := step_threadId hserver
  have hn := h.known
  have hb := onBoard hfair h.calm
  refine ⟨h.calm.tail (a := .main ready) trivial hserver, ?_, ?_, fun s => ?_, fun c hc => ?_, fun c hc => ?_⟩
  · rw [hid, hclients]
    exact h.seats
  · rw [hid, hdown]
    exact h.unread
  · rw [hm.barrierMessages]
    exact h.unqueued s
  · rw [hthreads, hclients, hdown, hup]
    exact (h.attends c (hid ▸ hc)).main hn hm
  · obtain ⟨k, owed, hears, hin⟩ := h.inStep c (hid ▸ hc)
    obtain ⟨hsense, k', hk', hin'⟩ := hin.main hn hb hm
    rw [hclients]
    refine ⟨k', _, hears.more (by rw [hclients]) (by rw [hthreads]) (by rw [hup]) ?_ hk' hsense, hin'⟩
    unfold coming
    rw [hclients, hthreads, hdown, hm.announced hn.piped hn.turn, List.append_assoc, List.append_assoc]

lemma Attuned.free_seat {seat : Seat} (hseat : ∀ c < T.server.threadId, (T.clients c).seat ≠ seat) :
    T.server.sh.seatsStatus seat = -1 ∧
      (T.server.main.pc.opening = true ∨ T.server.main.pc.closing = true) := by
  have hfree : T.server.sh.seatsStatus seat = -1 := by
    by_contra hne
    obtain ⟨c, hc, -, hcs⟩ := h.exists_of_taken hne
    exact hseat c hc hcs
  exact ⟨hfree, (h.known.gathered.free seat hfree).2⟩

lemma Attuned.coming_connect {clientFd : ℤ} {seat : Seat}
    (hseat : ∀ c < T.server.threadId, (T.clients c).seat ≠ seat)
    (hs : T.step (.connect clientFd seat) = some T') :
    T'.coming T.server.threadId = [] ∧ ∀ c ≠ T.server.threadId, T'.coming c = T.coming c := by
  obtain ⟨hserver, hclients, hdown, -⟩ := step_connect hs
  obtain ⟨hsh, -, hthreads⟩ := Serwer.step_accept hserver
  unfold coming
  refine ⟨?_, fun c hcn => ?_⟩
  · rw [hdown, hsh, hthreads, h.unread _ le_rfl, Function.update_self,
      h.known.announced_outside (h.free_seat hseat).2]
    rfl
  · rw [hclients, Function.update_of_ne hcn, hthreads, Function.update_of_ne hcn, hdown, hsh]

theorem Attuned.connect {clientFd : ℤ} {seat : Seat}
    (hseat : ∀ c < T.server.threadId, (T.clients c).seat ≠ seat)
    (hs : T.step (.connect clientFd seat) = some T') : Attuned timeout deals T' := by
  obtain ⟨hserver, hclients, hdown, hup⟩ := step_connect hs
  obtain ⟨hsh, hmain, hthreads⟩ := Serwer.step_accept hserver
  have hid : T'.server.threadId = T.server.threadId + 1 := step_threadId hserver
  obtain ⟨-, hquiet⟩ := h.known.outside (h.free_seat hseat).2
  obtain ⟨hcoming, hothers⟩ := h.coming_connect hseat hs
  have hnew : ∀ c < T.server.threadId + 1, c ≠ T.server.threadId → c < T.server.threadId := by
    intro c hc hne
    omega
  refine ⟨h.calm.tail (a := .accept clientFd) trivial hserver, fun c hc c' hc' hcc => ?_,
    fun c hc => ?_, ?_, fun c hc => ?_, fun c hc => ?_⟩
  · rw [hid] at hc hc'
    rw [hclients] at hcc
    by_cases hcn : c = T.server.threadId <;> by_cases hcn' : c' = T.server.threadId
    · rw [hcn, hcn']
    · subst hcn
      rw [Function.update_self, Function.update_of_ne hcn'] at hcc
      exact absurd hcc.symm (hseat c' (hnew c' hc' hcn'))
    · subst hcn'
      rw [Function.update_self, Function.update_of_ne hcn] at hcc
      exact absurd hcc (hseat c (hnew c hc hcn))
    · rw [Function.update_of_ne hcn, Function.update_of_ne hcn'] at hcc
      exact h.seats c (hnew c hc hcn) c' (hnew c' hc' hcn') hcc
  · rw [hid] at hc
    rw [hdown]
    exact h.unread c (by omega)
  · rw [hsh]
    exact h.unqueued
  · rw [hid] at hc
    rw [hsh, hmain, hthreads, hclients, hdown, hup]
    by_cases hcn : c = T.server.threadId
    · subst hcn
      simp only [Function.update_self, h.unread _ le_rfl]
      exact ⟨rfl, by simp, fun hne => absurd rfl hne, fun _ => ⟨rfl, rfl⟩, fun hne => absurd rfl hne,
        fun _ _ hl => (by cases hl), fun hk => (by cases hk), fun hk => (by cases hk),
        fun hk => (by cases hk)⟩
    · simp only [Function.update_of_ne hcn]
      exact h.attends c (hnew c hc hcn)
  · rw [hid] at hc
    by_cases hcn : c = T.server.threadId
    · subst hcn
      have hclient : T'.clients T.server.threadId = { seat := seat, isAi := true } := by
        rw [hclients, Function.update_self]
      rw [hsh, hmain, hclient]
      refine ⟨{ seat := seat, isAi := true }, [], ⟨?_, ?_, ?_⟩, rfl, rfl, fun n he => ?_, fun _ => ?_,
        fun ha => ?_⟩
      · rw [hclient, hcoming]
        rfl
      · rw [hclient, hcoming, hthreads, hup, Function.update_self, Function.update_self]
        rfl
      · rw [hclient, hcoming]
        trivial
      · rw [(hquiet seat).2.2] at he
        cases he
      · exact ⟨rfl, rfl, fun he => absurd ((hquiet seat).2.2 _) he⟩
      · rw [(hquiet seat).2.1] at ha
        cases ha
    · obtain ⟨k, owed, hears, hin⟩ := h.inStep c (hnew c hc hcn)
      have hclient : T'.clients c = T.clients c := by rw [hclients, Function.update_of_ne hcn]
      have hthread : T'.server.threads c = T.server.threads c := by
        rw [hthreads, Function.update_of_ne hcn]
      rw [hsh, hmain, hclient]
      refine ⟨k, owed, hears.still hclient ?_ (hothers c hcn), hin⟩
      rw [hthread, hup, Function.update_of_ne hcn]

theorem Attuned.client (hs : T.step (.client c) = some T') : Attuned timeout deals T' := by
  obtain ⟨l, rest, k₁, out, hdown, hrec, hserver, hclients, hdown', hup'⟩ := step_client hs
  have hlt : c < T.server.threadId := by
    by_contra hc
    rw [h.unread c (not_lt.mp hc)] at hdown
    cases hdown
  obtain ⟨hseat, -, hcoming⟩ := coming_client hs
  have hiam : (T.server.threads c).pc ≠ .readIam := by
    intro hpc
    rw [((h.attends c hlt).iam hpc).2] at hdown
    cases hdown
  refine ⟨?_, fun c₁ h₁ c₂ h₂ hss => ?_, fun c' hc' => ?_, ?_, fun c' hc' => ?_, fun c' hc' => ?_⟩
  · rw [hserver]
    exact h.calm
  · rw [hserver] at h₁ h₂
    rw [hseat, hseat] at hss
    exact h.seats c₁ h₁ c₂ h₂ hss
  · rw [hserver] at hc'
    rw [hdown', Function.update_of_ne (by omega)]
    exact h.unread c' hc'
  · rw [hserver]
    exact h.unqueued
  · rw [hserver] at hc' ⊢
    have hold := h.attends c' hc'
    by_cases hcc : c' = c
    · subst hcc
      have hk₁ : k₁.seat = (T.clients c').seat := Klient.receive_seat hrec
      rw [hclients, hdown', hup']
      simp only [Function.update_self]
      refine ⟨hold.orderly, hold.started, fun hpc => (hold.seat hpc).trans hk₁.symm,
        fun hpc => absurd hpc hiam, fun hne => hold.destined fun hnil => hne ?_, hold.quiet,
        hk₁ ▸ hold.copied, hk₁ ▸ hold.taken, hold.time⟩
      rw [hdown] at hnil
      simp only [Klient.answers, hrec] at hnil
      rw [← hnil]
      simp [Thread.unjudged, hiam]
    · rw [hclients, hdown', hup']
      simp only [Function.update_of_ne hcc]
      exact hold
  · rw [hserver] at hc' ⊢
    rw [hseat]
    obtain ⟨k, owed, hears, hin⟩ := h.inStep c' hc'
    by_cases hcc : c' = c
    · subst hcc
      exact ⟨k, owed, hears.read hs fun hpc => absurd hpc hiam, hin⟩
    · have hclient : T'.clients c' = T.clients c' := by rw [hclients, Function.update_of_ne hcc]
      refine ⟨k, owed, hears.still hclient ?_ (hcoming c' hcc), hin⟩
      rw [hserver, hup', Function.update_of_ne hcc]

lemma Attuned.calm_thread (hc : c < T.server.threadId) (hfit : o.Fits (T.up c))
    (htime : (T.server.threads c).inTime o = true) {sh' : Shared} {t' : Thread}
    (hw : Work T.server.sh c (T.server.threads c) o sh' t') :
    o.calm (T.server.threads c).pc = true := by
  cases o with
  | tick | ready | expire => rfl
  | fail => cases htime
  | eof => exact hfit.elim
  | line l =>
    obtain ⟨rest, hup⟩ : ∃ rest, T.up c = l :: rest := by
      cases hup : T.up c with
      | nil =>
        rw [hup] at hfit
        cases hfit
      | cons a rest =>
        rw [hup] at hfit
        exact ⟨rest, by rw [Option.some.inj hfit]⟩
    have hpc : (T.server.threads c).pc = .readIam ∨
        ∃ pipe, (T.server.threads c).pc = .readSocket pipe := by
      cases hw with
      | iam s hpc => exact .inl hpc
      | line pipe l hpc => exact .inr ⟨pipe, hpc⟩
      | walk _ _ hwalk => exact absurd hwalk Pc.Walks.not_line
    rcases hpc with hpc | ⟨pipe, hpc⟩
    · simp [Outcome.calm, hpc]
    · have hunjudged : (T.server.threads c).unjudged (T.up c) = l :: rest := by
        simp [Thread.unjudged, Thread.parses, hpc, hup]
      obtain ⟨k, card, hears, -, -, -, -, -, hcheck, -⟩ := h.turn hc (.inl (by rw [hpc]; rfl))
        (by simp [hunjudged])
      have hl : l :: (rest ++ (T.clients c).answers (T.coming c)) =
          [trickLine T.server.sh.trickNumber [card]] := by
        rw [← hears.2, hunjudged]
        rfl
      rw [(List.cons.inj hl).1]
      simp [Outcome.calm, hcheck]

/-- The other threads do not notice a step that keeps to the pipe of its own seat. -/
private lemma Attuned.attends_other {sh' : Shared} {c' : ℕ} (hc : c < T.server.threadId)
    (hc' : c' < T.server.threadId) (hne : c' ≠ c) (htrick : sh'.trickNumber = T.server.sh.trickNumber)
    (hpipe : ∀ s, (T.server.threads c).pc = .readIam ∨ s ≠ (T.server.threads c).seat →
      sh'.serverWritePipes s = T.server.sh.serverWritePipes s) :
    Attends sh' T.server.main.pc (T.server.threads c') (T.clients c') (T.down c') (T.up c') := by
  refine (h.attends c' hc').still htrick fun _ => hpipe _ ?_
  by_cases hpc : (T.server.threads c).pc = .readIam
  · exact .inl hpc
  · refine .inr fun hs => hne (h.seats c' hc' c hc ?_)
    rw [hs, (h.attends c hc).seat hpc]

/-- A step in which no line is judged moves the lines along. -/
lemma Attuned.coming_work {c' : ℕ} (hc : c < T.server.threadId)
    (hs : T.step (.thread c o) = some T') (htime : (T.server.threads c).inTime o = true)
    (hno : (T.server.threads c).parses = []) (hc' : c' < T.server.threadId) :
    T'.coming c' = T.coming c' := by
  obtain ⟨hfit, hserver, hclients, hdown, hup⟩ := step_thread hs
  obtain ⟨hstep, hmain, hothers⟩ := Serwer.step_thread hserver
  have hw := work_of_step (h.smooth hc) hfit htime hstep
  have ha := h.attends c hc
  unfold coming
  by_cases hcc : c' = c
  · subst hcc
    have hseat : (T.server.threads c').pc = .readIam ∨
        (T.server.threads c').seat = (T.clients c').seat := by
      by_cases hpc : (T.server.threads c').pc = .readIam
      · exact .inl hpc
      · exact .inr (ha.seat hpc)
    rw [hclients, hdown, Function.update_self, hw.told hno hseat ha.taken, List.append_assoc]
  · rw [hclients, hothers c' hcc, hdown, Function.update_of_ne hcc, hw.announced_other hno]
    by_cases hpc : (T.server.threads c).pc = .readIam
    · exact .inl hpc
    · refine .inr fun hs => hcc (h.seats c' hc' c hc ?_)
      rw [hs, ha.seat hpc]

lemma Attuned.work (htimeout : 0 < timeout) (hc : c < T.server.threadId)
    (hs : T.step (.thread c o) = some T') (htime : (T.server.threads c).inTime o = true)
    (hno : (T.server.threads c).parses = []) : Attuned timeout deals T' := by
  obtain ⟨hfit, hserver, hclients, hdown, hup⟩ := step_thread hs
  obtain ⟨hstep, hmain, hothers⟩ := Serwer.step_thread hserver
  have hid : T'.server.threadId = T.server.threadId := step_threadId hserver
  have hw := work_of_step (h.smooth hc) hfit htime hstep
  have hn := h.known
  have ha := h.attends c hc
  have hboard := hw.board hno
  have htrick : T'.server.sh.trickNumber = T.server.sh.trickNumber := by
    simp only [Shared.board, Prod.mk.injEq] at hboard
    exact hboard.2.1.1
  have htold : ∀ s, (T.server.threads c).pc = .readIam ∨ s ≠ (T.server.threads c).seat →
      T'.server.sh.serverWritePipes s = T.server.sh.serverWritePipes s := hw.pipe_other
  obtain ⟨k, owed, hears, hin⟩ := h.inStep c hc
  obtain ⟨k', hk', -⟩ : ∃ k', (T.clients c).receiveAll (T.down c) = some k' ∧ True := by
    have := hears.1
    unfold coming at this
    rw [Klient.receiveAll_append] at this
    obtain ⟨k', hk', -⟩ := Option.bind_eq_some_iff.mp this
    exact ⟨k', hk', trivial⟩
  have hjoining : (T.server.threads c).pc.kind = .joining →
      T.server.main.pc.opening = true ∨ T.server.main.pc.closing = true := hn.early c
  have hrest : (T.server.threads c).pc.kind = .joining ∨ (T.server.threads c).pc.kind = .card →
      (T.server.threads c).unjudged (T.up c) ++ (T.clients c).answers (T.down c) = [] := by
    intro hk
    have howed : owed = [] := by
      refine hin.owed_eq_nil fun ho => ?_
      rcases hk with hk | hk
      · have := (hn.outside (hjoining hk)).1
        rw [ho.1] at this
        cases this
      · have := (hn.turn.flight.inHand c hk).2.1
        rw [ho.2] at this
        cases this
    have hall := hears.2
    rw [howed, List.append_eq_nil_iff] at hall
    rw [hall.1, List.nil_append]
    exact List.prefix_nil.mp (hall.2 ▸ Klient.answers_prefix _ _ _)
  refine ⟨h.calm.tail (a := .thread c o) (h.calm_thread hc hfit htime hw) hserver, ?_, fun c' hc' => ?_,
    ?_, fun c' hc' => ?_, fun c' hc' => ?_⟩
  · rw [hid, hclients]
    exact h.seats
  · rw [hid] at hc'
    rw [hdown, Function.update_of_ne (by omega)]
    exact h.unread c' hc'
  · rw [hw.barrierMessages]
    exact h.unqueued
  · rw [hid] at hc'
    rw [hmain, hclients, hdown, hup]
    by_cases hcc : c' = c
    · subst hcc
      rw [Function.update_self, Function.update_self]
      refine ha.work hw hno hfit hk' hrest (fun hpc => ?_) (by rw [stored_timeout h.calm]; exact htimeout)
      obtain ⟨-, hquiet⟩ := hn.outside (hjoining (by rw [hpc]; rfl))
      refine ⟨(hquiet _).2.1, fun hb => ?_⟩
      have := hn.piped.told _ .taken hb
      rw [(hquiet _).1] at this
      cases this
    · rw [Function.update_of_ne hcc, Function.update_of_ne hcc, hothers c' hcc]
      exact h.attends_other hc hc' hcc htrick htold
  · rw [hid] at hc'
    rw [hmain, hclients]
    by_cases hcc : c' = c
    · subst hcc
      refine ⟨k, owed, hears.still (by rw [hclients]) ?_ (h.coming_work hc hs htime hno hc),
        hin.board hboard⟩
      rw [hup, Function.update_self, hw.unjudged hno hfit fun hpc => ⟨_, (ha.iam hpc).1⟩]
    · obtain ⟨k₁, owed₁, hears₁, hin₁⟩ := h.inStep c' hc'
      refine ⟨k₁, owed₁, hears₁.still (by rw [hclients]) ?_ (h.coming_work hc hs htime hno hc'),
        hin₁.board hboard⟩
      rw [hothers c' hcc, hup, Function.update_of_ne hcc]

/-- **A line that is judged is accepted**, and is the last word of the client for now. -/
lemma Attuned.judged (hc : c < T.server.threadId) (hs : T.step (.thread c o) = some T')
    (htime : (T.server.threads c).inTime o = true) {m : Text} {after : After}
    (hpc : (T.server.threads c).pc = .parse m after) : o = .tick ∧ T.up c = [] ∧
      (T.clients c).answers (T.coming c) = [] ∧
      Open T.server.sh T.server.main.pc (T.clients c).seat ∧
      T.server.sh.serverWritePipes (T.clients c).seat = [] ∧ ∃ k card,
        (T.clients c).receiveAll (T.coming c) = some k ∧
        T'.server.sh = T.server.sh.accepted c (T.clients c).seat card ∧
        T'.server.threads c = { T.server.threads c with
          timeoutCopy := T.server.sh.timeout, pc := .writeCardPlay after } ∧
        InStep (T.server.sh.accepted c (T.clients c).seat card) T.server.main.pc (T.clients c).seat k
          [] := by
  obtain ⟨hfit, hserver, -⟩ := step_thread hs
  have hw := work_of_step (h.smooth hc) hfit htime (Serwer.step_thread hserver).1
  obtain ⟨k, card, hears, hopen, hseat, -, hnumber, hpipe, -, hacc, hin⟩ := h.turn hc
    (.inr (by rw [hpc]; rfl)) (by simp [Thread.unjudged, Thread.parses, hpc])
  have hline : m = trickLine T.server.sh.trickNumber [card] ∧
      T.up c ++ (T.clients c).answers (T.coming c) = [] := by
    have : m :: (T.up c ++ (T.clients c).answers (T.coming c)) =
        [trickLine T.server.sh.trickNumber [card]] := by
      rw [← hears.2]
      simp [Thread.unjudged, Thread.parses, hpc]
    exact List.cons.inj this
  obtain ⟨rfl, hnothing⟩ := hline
  obtain ⟨hup, hanswers⟩ := List.append_eq_nil_iff.mp hnothing
  -- the step accepts the card
  have hacc' : acceptedCard (T.server.sh.cards (T.server.threads c).seat) T.server.sh.cardsOnTable
      (T.server.threads c).currentTrick (trickLine T.server.sh.trickNumber [card]) = some card := by
    rw [hseat, hnumber]
    exact hacc
  obtain ⟨rfl, hsh, hthread⟩ : o = .tick ∧
      T'.server.sh = T.server.sh.accepted c (T.clients c).seat card ∧
      T'.server.threads c = { T.server.threads c with
        timeoutCopy := T.server.sh.timeout, pc := .writeCardPlay after } := by
    generalize ht : T.server.threads c = t at *
    generalize hsh : T'.server.sh = sh' at *
    generalize ht' : T'.server.threads c = t' at *
    cases hw with
    | accept m k card' hpc' hd ha' =>
      rw [hpc] at hpc'
      cases hpc'
      rw [hacc'] at ha'
      cases ha'
      refine ⟨rfl, ?_, rfl⟩
      rw [← hseat]
      rfl
    | walk _ _ hwalk =>
      rw [hpc] at hwalk
      cases hwalk
    | _ => simp_all
  exact ⟨rfl, hup, hanswers, hopen, hpipe, k, card, hears.1, hsh, hthread, hin⟩

lemma Attuned.coming_judge {c' : ℕ} (hc : c < T.server.threadId)
    (hs : T.step (.thread c o) = some T') (htime : (T.server.threads c).inTime o = true) {m : Text}
    {after : After} (hpc : (T.server.threads c).pc = .parse m after) (hc' : c' < T.server.threadId) :
    T'.coming c' = T.coming c' := by
  obtain ⟨-, hserver, hclients, hdown, -⟩ := step_thread hs
  obtain ⟨-, -, hothers⟩ := Serwer.step_thread hserver
  obtain ⟨rfl, -, -, hopen, hpipe, k, card, -, hsh, hthread, -⟩ := h.judged hc hs htime hpc
  by_cases hcc : c' = c
  · subst hcc
    have hwrites : (T.server.threads c').writes .tick = [] := by simp [Thread.writes, hpc]
    unfold coming Shared.announced
    rw [hclients, hdown, Function.update_self, hwrites, hthread, hsh, hpc]
    show T.down c' ++ [] ++ ([] ++ (T.server.sh.serverWritePipes _).flatMap _) =
      T.down c' ++ ([] ++ (T.server.sh.serverWritePipes _).flatMap _)
    rw [hpipe]
    simp
  · have hne : (T.clients c').seat ≠ (T.clients c).seat := fun hs => hcc (h.seats c' hc' c hc hs)
    unfold coming
    rw [hclients, hothers c' hcc, hdown, Function.update_of_ne hcc, hsh,
      h.known.announced_accepted c hopen hne]

lemma Attuned.judge (htimeout : 0 < timeout) (hc : c < T.server.threadId)
    (hs : T.step (.thread c o) = some T') (htime : (T.server.threads c).inTime o = true)
    {m : Text} {after : After} (hpc : (T.server.threads c).pc = .parse m after) :
    Attuned timeout deals T' := by
  obtain ⟨hfit, hserver, hclients, hdown, hup⟩ := step_thread hs
  obtain ⟨hstep, hmain, hothers⟩ := Serwer.step_thread hserver
  have hid : T'.server.threadId = T.server.threadId := step_threadId hserver
  have hw := work_of_step (h.smooth hc) hfit htime hstep
  have ha := h.attends c hc
  have hcalm := h.calm_thread hc hfit htime hw
  have hcoming : ∀ {c'}, c' < T.server.threadId → T'.coming c' = T.coming c' :=
    h.coming_judge hc hs htime hpc
  obtain ⟨rfl, hrest, hanswers, hopen, -, k, card, hears, hsh, hthread, hin⟩ := h.judged hc hs htime hpc
  refine ⟨h.calm.tail (a := .thread c .tick) hcalm hserver, ?_, fun c' hc' => ?_, ?_, fun c' hc' => ?_,
    fun c' hc' => ?_⟩
  · rw [hid, hclients]
    exact h.seats
  · rw [hid] at hc'
    rw [hdown, Function.update_of_ne (by omega)]
    exact h.unread c' hc'
  · rw [hsh]
    exact h.unqueued
  · rw [hid] at hc'
    rw [hmain, hclients, hdown, hup]
    by_cases hcc : c' = c
    · subst hcc
      have hwrites : (T.server.threads c').writes .tick = [] := by simp [Thread.writes, hpc]
      rw [Function.update_self, Function.update_self, hthread, hwrites, List.append_nil]
      refine ha.accept hpc (by rw [hsh]; rfl) (by rw [hsh]; rfl)
        (by rw [stored_timeout h.calm]; exact htimeout) ?_
      show T.up c' ++ _ = []
      rw [hrest, List.nil_append]
      exact List.prefix_nil.mp (hanswers ▸ Klient.answers_prefix _ _ _)
    · rw [Function.update_of_ne hcc, Function.update_of_ne hcc, hothers c' hcc]
      exact h.attends_other hc hc' hcc (by rw [hsh]; rfl) fun _ _ => by rw [hsh]; rfl
  · rw [hid] at hc'
    rw [hmain, hclients]
    by_cases hcc : c' = c
    · subst hcc
      obtain ⟨_, _, hears₀, _⟩ := h.inStep c' hc
      refine ⟨k, [], ⟨?_, ?_, ?_⟩, by rw [hsh]; exact hin⟩
      · rw [hclients, hcoming hc]
        exact hears
      · rw [hclients, hcoming hc, hanswers, hthread, hup, Function.update_self]
        simp [Thread.unjudged, Thread.parses, Outcome.unread, hrest]
      · rw [hclients, hcoming hc]
        exact hears₀.understands
    · have hne : (T.clients c').seat ≠ (T.clients c).seat := fun hs => hcc (h.seats c' hc' c hc hs)
      obtain ⟨k₁, owed₁, hears₁, hin₁⟩ := h.inStep c' hc'
      refine ⟨k₁, owed₁, hears₁.still (by rw [hclients]) ?_ (hcoming hc'), ?_⟩
      · rw [hothers c' hcc, hup, Function.update_of_ne hcc]
      · rw [hsh]
        exact hin₁.accepted c hopen hne

lemma Attuned.lt_of_thread (hs : T.step (.thread c o) = some T') : c < T.server.threadId := by
  obtain ⟨-, hserver, -⟩ := step_thread hs
  refine h.lt_of_pc fun hpc => ?_
  have := (Serwer.step_thread hserver).1
  simp [threadStep, hpc] at this

/-- **A thread makes a step.** -/
theorem Attuned.thread (htimeout : 0 < timeout) (hs : T.step (.thread c o) = some T')
    (htime : (T.server.threads c).inTime o = true) : Attuned timeout deals T' := by
  have hc := h.lt_of_thread hs
  by_cases hno : (T.server.threads c).parses = []
  · exact h.work htimeout hc hs htime hno
  · unfold Thread.parses at hno
    split at hno
    · rename_i m after hpc
      exact h.judge htimeout hc hs htime hpc
    · exact absurd rfl hno

end Steps

/-- **In every run in which all clients play on time, the table keeps in step.** -/
theorem attuned (hfair : ∀ d ∈ deals, d.Fair) (htimeout : 0 < timeout)
    (h : T.RunsTo timeout deals) : Attuned timeout deals T := by
  refine h.invariant (I := Attuned timeout deals) ⟨.start,
    fun _ hc => absurd hc (Nat.not_lt_zero _), fun _ _ => rfl, fun _ => rfl,
    fun _ hc => absurd hc (Nat.not_lt_zero _), fun _ hc => absurd hc (Nat.not_lt_zero _)⟩ ?_
  rintro T a T' hi hok hs
  cases a with
  | main ready => exact hi.main hfair hs
  | connect fd seat => exact hi.connect hok hs
  | thread c o => exact hi.thread htimeout hs hok
  | client c => exact hi.client hs

end Table

end Kierki
