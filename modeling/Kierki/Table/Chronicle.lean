import Kierki.Table.Course
import Kierki.Table.Ending

/-!
# The whole game is told

A history of the table: the lines the clients have read, and how the deals were played that are over.
In every run in which all clients play on time, what a client has read and what is on its way to it is
`tellGame` of the deals that are over, followed by what it was told of the deal in play. So at the end
of the game every client has read the whole game, and nothing else.
-/

namespace Kierki

open Regex Senders Serwer Lib.Lts

namespace Table

/-- The lines the clients have read, and the deals that are over. -/
structure History where
  heard : ℕ → List Text := fun _ => []
  plays : List Play := []

/-- A client reads its next line, and with the last word on a deal the deal is over. -/
def note (T : Table) (a : Act) (_ : Table) (h : History) : History :=
  match a with
  | .main _ =>
    if T.server.main.pc.lastWord then { h with plays := h.plays ++ [T.server.sh.play] } else h
  | .client c => { h with heard := Function.update h.heard c (h.heard c ++ (T.down c).take 1) }
  | .connect _ _ | .thread _ _ => h

/-- The runs in which all clients play on time, with their history. -/
abbrev Records (timeout : ℤ) (deals : List Deal) (T : Table) (h : History) : Prop :=
  Reach (record step note) (fun p a => p.1.Prompt a) (init timeout deals, {}) (T, h)

lemma Records.runs {timeout : ℤ} {deals : List Deal} {T : Table} {h : History}
    (hr : Records timeout deals T h) : T.RunsTo timeout deals := by
  have hrun : Reach step Prompt (init timeout deals, ({} : History)).1 (T, h).1 :=
    Reach.forget (fun _ _ hok => hok) hr
  exact hrun

/-- **What the clients have been told.** -/
structure Chronicle (deals : List Deal) (T : Table) (h : History) : Prop where
  silent : ∀ c, T.server.threadId ≤ c → h.heard c = []
  told : ∀ c < T.server.threadId, h.heard c ++ T.coming c =
    tellGame (T.clients c).seat noPoints (deals.zip h.plays) ++
      T.server.sh.telling T.server.main.pc (T.clients c).seat
  course : Course deals h.plays T.server.sh T.server.main

section Steps

variable {timeout : ℤ} {deals : List Deal} {T T' : Table} {c : ℕ} {o : Outcome} {h : History}
  (ht : Attuned timeout deals T) (hc : Chronicle deals T h)

include ht in
lemma Attuned.coming_main {ready : List Seat} (hs : T.step (.main ready) = some T') (c : ℕ) :
    T'.coming c = T.coming c ++ ((T.server.main.pc.speaks (T.clients c).seat).map
      (T.server.sh.meaning (T.clients c).seat)).getD [] := by
  obtain ⟨hserver, hclients, hdown, -⟩ := step_main hs
  obtain ⟨hmain, hthreads⟩ := Serwer.step_main hserver
  unfold coming
  rw [hclients, hthreads, hdown, (mainMove_of_mainStep hmain).announced ht.known.piped ht.known.turn,
    List.append_assoc, List.append_assoc]

include ht in
lemma Attuned.coming_thread {c' : ℕ} (hs : T.step (.thread c o) = some T')
    (htime : (T.server.threads c).inTime o = true) (hc' : c' < T.server.threadId) :
    T'.coming c' = T.coming c' := by
  have hlt := ht.lt_of_thread hs
  by_cases hno : (T.server.threads c).parses = []
  · exact ht.coming_work hlt hs htime hno hc'
  · unfold Thread.parses at hno
    split at hno
    · rename_i m after hpc
      exact ht.coming_judge hlt hs htime hpc hc'
    · exact absurd rfl hno

include ht hc in
lemma Chronicle.main (hb : Board T.server.sh T.server.main) {ready : List Seat}
    (hs : T.step (.main ready) = some T') : Chronicle deals T' (note T (.main ready) T' h) := by
  obtain ⟨hserver, hclients, -, -⟩ := step_main hs
  have hm := mainMove_of_mainStep (Serwer.step_main hserver).1
  have hid : T'.server.threadId = T.server.threadId := step_threadId hserver
  have hk := ht.known
  have hplays : (note T (.main ready) T' h).plays =
      if T.server.main.pc.lastWord then h.plays ++ [T.server.sh.play] else h.plays := by
    simp only [note]
    split <;> rfl
  have hheard : (note T (.main ready) T' h).heard = h.heard := by
    simp only [note]
    split <;> rfl
  have hcourse := hc.course.main hk hb (suited ht.calm) hm
  refine ⟨fun c hlt => ?_, fun c hlt => ?_, hplays ▸ hcourse⟩
  · rw [hheard]
    exact hc.silent c (hid ▸ hlt)
  rw [hheard, ht.coming_main hs, ← List.append_assoc, hc.told c (hid ▸ hlt), hclients, hplays,
    List.append_assoc]
  by_cases hends : ∃ s₀, T.server.main.pc = .announce .scores [s₀]
  · -- the deal is over
    obtain ⟨s₀, hpc⟩ := hends
    obtain ⟨d, hdrop, hdeal, hstarter, htype⟩ := hc.course.loaded (by rw [hpc]; rfl)
    obtain ⟨hround, htotal⟩ := hc.course.rounds (by rw [hpc]; rfl)
    have hglobal := hb.type (by rw [hpc]; rfl) (by rw [hpc]; simp)
    have hquiet : T'.server.sh.telling T'.server.main.pc (T.clients c).seat = [] := by
      generalize T'.server.main = m' at hm
      generalize T'.server.sh = sh' at hm
      cases hm with
      | announceLast b s hpc' =>
        rw [hpc] at hpc'
        cases hpc'
        exact Shared.telling_eq_nil rfl rfl rfl
      | announce b s left hpc' hleft =>
        rw [hpc] at hpc'
        cases hpc'
        exact absurd rfl hleft
      | _ => simp_all
    rw [hk.telling_last hb hpc, hquiet, List.append_nil, if_pos (by rw [hpc]; rfl),
      zip_concat (getElem?_of_drop hdrop), tellGame_concat, totalsAfter_concat, hglobal, hstarter, hdeal, htotal, hround, htype]
    rfl
  · have hno : T.server.main.pc.lastWord = false := by
      by_contra hlast
      refine hends ?_
      generalize T.server.main.pc = pc at hlast
      unfold MainPc.lastWord at hlast
      split at hlast
      · exact ⟨_, rfl⟩
      · simp at hlast
    rw [hno, hk.telling_main hb hm fun s₀ hpc => hends ⟨s₀, hpc⟩]
    rfl

include ht hc in
lemma Chronicle.connect (hopening : ∀ s, T.server.sh.seatsStatus s = -1 →
      T.server.main.pc.opening = true) {clientFd : ℤ} {seat : Seat}
    (hseat : ∀ c < T.server.threadId, (T.clients c).seat ≠ seat)
    (hs : T.step (.connect clientFd seat) = some T') : Chronicle deals T' h := by
  obtain ⟨hserver, hclients, -, -⟩ := step_connect hs
  obtain ⟨hsh, hmain, -⟩ := Serwer.step_accept hserver
  have hid : T'.server.threadId = T.server.threadId + 1 := step_threadId hserver
  obtain ⟨hnew, hothers⟩ := ht.coming_connect hseat hs
  refine ⟨fun c hlt => hc.silent c (by omega), fun c hlt => ?_, by rw [hsh, hmain]; exact hc.course⟩
  rw [hsh, hmain]
  by_cases hcn : c = T.server.threadId
  · have hopen := hopening seat (ht.free_seat hseat).1
    have hplays := hc.course.first hopen
    subst hcn
    rw [hnew, hc.silent _ le_rfl, hplays, List.zip_nil_right, Shared.telling_outside (.inl hopen)]
    rfl
  · rw [hothers c hcn, hclients, Function.update_of_ne hcn]
    exact hc.told c (by omega)

include ht hc in
lemma Chronicle.thread (hs : T.step (.thread c o) = some T')
    (htime : (T.server.threads c).inTime o = true) : Chronicle deals T' h := by
  obtain ⟨hfit, hserver, hclients, -, -⟩ := step_thread hs
  obtain ⟨hstep, hmain, -⟩ := Serwer.step_thread hserver
  have hid : T'.server.threadId = T.server.threadId := step_threadId hserver
  have hlt := ht.lt_of_thread hs
  -- what the thread leaves as it is
  obtain ⟨hcourse, htelling⟩ : Course deals h.plays T'.server.sh T.server.main ∧ ∀ s,
      T'.server.sh.telling T.server.main.pc s = T.server.sh.telling T.server.main.pc s := by
    by_cases hno : (T.server.threads c).parses = []
    · have hboard := (work_of_step (ht.smooth hlt) hfit htime hstep).board hno
      have hgame := (threadMove_of_threadStep hstep).game.1
      simp only [Shared.board, Shared.course, Prod.mk.injEq] at hboard hgame
      obtain ⟨⟨htype, -, -⟩, ⟨hnumber, htable⟩, ⟨hround, htotal⟩, ⟨htricks, htakers⟩, -⟩ := hboard
      obtain ⟨hdeal, hstarter, -⟩ := hgame
      refine ⟨hc.course.quiet rfl ⟨hdeal, hstarter, rfl⟩ ?_ rfl ⟨hround, htotal⟩ rfl id id rfl,
        fun s => Shared.telling_congr ?_ rfl rfl rfl rfl⟩
      · simp only [Shared.play, htricks, htakers]
      · simp only [Shared.tale, htype, hstarter, hdeal, htricks, htakers, hnumber, htable, hround, htotal]
    · unfold Thread.parses at hno
      split at hno
      · rename_i m after hpc
        obtain ⟨rfl, -, -, hopen, -, k, card, -, hsh, -⟩ := ht.judged hlt hs htime hpc
        rw [hsh]
        exact ⟨hc.course.quiet rfl ⟨rfl, rfl, rfl⟩ rfl rfl ⟨rfl, rfl⟩ rfl id id rfl,
          fun s => ht.known.telling_accepted hopen rfl⟩
      · exact absurd rfl hno
  refine ⟨fun c' hlt' => hc.silent c' (hid ▸ hlt'), fun c' hlt' => ?_, by rw [hmain]; exact hcourse⟩
  rw [hid] at hlt'
  rw [ht.coming_thread hs htime hlt', hmain, htelling, hclients]
  exact hc.told c' hlt'

include ht hc in
lemma Chronicle.client (hs : T.step (.client c) = some T') :
    Chronicle deals T' (note T (.client c) T' h) := by
  obtain ⟨l, rest, k, out, hdown, -, hserver, -⟩ := step_client hs
  obtain ⟨hseat, hread, hothers⟩ := coming_client hs
  have hlt : c < T.server.threadId := by
    by_contra hge
    rw [ht.unread c (by omega)] at hdown
    cases hdown
  have hheard : (note T (.client c) T' h).heard =
      Function.update h.heard c (h.heard c ++ (T.down c).take 1) := rfl
  refine ⟨fun c' hge => ?_, fun c' hlt' => ?_, by rw [hserver]; exact hc.course⟩
  · rw [hserver] at hge
    rw [hheard, Function.update_of_ne (by omega)]
    exact hc.silent c' hge
  · rw [hserver] at hlt' ⊢
    rw [hheard, hseat]
    by_cases hcc : c' = c
    · subst hcc
      rw [Function.update_self, List.append_assoc, ← hread]
      exact hc.told c' hlt'
    · rw [Function.update_of_ne hcc, hothers c' hcc]
      exact hc.told c' hlt'

end Steps

/-- **In every run in which all clients play on time they are told the game as it goes.** -/
theorem chronicle {timeout : ℤ} {deals : List Deal} {T : Table} {h : History}
    (hfair : ∀ d ∈ deals, d.Fair) (htimeout : 0 < timeout) (hr : Records timeout deals T h) :
    Chronicle deals T h := by
  refine Reach.invariant_with (I := fun p : Table × History => Chronicle deals p.1 p.2)
    (J := fun p : Table × History => Attuned timeout deals p.1)
    (fun _ hr => attuned hfair htimeout (Records.runs hr)) ?_ ?_ hr
  · refine ⟨fun _ _ => rfl, fun _ hlt => absurd hlt (Nat.not_lt_zero _), Nat.zero_le _, fun _ => rfl,
      fun hin => (by cases hin), fun _ => rfl, fun he => absurd rfl he, fun hs => (by cases hs), fun _ => ?_,
      fun _ hmem => ?_⟩
    · rw [List.zip_nil_right]
      rfl
    · rw [List.zip_nil_right] at hmem
      cases hmem
  rintro ⟨T, h⟩ a ⟨T', h'⟩ ht hc hok hr
  obtain ⟨hs, hh⟩ := record_eq_some.mp hr
  dsimp only at ht hc hok hs hh ⊢
  subst hh
  cases a with
  | main ready => exact hc.main ht (onBoard hfair ht.calm) hs
  | connect fd seat => exact hc.connect ht (awaited ht.calm).filled hok hs
  | thread c o => exact hc.thread ht hs hok
  | client c => exact hc.client ht hs

private lemma Chronicle.ended {timeout : ℤ} {deals : List Deal} {T : Table} {h : History}
    (hc : Chronicle deals T h) (ht : Attuned timeout deals T) (he : T.Ended) :
    h.plays.length = deals.length ∧
      ∀ c < 4, h.heard c = tellGame (T.clients c).seat noPoints (deals.zip h.plays) := by
  obtain ⟨⟨hpc, hdeals⟩, hfour, hall⟩ := he
  have hclosing : T.server.main.pc.closing = true := by
    rw [hpc]
    rfl
  refine ⟨le_antisymm hc.course.count ?_, fun c hlt => ?_⟩
  · have hleft := hc.course.left (by rw [hpc]; rfl)
    rw [hdeals] at hleft
    exact List.drop_eq_nil_iff.mp hleft
  · obtain ⟨hdone, hdown, -⟩ := hall c hlt
    have hcoming : T.coming c = [] := by
      unfold coming
      rw [hdown, hdone, ht.known.announced_outside (.inr hclosing)]
      rfl
    have htold := hc.told c (by omega)
    rwa [hcoming, Shared.telling_outside (.inr hclosing), List.append_nil, List.append_nil] at htold

/-- **Every client is told the whole game.** What a client has read, and then what is on its way to it, is
at every moment the lines of the deals that are over and those of the deal in play so far. When the game
is over, each deal of the file has been played by the rules, and every client has read all the lines of
the game, and nothing else: for each deal its hand, in each trick the cards that lay before its own and
then the whole trick and its taker, and at the end the points of the deal and the totals so far. -/
theorem game_told {timeout : ℤ} {deals : List Deal} {T : Table} {h : History}
    (hfair : ∀ d ∈ deals, d.Fair) (htimeout : 0 < timeout) (hr : Records timeout deals T h) :
    (∀ c < T.server.threadId, h.heard c ++ T.coming c =
      tellGame (T.clients c).seat noPoints (deals.zip h.plays) ++
        T.server.sh.telling T.server.main.pc (T.clients c).seat) ∧
    (T.Ended → List.Forall₂ (fun d p => p.Of d) deals h.plays ∧
      ∀ c < 4, h.heard c = tellGame (T.clients c).seat noPoints (deals.zip h.plays)) := by
  have hc := chronicle hfair htimeout hr
  refine ⟨hc.told, fun he => ?_⟩
  obtain ⟨hlength, hheard⟩ := hc.ended (attuned hfair htimeout hr.runs) he
  refine ⟨List.forall₂_iff_zip.mpr ⟨hlength.symm, fun hmem => ?_⟩, hheard⟩
  exact hc.course.played _ hmem

/-- The game of one deal. -/
theorem game_told_suits : ∃ T h p, Records 5000 [suitsDeal] T h ∧ h.plays = [p] ∧ p.Of suitsDeal ∧
    ∀ c < 4, h.heard c = tellDeal (T.clients c).seat suitsDeal p (addPoints noPoints (p.points 1)) := by
  have hfair : ∀ d ∈ [suitsDeal], d.Fair := by decide
  have hstart : RunsTo 5000 [suitsDeal] (init 5000 [suitsDeal]) := .start
  obtain ⟨T, hr, hst⟩ := exists_stuck hfair (by decide) hstart
  obtain ⟨h, hrec⟩ : ∃ h, Records 5000 [suitsDeal] T h := hr.recorded ({} : History)
  have hend := ended_of_stuck hfair (by decide) (by decide) hr hst
  obtain ⟨hplays, hheard⟩ := (game_told hfair (by decide) hrec).2 hend
  obtain ⟨p, plays, hof, hnil, hp⟩ := List.forall₂_cons_left_iff.mp hplays
  obtain rfl := List.forall₂_nil_left_iff.mp hnil
  refine ⟨T, h, p, hrec, hp, hof, fun c hc => ?_⟩
  rw [hheard c hc, hp]
  exact List.append_nil _

end Table

end Kierki
