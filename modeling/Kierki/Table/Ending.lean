import Kierki.Table.OnTime
import Kierki.Table.Weights

/-!
# Every game comes to an end

The sum of all that is left to do at the table gets smaller with every step, so there is no run that
goes on for ever; and nothing more can be done only when the game is over. Whatever the order of the
steps, the table plays to the end.
-/

namespace Kierki

open Regex Senders Serwer Lib.Lts

lemma Klient.receive_length {k : Klient} {l : Text} {r : Klient × List Text}
    (h : k.receive l = some r) : r.2.length ≤ 1 := by
  obtain rfl | ⟨kind, -, hr⟩ := Klient.receive_cases h
  · exact Nat.zero_le _
  · cases kind with
    | busy => cases hr
    | trick =>
      obtain rfl : k.answer l = r := Option.some.inj hr
      simp only [Klient.answer]
      split <;> simp
    | _ =>
      cases hr
      exact Nat.zero_le _

namespace Table

variable {timeout : ℤ} {deals : List Deal} {T T' : Table} {c : ℕ} {o : Outcome}

/-- What is left at connection `c`: a line to the client weighs 11, a line of it 10. -/
def seatRest (T : Table) (c : ℕ) : ℕ :=
  (T.server.threads c).pc.rest + 11 * (T.down c).length + 10 * (T.up c).length

/-- **What is left to do at the table**, a client that has not yet connected weighing 17. -/
def rest (T : Table) : ℕ :=
  T.server.main.rest + T.server.sh.load + ∑ c ∈ Finset.range 4, T.seatRest c +
    17 * (4 - T.server.threadId)

section Steps

private lemma rest_change (T T' : Table) (hc : c < 4) (hother : ∀ c' ≠ c, T'.seatRest c' = T.seatRest c') :
    ∑ c ∈ Finset.range 4, T'.seatRest c + T.seatRest c =
      ∑ c ∈ Finset.range 4, T.seatRest c + T'.seatRest c :=
  sum_change (Finset.mem_range.mpr hc) fun c' _ hc' => hother c' hc'

variable (ht : Attuned timeout deals T)
include ht

lemma Attuned.rest_main {ready : List Seat} (hs : T.step (.main ready) = some T') :
    T'.rest < T.rest := by
  obtain ⟨hserver, -, hdown, hup⟩ := step_main hs
  obtain ⟨hmain, hthreads⟩ := Serwer.step_main hserver
  have hm := mainMove_of_mainStep hmain
  have hn := ht.known
  have hlt := hm.rest hn.staying hn.woken (hn.understood.sane_next hm) fun s rest ready' hpc hpc' => by
    obtain ⟨hready, hm'⟩ := mainStep_cardPoll hpc hmain
    rw [hm'] at hpc'
    cases hpc'
    exact hready.1
  have hseat : ∀ c, T'.seatRest c = T.seatRest c := fun c => by
    unfold seatRest
    rw [hthreads, hdown, hup]
  unfold rest
  rw [step_threadId hserver]
  simp only [hseat]
  omega

/-- The new connection weighs as much as what its thread and its first line do. -/
lemma Attuned.rest_connect (ht' : Attuned timeout deals T') {clientFd : ℤ} {seat : Seat}
    (hs : T.step (.connect clientFd seat) = some T') : T'.rest < T.rest := by
  obtain ⟨hserver, -, hdown, hup⟩ := step_connect hs
  obtain ⟨hsh, hmain, hthreads⟩ := Serwer.step_accept hserver
  have hid : T'.server.threadId = T.server.threadId + 1 := step_threadId hserver
  have hfour : T'.server.threadId ≤ 4 := ht'.threadId_le
  have hsum := rest_change T T' (c := T.server.threadId) (by omega) fun c' hc' => by
    unfold seatRest
    rw [hthreads, hdown, hup, Function.update_of_ne hc', Function.update_of_ne hc']
  have hseat : T'.seatRest T.server.threadId = 6 + 10 := by
    unfold seatRest
    rw [hthreads, hdown, hup, Function.update_self, Function.update_self, ht.unread _ le_rfl]
    rfl
  unfold rest
  rw [hsh, hmain, hid]
  omega

lemma Attuned.rest_thread (hs : T.step (.thread c o) = some T')
    (htime : (T.server.threads c).inTime o = true) : T'.rest < T.rest := by
  obtain ⟨hfit, hserver, -, hdown, hup⟩ := step_thread hs
  obtain ⟨hstep, hmain, hothers⟩ := Serwer.step_thread hserver
  have hc := ht.lt_of_thread hs
  have hfour : T.server.threadId ≤ 4 := ht.threadId_le
  have hw := work_of_step (ht.smooth hc) hfit htime hstep
  have hlt := hw.rest (ht.attends c hc).orderly hfit hstep
  have hsum := rest_change T T' (c := c) (by omega) fun c' hc' => by
    unfold seatRest
    rw [hothers c' hc', hdown, hup, Function.update_of_ne hc', Function.update_of_ne hc']
  have hseat : T'.seatRest c = (T'.server.threads c).pc.rest +
      11 * ((T.down c).length + ((T.server.threads c).writes o).length) +
      10 * (o.unread (T.up c)).length := by
    unfold seatRest
    rw [hdown, hup, Function.update_self, Function.update_self, List.length_append]
  have hold : T.seatRest c = (T.server.threads c).pc.rest + 11 * (T.down c).length +
    10 * (T.up c).length := rfl
  unfold rest
  rw [hmain, step_threadId hserver]
  omega

lemma Attuned.rest_client (hs : T.step (.client c) = some T') : T'.rest < T.rest := by
  obtain ⟨l, left, k, out, hl, hk, hserver, -, hdown, hup⟩ := step_client hs
  have hc : c < T.server.threadId := by
    by_contra hc
    rw [ht.unread c (by omega)] at hl
    cases hl
  have hfour : T.server.threadId ≤ 4 := ht.threadId_le
  have hout : out.length ≤ 1 := Klient.receive_length hk
  have hsum := rest_change T T' (c := c) (by omega) fun c' hc' => by
    unfold seatRest
    rw [hserver, hdown, hup, Function.update_of_ne hc', Function.update_of_ne hc']
  have hseat : T'.seatRest c = (T.server.threads c).pc.rest + 11 * left.length +
      10 * ((T.up c).length + out.length) := by
    unfold seatRest
    rw [hserver, hdown, hup, Function.update_self, Function.update_self, List.length_append]
  have hold : T.seatRest c = (T.server.threads c).pc.rest + 11 * (left.length + 1) +
      10 * (T.up c).length := by
    unfold seatRest
    rw [hl, List.length_cons]
  unfold rest
  rw [hserver]
  omega

end Steps

/-- **Every step leaves less to do.** -/
theorem rest_lt (hfair : ∀ d ∈ deals, d.Fair) (htimeout : 0 < timeout) (h : T.RunsTo timeout deals)
    {a : Act} (hok : T.Prompt a) (hs : T.step a = some T') : T'.rest < T.rest := by
  have ht := attuned hfair htimeout h
  cases a with
  | main ready => exact ht.rest_main hs
  | connect clientFd seat => exact ht.rest_connect (attuned hfair htimeout (h.tail hok hs)) hs
  | thread c o => exact ht.rest_thread hs hok
  | client c => exact ht.rest_client hs

lemma rest_init : (init timeout deals).rest = 564 + 11935 * deals.length := by
  have hmain : (init timeout deals).server.main.rest = 31 * (10 + dealsRest deals.length) + 0 := rfl
  have hload : (init timeout deals).server.sh.load = 0 := by
    refine Finset.sum_eq_zero fun s _ => rfl
  have hseat : ∑ c ∈ Finset.range 4, (init timeout deals).seatRest c = 0 :=
    Finset.sum_eq_zero fun c _ => rfl
  have hid : (init timeout deals).server.threadId = 0 := rfl
  unfold rest
  rw [hmain, hload, hseat, hid, dealsRest]
  omega

/-! ### The end -/

/-- **No run goes on for ever**: a run has at most 564 steps and 11935 for each deal. -/
theorem run_length_le (hfair : ∀ d ∈ deals, d.Fair) (htimeout : 0 < timeout) {as : List Act}
    (h : exec step Prompt (init timeout deals) as = some T) :
    as.length ≤ 564 + 11935 * deals.length := by
  have := Reach.start.length_le_of_exec (fun T a T' hr hok hs => rest_lt hfair htimeout hr hok hs) h
  rw [rest_init] at this
  omega

/-- The run up to the first card of a deal is one of these. -/
theorem run_length_le_leads : ∃ T, exec step Prompt (init 5000 [suitsDeal]) leads = some T ∧
    leads.length ≤ 12499 := by
  obtain ⟨T, hT⟩ := Option.isSome_iff_exists.mp
    (show (exec step Prompt (init 5000 [suitsDeal]) leads).isSome = true by decide +kernel)
  exact ⟨T, hT, run_length_le (by decide) (by decide) hT⟩

section End

variable (hfair : ∀ d ∈ deals, d.Fair) (htimeout : 0 < timeout)
include hfair htimeout

lemma ended_of_stuck (hbound : timeout < 2147483648) (h : T.RunsTo timeout deals) (hst : T.Stuck) :
    T.Ended :=
  Stuck.ended hst (attuned hfair htimeout h) (watchful hfair htimeout hbound h)

lemma exists_stuck (h : T.RunsTo timeout deals) : ∃ T', Reach step Prompt T T' ∧ T'.Stuck :=
  h.exists_stuck fun _ _ _ hr hok hs => rest_lt hfair htimeout hr hok hs

/-- **Every game is played to its end.** Where no action of a run is possible any more, all deals have
been played, every client has heard everything that was said to it and its thread has ended; and every
run, wherever it has come to, goes on to such a state. -/
theorem played_to_the_end (hbound : timeout < 2147483648) (h : T.RunsTo timeout deals) :
    (T.Stuck → T.Ended) ∧ ∃ T', Reach step Prompt T T' ∧ T'.Stuck ∧ T'.Ended := by
  refine ⟨ended_of_stuck hfair htimeout hbound h, ?_⟩
  obtain ⟨T', hr, hst⟩ := exists_stuck hfair htimeout h
  exact ⟨T', hr, hst, ended_of_stuck hfair htimeout hbound (h.trans hr) hst⟩

end End

/-- A game of one deal is played to its end. -/
theorem played_to_the_end_suits : ∃ T, RunsTo 5000 [suitsDeal] T ∧ T.Ended := by
  obtain ⟨-, T, hr, -, hend⟩ :=
    played_to_the_end (T := init 5000 [suitsDeal]) (by decide) (by decide) (by decide) .start
  exact ⟨T, hr, hend⟩

end Table

end Kierki
