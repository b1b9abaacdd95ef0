import Kierki.Table.Kept

/-!
# When all clients play on time

What the runs of the table come to, in which no call fails, no time runs out and every AI client asks
for a seat of its own: the server never has a reason to refuse a line, and no client ever loses sight
of the game.
-/

namespace Kierki.Table

open Regex Senders Serwer Lib.Lts

variable {timeout : ℤ} {deals : List Deal} {T : Table}

/-- **No line is refused.** The server accepts every card that comes in, so it sends nobody `WRONG` or
`BUSY`, repeats no request, and loses no player. The lines of a client that are still to be judged,
once it has heard everything on its way to it, are none at all, or the one card its turn asks for. -/
theorem no_line_refused (hfair : ∀ d ∈ deals, d.Fair) (htimeout : 0 < timeout)
    (h : T.RunsTo timeout deals) :
    (∀ c m after, (T.server.threads c).pc = .parse m after →
      (T.server.threads c).accepts T.server.sh = true) ∧
    (∀ c l p, (T.server.threads c).pc = .send l p →
      p = .cardPlay ∨ p = .inform ∨ ∃ total, p = .score total) ∧
    (∀ c, (T.server.threads c).pc ≠ .closeLock false) ∧
    ∀ c < T.server.threadId,
      let owed := (T.server.threads c).unjudged (T.up c) ++ (T.clients c).answers (T.coming c)
      owed = [] ∨ Open T.server.sh T.server.main.pc (T.clients c).seat ∧
        ∃ card, owed = [trickLine T.server.sh.trickNumber [card]] ∧
          acceptedCard (T.server.sh.cards (T.clients c).seat) T.server.sh.cardsOnTable
            T.server.sh.trickNumber (trickLine T.server.sh.trickNumber [card]) = some card := by
  have ht := attuned hfair htimeout h
  have hord : ∀ c, (T.server.threads c).pc ≠ .absent → (T.server.threads c).pc.orderly = true :=
    fun c hpc => (ht.attends c (ht.lt_of_pc hpc)).orderly
  refine ⟨fun c m after hpc => ?_, fun c l p hpc => ?_, fun c hpc => ?_, fun c hc => ?_⟩
  · have hc : c < T.server.threadId := ht.lt_of_pc (by rw [hpc]; simp)
    obtain ⟨hd, hacc⟩ := (ht.smooth hc).legal m after hpc
    have hcheck : TRICKClientCheck m = true := by
      simpa [Pc.isBadLine, hpc] using (ht.smooth hc).good
    unfold Thread.accepts
    rw [hpc]
    simp [hcheck, hd, Option.isSome_iff_ne_none, hacc]
  · have := hord c (by rw [hpc]; simp)
    rw [hpc] at this
    cases p with
    | cardPlay => exact .inl rfl
    | inform => exact .inr (.inl rfl)
    | score total => exact .inr (.inr ⟨total, rfl⟩)
    | _ => cases this
  · have := hord c (by rw [hpc]; simp)
    rw [hpc] at this
    cases this
  · obtain ⟨k, owed, hears, hin⟩ := ht.inStep c hc
    dsimp only
    rw [hears.2]
    by_cases hopen : Open T.server.sh T.server.main.pc (T.clients c).seat
    · by_cases hnil : owed = []
      · exact .inl hnil
      · obtain ⟨card, howed, -, hacc, -⟩ := hin.accept c hopen hnil
        exact .inr ⟨hopen, card, howed, hacc⟩
    · exact .inl (hin.owed_eq_nil hopen)

/-- **The clients know the game.** A client can make sense of every line that is on its way to it, when
it comes to read it. While a deal is in play that it was told of, it then expects the trick the server
plays, has the tricks it took, and holds the cards the server holds for it, but for the one it owes an
answer with. -/
theorem hands_agree (hfair : ∀ d ∈ deals, d.Fair) (htimeout : 0 < timeout)
    (h : T.RunsTo timeout deals) {c : ℕ} (hc : c < T.server.threadId) :
    (∀ ls l ls', T.coming c = ls ++ l :: ls' →
      ∃ k, (T.clients c).receiveAll ls = some k ∧ k.Takes l) ∧
    ∃ k, (T.clients c).receiveAll (T.coming c) = some k ∧
      ∀ n, T.server.main.pc.expects T.server.sh.trickNumber (T.clients c).seat = some n →
        k.trickNumber = n ∧ k.takenTricks = T.server.sh.won (T.clients c).seat (n - 1) ∧
        ((T.server.threads c).unjudged (T.up c) ++ (T.clients c).answers (T.coming c) = [] →
          k.myCards.Perm (T.server.sh.cards (T.clients c).seat)) := by
  obtain ⟨k, owed, hears, hin⟩ := (attuned hfair htimeout h).inStep c hc
  refine ⟨fun ls l ls' hl => ?_, k, hears.1, fun n hn => ?_⟩
  · have hsense := hears.understands
    rw [hl] at hsense
    exact hsense.split
  obtain ⟨hnumber, htricks⟩ := hin.number n hn
  refine ⟨hnumber, htricks, fun hnil => ?_⟩
  rw [hears.2] at hnil
  cases ha : T.server.main.pc.asked (T.clients c).seat with
  | false => exact (hin.rests ha).2.2 (by rw [hn]; simp)
  | true =>
    obtain ⟨card, hlaid⟩ := hin.laid ha
    refine (hlaid.closed fun hopen => ?_).2.1
    have := (hlaid.opened hopen).1
    rw [hnil] at this
    cases this

/-! ### A run written down -/

/-- The client of connection `c` connects, asks for a seat and is led to its first `poll`. -/
def comes (c : ℕ) (s : Seat) : List Act :=
  [.connect (5 + c) s, .thread c (.line (iamLine s))] ++ List.replicate 3 (.thread c .tick)

/-- The thread of connection `c` finds its pipe ready and reads it, and moves `n` times more. -/
def listens (c n : ℕ) : List Act :=
  .thread c (.ready false true 0) :: List.replicate (n + 1) (.thread c .tick)

/-- All clients connect, the deal is told, `N` is asked for a card and plays it, and its thread is about
to judge the line. -/
def leads : List Act :=
  List.replicate 5 (.main []) ++ comes 0 .N ++ comes 1 .E ++ comes 2 .S ++ comes 3 .W ++
  listens 0 1 ++ listens 1 1 ++ listens 2 1 ++ listens 3 2 ++ [.main [.W]] ++
  List.replicate 15 (.main []) ++ listens 0 3 ++ listens 0 3 ++ listens 0 3 ++ [.client 0, .client 0] ++
  [.thread 0 (.ready true false 0), .thread 0 (.line (trickLine 1 [['A', 'C']]))]

private lemma exists_leads : ∃ T, RunsTo 5000 [suitsDeal] T ∧
    (T.server.threads 0).pc = .parse (trickLine 1 [['A', 'C']]) (.pipe false) ∧ T.server.threadId = 4 ∧
    T.server.main.pc.expects T.server.sh.trickNumber (T.clients 1).seat = some 1 := by
  have hexec : (exec step Prompt (init 5000 [suitsDeal]) leads).any (fun T =>
      decide ((T.server.threads 0).pc = .parse (trickLine 1 [['A', 'C']]) (.pipe false) ∧
        T.server.threadId = 4 ∧
        T.server.main.pc.expects T.server.sh.trickNumber (T.clients 1).seat = some 1)) = true := by
    decide +kernel
  obtain ⟨T, hr, hp⟩ := Reach.exists_of_exec hexec
  exact ⟨T, hr, of_decide_eq_true hp⟩

theorem no_line_refused_ace : ∃ T, RunsTo 5000 [suitsDeal] T ∧
    (T.server.threads 0).pc = .parse (trickLine 1 [['A', 'C']]) (.pipe false) ∧
    (T.server.threads 0).accepts T.server.sh = true := by
  obtain ⟨T, hr, hpc, -⟩ := exists_leads
  exact ⟨T, hr, hpc, (no_line_refused (by decide) (by decide) hr).1 0 _ _ hpc⟩

theorem hands_agree_ace : ∃ T k, RunsTo 5000 [suitsDeal] T ∧
    (T.clients 1).receiveAll (T.coming 1) = some k ∧ k.trickNumber = 1 := by
  obtain ⟨T, hr, -, hid, hexpects⟩ := exists_leads
  obtain ⟨-, k, hk, hagree⟩ := hands_agree (by decide) (by decide) hr (c := 1) (by omega)
  exact ⟨T, k, hr, hk, (hagree 1 hexpects).1⟩

end Kierki.Table
