import Kierki.Serwer.DealLines

/-!
# The replay of the tricks

`reserve_spot` sends the tricks of the deal to a client that joins: it takes an iterator to the
front of each of the two vectors and moves it on after every line, the mutex being free while a line
is sent. The model reads the vectors by an index, so what the iterators stand for is recorded: how
often the vectors were changed, and how often they had been when the iterators were taken.
-/

namespace Kierki.Serwer

open Lib.Lts Senders

/-! ### The history of the tricks -/

/-- What is recorded of the two vectors and of those who read them. -/
structure Tricks where
  /-- The changes of `taken_tricks` and `taken_takers` so far. -/
  version : ℕ := 0
  /-- The version whose iterators the connection took. -/
  saved : ℕ → ℕ := fun _ => 0
  /-- The deals loaded so far. -/
  dealNr : ℕ := 0
  /-- The deal the connection copied. -/
  copied : ℕ → ℕ := fun _ => 0
  /-- The tricks of each deal that have ended, with their takers. -/
  ended : ℕ → List (List Text × Seat) := fun _ => []

def Tricks.note (st : State) (a : Act) (st' : State) (h : Tricks) : Tricks :=
  match a with
  | .main _ =>
    if st.main.endsTrick then
      { h with
        version := h.version + 1
        ended := Function.update h.ended h.dealNr
          (h.ended h.dealNr ++ [(st.sh.cardsOnTable, st'.sh.lastTaker)]) }
    else if st.main.loads.isSome then
      { h with version := h.version + 1, dealNr := h.dealNr + 1 }
    else h
  | .thread c _ =>
    match (st.threads c).pc with
    | .take => { h with copied := Function.update h.copied c h.dealNr }
    | .replay 0 => { h with saved := Function.update h.saved c h.version }
    | _ => h
  | .accept _ => h

/-- The `TAKEN` lines of the first tricks of a deal, from `TAKEN1` on. -/
def replayLines (tricks : List (List Text × Seat)) : List Text :=
  tricks.mapIdx fun i trick => takenLine (i + 1) trick.1 trick.2

/-- The thread is inside the loop over the tricks: it has used its iterators and will use them
again. -/
def Pc.inReplay : Pc → Bool
  | takenLine _ | replay (_ + 1) | send _ (.replay (_ + 1)) => true
  | _ => false

/-- The thread has copied the deal and not yet taken the iterators. -/
def Pc.beforeReplay : Pc → Bool
  | dealLine _ _ | replay 0 | send _ (.replay 0) => true
  | _ => false

/-- How many tricks a thread has sent. -/
def Pc.replayed : Pc → ℕ
  | takenLine i | replay i | send _ (.replay (i + 1)) => i
  | _ => 0

/-- **What the replay of a thread should be**: the iterators it uses are of the vectors as they are,
and the lines it sent after its `DEAL` line are `TAKEN1`, `TAKEN2` and so on, one for each of the
first tricks of the deal it copied. -/
structure Replays (h : Tricks) (c : ℕ) (t : Thread) : Prop where
  valid : t.pc.inReplay = true → h.saved c = h.version
  sent : t.pc.inReplay = true → t.pc.replayed ≤ (h.ended (h.copied c)).length ∧ ∃ dealType starter hand,
    t.outbox = ((replayLines (h.ended (h.copied c))).take t.pc.replayed).reverse ++
      [dealLine dealType starter hand]
  sending : ∀ l i, t.pc = .send l (.replay (i + 1)) →
    (replayLines (h.ended (h.copied c)))[i]? = some l

/-- **The condition of the replay.** The main thread ends no trick and loads no deal while a thread
is inside the loop, and ends no trick while a thread that copied an earlier deal is before it. -/
def ReplayGuarded (p : State × Tricks) : Act → Prop
  | .main _ => ∀ c < p.1.threadId,
    ((p.1.main.endsTrick || p.1.main.loads.isSome) = true → (p.1.threads c).pc.inReplay = false) ∧
    (p.1.main.endsTrick = true → (p.1.threads c).pc.beforeReplay = true →
      p.2.copied c = p.2.dealNr)
  | .accept _ | .thread _ _ => True

instance (p : State × Tricks) : (a : Act) → Decidable (ReplayGuarded p a)
  | .main _ => inferInstanceAs (Decidable (∀ c < p.1.threadId, _))
  | .accept _ | .thread _ _ => inferInstanceAs (Decidable True)

/-! ### The invariant -/

/-- The two vectors are the tricks of the deal loaded last. -/
structure OnRecord (sh : Shared) (h : Tricks) : Prop where
  tricks : sh.takenTricks = (h.ended h.dealNr).map Prod.fst
  takers : sh.takenTakers = (h.ended h.dealNr).map Prod.snd
  later : ∀ n > h.dealNr, h.ended n = []

/-- **The invariant of a thread.** Before its loop a thread has sent at most its `DEAL` line, and it
copied the deal on the board unless no trick of that deal has ended. -/
structure Replaying (sh : Shared) (h : Tricks) (c : ℕ) (t : Thread) : Prop where
  replays : Replays h c t
  current : t.pc.inReplay = true → h.copied c = h.dealNr
  before : t.pc.beforeReplay = true → h.copied c = h.dealNr ∨ sh.takenTricks = []
  silent : t.pc = .readIam ∨ t.pc = .take ∨ (∃ a b, t.pc = .dealLine a b) → t.outbox = []
  first : ∀ l, t.pc = .send l (.replay 0) →
    t.outbox = [] ∧ ∃ dealType starter hand, l = dealLine dealType starter hand
  begun : t.pc = .replay 0 → ∃ dealType starter hand, t.outbox = [dealLine dealType starter hand]

section Keeps

variable {sh sh' : Shared} {m m' : Main} {h h' : Tricks} {c : ℕ} {t t' : Thread} {o : Outcome}

lemma MainMove.tricks_cases (hm : MainMove sh m sh' m') :
    (m.endsTrick = true ∧ sh'.takenTricks = sh.takenTricks ++ [sh.cardsOnTable] ∧
      sh'.takenTakers = sh.takenTakers ++ [sh'.lastTaker]) ∨
    (m.endsTrick = false ∧ m.loads.isSome = true ∧ sh'.takenTricks = [] ∧ sh'.takenTakers = []) ∨
    (m.endsTrick = false ∧ m.loads.isSome = false ∧ sh'.takenTricks = sh.takenTricks ∧
      sh'.takenTakers = sh.takenTakers) := by
  cases hm with
  | trickEnd _ _ _ hpc => exact .inl ⟨by simp [Main.endsTrick, hpc], rfl, rfl⟩
  | load d rest hpc hd =>
    exact .inr (.inl ⟨by simp [Main.endsTrick, hpc], by simp [Main.loads, hpc, hd], rfl, rfl⟩)
  | gameOver hpc hd =>
    exact .inr (.inr ⟨by simp [Main.endsTrick, hpc], by simp [Main.loads, hpc, hd], rfl, rfl⟩)
  | _ => exact .inr (.inr ⟨by simp [Main.endsTrick, *], by simp [Main.loads, *], rfl, rfl⟩)

lemma Pc.catchesUp_of_inReplay {pc : Pc} (h : pc.inReplay = true) : pc.catchesUp = true := by
  unfold Pc.inReplay at h
  split at h <;> first | rfl | cases h

lemma Pc.catchesUp_of_beforeReplay {pc : Pc} (h : pc.beforeReplay = true) : pc.catchesUp = true := by
  unfold Pc.beforeReplay at h
  split at h <;> first | rfl | cases h

lemma Replaying.of_done (ht : t.pc.catchesUp = false) : Replaying sh h c t := by
  have hin : t.pc.inReplay = false :=
    Bool.eq_false_iff.mpr fun h => by simp [Pc.catchesUp_of_inReplay h] at ht
  have hbefore : t.pc.beforeReplay = false :=
    Bool.eq_false_iff.mpr fun h => by simp [Pc.catchesUp_of_beforeReplay h] at ht
  refine ⟨⟨by simp [hin], by simp [hin], fun l i hpc => ?_⟩, by simp [hin], by simp [hbefore],
    fun hpc => ?_, fun l hpc => ?_, fun hpc => ?_⟩
  · simp [hpc, Pc.catchesUp] at ht
  · rcases hpc with hpc | hpc | ⟨a, b, hpc⟩ <;> simp [hpc, Pc.catchesUp] at ht
  · simp [hpc, Pc.catchesUp] at ht
  · simp [hpc, Pc.catchesUp] at ht

/-- What a step of thread `c` adds to the history. -/
structure Noted (h h' : Tricks) (c : ℕ) (t : Thread) : Prop where
  version : h'.version = h.version
  dealNr : h'.dealNr = h.dealNr
  ended : h'.ended = h.ended
  copied : h'.copied c = if t.pc = .take then h.dealNr else h.copied c
  saved : h'.saved c = if t.pc = .replay 0 then h.version else h.saved c

lemma noted (st st' : State) (h : Tricks) (c : ℕ) (o : Outcome) :
    Noted h (Tricks.note st (.thread c o) st' h) c (st.threads c) ∧ ∀ c' ≠ c,
      (Tricks.note st (.thread c o) st' h).copied c' = h.copied c' ∧
      (Tricks.note st (.thread c o) st' h).saved c' = h.saved c' := by
  simp only [Tricks.note]
  split
  · rename_i hpc
    exact ⟨⟨rfl, rfl, rfl, by simp [hpc], by simp [hpc]⟩, fun c' hc => ⟨by simp [hc], rfl⟩⟩
  · rename_i hpc
    exact ⟨⟨rfl, rfl, rfl, by simp [hpc], by simp [hpc]⟩, fun c' hc => ⟨rfl, by simp [hc]⟩⟩
  · rename_i htake hreplay
    exact ⟨⟨rfl, rfl, rfl, (if_neg htake).symm, (if_neg hreplay).symm⟩, fun _ _ => ⟨rfl, rfl⟩⟩

lemma Replaying.other (hr : Replaying sh h c t) (hv : h'.version = h.version)
    (hd : h'.dealNr = h.dealNr) (he : h'.ended = h.ended) (hc : h'.copied c = h.copied c)
    (hs : h'.saved c = h.saved c) (ht : sh'.takenTricks = sh.takenTricks) :
    Replaying sh' h' c t := by
  obtain ⟨⟨hvalid, hsent, hsending⟩, hcurrent, hbefore, hsilent, hfirst, hbegun⟩ := hr
  refine ⟨⟨?_, ?_, ?_⟩, ?_, ?_, hsilent, hfirst, hbegun⟩
  · rwa [hs, hv]
  · rwa [he, hc]
  · rwa [he, hc]
  · rwa [hc, hd]
  · rwa [hc, hd, ht]

lemma Replaying.drafted (hr : Replaying sh h c t) {a : ℕ} {b : Seat} (hpc : t.pc = .dealLine a b)
    (hand : List Text) : Replaying sh h c (t.goto (.send (dealLine a b hand) (.replay 0))) := by
  refine ⟨⟨by simp [Pc.inReplay], by simp [Pc.inReplay], by simp⟩, by simp [Pc.inReplay],
    fun _ => hr.before (by rw [hpc]; rfl), by simp, fun l hl => ?_, by simp⟩
  cases hl
  exact ⟨hr.silent (.inr (.inr ⟨a, b, hpc⟩)), a, b, hand, rfl⟩

lemma Replaying.sent (hr : Replaying sh h c t) {l : Text} {i : ℕ} (hpc : t.pc = .send l (.replay i)) :
    Replaying sh h c { t with outbox := l :: t.outbox, pc := .replay i } := by
  cases i with
  | zero =>
    refine ⟨⟨by simp [Pc.inReplay], by simp [Pc.inReplay], by simp⟩, by simp [Pc.inReplay],
      fun _ => hr.before (by rw [hpc]; rfl), by simp, by simp, fun _ => ?_⟩
    obtain ⟨hout, a, b, hand, rfl⟩ := hr.first l hpc
    exact ⟨a, b, hand, by simp [hout]⟩
  | succ j =>
    have hin : t.pc.inReplay = true := by rw [hpc]; rfl
    have hl := hr.replays.sending l j hpc
    obtain ⟨-, a, b, hand, hout⟩ := hr.replays.sent hin
    have hj : j < (h.ended (h.copied c)).length := by
      simpa [replayLines] using (List.getElem?_eq_some_iff.mp hl).1
    refine ⟨⟨fun _ => hr.replays.valid hin, fun _ => ⟨hj, a, b, hand, ?_⟩, by simp⟩,
      fun _ => hr.current hin, by simp [Pc.beforeReplay], by simp, by simp, by simp⟩
    simp only [hout, hpc, Pc.replayed, List.take_add_one, hl]
    simp

lemma Replaying.begins (hr : Replaying sh h c t) (hpc : t.pc = .replay 0)
    (hcopied : h'.copied c = h'.dealNr) (hsaved : h'.saved c = h'.version) :
    Replaying sh' h' c (t.goto (.takenLine 0)) := by
  obtain ⟨a, b, hand, hout⟩ := hr.begun hpc
  refine ⟨⟨fun _ => hsaved, fun _ => ⟨Nat.zero_le _, a, b, hand, ?_⟩, by simp⟩, fun _ => hcopied,
    by simp [Pc.beforeReplay], by simp, by simp, by simp⟩
  simpa [Pc.replayed] using hout

lemma Replaying.next (hr : Replaying sh h c t) {j : ℕ} (hpc : t.pc = .replay (j + 1)) :
    Replaying sh h c (t.goto (.takenLine (j + 1))) := by
  have hin : t.pc.inReplay = true := by rw [hpc]; rfl
  have hsent := hr.replays.sent hin
  rw [hpc] at hsent
  exact ⟨⟨fun _ => hr.replays.valid hin, fun _ => hsent, by simp⟩, fun _ => hr.current hin,
    by simp [Pc.beforeReplay], by simp, by simp, by simp⟩

lemma Replaying.taken (hr : Replaying sh h c t) (hb : OnRecord sh h) {i : ℕ} {cards : List Text}
    {taker : Seat} (hpc : t.pc = .takenLine i) (hcards : sh.takenTricks[i]? = some cards)
    (htaker : sh.takenTakers[i]? = some taker) :
    Replaying sh h c (t.goto (.send (takenLine (i + 1) cards taker) (.replay (i + 1)))) := by
  have hin : t.pc.inReplay = true := by rw [hpc]; rfl
  have hsent := hr.replays.sent hin
  rw [hpc] at hsent
  refine ⟨⟨fun _ => hr.replays.valid hin, fun _ => hsent, fun l j hl => ?_⟩, fun _ => hr.current hin,
    by simp [Pc.beforeReplay], by simp, by simp, by simp⟩
  cases hl
  rw [hb.tricks, List.getElem?_map, Option.map_eq_some_iff] at hcards
  rw [hb.takers, List.getElem?_map, Option.map_eq_some_iff] at htaker
  obtain ⟨trick, htrick, rfl⟩ := hcards
  obtain ⟨trick', htrick', rfl⟩ := htaker
  cases htrick.symm.trans htrick'
  rw [hr.current hin]
  simp [replayLines, htrick]

/-- **A step of a thread keeps its invariant.** -/
lemma Replaying.thread (hr : Replaying sh h c t) (hb : OnRecord sh h) (hn : Noted h h' c t)
    (hm : ThreadMove sh c t o sh' t') : Replaying sh' h' c t' := by
  cases hdone : t'.pc.catchesUp with
  | false => exact .of_done hdone
  | true =>
    have htricks := hm.framed.takenTricks
    -- what is noted counts where the deal is copied and where the iterators are taken
    have hsame : t.pc ≠ .take → t.pc ≠ .replay 0 → Replaying sh h c t' → Replaying sh' h' c t' :=
      fun htake hreplay hr' => hr'.other hn.version hn.dealNr hn.ended
        (hn.copied.trans (if_neg htake)) (hn.saved.trans (if_neg hreplay)) htricks
    cases hm.catchUp hdone with
    | asked s hpc =>
      refine hsame (by simp [hpc]) (by simp [hpc]) ?_
      refine ⟨⟨by simp [Pc.inReplay], by simp [Pc.inReplay], by simp⟩, by simp [Pc.inReplay],
        by simp [Pc.beforeReplay], fun _ => hr.silent (.inl hpc), by simp, by simp⟩
    | copied hpc hs hd =>
      have hcopied : h'.copied c = h.dealNr := hn.copied.trans (if_pos hpc)
      exact ⟨⟨by simp [Pc.inReplay], by simp [Pc.inReplay], by simp⟩, by simp [Pc.inReplay],
        fun _ => .inl (hcopied.trans hn.dealNr.symm), fun _ => hr.silent (.inr (.inl hpc)), by simp,
        by simp⟩
    | drafted a b hpc => exact hsame (by simp [hpc]) (by simp [hpc]) (hr.drafted hpc _)
    | sent l i hpc => exact hsame (by simp [hpc]) (by simp [hpc]) (hr.sent hpc)
    | taken i cards taker hpc hcards htaker =>
      exact hsame (by simp [hpc]) (by simp [hpc]) (hr.taken hb hpc hcards htaker)
    | next i hpc hi =>
      cases i with
      | succ j => exact hsame (by simp [hpc]) (by simp [hpc]) (hr.next hpc)
      | zero =>
        have hcur : h.copied c = h.dealNr := by
          refine (hr.before (by rw [hpc]; rfl)).resolve_right fun hempty => ?_
          rw [hempty] at hi
          cases hi
        have hcopied : h'.copied c = h.copied c := hn.copied.trans (if_neg (by simp [hpc]))
        have hsaved : h'.saved c = h.version := hn.saved.trans (if_pos hpc)
        exact hr.begins hpc (by rw [hcopied, hcur, hn.dealNr]) (by rw [hsaved, hn.version])

/-- The vectors change while the thread is neither inside its loop nor, with another deal in its
hands, before it. -/
lemma Replaying.changed (hr : Replaying sh h c t) (hin : t.pc.inReplay = false)
    (hb : t.pc.beforeReplay = true → h'.copied c = h'.dealNr ∨ sh'.takenTricks = []) :
    Replaying sh' h' c t := by
  have hl : ∀ l i, t.pc ≠ .send l (.replay (i + 1)) := by
    intro l i hpc
    simp [hpc, Pc.inReplay] at hin
  exact ⟨⟨by simp [hin], by simp [hin], fun l i hpc => absurd hpc (hl l i)⟩, by simp [hin], hb,
    hr.silent, hr.first, hr.begun⟩

end Keeps

/-! ### The runs -/

section Runs

variable {timeout : ℤ} {deals : List Deal} {st st' : State} {h : Tricks} {a : Act}

lemma replaying_main {ready : List Seat} (hb : OnRecord st.sh h)
    (hr : ∀ c, Replaying st.sh h c (st.threads c)) (hn : st.Numbered)
    (hok : ReplayGuarded (st, h) (.main ready)) (hm : MainMove st.sh st.main st'.sh st'.main) :
    OnRecord st'.sh (Tricks.note st (.main ready) st' h) ∧
      ∀ c, Replaying st'.sh (Tricks.note st (.main ready) st' h) c (st.threads c) := by
  have hin : ∀ c, (st.main.endsTrick || st.main.loads.isSome) = true →
      (st.threads c).pc.inReplay = false := by
    intro c hch
    rcases lt_or_ge c st.threadId with hc | hc
    · exact (hok c hc).1 hch
    · rw [hn c hc]
      rfl
  simp only [Tricks.note]
  obtain ⟨hend, htricks, htakers⟩ | ⟨hend, hload, htricks, htakers⟩ | ⟨hend, hload, htricks, htakers⟩ :=
    hm.tricks_cases
  · rw [if_pos hend]
    refine ⟨⟨?_, ?_, fun n hlt => ?_⟩, fun c => (hr c).changed (hin c (by simp [hend])) fun hbefore => ?_⟩
    · simp [htricks, hb.tricks]
    · simp [htakers, hb.takers]
    · simp only at hlt ⊢
      rw [Function.update_of_ne (by omega)]
      exact hb.later n hlt
    · rcases lt_or_ge c st.threadId with hc | hc
      · exact .inl ((hok c hc).2 hend hbefore)
      · rw [hn c hc] at hbefore
        cases hbefore
  · rw [if_neg (by simp [hend]), if_pos hload]
    have hnew := hb.later (h.dealNr + 1) (by omega)
    refine ⟨⟨by simp [htricks, hnew], by simp [htakers, hnew], fun n hlt => ?_⟩,
      fun c => (hr c).changed (hin c (by simp [hload])) fun _ => .inr htricks⟩
    exact hb.later n (by simp only at hlt; omega)
  · rw [if_neg (by simp [hend]), if_neg (by simp [hload])]
    exact ⟨⟨htricks.trans hb.tricks, htakers.trans hb.takers, hb.later⟩,
      fun c => (hr c).other rfl rfl rfl rfl rfl htricks⟩

/-- **Every guarded step keeps the invariant.** -/
lemma replaying_step (hb : OnRecord st.sh h) (hr : ∀ c, Replaying st.sh h c (st.threads c))
    (hn : st.Numbered) (hok : ReplayGuarded (st, h) a) (hs : step st a = some st') :
    OnRecord st'.sh (Tricks.note st a st' h) ∧
      ∀ c, Replaying st'.sh (Tricks.note st a st' h) c (st'.threads c) := by
  obtain ⟨ready, rfl, hm, hthreads⟩ | ⟨fd, rfl, hsh, hmain, hthreads⟩ |
    ⟨c, o, rfl, hm, hmain, hthreads⟩ := step_moves hs
  · rw [hthreads]
    exact replaying_main hb hr hn hok hm
  · rw [hsh, hthreads]
    refine ⟨hb, fun c => ?_⟩
    by_cases hc : c = st.threadId
    · subst hc
      rw [Function.update_self]
      exact ⟨⟨by simp [Pc.inReplay], by simp [Pc.inReplay], by simp⟩, by simp [Pc.inReplay],
        by simp [Pc.beforeReplay], fun _ => rfl, by simp, by simp⟩
    · rw [Function.update_of_ne hc]
      exact hr c
  · obtain ⟨hnoted, hothers⟩ := noted st st' h c o
    have hf := hm.framed
    refine ⟨⟨?_, ?_, ?_⟩, fun c' => ?_⟩
    · rw [hf.takenTricks, hnoted.ended, hnoted.dealNr, hb.tricks]
    · rw [hf.takenTakers, hnoted.ended, hnoted.dealNr, hb.takers]
    · rw [hnoted.ended, hnoted.dealNr]
      exact hb.later
    · by_cases hc : c' = c
      · subst hc
        exact (hr c').thread hb hnoted hm
      · rw [hthreads c' hc]
        exact (hr c').other hnoted.version hnoted.dealNr hnoted.ended (hothers c' hc).1 (hothers c' hc).2
          hf.takenTricks

/-- **The replay reads the vectors as they were when it took its iterators, and sends the tricks of
the deal one by one**, in the runs in which they do not change under it. -/
theorem tricks_replayed
    (hr : Reach (record step Tricks.note) ReplayGuarded (init timeout deals, {}) (st, h)) (c : ℕ) :
    Replays h c (st.threads c) := by
  refine (Reach.invariant_with
    (I := fun p : State × Tricks => OnRecord p.1.sh p.2 ∧ ∀ c, Replaying p.1.sh p.2 c (p.1.threads c))
    (J := fun p => p.1.Numbered) (fun p hp => ?_) ?_ (fun p a p' hn hi hok hs => ?_) hr).2 c |>.replays
  · have hreach : Reachable timeout deals p.1 := hp.forget fun _ _ _ => trivial
    exact numbered hreach
  · exact ⟨⟨rfl, rfl, fun _ _ => rfl⟩, fun c => .of_done rfl⟩
  · obtain ⟨hs, hh⟩ := record_eq_some.mp hs
    rw [hh]
    exact replaying_step hi.1 hi.2 hn hok hs

/-- The opening and the first trick. -/
def firstTrick : List Act :=
  opening ++ mains 8 ++ playsCard 0 .N ['2', 'C'] ++ playsCard 1 .E ['2', 'D'] ++
  playsCard 2 .S ['2', 'H'] ++ playsCard 3 .W ['2', 'S'] ++ mains 8

/-- `N`'s client leaves after the first trick, and the next one is sent that trick. -/
theorem tricks_replayed_first : ∃ st h,
    Reach (record step Tricks.note) ReplayGuarded (init 5000 [suitsDeal], {}) (st, h) ∧
    (st.threads 4).outbox.head? =
      some (takenLine 1 [['2', 'C'], ['2', 'D'], ['2', 'H'], ['2', 'S']] .N) ∧
    Replays h 4 (st.threads 4) := by
  obtain ⟨st, h, hr, hp⟩ := exists_recorded Tricks.note {} ReplayGuarded [suitsDeal]
    (firstTrick ++ ticks 0 2 ++ leaves 0 true 3 ++ asks 4 .N ++ ticks 4 6)
    (fun p => decide ((p.1.threads 4).outbox.head? =
      some (takenLine 1 [['2', 'C'], ['2', 'D'], ['2', 'H'], ['2', 'S']] .N))) (by decide +kernel)
  exact ⟨st, h, hr, of_decide_eq_true hp, tricks_replayed hr 4⟩

end Runs

/-! ### A trick that ends in the middle of the replay -/

/-- The seat of connection `c` is told of the first trick and answers `barrier`. -/
def acksTrick (c n : ℕ) : List Act := ticks c 2 ++ hears c 2 ++ hears c n

/-- The seat of connection `c` plays a card of the second trick. -/
def playsSecond (c : ℕ) (s : Seat) (card : Text) : List Act :=
  hears c 3 ++ hears c 3 ++ sends c (trickLine 2 [card]) false 2 ++ [.main [s]]

/-- The four cards of the second trick are played. Before the main thread ends the trick `N`'s
client leaves, and the next one is about to be sent the first trick. -/
def leavesAfterCard : List Act :=
  firstTrick ++ acksTrick 0 1 ++ acksTrick 1 1 ++ acksTrick 2 1 ++ acksTrick 3 2 ++
  [.main [.W]] ++ mains 9 ++ playsSecond 0 .N ['3', 'C'] ++ mains 4 ++
  playsSecond 1 .E ['3', 'D'] ++ mains 4 ++ playsSecond 2 .S ['3', 'H'] ++ mains 4 ++
  playsSecond 3 .W ['3', 'S'] ++ mains 2 ++ ticks 0 3 ++ leaves 0 false 3 ++ asks 4 .N ++ ticks 4 4

/-- **The iterators are used after `push_back`.** -/
theorem iterators_outlived : ∃ st h,
    Reach (record step Tricks.note) (fun _ _ => True) (init 5000 [suitsDeal], {}) (st, h) ∧
    (st.threads 4).pc = .takenLine 0 ∧ ¬Replays h 4 (st.threads 4) := by
  obtain ⟨st, h, hr, hp⟩ := exists_recorded Tricks.note {} (fun _ _ => True) [suitsDeal]
    (leavesAfterCard ++ mains 1)
    (fun p => decide ((p.1.threads 4).pc = .takenLine 0 ∧ p.2.saved 4 ≠ p.2.version))
    (by decide +kernel)
  obtain ⟨hpc, hv⟩ := of_decide_eq_true hp
  exact ⟨st, h, hr, hpc, fun hr => hv (hr.valid (by rw [hpc]; rfl))⟩

end Kierki.Serwer
