import Kierki.Serwer.Failing.Program

/-!
# The calls of the main thread

`mainRules` say which calls of the main thread are in order by what it has done before: pipes are used
while they are open, closed while no other thread runs, and left alone after `close_server` began.
`wp_main` says that the program of the main thread keeps to them, for every answer but an ended pipe
and a report of the connection thread in `run_deal`; the lemmas before it say the same of the functions
it is made of, and what each returns after a failure.
-/

namespace Kierki.Serwer.Failing

open Lib.Calls Lib.Calls.Prog

/-- The calls `close_server` makes after it began. -/
def Closing : Call → Prop
  | .write _ _ | .joinConnections | .joinClients | .close _ | .printError _ => True
  | _ => False

/-! ### The rules -/

def Fd.IsPipe : Fd → Prop
  | serverReadPipes _ _ | serverWritePipes _ _ => True
  | _ => False

/-- The other threads of the process, as the main thread knows them. -/
inductive Threads
  | notStarted | all
  /-- The connection thread was joined. -/
  | clients
  | over
  deriving DecidableEq

/-- Another thread may be running. -/
def Threads.Busy (t : Threads) : Prop := t = .all ∨ t = .clients

/-- What the main thread has done. -/
structure MainSide where
  called : Option Func := none
  threads : Threads := .notStarted
  closed : List Fd := []

/-- The connection thread is joined, if it was started. -/
def MainSide.join (m : MainSide) : MainSide :=
  { m with threads := if m.threads = .all then .clients else m.threads }

lemma MainSide.join_threads (m : MainSide) : m.join.threads ≠ .all := by
  unfold join
  dsimp only
  split_ifs with h
  · nofun
  · exact h

/-- A call of the main thread is in order. It works on open pipes, no other thread runs while it closes
them or starts one, and after `close_server` began there is nothing else to do. -/
structure MainSide.Allows (m : MainSide) (c : Call) : Prop where
  fds : ∀ fd ∈ c.fds, fd.IsPipe ∧ fd ∉ m.closed
  closing : m.called ≠ none → Closing c
  alone : c.closes ≠ [] → ¬m.threads.Busy
  start : c = .startThread → m.threads = .notStarted ∧ m.closed = []
  joinClients : c = .joinClients → m.threads ≠ .all

/-- What the main thread has done after one more call. -/
def MainSide.next (m : MainSide) : (c : Call) → c.Answer → MainSide
  | .startThread, none => { m with threads := .all }
  | .closeServer caller _, _ => { m with called := some caller }
  | .joinConnections, _ => m.join
  | .joinClients, _ => { m with threads := .over }
  | .close fd, _ => { m with closed := m.closed ++ [fd] }
  | _, _ => m

def mainRules : Rules Call Call.Answer MainSide where
  ok := MainSide.Allows
  may _ c a := counted c a = true
  next := MainSide.next
  spins m := m.called = none

/-- Nothing failed yet. -/
structure Up (m : MainSide) : Prop where
  called : m.called = none
  closed : m.closed = []

/-- A failure was met with `close_server`. -/
def Down (m : MainSide) : Prop := ∃ caller, m.called = some caller ∧ caller ≠ .runGame

section MainThread

variable {ρ α : Type} {m : MainSide} {E : ρ → MainSide → Prop}

lemma MainSide.Allows.quiet {c : Call} (hm : m.closed = []) (hfds : ∀ fd ∈ c.fds, fd.IsPipe)
    (hc : m.called ≠ none → Closing c) (hcloses : c.closes = []) (hstart : c ≠ .startThread)
    (hjoin : c ≠ .joinClients) : m.Allows c where
  fds fd hfd := ⟨hfds fd hfd, by simp [hm]⟩
  closing := hc
  alone h := absurd hcloses h
  start h := absurd h hstart
  joinClients h := absurd h hjoin

lemma wp_next {c : Call} {f : c.Answer → MainSide} {Q : c.Answer → MainSide → Prop}
    (hok : m.Allows c) (hnext : ∀ a, m.next c a = f a)
    (h : ∀ a, counted c a = true → Q a (f a)) : wp mainRules (ask c : Proc ρ c.Answer) E Q m := by
  refine ⟨hok, fun a ha => ?_⟩
  show Q a (m.next c a)
  rw [hnext a]
  exact h a ha

lemma wp_printError (message : String) (hm : m.closed = []) {Q : PUnit → MainSide → Prop} (h : Q ⟨⟩ m) :
    wp mainRules (printError message : Proc ρ PUnit) E Q m :=
  wp_next (f := fun _ => m) (.quiet hm (by simp [Call.fds]) (fun _ => trivial) rfl nofun nofun)
    (fun _ => rfl) fun _ _ => h

lemma wp_write {i : Fin 5} {c : Char} (hm : m.closed = []) {Q : ℤ → MainSide → Prop}
    (h : ∀ result, Q result m) :
    wp mainRules (write (.serverWritePipes i 1) c : Proc ρ ℤ) E Q m :=
  wp_next (f := fun _ => m)
    (.quiet hm (by simp [Call.fds, Fd.IsPipe]) (fun _ => trivial) rfl nofun nofun) (fun _ => rfl)
    fun a _ => h a

lemma wp_closeFds {fds : List Fd} (hfds : ∀ fd ∈ fds, fd.IsPipe) (hnodup : (m.closed ++ fds).Nodup)
    (hm : ¬m.threads.Busy) : wp mainRules (closeFds fds : Proc ρ PUnit) E
      (fun _ m' => m' = { m with closed := m.closed ++ fds }) m := by
  refine wp_forM (I := fun before m' => m' = { m with closed := m.closed ++ before }) ?_ ?_
  · rintro before fd after m' rfl rfl
    refine ⟨⟨?_, fun _ => trivial, fun _ => hm, nofun, nofun⟩, fun _ _ => ?_⟩
    · intro fd' hfd'
      obtain rfl : fd' = fd := by simpa [Call.fds] using hfd'
      refine ⟨hfds fd' (by simp), fun hmem => ?_⟩
      rw [← List.append_assoc, List.nodup_append] at hnodup
      exact hnodup.2.2 fd' hmem fd' (by simp) rfl
    · show ({ m with closed := m.closed ++ before ++ [fd] } : MainSide) = _
      rw [List.append_assoc]
  · rw [List.append_nil]

lemma wp_closePipes {l : List (Fin 5)} (hnodup : (m.closed ++ l.flatMap pipeFds).Nodup)
    (hm : ¬m.threads.Busy) : wp mainRules (forM l fun i => closeFds (pipeFds i) : Proc ρ PUnit) E
      (fun _ m' => m' = { m with closed := m.closed ++ l.flatMap pipeFds }) m := by
  refine wp_forM
    (I := fun before m' => m' = { m with closed := m.closed ++ before.flatMap pipeFds }) ?_ ?_
  · rintro before i after m' rfl rfl
    refine wp_mono (fun _ _ => id) ?_ (wp_closeFds (by simp [pipeFds, Fd.IsPipe]) ?_ hm)
    · rintro _ m' rfl
      simp
    · simp only [List.flatMap_append, List.flatMap_cons, ← List.append_assoc] at hnodup ⊢
      exact (List.nodup_append.mp hnodup).1
  · simp

lemma wp_closeAll (errorMessage : String) (failed : Bool) {thrown : List String} {caller : Func}
    (hcalled : m.called = some caller) (hm : ¬m.threads.Busy) (hclosed : m.closed = [])
    {Q : Bool → MainSide → Prop} (h : ∀ failed m', m'.called = some caller → Q failed m') :
    wp mainRules (do
      forM thrown printError
      forM five fun i => closeFds (pipeFds i)
      if errorMessage ≠ "" then
        printError errorMessage
        return true
      else return failed || !thrown.isEmpty : Proc ρ Bool) E Q m := by
  refine wp_bind.mpr (wp_mono (fun _ _ => id) ?_ (wp_forM_keeps (I := fun m' => m = m') ?_ rfl))
  · rintro _ _ rfl
    refine wp_bind.mpr (wp_mono (fun _ _ => id) ?_ (wp_closePipes (by rw [hclosed]; decide) hm))
    rintro _ m' rfl
    rw [wp_ite]
    split
    · exact wp_bind.mpr (wp_next (f := fun _ => _)
        ⟨nofun, fun _ => trivial, fun h => absurd rfl h, nofun, nofun⟩ (fun _ => rfl)
        fun _ _ => h _ _ hcalled)
    · exact h _ _ hcalled
  · rintro what - _ rfl
    exact wp_printError what hclosed rfl

/-- **`close_server`**, called while nothing has failed. -/
lemma wp_closeServer (caller : Func) (errorMessage : String) (hm : Up m) {Q : Bool → MainSide → Prop}
    (h : ∀ failed m', m'.called = some caller → Q failed m') :
    wp mainRules (closeServer caller errorMessage : Proc ρ Bool) E Q m := by
  obtain ⟨hcalled, hclosed⟩ := hm
  refine wp_bind.mpr (wp_next (f := fun _ => { m with called := some caller })
    (.quiet hclosed (by simp [Call.fds]) (by simp [hcalled]) rfl nofun nofun) (fun _ => rfl)
    fun _ _ => ?_)
  have hclosed₀ : ({ m with called := some caller } : MainSide).closed = [] := hclosed
  refine wp_bind.mpr (wp_write hclosed₀ fun _ => ?_)
  refine wp_bind.mpr (wp_next (f := fun _ => { m with called := some caller }.join)
    (.quiet hclosed₀ (by simp [Call.fds]) (fun _ => trivial) rfl nofun nofun) (fun _ => rfl)
    fun thrown _ => ?_)
  obtain ⟨m₁, hm₁⟩ : ∃ m₁, m₁ = MainSide.join { m with called := some caller } := ⟨_, rfl⟩
  have hclosed₁ : m₁.closed = [] := by rw [hm₁]; exact hclosed
  have hcalled₁ : m₁.called = some caller := by rw [hm₁]; rfl
  have hthreads₁ : m₁.threads ≠ .all := by rw [hm₁]; exact MainSide.join_threads _
  rw [← hm₁]
  refine wp_bind.mpr (wp_mono (fun _ _ => id) ?_ (wp_forM_keeps (I := fun m' => m₁ = m') ?_ rfl))
  · rintro _ _ rfl
    refine wp_bind.mpr (wp_mono (fun _ _ => id) ?_ (wp_foldlM_keeps (I := fun _ m' => m₁ = m') ?_ rfl))
    · rintro failed _ rfl
      refine wp_bind.mpr (wp_next (f := fun _ => { m₁ with threads := .over })
        ⟨nofun, fun _ => trivial, fun h => absurd rfl h, nofun, fun _ => hthreads₁⟩ (fun _ => rfl)
        fun thrown' _ => ?_)
      exact wp_closeAll errorMessage failed (by exact hcalled₁) (by simp [Threads.Busy])
        (by exact hclosed₁) h
    · rintro i - failed _ rfl
      refine wp_bind.mpr (wp_write hclosed₁ fun _ => ?_)
      rw [wp_ite]
      split
      · exact wp_bind.mpr (wp_printError _ hclosed₁ rfl)
      · exact rfl
  · rintro what - _ rfl
    exact wp_printError what hclosed₁ rfl

/-- A body that met a failure returns -1. -/
def Lost (r : ℤ) (m : MainSide) : Prop := r = -1 ∧ Down m

lemma wp_fail {caller : Func} (errorMessage : String) (hm : Up m) (hcaller : caller ≠ .runGame)
    {Q : α → MainSide → Prop} :
    wp mainRules (fail caller errorMessage : Proc ℤ α) Lost Q m :=
  wp_bind.mpr (wp_closeServer caller errorMessage hm fun _ _ h => ⟨rfl, caller, h, hcaller⟩)

lemma wp_body {p : Proc ℤ ℤ} {Q : ℤ → MainSide → Prop} (hlost : ∀ m', Down m' → Q (-1) m')
    (h : wp mainRules p Lost Q m) : wp mainRules (p.returned : Proc ρ ℤ) E Q m := by
  refine wp_returned.mpr (wp_mono ?_ (fun _ _ => id) h)
  rintro _ m' ⟨rfl, hdown⟩
  exact hlost m' hdown

/-- The check of a read: 1, or a failure that was met; where it is met with 0, the pipe had ended. -/
lemma wp_assertServerReadPipe {result : ℤ} (hm : Up m) {Q : ℤ → MainSide → Prop}
    (hgood : Q 1 m) (hbad : ∀ r m', r ≤ 0 → (r = 0 → result = 0) → Down m' → Q r m') :
    wp mainRules (assertServerReadPipe result : Proc ρ ℤ) E Q m := by
  unfold assertServerReadPipe
  split_ifs with hzero
  · refine wp_bind.mpr (wp_closeServer _ _ hm fun _ m' h => ?_)
    exact hbad 0 m' le_rfl (fun _ => hzero) ⟨_, h, by decide⟩
  · refine wp_bind.mpr (wp_closeServer _ _ hm fun _ m' h => ?_)
    exact hbad (-1) m' (by decide) nofun ⟨_, h, by decide⟩
  · exact hgood

lemma wp_tell (b : Byte) (i : Fin 5) (hm : Up m) :
    wp mainRules (tell b i) Lost (fun _ m' => m = m') m := by
  refine wp_bind.mpr (wp_write hm.closed fun result => ?_)
  refine wp_bind.mpr ?_
  unfold assertServerWritePipe
  split_ifs
  · refine wp_bind.mpr (wp_closeServer _ _ hm fun _ m' h => ?_)
    exact ⟨rfl, _, h, by decide⟩
  · exact rfl

lemma wp_tellAll (b : Byte) (hm : Up m) :
    wp mainRules (forM four (tell b)) Lost (fun _ m' => m = m') m :=
  wp_forM_keeps (by rintro i - _ rfl; exact wp_tell b i hm) rfl

lemma wp_asks {c : Call} {Q : c.Answer → MainSide → Prop} (hm : Up m) (hfds : ∀ fd ∈ c.fds, fd.IsPipe)
    (hcloses : c.closes = []) (hstart : c ≠ .startThread) (hjoin : c ≠ .joinClients)
    (hnext : ∀ a, m.next c a = m) (h : ∀ a, counted c a = true → Q a m) :
    wp mainRules (ask c : Proc ρ c.Answer) E Q m :=
  wp_next (f := fun _ => m) (.quiet hm.closed hfds (absurd hm.called) hcloses hstart hjoin) hnext h

/-- The calls of the main thread that work on no descriptor and on no thread. -/
def Call.Plain : Call → Prop
  | pipe _ | occupied | lastTaker | readNextDeal => True
  | _ => False

lemma wp_plain {c : Call} {Q : c.Answer → MainSide → Prop} (hm : Up m) (hc : c.Plain)
    (h : ∀ a, Q a m) : wp mainRules (ask c : Proc ρ c.Answer) E Q m := by
  cases c with
  | pipe _ | occupied | lastTaker | readNextDeal =>
    exact wp_asks hm nofun rfl nofun nofun (fun _ => rfl) fun a _ => h a
  | _ => exact absurd hc id

lemma wp_poll {Q : Option (Fd → Revents) → MainSide → Prop} (hm : Up m) (h : ∀ a, Q a m) :
    wp mainRules (ask (.poll (five.map fun i => .serverReadPipes i 0)) :
      Proc ρ (Option (Fd → Revents))) E Q m :=
  wp_asks hm (by simp [Call.fds, five, Fd.IsPipe]) rfl nofun nofun (fun _ => rfl) fun a _ => h a

lemma wp_read {caller : Func} {i : Fin 5} {Q : Got → MainSide → Prop} (hm : Up m)
    (h : ∀ got, counted (.read caller (.serverReadPipes i 0)) got = true → Q got m) :
    wp mainRules (ask (.read caller (.serverReadPipes i 0)) : Proc ρ Got) E Q m :=
  wp_asks hm (by simp [Call.fds, Fd.IsPipe]) rfl nofun nofun (fun _ => rfl) h

lemma wp_barrierScan (revents : Fd → Revents) (i : Fin 5) (hm : Up m) :
    wp mainRules (barrierScan revents i) Lost (fun _ m' => m = m') m := by
  unfold barrierScan
  split_ifs
  · refine wp_bind.mpr (wp_read hm fun got _ => ?_)
    refine wp_bind.mpr (wp_assertServerReadPipe hm ?_ ?_)
    · rw [if_neg (by decide)]
      split_ifs
      · exact wp_fail _ hm (by decide)
      · exact wp_tell _ i hm
      · exact wp_fail _ hm (by decide)
      · exact rfl
    · intro r m' hr _ hdown
      rw [if_pos hr]
      exact ⟨rfl, hdown⟩
  · exact wp_fail _ hm (by decide)
  · exact rfl

lemma wp_barrierRound (waiting : ℤ) (hm : Up m) :
    wp mainRules (barrierRound waiting) Lost (fun _ m' => m = m') m := by
  refine wp_bind.mpr (wp_poll hm fun revents => ?_)
  cases revents with
  | none => exact wp_fail _ hm (by decide)
  | some revents =>
    refine wp_bind.mpr (wp_mono (fun _ _ => id) ?_ (wp_forM_keeps (I := fun m' => m = m') ?_ rfl))
    · rintro _ _ rfl
      exact wp_bind.mpr (wp_plain hm (by trivial) fun _ => rfl)
    · rintro i - _ rfl
      exact wp_barrierScan revents i hm

/-- **`barrier`** returns 0 while all is well, and -1 after a failure. -/
lemma wp_barrier (fuel : ℕ) (hm : Up m) {Q : ℤ → MainSide → Prop} (h : Q 0 m)
    (hlost : ∀ m', Down m' → Q (-1) m') : wp mainRules (barrier fuel : Proc ρ ℤ) E Q m := by
  refine wp_body hlost ?_
  refine wp_bind.mpr (wp_mono (fun _ _ => id) ?_ (wp_tellAll .barrierResponse hm))
  rintro _ _ rfl
  refine wp_bind.mpr (wp_mono (fun _ _ => id) ?_ (wp_loop (I := fun _ m' => m = m') ?_ ?_ rfl))
  · rintro _ _ rfl
    refine wp_bind.mpr (wp_mono (fun _ _ => id) ?_ (wp_tellAll .barrierEnd hm))
    rintro _ _ rfl
    exact h
  · rintro _ _ rfl
    exact hm.called
  · rintro waiting _ rfl
    exact wp_barrierRound waiting hm

lemma counted_runDeal {i : Fin 5} {got : Got}
    (h : counted (.read .runDeal (.serverReadPipes i 0)) got = true) :
    got.result ≠ 0 ∧ ¬(got.message = some Byte.disconnected.char ∧ i = 4) := by
  have hne : got ≠ .endOfFile ∧ (i = 4 → got.message ≠ some Byte.disconnected.char) := by
    simp only [counted, Bool.or_eq_true, Bool.and_eq_true, decide_eq_true_eq] at h
    obtain hcaller | ⟨hend, hfour⟩ := h
    · exact absurd rfl hcaller
    · exact ⟨hend, fun hi => hfour.resolve_left (by simp [hi])⟩
  refine ⟨?_, fun hlost => hne.2 hlost.2 hlost.1⟩
  cases got with
  | endOfFile => exact absurd rfl hne.1
  | failed | char c => nofun

lemma wp_cardScan (fuel : ℕ) (player : Fin 5) (revents : Fd → Revents) (bReceivedCard : Bool)
    (j : Fin 5) (hm : Up m) :
    wp mainRules (cardScan fuel player revents bReceivedCard j) Lost (fun _ m' => m = m') m := by
  unfold cardScan
  rw [wp_ite]
  split
  · refine wp_bind.mpr (wp_read hm fun got hcounted => ?_)
    obtain ⟨hend, hfour⟩ := counted_runDeal hcounted
    refine wp_bind.mpr (wp_assertServerReadPipe hm ?_ ?_)
    · rw [if_neg (by decide)]
      split_ifs with hcard hlost hj
      · exact rfl
      · exact absurd ⟨hlost, hj⟩ hfour
      · refine wp_bind.mpr (wp_barrier fuel hm ?_ fun m' hdown => ?_)
        · exact rfl
        · exact ⟨rfl, hdown⟩
      · exact wp_fail _ hm (by decide)
    · intro r m' hr hzero hdown
      rw [if_pos (lt_of_le_of_ne hr fun h => hend (hzero h))]
      exact ⟨rfl, hdown⟩
  · rw [wp_ite]
    split
    · exact wp_fail _ hm (by decide)
    · exact rfl

lemma wp_turn (fuel : ℕ) (beginning : Seat) (i : ℕ) (hm : Up m) :
    wp mainRules (turn fuel beginning i) Lost (fun _ m' => m = m') m := by
  refine wp_bind.mpr (wp_mono (fun _ _ => id) ?_ (wp_tell .cardPlay _ hm))
  rintro _ _ rfl
  refine wp_bind.mpr (wp_loop (I := fun _ m' => m = m') ?_ ?_ rfl)
  · rintro _ _ rfl
    exact hm.called
  · rintro got _ rfl
    refine wp_bind.mpr (wp_poll hm fun revents => ?_)
    cases revents with
    | none => exact wp_fail _ hm (by decide)
    | some revents =>
      refine wp_foldlM_keeps (I := fun _ m' => m = m') ?_ rfl
      rintro j - got _ rfl
      exact wp_cardScan fuel _ revents got j hm

lemma wp_trick (fuel i : ℕ) (hm : Up m) :
    wp mainRules (trick fuel i) Lost (fun _ m' => m = m') m := by
  refine wp_bind.mpr (wp_plain hm (by trivial) fun beginning => ?_)
  refine wp_bind.mpr (wp_mono (fun _ _ => id) ?_ (wp_forM_keeps (I := fun m' => m = m') ?_ rfl))
  · rintro _ _ rfl
    refine wp_bind.mpr (wp_mono (fun _ _ => id) ?_ (wp_tellAll .taken hm))
    rintro _ _ rfl
    refine wp_bind.mpr (wp_barrier fuel hm ?_ fun m' hdown => ?_)
    · exact rfl
    · exact ⟨rfl, hdown⟩
  · rintro i - _ rfl
    exact wp_turn fuel beginning i hm

/-- **`run_deal`** returns 0 while all is well, and -1 after a failure. -/
lemma wp_runDeal (fuel : ℕ) (hm : Up m) {Q : ℤ → MainSide → Prop} (h : Q 0 m)
    (hlost : ∀ m', Down m' → Q (-1) m') : wp mainRules (runDeal fuel : Proc ρ ℤ) E Q m := by
  refine wp_body hlost ?_
  refine wp_bind.mpr (wp_mono (fun _ _ => id) ?_ (wp_tellAll .deal hm))
  rintro _ _ rfl
  refine wp_bind.mpr (wp_mono (fun _ _ => id) ?_ (wp_forM_keeps (I := fun m' => m = m') ?_ rfl))
  · rintro _ _ rfl
    refine wp_bind.mpr (wp_mono (fun _ _ => id) ?_ (wp_tellAll .scores hm))
    rintro _ _ rfl
    refine wp_bind.mpr (wp_barrier fuel hm ?_ fun m' hdown => ?_)
    · exact h
    · exact ⟨rfl, hdown⟩
  · rintro i - _ rfl
    exact wp_trick fuel i hm

/-- What a function returns after a failure. -/
def Returns (v r : ℤ) (m : MainSide) : Prop :=
  ∀ caller, m.called = some caller → caller ≠ .runGame → r = v

/-- **`run_game`** returns 1 after a failure. -/
lemma wp_runGame (fuel : ℕ) (hm : Up m) : wp mainRules (runGame fuel : Proc ρ ℤ) E (Returns 1) m := by
  refine wp_returned.mpr ?_
  refine wp_bind.mpr (wp_plain hm (by trivial) fun more => ?_)
  refine wp_bind.mpr (wp_mono (fun _ _ => id) ?_ (wp_loop (I := fun _ m' => m = m') ?_ ?_ rfl))
  · rintro _ _ rfl
    refine wp_bind.mpr (wp_closeServer .runGame "" hm fun failed m' hcalled => ?_)
    intro caller hcaller hne
    rw [hcalled] at hcaller
    exact absurd (Option.some.inj hcaller).symm hne
  · rintro _ _ rfl
    exact hm.called
  · rintro more _ rfl
    refine wp_bind.mpr (wp_runDeal fuel hm ?_ fun m' _ => ?_)
    · exact wp_plain hm (by trivial) fun _ => rfl
    · exact fun _ _ _ => rfl

lemma wp_makePipes : wp mainRules (five.foldlM makePipes [] : Proc ℤ (List (Fin 5)))
    (fun r _ => r = 1) (fun _ m' => m' = {}) {} := by
  refine wp_mono (fun _ _ => id) (fun _ _ h => h.2)
    (wp_foldlM (I := fun before made m' => made = before ∧ m' = {}) ?_ ⟨rfl, rfl⟩)
  rintro before i after made _ hl ⟨rfl, rfl⟩
  have hup : Up {} := ⟨rfl, rfl⟩
  have hnodup : (made.flatMap pipeFds ++ pipeFds i).Nodup := by
    have hfive : (five.flatMap pipeFds).Nodup := by decide
    simp only [hl, List.flatMap_append, List.flatMap_cons, ← List.append_assoc] at hfive
    exact (List.nodup_append.mp hfive).1
  refine wp_bind.mpr (wp_plain hup (by trivial) fun reading => ?_)
  rw [wp_ite]
  split
  · refine wp_bind.mpr (wp_plain hup (by trivial) fun writing => ?_)
    rw [wp_ite]
    split
    · exact ⟨rfl, rfl⟩
    · refine wp_bind.mpr (wp_printError _ rfl ?_)
      refine wp_bind.mpr (wp_mono (fun _ _ => id) ?_
        (wp_closeFds (by simp [Fd.IsPipe]) (by simp) (by simp [Threads.Busy])))
      rintro _ _ rfl
      refine wp_bind.mpr (wp_mono (fun _ _ => id) ?_ (wp_closePipes ?_ (by simp [Threads.Busy])))
      · exact fun _ _ _ => rfl
      · have htwo : [Fd.serverReadPipes i 0, .serverReadPipes i 1].Sublist (pipeFds i) := by
          simp [pipeFds]
        exact (List.nodup_append_comm.mp hnodup).sublist (htwo.append_right _)
  · refine wp_bind.mpr (wp_printError _ rfl ?_)
    refine wp_bind.mpr (wp_mono (fun _ _ => id) ?_ (wp_closePipes ?_ (by simp [Threads.Busy])))
    · exact fun _ _ _ => rfl
    · exact (List.nodup_append.mp hnodup).1

/-- **`start_game`** returns 0 where all is well, and 1 where it is not. -/
lemma wp_startGame (fuel : ℕ) :
    wp mainRules (startGame fuel : Proc ρ ℤ) E (fun r m => r = 0 ∧ Up m ∨ r = 1) {} := by
  refine wp_returned.mpr (wp_bind.mpr (wp_mono (fun _ _ => .inr) ?_ wp_makePipes))
  rintro _ _ rfl
  refine wp_bind.mpr (wp_next (c := .startThread)
    (f := fun thrown => if thrown.isSome then {} else { threads := .all })
    ⟨nofun, nofun, fun h => absurd rfl h, fun _ => ⟨rfl, rfl⟩, nofun⟩ ?_ fun thrown _ => ?_)
  · intro thrown
    cases thrown <;> rfl
  · cases thrown with
    | some what =>
      have hup : Up {} := ⟨rfl, rfl⟩
      exact wp_bind.mpr (wp_closeServer _ what hup fun _ _ _ => .inr rfl)
    | none =>
      have hup : Up { threads := .all } := ⟨rfl, rfl⟩
      refine wp_bind.mpr (wp_barrier fuel hup ?_ fun m' _ => ?_)
      · exact .inl ⟨rfl, hup⟩
      · exact .inr rfl

lemma wp_main (fuel : ℕ) : wp mainRules (main fuel : Proc ρ ℤ) E (Returns 1) {} := by
  refine wp_bind.mpr (wp_mono (fun _ _ => id) ?_ (wp_startGame fuel))
  rintro r m (⟨rfl, hm⟩ | rfl)
  · exact wp_runGame fuel hm
  · exact fun _ _ _ => rfl

end MainThread

end Kierki.Serwer.Failing
