import Kierki.Serwer.Failing.MainCalls
import Kierki.Serwer.Failing.ConnectionCalls

/-!
# The descriptors of the server

Every descriptor of the process is closed once at most and not used afterwards, in every run in which
the calls fail as they like, but for the failures the sources do not survive: `run_deal` goes on after a
report of the connection thread and after a pipe at its end, the connection thread goes on after a
refused connection, and `setup_server_socket` returns the number of the standard output where an option
of the socket is refused.

That the rules of the two threads give an order for the process is the argument of `close_server`: it
joins every other thread before it closes a pipe.
-/

namespace Kierki.Serwer.Failing

open Lib.Calls Lib.Calls.Prog Lib.Lts

/-- No descriptor is used or closed after it was closed. -/
def Clean (calls : List Call) : Prop := calls.Pairwise fun c c' => ∀ fd ∈ c.closes, fd ∉ c'.fds

/-- The connection thread is on its way out, or was joined. -/
def Connections.Over : Connections → Prop
  | notStarted => False
  | running p => p.Ends Leaving (fun _ => True) (fun _ => True)
  | joined => True

/-- **What holds of a process at every point of a run.** Descriptors are closed once and not used
afterwards; the main thread makes no call but those of `close_server` once it began, and returns 1
after a failure; the connection thread is on its way out once it closed its socket. -/
structure Orderly (s : Process) : Prop where
  clean : Clean s.calls
  server : ∀ caller errorMessage, .closeServer caller errorMessage ∈ s.calls →
    s.main.Ends Closing (fun _ => False) fun r => caller ≠ .runGame → r = 1
  socket : .close .serverFd ∈ s.calls → s.connections.Over

/-! ### The process -/

lemma Call.closes_subset {c : Call} {fd : Fd} (h : fd ∈ c.closes) : fd ∈ c.fds := by
  cases c with
  | close fd' => exact h
  | _ => exact absurd h (List.not_mem_nil)

lemma MainSide.next_closed (m : MainSide) (c : Call) (a : c.Answer) :
    (m.next c a).closed = m.closed ++ c.closes := by
  cases c with
  | startThread => cases a <;> exact (List.append_nil _).symm
  | close fd => rfl
  | _ => exact (List.append_nil _).symm

lemma MainSide.next_called {m : MainSide} {c : Call} (hc : Closing c) (a : c.Answer) :
    (m.next c a).called = m.called := by
  cases c <;> first | rfl | exact absurd hc id

/-- What the calls made so far say of what the two threads have done. -/
structure Ledger (calls : List Call) (m : MainSide) (closed : List Fd) : Prop where
  clean : Clean calls
  closes : ∀ c ∈ calls, ∀ fd ∈ c.closes, fd ∈ m.closed ∨ fd ∈ closed
  pipes : ∀ fd ∈ m.closed, fd.IsPipe
  others : ∀ fd ∈ closed, fd.OfConnections
  called : ∀ caller errorMessage, .closeServer caller errorMessage ∈ calls → m.called = some caller

section Ledger

variable {calls : List Call} {m : MainSide} {closed : List Fd}

lemma Ledger.clean_append (h : Ledger calls m closed) {c : Call}
    (hc : ∀ fd ∈ c.fds, fd ∉ m.closed ∧ fd ∉ closed) : Clean (calls ++ [c]) := by
  refine List.pairwise_append.mpr ⟨h.clean, List.pairwise_singleton _ _, ?_⟩
  intro c' hc' c'' hc'' fd hfd hmem
  obtain rfl := List.mem_singleton.mp hc''
  obtain hclosed | hclosed := h.closes c' hc' fd hfd
  · exact (hc fd hmem).1 hclosed
  · exact (hc fd hmem).2 hclosed

lemma Ledger.main (h : Ledger calls m closed) {c : Call} (hok : m.Allows c) (a : c.Answer) :
    Ledger (calls ++ [c]) (m.next c a) closed where
  clean := h.clean_append fun fd hfd => ⟨(hok.fds fd hfd).2, fun hmem => by
    have hpipe := (hok.fds fd hfd).1
    have hother := h.others fd hmem
    cases fd <;> first | exact hother | exact hpipe⟩
  closes c' hc' fd hfd := by
    rw [m.next_closed, List.mem_append]
    obtain hc' | hc' := List.mem_append.mp hc'
    · obtain hclosed | hclosed := h.closes c' hc' fd hfd
      · exact .inl (.inl hclosed)
      · exact .inr hclosed
    · obtain rfl := List.mem_singleton.mp hc'
      exact .inl (.inr hfd)
  pipes fd hfd := by
    rw [m.next_closed, List.mem_append] at hfd
    obtain hfd | hfd := hfd
    · exact h.pipes fd hfd
    · exact (hok.fds fd (Call.closes_subset hfd)).1
  others := h.others
  called caller errorMessage hmem := by
    obtain hmem | hmem := List.mem_append.mp hmem
    · have hcalled := h.called caller errorMessage hmem
      rw [MainSide.next_called (hok.closing (by simp [hcalled])), hcalled]
    · obtain rfl := List.mem_singleton.mp hmem
      rfl

lemma Ledger.connections (h : Ledger calls m closed) {c : Call} (hm : m.closed = [])
    (hok : AllowsConnections closed c) : Ledger (calls ++ [c]) m (closed ++ c.closes) where
  clean := h.clean_append fun fd hfd => ⟨by simp [hm], hok.fds fd hfd⟩
  closes c' hc' fd hfd := by
    rw [List.mem_append]
    obtain hc' | hc' := List.mem_append.mp hc'
    · obtain hclosed | hclosed := h.closes c' hc' fd hfd
      · exact .inl hclosed
      · exact .inr (.inl hclosed)
    · obtain rfl := List.mem_singleton.mp hc'
      exact .inr (.inr hfd)
  pipes := h.pipes
  others fd hfd := by
    obtain hfd | hfd := List.mem_append.mp hfd
    · exact h.others fd hfd
    · exact hok.closes fd hfd
  called caller errorMessage hmem := by
    obtain hmem | hmem := List.mem_append.mp hmem
    · exact h.called caller errorMessage hmem
    · exact absurd (List.mem_singleton.mp hmem).symm (hok.server caller errorMessage)

lemma Ledger.client (h : Ledger calls m closed) (hm : m.closed = []) {fd : Fd} (hfd : fd ∈ clientFds) :
    Ledger (calls ++ [.poll [fd]]) m closed where
  clean := h.clean_append fun fd' hfd' => by
    have hshared : ∀ fd ∈ clientFds, ¬fd.OfConnections := by
      simp [clientFds, four, Fd.OfConnections]
    obtain rfl : fd' = fd := by simpa [Call.fds] using hfd'
    exact ⟨by simp [hm], fun hmem => hshared fd' hfd (h.others fd' hmem)⟩
  closes c hc := by
    obtain hc | hc := List.mem_append.mp hc
    · exact h.closes c hc
    · obtain rfl := List.mem_singleton.mp hc
      intro fd' hfd'
      cases hfd'
  pipes := h.pipes
  others := h.others
  called caller errorMessage hmem := by
    obtain hmem | hmem := List.mem_append.mp hmem
    · exact h.called caller errorMessage hmem
    · cases List.mem_singleton.mp hmem

end Ledger

/-- What the main thread knows of the other threads is so. -/
structure Linked (thread : Connections) (clients : ℕ) (m : MainSide) (closed : List Fd) : Prop where
  running : ∀ p, thread = .running p →
    wp connectionsRules p (fun _ _ => False) (fun _ _ => True) closed ∧ m.threads = .all
  clients : 0 < clients → m.threads.Busy
  alone : m.threads.Busy → m.closed = []
  started : m.threads = .notStarted → thread = .notStarted
  unstarted : thread = .notStarted → closed = []

section Linked

variable {thread : Connections} {clients : ℕ} {m : MainSide} {closed : List Fd}

lemma Linked.same (h : Linked thread clients m closed) {c : Call} {a : c.Answer} (hok : m.Allows c)
    (hthreads : (m.next c a).threads = m.threads) : Linked thread clients (m.next c a) closed where
  running p hp := ⟨(h.running p hp).1, by rw [hthreads]; exact (h.running p hp).2⟩
  clients hpos := by rw [hthreads]; exact h.clients hpos
  alone hbusy := by
    rw [hthreads] at hbusy
    rw [m.next_closed, h.alone hbusy, List.nil_append]
    by_contra hne
    exact hok.alone hne hbusy
  started hns := h.started (hthreads ▸ hns)
  unstarted := h.unstarted

lemma Linked.join (h : Linked thread clients m closed) {thread' : Connections}
    (hrunning : ∀ p, thread' ≠ .running p) (hthread : thread' = .notStarted ↔ thread = .notStarted) :
    Linked thread' clients m.join closed where
  running p hp := absurd hp (hrunning p)
  clients hpos := by
    obtain hall | hclients := h.clients hpos
    · exact .inr (by simp [MainSide.join, hall])
    · exact .inr (by simp [MainSide.join, hclients])
  alone hbusy := by
    refine h.alone ?_
    by_contra hidle
    rw [Threads.Busy, not_or] at hidle
    simp [MainSide.join, Threads.Busy, hidle] at hbusy
  started hns := by
    rw [hthread]
    refine h.started ?_
    unfold MainSide.join at hns
    dsimp only at hns
    split_ifs at hns
    exact hns
  unstarted hns := h.unstarted (hthread.mp hns)

lemma Linked.main {fuel : ℕ} {s s' : Process} (h : Linked s.connections s.clients m closed) {c : Call}
    {a : c.Answer} (hok : m.Allows c) (hs : s.afterMain fuel c a = some s') :
    Linked s'.connections s'.clients (m.next c a) closed := by
  cases c with
  | startThread =>
    cases a with
    | none =>
      obtain rfl := Option.some.inj hs
      obtain ⟨hns, hclosed⟩ := hok.start rfl
      have hnil := h.unstarted (h.started hns)
      refine ⟨?_, fun _ => .inl rfl, fun _ => hclosed, nofun, nofun⟩
      rintro p ⟨⟩
      rw [hnil]
      exact ⟨wp_handleConnections fuel, rfl⟩
    | some what =>
      obtain rfl := Option.some.inj hs
      exact h.same hok rfl
  | joinConnections =>
    cases a with
    | none =>
      simp only [Process.afterMain] at hs
      split at hs
      · rename_i r hr
        obtain rfl := Option.some.inj hs
        exact h.join nofun (by simp [hr])
      · cases hs
    | some what =>
      simp only [Process.afterMain] at hs
      split at hs
      · cases hs
      all_goals
        rename_i hr
        obtain rfl := Option.some.inj hs
        exact h.join (by simp [hr]) Iff.rfl
  | joinClients =>
    simp only [Process.afterMain, Option.ite_none_right_eq_some] at hs
    obtain ⟨hzero, hs⟩ := hs
    obtain rfl := Option.some.inj hs
    refine ⟨fun p hp => absurd (h.running p hp).2 (hok.joinClients rfl), ?_, ?_, nofun, h.unstarted⟩
    · intro hpos
      omega
    · intro hbusy
      simp [MainSide.next, Threads.Busy] at hbusy
  | _ =>
    obtain rfl := Option.some.inj hs
    exact h.same hok rfl

end Linked

/-- The rules of both threads hold of the process. -/
structure Sound (s : Process) (m : MainSide) (closed : List Fd) : Prop where
  main : wp mainRules s.main (fun _ _ => False) (Returns 1) m
  ledger : Ledger s.calls m closed
  linked : Linked s.connections s.clients m closed

/-- The call the connection thread is at. -/
def Connections.now : Connections → Option Call
  | running p => p.now
  | notStarted | joined => none

/-- The step is no failure but those the sources survive. -/
def Handled (s : Process) : Act → Prop
  | .main answer => ∀ c ∈ s.main.now, counted c (answer c) = true
  | .connections answer => ∀ c ∈ s.connections.now, counted c (answer c) = true
  | .client _ | .clientEnds => True

/-- **Every step keeps to the rules**, whatever it answers but for the four failures. -/
theorem Sound.step {fuel : ℕ} {s s' : Process} {m : MainSide} {closed : List Fd} {a : Act}
    (h : Sound s m closed) (ha : Handled s a) (hs : step fuel s a = some s') :
    ∃ m' closed', Sound s' m' closed' := by
  cases a with
  | main answer =>
    simp only [Failing.step] at hs
    split at hs
    · rename_i c k hmain
      obtain ⟨s₁, hs₁, rfl⟩ := Option.map_eq_some_iff.mp hs
      have hwp := h.main
      rw [hmain] at hwp
      obtain ⟨hok, hnext⟩ := hwp
      have hcounted : counted c (answer c) = true := ha c (by rw [hmain]; rfl)
      have hlinked := h.linked.main hok hs₁
      exact ⟨m.next c (answer c), closed, hnext _ hcounted, h.ledger.main hok _, hlinked⟩
    · cases hs
  | connections answer =>
    simp only [Failing.step] at hs
    split at hs
    · rename_i c k hrunning
      obtain rfl := Option.some.inj hs
      obtain ⟨⟨hok, hnext⟩, hall⟩ := h.linked.running _ hrunning
      have hcounted : counted c (answer c) = true := ha c (by rw [hrunning]; rfl)
      have hclosed := h.linked.alone (.inl hall)
      refine ⟨m, closed ++ c.closes, h.main, h.ledger.connections hclosed hok, ?_⟩
      refine ⟨?_, fun _ => .inl hall, h.linked.alone, ?_, nofun⟩
      · rintro p ⟨⟩
        exact ⟨hnext _ hcounted, hall⟩
      · intro hns
        rw [hall] at hns
        cases hns
    · cases hs
  | client fd =>
    simp only [Failing.step, Option.ite_none_right_eq_some] at hs
    obtain ⟨⟨hpos, hfd⟩, hs⟩ := hs
    obtain rfl := Option.some.inj hs
    exact ⟨m, closed, h.main, h.ledger.client (h.linked.alone (h.linked.clients hpos)) hfd, h.linked⟩
  | clientEnds =>
    simp only [Failing.step, Option.ite_none_right_eq_some] at hs
    obtain ⟨hpos, hs⟩ := hs
    obtain rfl := Option.some.inj hs
    exact ⟨m, closed, h.main, h.ledger, h.linked.running, fun _ => h.linked.clients hpos,
      h.linked.alone, h.linked.started, h.linked.unstarted⟩

lemma sound {fuel : ℕ} {s : Process} (h : Reach (step fuel) Handled (init fuel) s) :
    ∃ m closed, Sound s m closed := by
  refine Reach.invariant (I := fun s => ∃ m closed, Sound s m closed) ⟨{}, [], ?_⟩ ?_ h
  · exact ⟨wp_main fuel, ⟨.nil, nofun, nofun, nofun, nofun⟩,
      ⟨nofun, nofun, fun _ => rfl, fun _ => rfl, fun _ => rfl⟩⟩
  · rintro s a s' ⟨m, closed, hsound⟩ ha hs
    exact hsound.step ha hs

/-! ### The end of a run -/

lemma counted_of_closing {c : Call} (hc : Closing c) (a : c.Answer) : counted c a = true := by
  cases c <;> first | rfl | exact absurd hc id

lemma counted_of_leaving {c : Call} (hc : Leaving c) (a : c.Answer) : counted c a = true := by
  cases c <;> first | rfl | exact absurd hc id

/-- Once `close_server` began, a program of the main thread makes its calls alone, and returns. -/
lemma closing_ends {ρ : Type} {v : ℤ} {p : Proc ρ ℤ} {m : MainSide} {caller : Func}
    (h : wp mainRules p (fun _ _ => False) (Returns v) m) (hm : m.called = some caller) :
    p.Ends Closing (fun _ => False) fun r => caller ≠ .runGame → r = v := by
  have hends := wp_ends (R := mainRules) (D := fun m => m.called = some caller) (P := Closing)
    (fun m hm h => by rw [show m.called = none from h] at hm; cases hm)
    (fun m c hm hok => hok.closing (by simp [hm]))
    (fun m c a hm hok => by
      have hc : Closing c := hok.closing (by simp [hm])
      exact ⟨counted_of_closing hc a, (MainSide.next_called hc a).trans hm⟩) h hm
  refine hends.mono (fun _ => id) ?_ ?_
  · rintro r ⟨m, -, hfalse⟩
    exact hfalse
  · rintro r ⟨m, hm, hr⟩ hne
    exact hr caller hm hne

lemma leaving_ends {p : Proc PUnit PUnit} {closed : List Fd}
    (h : wp connectionsRules p (fun _ _ => False) (fun _ _ => True) closed)
    (hclosed : .serverFd ∈ closed) : p.Ends Leaving (fun _ => True) (fun _ => True) := by
  have hends := wp_ends (R := connectionsRules) (D := fun closed => .serverFd ∈ closed) (P := Leaving)
    (fun closed hmem h => by rw [show closed = [] from h] at hmem; cases hmem)
    (fun closed c hmem hok => hok.leaving (List.ne_nil_of_mem hmem))
    (fun closed c a hmem hok =>
      ⟨counted_of_leaving (hok.leaving (List.ne_nil_of_mem hmem)) a, List.mem_append_left _ hmem⟩)
    h hclosed
  exact hends.mono (fun _ => id) (fun _ _ => trivial) fun _ _ => trivial

theorem Sound.orderly {s : Process} {m : MainSide} {closed : List Fd} (h : Sound s m closed) :
    Orderly s where
  clean := h.ledger.clean
  server caller errorMessage hmem := closing_ends h.main (h.ledger.called caller errorMessage hmem)
  socket hmem := by
    have hclosed : Fd.serverFd ∈ closed := by
      refine (h.ledger.closes _ hmem .serverFd (List.mem_singleton.mpr rfl)).resolve_left fun hm => ?_
      exact h.ledger.pipes _ hm
    cases hthread : s.connections with
    | notStarted =>
      rw [h.linked.unstarted hthread] at hclosed
      cases hclosed
    | running p => exact leaving_ends (h.linked.running p hthread).1 hclosed
    | joined => trivial

/-! ### A function alone -/

/-- The history of the calls of a program. -/
def note (p : Proc ℤ ℤ) (_answer : (c : Call) → c.Answer) (_p' : Proc ℤ ℤ) (calls : List Call) :
    List Call :=
  calls ++ p.now.toList

/-- The answer is no failure but those the sources survive. -/
def Survived (p : Proc ℤ ℤ × List Call) (answer : (c : Call) → c.Answer) : Prop :=
  ∀ c ∈ p.1.now, counted c (answer c) = true

/-- A function that keeps to the rules makes the calls of `close_server` and no other once it began. -/
lemma alone_ends {p p' : Proc ℤ ℤ} {v : ℤ} {m : MainSide} {calls : List Call}
    (hp : wp mainRules p (fun _ _ => False) (Returns v) m)
    (h : Reach (record Prog.step note) Survived (p, []) (p', calls)) {caller : Func} {errorMessage : String} (hmem : .closeServer caller errorMessage ∈ calls) :
    p'.Ends Closing (fun _ => False) fun r => caller ≠ .runGame → r = v := by
  have hknown : ∃ m, wp mainRules p' (fun _ _ => False) (Returns v) m ∧
      ∀ caller errorMessage, .closeServer caller errorMessage ∈ calls → m.called = some caller := by
    refine Reach.invariant (I := fun q : Proc ℤ ℤ × List Call =>
      ∃ m, wp mainRules q.1 (fun _ _ => False) (Returns v) m ∧
        ∀ caller errorMessage, .closeServer caller errorMessage ∈ q.2 → m.called = some caller)
      ⟨m, hp, nofun⟩ ?_ h
    rintro ⟨q, calls⟩ answer ⟨q', calls'⟩ ⟨m, hq, hcalled⟩ hsurvived hs
    obtain ⟨hs, hcalls⟩ := record_eq_some.mp hs
    obtain ⟨c, hc, hok, hnext⟩ := wp_step hq hs
    have hcalls : calls' = calls ++ [c] := by
      rw [show calls' = note q answer q' calls from hcalls, note, hc, Option.toList_some]
    refine ⟨m.next c (answer c), hnext (hsurvived c hc), fun caller errorMessage hmem => ?_⟩
    replace hmem : Call.closeServer caller errorMessage ∈ calls ++ [c] := hcalls ▸ hmem
    obtain hmem | hmem := List.mem_append.mp hmem
    · have hm := hcalled caller errorMessage hmem
      rw [MainSide.next_called (hok.closing (by simp [hm])), hm]
    · obtain rfl := List.mem_singleton.mp hmem
      rfl
  obtain ⟨m, hwp, hcalled⟩ := hknown
  exact closing_ends hwp (hcalled caller errorMessage hmem)

lemma returns_of_down {v : ℤ} {m : MainSide} : Returns v v m := fun _ _ _ => rfl

lemma returns_of_up {v r : ℤ} {m : MainSide} (hm : Up m) : Returns v r m := by
  intro caller hcalled
  rw [hm.called] at hcalled
  cases hcalled

/-- **Descriptors are closed once and not used afterwards**, in every run in which the calls fail as
they like but for the four failures, in any order of the threads; the main thread returns 1 after a
failure. Each of its functions returns its own value then, after the calls of one `close_server`. -/
theorem descriptors_closed_once (fuel : ℕ) :
    (∀ s : Process, Reach (step fuel) Handled (init fuel) s → Orderly s) ∧
    ∀ f ∈ [((startGame fuel : Proc ℤ ℤ), (1 : ℤ)), (barrier fuel, -1), (runDeal fuel, -1),
        (runGame fuel, 1)],
      ∀ (p : Proc ℤ ℤ) (calls : List Call),
        Reach (record Prog.step note) Survived (f.1, []) (p, calls) →
        ∀ caller errorMessage, .closeServer caller errorMessage ∈ calls →
          p.Ends Closing (fun _ => False) fun r => caller ≠ .runGame → r = f.2 := by
  constructor
  · intro s h
    obtain ⟨m, closed, hsound⟩ := sound h
    exact hsound.orderly
  · intro f hf p calls h caller errorMessage hmem
    have hup : Up { threads := .all } := ⟨rfl, rfl⟩
    have hwp : ∃ m, wp mainRules f.1 (fun _ _ => False) (Returns f.2) m := by
      simp only [List.mem_cons, List.not_mem_nil, or_false] at hf
      obtain rfl | rfl | rfl | rfl := hf
      · refine ⟨{}, wp_mono (fun _ _ => id) ?_ (wp_startGame fuel)⟩
        rintro r m (⟨-, hm⟩ | rfl)
        · exact returns_of_up hm
        · exact returns_of_down
      · exact ⟨_, wp_barrier fuel hup (returns_of_up hup) fun _ _ => returns_of_down⟩
      · exact ⟨_, wp_runDeal fuel hup (returns_of_up hup) fun _ _ => returns_of_down⟩
      · exact ⟨_, wp_runGame fuel hup⟩
    obtain ⟨m, hwp⟩ := hwp
    exact alone_ends hwp h hmem

/-! ### Runs -/

instance : DecidablePred Clean := fun calls => inferInstanceAs (Decidable (calls.Pairwise _))

instance (s : Process) (a : Act) : Decidable (Handled s a) :=
  match a with
  | .main answer => inferInstanceAs (Decidable (∀ c ∈ s.main.now, counted c (answer c) = true))
  | .connections answer =>
    inferInstanceAs (Decidable (∀ c ∈ s.connections.now, counted c (answer c) = true))
  | .client _ | .clientEnds => isTrue trivial

/-- The answers of a system in which nothing fails: the seats are taken, and no descriptor is ready. -/
def fine : (c : Call) → c.Answer
  | .poll _ => some fun _ => {}
  | .read _ _ => .char Byte.barrierResponse.char
  | .write _ _ => 1
  | .startThread | .startClient _ | .joinConnections => none
  | .joinClients => []
  | .occupied => 4
  | .lastTaker => .N
  | .pipe _ | .readNextDeal | .socket | .setsockopt _ | .bind _ | .listen _ | .accept _ => true
  | .close _ | .closeServer _ _ | .printError _ => ()

/-- The descriptors are ready. -/
def ready (fds : List Fd) : (c : Call) → c.Answer
  | .poll _ => some fun fd => { pollin := fd ∈ fds }
  | c => fine c

/-- What is read from a pipe. -/
def reads (got : Got) : (c : Call) → c.Answer
  | .read _ _ => got
  | c => fine c

/-- The call fails. -/
def failing : (c : Call) → c.Answer
  | .poll _ => none
  | .write _ _ => 0
  | .setsockopt _ | .accept _ => false
  | c => fine c

/-- The pipes are made and the connection thread is started. -/
def opening : List Act := List.replicate 11 (.main fine)

/-- The connection thread listens. -/
def listening : List Act := List.replicate 5 (.connections fine)

/-- `close_server` from its first call on; the connection thread is told to end, or has ended. -/
def closing (connections : List Act) (clients : ℕ) : List Act :=
  [.main fine, .main fine] ++ connections ++ [.main fine] ++ List.replicate 4 (.main fine) ++
    List.replicate clients .clientEnds ++ List.replicate 22 (.main fine)

/-- The connection thread reads `END` and returns. -/
def told : List Act :=
  [.connections (ready [.serverWritePipes 4 0]), .connections (reads (.char endByte)),
    .connections fine]

/-- The first `accept` fails. -/
def refusedConnection : List Act :=
  opening ++ listening ++ [.connections (ready [.serverFd]), .connections failing] ++
    List.replicate 4 (.connections fine)

/-- The first option of the listening socket is refused. -/
def refusedOption : List Act :=
  opening ++ [.connections fine, .connections failing, .connections fine]

/-- Four clients take the seats, and `run_deal` waits for the first card. -/
def waiting : List Act :=
  opening ++ listening ++
    (List.replicate 4
      [Act.connections (ready [.serverFd]), .connections fine, .connections fine]).flatten ++
    List.replicate 4 (.main fine) ++ [.main (ready (four.map fun i => .serverReadPipes i 0))] ++
    List.replicate 16 (.main fine)

/-- `poll` fails in the connection thread while `run_deal` waits for a card. -/
def lostConnections : List Act :=
  waiting ++ [.connections failing] ++ List.replicate 3 (.connections fine) ++
    [.main (ready [.serverReadPipes 4 0]), .main (reads (.char Byte.disconnected.char))] ++
    closing [] 4 ++ [.main fine]

/-- A pipe ends while `run_deal` waits for a card. -/
def endedPipe : List Act :=
  waiting ++ [.main (ready [.serverReadPipes 0 0]), .main (reads .endOfFile)] ++ closing told 4 ++
    [.main fine, .main fine]

/-- A write of `barrier` is short. -/
def shortWrite : List Act := opening ++ listening ++ [.main failing] ++ closing told 0

/-- What a run shows that is not in order: a descriptor used after it was closed, or a connection thread
that waits after it closed its socket. -/
def disorder (s : Process) : Bool :=
  !decide (Clean s.calls) || (s.calls.any fun c => decide (.serverFd ∈ c.closes)) &&
    match s.connections.now with
    | some (.poll _) => true
    | _ => false

lemma not_orderly {s : Process} (h : disorder s = true) : ¬Orderly s := by
  intro horderly
  rw [disorder, Bool.or_eq_true, Bool.and_eq_true] at h
  obtain hclean | ⟨hclosed, hpoll⟩ := h
  · simp [horderly.clean] at hclean
  · obtain ⟨c, hc, hfd⟩ := List.any_eq_true.mp hclosed
    have hover : s.connections.Over := by
      refine horderly.socket ?_
      cases c with
      | close fd =>
        obtain rfl : Fd.serverFd = fd := by simpa [Call.closes] using hfd
        exact hc
      | _ => simp [Call.closes] at hfd
    unfold Connections.now at hpoll
    split at hpoll
    · rename_i fds hnow
      split at hnow
      · rename_i p hp
        rw [hp] at hover
        cases p with
        | call c k =>
          obtain rfl := Option.some.inj hnow
          exact hover.1
        | _ => cases hnow
      all_goals cases hnow
    · cases hpoll

lemma exists_disorder {acts : List Act}
    (h : (exec (step 5) (fun _ _ => True) (init 5) acts).any disorder = true) :
    ∃ s, Reach (step 5) (fun _ _ => True) (init 5) s ∧
      exec (step 5) (fun _ _ => True) (init 5) acts = some s ∧ ¬Orderly s := by
  obtain ⟨s, hs, hdisorder⟩ := (Option.any_eq_true _ _).mp h
  exact ⟨s, Reach.of_exec hs, hs, not_orderly hdisorder⟩

/-- **What the four failures lead to**: a descriptor that was closed is used again, or the connection
thread polls the standard output in place of the socket it closed. -/
theorem failures_not_survived :
    (∃ s, Reach (step 5) (fun _ _ => True) (init 5) s ∧
      exec (step 5) (fun _ _ => True) (init 5) refusedConnection = some s ∧ ¬Orderly s) ∧
    (∃ s, Reach (step 5) (fun _ _ => True) (init 5) s ∧
      exec (step 5) (fun _ _ => True) (init 5) lostConnections = some s ∧ ¬Orderly s) ∧
    (∃ s, Reach (step 5) (fun _ _ => True) (init 5) s ∧
      exec (step 5) (fun _ _ => True) (init 5) endedPipe = some s ∧ ¬Orderly s) ∧
    ∃ s, Reach (step 5) (fun _ _ => True) (init 5) s ∧
      exec (step 5) (fun _ _ => True) (init 5) refusedOption = some s ∧ ¬Orderly s := by
  refine ⟨exists_disorder ?_, exists_disorder ?_, exists_disorder ?_, exists_disorder ?_⟩ <;>
    decide +kernel

/-- A short write in `barrier`: every pipe is closed once, and the main thread is done. -/
theorem descriptors_closed_once_short : ∃ s, Reach (step 5) Handled (init 5) s ∧ Orderly s ∧
    s.main.now = none ∧ ∀ i ∈ five, ∀ fd ∈ pipeFds i, fd ∈ s.calls.flatMap Call.closes := by
  have hrun : (exec (step 5) Handled (init 5) shortWrite).any (fun s => !s.main.now.isSome &&
      decide (∀ i ∈ five, ∀ fd ∈ pipeFds i, fd ∈ s.calls.flatMap Call.closes)) = true := by
    decide +kernel
  obtain ⟨s, hreach, hend⟩ := Reach.exists_of_exec hrun
  rw [Bool.and_eq_true, decide_eq_true_eq] at hend
  exact ⟨s, hreach, (descriptors_closed_once 5).1 s hreach, by simpa using hend.1, hend.2⟩

end Kierki.Serwer.Failing
