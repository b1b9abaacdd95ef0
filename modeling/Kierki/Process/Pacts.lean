import Kierki.Process.Memory

/-!
# What the two threads of the client owe each other

Each thread relies on what the other leaves alone, and both keep the memory coherent: a byte in the pipe
of the worker has a card on the queue, and what the main thread is told is how the game ended.
-/

namespace Kierki.Process

open Lib.Calls Lib.Threads Mutexes Regex Senders

/-! ### The end of the game -/

/-- Whether a `SCORE` and a `TOTAL` line came since the last `DEAL` line. -/
def tally (b : Bool × Bool) (l : Text) : Bool × Bool :=
  if DEALCheck l then (false, false) else (b.1 || SCORECheck l, b.2 || TOTALCheck l)

def tallied (read : List (ℤ × Text)) : Bool × Bool := (read.map Prod.snd).foldl tally (false, false)

/-- **The game is over** for the worker: the seat was taken, or the server closed the connection after
the scores of the last deal. -/
def Over (read : List (ℤ × Text)) : Prop :=
  ∃ before x, read = before ++ [x] ∧
    (0 < x.1 ∧ BUSYCheck x.2 = true ∨ x.1 = 0 ∧ tallied before = (true, true))

lemma over_snoc {read : List (ℤ × Text)} {x : ℤ × Text} : Over (read ++ [x]) ↔
    0 < x.1 ∧ BUSYCheck x.2 = true ∨ x.1 = 0 ∧ tallied read = (true, true) := by
  constructor
  · rintro ⟨before, y, he, h⟩
    obtain ⟨rfl, hy⟩ := List.append_inj' he rfl
    obtain rfl := List.head_eq_of_cons_eq hy
    exact h
  · exact fun h => ⟨read, x, rfl, h⟩

lemma tallied_snoc (read : List (ℤ × Text)) (x : ℤ × Text) :
    tallied (read ++ [x]) = tally (tallied read) x.2 := by
  simp [tallied, List.foldl_append]

private lemma check_eq (kind : LineKind) (n : ℕ) (l : Text) :
    kind.check n l = decide (LineKind.dispatch n l = some kind) := by
  rw [Bool.eq_iff_iff, decide_eq_true_eq, LineKind.dispatch_eq_some_iff]

/-- **The client remembers the tally.** -/
lemma tally_receive {k k' : Klient} {l : Text} {out : List Text} (h : k.receive l = some (k', out)) :
    (k'.gotScore, k'.gotTotal) = tally (k.gotScore, k.gotTotal) l := by
  have hdeal := check_eq .deal k.trickNumber l
  have hscore := check_eq .score k.trickNumber l
  have htotal := check_eq .total k.trickNumber l
  simp only [LineKind.check] at hdeal hscore htotal
  rw [Klient.receive_eq] at h
  rw [tally, hdeal, hscore, htotal]
  cases hd : LineKind.dispatch k.trickNumber l with
  | none =>
    rw [hd] at h
    obtain ⟨rfl, -⟩ := Prod.mk.inj (Option.some.inj h)
    simp
  | some kind =>
    rw [hd] at h
    cases kind with
    | busy => cases h
    | trick =>
      have hkeeps := k.answer_keeps l
      rw [Option.some.inj h] at hkeeps
      simpa using ⟨hkeeps.gotScore, hkeeps.gotTotal⟩
    | _ =>
      cases h
      simp [Klient.takeDeal, Klient.takeTrick]

/-! ### The memory -/

/-- The bytes the worker ends with. -/
def farewells : List Text := [disconnected, normalEnd, serverDisconnect]

/-- The lines are the cards, one after another. -/
def Lines (cards lines : List Text) : Prop :=
  List.Forall₂ (fun card l => ∃ n, l = trickLine n [card]) cards lines

/-- **What both threads keep**, `isAi` being that of the client. -/
structure Coherent (isAi : Bool) (s : Memory) : Prop where
  bytes : ∀ m ∈ s.toWorker, m = cardPlay
  queued : s.toWorker.length + s.announced ≤ s.messagesToSend.length
  cards : s.typed = s.taken ++ s.messagesToSend
  told : ∀ m ∈ s.toMain, s.said = some m
  farewell : ∀ m, s.said = some m → m ∈ farewells ∧ (m = normalEnd ↔ Over s.read)
  freed : s.finished = true → isAi = false → s.holder ≠ some .worker
  opened : s.closed ≠ [] → s.finished = true ∨ s.failed = true
  lines : isAi = false → ∃ sent rest, s.taken = sent ++ rest ∧ rest.length ≤ 1 ∧ Lines sent s.written

variable {isAi : Bool} {s s' s'' : Memory}

/-- What the main thread leaves alone. -/
structure MainKeeps (isAi : Bool) (s s' : Memory) : Prop where
  coherent : Coherent isAi s → Coherent isAi s'
  holder : s'.holder = some .worker ↔ s.holder = some .worker
  taken : s'.taken = s.taken
  announced : s'.announced = s.announced
  read : s'.read = s.read
  written : s'.written = s.written
  said : s'.said = s.said
  finished : s'.finished = s.finished
  queue : s.messagesToSend <+: s'.messagesToSend
  failed : s.failed = true → s'.failed = true

/-- What the worker leaves alone. -/
structure WorkerKeeps (isAi : Bool) (s s' : Memory) : Prop where
  coherent : Coherent isAi s → Coherent isAi s'
  holder : s'.holder = some .main ↔ s.holder = some .main
  typed : s'.typed = s.typed
  closed : s'.closed = s.closed
  failed : s'.failed = s.failed
  /-- A byte and its card are taken together. -/
  ahead : s'.messagesToSend.length + (s.toWorker.length + s.announced) =
    s.messagesToSend.length + (s'.toWorker.length + s'.announced)
  finished : s.finished = true → s'.finished = true
  said : ∀ m, s.said = some m → s'.said = some m

lemma MainKeeps.refl (s : Memory) : MainKeeps isAi s s :=
  ⟨id, Iff.rfl, rfl, rfl, rfl, rfl, rfl, rfl, List.prefix_rfl, id⟩

lemma MainKeeps.trans (h : MainKeeps isAi s s') (h' : MainKeeps isAi s' s'') : MainKeeps isAi s s'' :=
  ⟨h'.coherent ∘ h.coherent, h'.holder.trans h.holder, h'.taken.trans h.taken,
    h'.announced.trans h.announced, h'.read.trans h.read, h'.written.trans h.written,
    h'.said.trans h.said, h'.finished.trans h.finished, h.queue.trans h'.queue, h'.failed ∘ h.failed⟩

lemma WorkerKeeps.refl (s : Memory) : WorkerKeeps isAi s s :=
  ⟨id, Iff.rfl, rfl, rfl, rfl, rfl, id, fun _ => id⟩

lemma WorkerKeeps.trans (h : WorkerKeeps isAi s s') (h' : WorkerKeeps isAi s' s'') :
    WorkerKeeps isAi s s'' :=
  ⟨h'.coherent ∘ h.coherent, h'.holder.trans h.holder, h'.typed.trans h.typed,
    h'.closed.trans h.closed, h'.failed.trans h.failed,
    by
      have := h.ahead
      have := h'.ahead
      omega,
    h'.finished ∘ h.finished, fun m hm => h'.said m (h.said m hm)⟩

/-! ### The pacts -/

/-- The calls of the worker that are in order. -/
def workerOk (s : Memory) : WorkerCall → Prop
  | .of (.lock _) => s.holder ≠ some .worker ∧ s.said = none
  | .of (.unlock _) => s.holder = some .worker ∧ s.said = none
  | .of .poll | .of .readPipe | .of (.writePipe _) =>
    s.said = none ∧ (s.closed = [] ∨ s.failed = true)
  | .of .front => s.holder = some .worker ∧ s.messagesToSend ≠ [] ∧ s.said = none
  | .of .readSocket | .of (.writeSocket _) | .of (.cout _) => s.said = none
  | .finish | .of (.close _) | .of (.cerr _) => True
  | .of .setsockopt | .of .shared | .of (.change _) | .of .iterators => False

/-- The calls of the main thread that are in order. -/
def mainOk (isAi : Bool) (s : Memory) : MainCall → Prop
  | .lock => s.holder ≠ some .main ∧ isAi = false ∧ s.closed = []
  | .unlock | .push _ | .myCards | .takenTricks => s.holder = some .main
  | .poll | .readPipe | .writePipe _ => s.closed = [] ∧ s.holder ≠ some .main
  | .notify _ => False
  | .join => s.holder ≠ some .main
  | .close e => e ∉ s.closed ∧ (s.finished = true ∨ s.failed = true)
  | .getline | .cout _ | .cerr _ => True

def mainPact (isAi : Bool) : Pact MainCall MainCall.Answer Memory where
  act := mainAct
  ok := mainOk isAi
  rely := WorkerKeeps isAi
  guar := MainKeeps isAi
  spins s := s.holder ≠ some .main
  rely_refl := .refl
  rely_trans _ _ _ := .trans

def workerPact (isAi : Bool) : Pact WorkerCall WorkerCall.Answer Memory where
  act := workerAct
  ok := workerOk
  rely := MainKeeps isAi
  guar := WorkerKeeps isAi
  spins s := s.holder ≠ some .worker
  rely_refl := .refl
  rely_trans _ _ _ := .trans

def pacts (isAi : Bool) : (i : Tid) → Pact i.Call i.Answer Memory
  | .main => mainPact isAi
  | .worker => workerPact isAi

lemma pacts_fit (isAi : Bool) : Fits (pacts isAi) := by
  intro i j hij s s' h
  cases i with
  | main =>
    cases j with
    | main => exact absurd rfl hij
    | worker => exact h
  | worker =>
    cases j with
    | main => exact h
    | worker => exact absurd rfl hij

lemma coherent_start (isAi : Bool) : Coherent isAi {} where
  bytes m hm := by cases hm
  queued := le_rfl
  cards := rfl
  told m hm := by cases hm
  farewell m hm := by cases hm
  freed h := by cases h
  opened h := absurd rfl h
  lines _ := ⟨[], [], rfl, Nat.zero_le _, .nil⟩

end Kierki.Process
