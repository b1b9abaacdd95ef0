import Kierki.Process.RunClient
import Kierki.Process.Worker

/-!
# The client, its two threads running side by side

What holds of the client in every interleaving of the calls of its threads, whatever these answer: a card
typed is sent once and in its turn, `run_client` returns 0 only when the game is over, no pipe is used
after it is closed, and the threads never wait for each other. The last holds although an AI client that
is told that its seat is taken ends with the mutex held: its main thread never takes it.
-/

namespace Kierki.Process

open Lib.Calls Lib.Threads Mutexes Senders

/-- The states of the client that some interleaving reaches. -/
def Reached (socketFd : ℤ) (mainFuel workerFuel : ℕ) (seat : Seat) (isAi : Bool) (cfg : Client) : Prop :=
  Runs act (client socketFd mainFuel workerFuel seat isAi) cfg

/-- How a thread returns. -/
def returns (isAi : Bool) : (i : Tid) → i.Result → Memory → Prop
  | .main => Returns isAi
  | .worker => fun _ _ => False

/-- How a thread comes to the end of its body: only the worker does. -/
def ends (isAi : Bool) : (i : Tid) → PUnit → Memory → Prop
  | .main => fun _ _ => False
  | .worker => fun _ s => Coherent isAi s ∧ s.finished = true

section Reached

variable {socketFd : ℤ} {mainFuel workerFuel : ℕ} {seat : Seat} {isAi : Bool} {cfg : Client}

lemma client_safe :
    (client socketFd mainFuel workerFuel seat isAi).Safe (pacts isAi) (returns isAi) (ends isAi) := by
  intro i
  cases i with
  | main =>
    exact safe_runClient mainFuel ⟨coherent_start isAi, by simp [client], rfl, Nat.zero_le _, False.elim⟩
  | worker =>
    refine safe_worker workerFuel ⟨rfl, coherent_start isAi, by simp [client], rfl, rfl, rfl, rfl, ?_, ?_⟩
    · refine iff_of_false ?_ id
      rintro ⟨before, x, he, -⟩
      simp [client] at he
    · exact fun _ => ⟨[], rfl, .nil⟩

lemma act_eq (isAi : Bool) : (fun i => (pacts isAi i).act) = act := by
  funext i
  cases i <;> rfl

lemma Reached.runs (h : Reached socketFd mainFuel workerFuel seat isAi cfg) :
    Runs (fun i => (pacts isAi i).act) (client socketFd mainFuel workerFuel seat isAi) cfg := by
  rw [act_eq]
  exact h

/-- **Both threads keep their side in every interleaving.** -/
lemma Reached.safe (h : Reached socketFd mainFuel workerFuel seat isAi cfg) :
    cfg.Safe (pacts isAi) (returns isAi) (ends isAi) :=
  safe_of_runs (pacts_fit isAi) client_safe h.runs

lemma Reached.coherent (h : Reached socketFd mainFuel workerFuel seat isAi cfg) :
    Coherent isAi cfg.shared := by
  refine kept_of_runs (J := Coherent isAi) (pacts_fit isAi) client_safe ?_ (coherent_start isAi) h.runs
  intro i s s' hguar
  cases i with
  | main => exact hguar.coherent
  | worker => exact hguar.coherent

lemma Reached.mainOk (h : Reached socketFd mainFuel workerFuel seat isAi cfg) {c : MainCall}
    (hc : (cfg.progs .main).now = some c) : mainOk isAi cfg.shared c :=
  h.safe.ok (i := .main) hc

lemma Reached.workerOk (h : Reached socketFd mainFuel workerFuel seat isAi cfg) {c : WorkerCall}
    (hc : (cfg.progs .worker).now = some c) : workerOk cfg.shared c :=
  h.safe.ok (i := .worker) hc

lemma Reached.main_ended (h : Reached socketFd mainFuel workerFuel seat isAi cfg)
    (hc : (cfg.progs .main).now = none) : cfg.shared.holder ≠ some .main := by
  obtain ⟨r, hr⟩ | ⟨_, hd⟩ | hs := h.safe.ended hc
  · obtain ⟨m, hm, -⟩ : Returns isAi r cfg.shared := hr
    exact hm.free
  · exact hd.elim
  · exact hs

lemma Reached.worker_ended (h : Reached socketFd mainFuel workerFuel seat isAi cfg)
    (hc : (cfg.progs .worker).now = none) :
    cfg.shared.finished = true ∨ cfg.progs .worker = .more := by
  have hsafe := h.safe .worker
  revert hc hsafe
  cases cfg.progs .worker with
  | done a => exact fun _ hsafe => .inl (hsafe _ (.refl _)).2
  | exit r => exact fun _ hsafe => (hsafe _ (.refl _)).elim
  | call c k => intro hc; cases hc
  | more => exact fun _ _ => .inr rfl

end Reached

/-! ### A run written down -/

/-- The calls of the main thread go through; the user types a card. -/
def mainAnswer (polled : MainPolled) : (c : MainCall) → c.Answer
  | .poll => polled
  | .getline => ['!', '2', 'C']
  | .myCards | .takenTricks => []
  | .writePipe _ | .notify _ => 1
  | .readPipe => (1, normalEnd)
  | .join => none
  | .lock | .unlock | .push _ | .cout _ | .close _ | .cerr _ => ()

/-- The calls of the worker go through; the server says that the seat is taken. -/
def workerAnswer (polled : Polled) : (c : WorkerCall) → c.Answer
  | .of .poll => polled
  | .of .readPipe => (1, cardPlay)
  | .of .readSocket => (7, ['B', 'U', 'S', 'Y', 'N', '\r', '\n'])
  | .of (.writeSocket message) => message.length
  | .of (.writePipe _) => 1
  | .of .setsockopt => 0
  | .of .front => ['2', 'C']
  | .of .shared => { timeout := 0 }
  | .of .iterators => ([], .N)
  | .of (.lock _) | .of (.unlock _) | .of (.close _) | .of (.cout _) | .of (.cerr _)
  | .of (.change _) | .finish => ()

def mains (polled : MainPolled) (n : ℕ) : List (Move Tid.Call Tid.Answer) :=
  List.replicate n ⟨.main, mainAnswer polled⟩

def workers (polled : Polled) (n : ℕ) : List (Move Tid.Call Tid.Answer) :=
  List.replicate n ⟨.worker, workerAnswer polled⟩

/-- The user types a card, and the worker takes it off the queue and sends it. -/
def cardSent : List (Move Tid.Call Tid.Answer) :=
  mains { result := 1, stdinIn := true } 6 ++ workers { result := 1, pipeIn := true, socketIn := true } 6

/-- The server says meanwhile that the seat is taken, the worker says that the game is over, and the
main thread hears of it and waits for its end. -/
def seatTaken : List (Move Tid.Call Tid.Answer) :=
  cardSent ++ workers { result := 1 } 5 ++ mains { result := 1, pipeIn := true } 2

/-- The worker ends, and `run_client` returns. -/
def clientEnds : List (Move Tid.Call Tid.Answer) :=
  seatTaken ++ workers { result := 1 } 2 ++ mains { result := 1 } 5

/-- What `run_client` has returned. -/
def returned (cfg : Client) : Option ℤ :=
  match cfg.progs .main with
  | .exit r => some r
  | _ => none

lemma exit_of_returned {cfg : Client} {r : ℤ} (h : returned cfg = some r) : cfg.progs .main = .exit r := by
  unfold returned at h
  split at h
  · rename_i r' hr
    rw [hr, Option.some.inj h]
  · cases h

/-- The main thread has come to `join`. -/
def atJoin (cfg : Client) : Bool :=
  match cfg.progs .main with
  | .call .join _ => true
  | _ => false

lemma join_of_atJoin {cfg : Client} (h : atJoin cfg = true) : (cfg.progs .main).now = some .join := by
  unfold atJoin at h
  split at h
  · rename_i k hk
    rw [hk]
    rfl
  · cases h

lemma exists_reached (ms : List (Move Tid.Call Tid.Answer)) (p : Client → Bool)
    (h : (exec act (client 5 2 2 .N false) ms).any p = true) :
    ∃ cfg, Reached 5 2 2 .N false cfg ∧ p cfg = true := exists_of_exec h

section Reached

variable {socketFd : ℤ} {mainFuel workerFuel : ℕ} {seat : Seat} {isAi : Bool} {cfg : Client}

/-! ### The cards -/

/-- **The cards typed are sent once and in order**: each is on the queue or was taken off it, the
threads touch the queue while they hold the mutex and take off no card that is not there, and the lines
that a user's client writes are the cards taken off, but for the last while it is being written. -/
structure CardsInOrder (isAi : Bool) (cfg : Client) : Prop where
  order : cfg.shared.typed = cfg.shared.taken ++ cfg.shared.messagesToSend
  push : ∀ card, (cfg.progs .main).now = some (.push card) → cfg.shared.holder = some .main
  front : (cfg.progs .worker).now = some (.of .front) →
    cfg.shared.holder = some .worker ∧ cfg.shared.messagesToSend ≠ []
  lines : isAi = false → ∃ sent rest, cfg.shared.taken = sent ++ rest ∧ rest.length ≤ 1 ∧
    Lines sent cfg.shared.written

/-- **Typed cards reach the server in order**, in every interleaving. -/
theorem typed_cards_in_order (h : Reached socketFd mainFuel workerFuel seat isAi cfg) :
    CardsInOrder isAi cfg where
  order := h.coherent.cards
  push _ hc := h.mainOk hc
  front hc := ⟨(h.workerOk hc).1, (h.workerOk hc).2.1⟩
  lines := h.coherent.lines

/-- A card is typed and sent. -/
theorem typed_cards_in_order_sent : ∃ cfg, Reached 5 2 2 .N false cfg ∧ CardsInOrder false cfg ∧
    cfg.shared.typed = [['2', 'C']] ∧ cfg.shared.written = [trickLine 1 [['2', 'C']]] := by
  obtain ⟨cfg, hr, hp⟩ := exists_reached cardSent (fun cfg => decide (cfg.shared.typed = [['2', 'C']] ∧
    cfg.shared.written = [trickLine 1 [['2', 'C']]])) (by decide +kernel)
  exact ⟨cfg, hr, typed_cards_in_order hr, of_decide_eq_true hp⟩

/-! ### The exit status -/

/-- **`run_client` returns 0 only when the game is over**, and where none of its own calls failed just
then; the worker has ended before. -/
theorem exit_status (h : Reached socketFd mainFuel workerFuel seat isAi cfg) {r : ℤ}
    (hr : cfg.progs .main = .exit r) :
    (r = 0 → Over cfg.shared.read) ∧
      (cfg.shared.failed = false → cfg.shared.finished = true ∧ (r = 0 ↔ Over cfg.shared.read)) := by
  obtain ⟨m, hm, hzero⟩ : Returns isAi r cfg.shared := h.safe.exited (i := .main) hr
  have hsaid : ∀ m', m = some m' → (m = some normalEnd ↔ Over cfg.shared.read) := by
    rintro m' rfl
    rw [Option.some.injEq]
    exact (hm.coherent.farewell m' (hm.told m' rfl)).2
  constructor
  · intro hr0
    exact (hsaid normalEnd (hzero.mp hr0)).mp (hzero.mp hr0)
  · intro hfailed
    cases m with
    | none => exact absurd ((hm.failed rfl).symm.trans hfailed) (by decide)
    | some m' =>
      refine ⟨hm.gone.resolve_right fun hf => absurd (hf.symm.trans hfailed) (by decide), ?_⟩
      exact hzero.trans (hsaid m' rfl)

/-- The seat is taken, and `run_client` returns 0. -/
theorem exit_status_busy : ∃ cfg, Reached 5 2 2 .N false cfg ∧ cfg.progs .main = .exit 0 ∧
    Over cfg.shared.read ∧ cfg.shared.finished = true := by
  obtain ⟨cfg, hr, hp⟩ := exists_reached clientEnds (fun cfg => decide (returned cfg = some 0 ∧
    cfg.shared.failed = false)) (by decide +kernel)
  obtain ⟨hexit, hfailed⟩ := of_decide_eq_true hp
  obtain ⟨hover, hended⟩ := exit_status hr (exit_of_returned hexit)
  exact ⟨cfg, hr, exit_of_returned hexit, hover rfl, (hended hfailed).1⟩

/-! ### The pipes -/

/-- **The pipes are closed once and used by nobody afterwards**: the main thread closes each end once, and
only when the worker has ended or a call of its own has failed; it has used no pipe since, and closes
all of them before it returns. -/
structure PipesClosed (cfg : Client) : Prop where
  once : ∀ e, (cfg.progs .main).now = some (.close e) → e ∉ cfg.shared.closed
  ended : cfg.shared.closed ≠ [] → cfg.shared.finished = true ∨ cfg.shared.failed = true
  main : ∀ c, (cfg.progs .main).now = some c →
    c = .poll ∨ c = .readPipe ∨ (∃ m, c = .writePipe m) ∨ (∃ m, c = .notify m) →
    cfg.shared.closed = []
  worker : ∀ c, (cfg.progs .worker).now = some (.of c) →
    c = .poll ∨ c = .readPipe ∨ (∃ m, c = .writePipe m) →
    cfg.shared.closed = [] ∨ cfg.shared.failed = true
  all : ∀ r, cfg.progs .main = .exit r → cfg.shared.closed = allEnds

theorem pipes_closed (h : Reached socketFd mainFuel workerFuel seat isAi cfg) : PipesClosed cfg where
  once _ hc := (h.mainOk hc).1
  ended := h.coherent.opened
  main c hc hpipe := by
    obtain rfl | rfl | ⟨m, rfl⟩ | ⟨m, rfl⟩ := hpipe
    · exact (h.mainOk hc).1
    · exact (h.mainOk hc).1
    · exact (h.mainOk hc).1
    · exact (h.mainOk hc).elim
  worker c hc hpipe := by
    obtain rfl | rfl | ⟨m, rfl⟩ := hpipe
    · exact (h.workerOk hc).2
    · exact (h.workerOk hc).2
    · exact (h.workerOk hc).2
  all r hr := by
    obtain ⟨m, hm, -⟩ : Returns isAi r cfg.shared := h.safe.exited (i := .main) hr
    exact hm.closed_eq

/-- All the pipes are closed at the end. -/
theorem pipes_closed_all : ∃ cfg, Reached 5 2 2 .N false cfg ∧ PipesClosed cfg ∧
    cfg.shared.closed.length = 4 ∧ cfg.shared.failed = false := by
  obtain ⟨cfg, hr, hp⟩ := exists_reached clientEnds (fun cfg => decide (cfg.shared.closed.length = 4 ∧
    cfg.shared.failed = false)) (by decide +kernel)
  exact ⟨cfg, hr, pipes_closed hr, of_decide_eq_true hp⟩

/-! ### Waiting -/

/-- The main thread waits for the mutex or for the end of the worker. -/
def MainWaits (cfg : Client) : Prop :=
  (cfg.progs .main).now = some .lock ∧ cfg.shared.holder ≠ none ∨
    (cfg.progs .main).now = some .join ∧ cfg.shared.finished = false

/-- The worker waits for the mutex. -/
def WorkerWaits (cfg : Client) : Prop :=
  ∃ m, (cfg.progs .worker).now = some (.of (.lock m)) ∧ cfg.shared.holder ≠ none

/-- The worker closes its connection, reports an error, or ends. -/
def WorkerCall.last : WorkerCall → Bool
  | .of (.close _) | .of (.cerr _) | .finish => true
  | _ => false

lemma holder_cases {holder : Option Tid} (h : holder ≠ none) (hmain : holder ≠ some .main) :
    holder = some .worker := by
  cases holder with
  | none => exact absurd rfl h
  | some i =>
    cases i with
    | main => exact absurd rfl hmain
    | worker => rfl

/-- **The threads never wait for each other**: while one waits the other does not and has a call to make,
unless the loop of the worker has used up its fuel; and once the worker has said how it ends it waits for
nothing. -/
theorem never_deadlocked (h : Reached socketFd mainFuel workerFuel seat isAi cfg) :
    (MainWaits cfg → ¬WorkerWaits cfg ∧
      ((cfg.progs .worker).now = none → cfg.progs .worker = .more)) ∧
    (WorkerWaits cfg → ¬MainWaits cfg ∧ (cfg.progs .main).now ≠ none) ∧
    (cfg.shared.said ≠ none → ∀ c, (cfg.progs .worker).now = some c → c.last = true) := by
  have hworker : ∀ m, (cfg.progs .worker).now = some (.of (.lock m)) →
      cfg.shared.holder ≠ some .worker := fun m hc => (h.workerOk hc).1
  refine ⟨?_, ?_, fun hsaid c hc => ?_⟩
  · rintro (⟨hlock, hheld⟩ | ⟨hjoin, hrunning⟩)
    · obtain ⟨hmain, hai, -⟩ := h.mainOk hlock
      have hholder := holder_cases hheld hmain
      refine ⟨?_, fun hc => (h.worker_ended hc).resolve_left fun hfinished => ?_⟩
      · rintro ⟨m, hc, -⟩
        exact hworker m hc hholder
      · exact h.coherent.freed hfinished hai hholder
    · have hmain : cfg.shared.holder ≠ some .main := h.mainOk hjoin
      refine ⟨?_, fun hc => (h.worker_ended hc).resolve_left (by simp [hrunning])⟩
      rintro ⟨m, hc, hheld⟩
      exact hworker m hc (holder_cases hheld hmain)
  · rintro ⟨m, hc, hheld⟩
    have hholder : cfg.shared.holder = some .main := by
      by_contra hmain
      exact hworker m hc (holder_cases hheld hmain)
    refine ⟨?_, fun hc => h.main_ended hc hholder⟩
    rintro (⟨hlock, -⟩ | ⟨hjoin, -⟩)
    · exact (h.mainOk hlock).1 hholder
    · exact h.mainOk hjoin hholder
  · have hok := h.workerOk hc
    cases c with
    | finish => rfl
    | of c =>
      cases c with
      | close | cerr => rfl
      | lock => exact absurd hok.2 hsaid
      | unlock => exact absurd hok.2 hsaid
      | front => exact absurd hok.2.2 hsaid
      | poll | readPipe | writePipe => exact absurd hok.1 hsaid
      | readSocket | writeSocket | cout => exact absurd hok hsaid
      | _ => exact hok.elim

/-- The main thread waits for the worker, which has said how it ends. -/
theorem never_deadlocked_joining : ∃ cfg, Reached 5 2 2 .N false cfg ∧ MainWaits cfg ∧
    ¬WorkerWaits cfg ∧ ∀ c, (cfg.progs .worker).now = some c → c.last = true := by
  obtain ⟨cfg, hr, hp⟩ := exists_reached seatTaken (fun cfg => atJoin cfg && decide (
    cfg.shared.finished = false ∧ cfg.shared.said = some normalEnd)) (by decide +kernel)
  obtain ⟨hjoin, hp⟩ := Bool.and_eq_true_iff.mp hp
  obtain ⟨hrunning, hsaid⟩ := of_decide_eq_true hp
  have hwaits : MainWaits cfg := .inr ⟨join_of_atJoin hjoin, hrunning⟩
  obtain ⟨hmain, -, hlast⟩ := never_deadlocked hr
  exact ⟨cfg, hr, hwaits, (hmain hwaits).1, hlast (by simp [hsaid])⟩

end Reached

end Kierki.Process
