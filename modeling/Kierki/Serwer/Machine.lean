import Kierki.Lib.Lts
import Kierki.Serwer.MainThread
import Kierki.Serwer.SeatThread

/-!
# The server

The main thread, the connection thread and the threads of all the connections over their shared
state. An action names the thread that moves and what its system call returns, so a run is any
interleaving against clients that connect, send, stay and leave as they like.
-/

namespace Kierki.Serwer

open Kierki.Lib.Lts

/-- A state of the server. -/
structure State where
  sh : Shared
  main : Main
  /-- The threads, by the number of their connection. -/
  threads : ℕ → Thread := fun _ => {}
  /-- The number of the next connection. -/
  threadId : ℕ := 0

/-- An action of one of the threads. -/
inductive Act
  /-- The main thread moves; `ready` are the pipes a `poll` finds ready. -/
  | main (ready : List Seat)
  /-- The connection thread accepts a client on a descriptor. -/
  | accept (clientFd : ℤ)
  /-- The thread of connection `c` moves. -/
  | thread (c : ℕ) (o : Outcome)

/-- `close_server` has waited for the connection thread to end. -/
def MainPc.accepting : MainPc → Bool
  | closeSeats _ _ _ => false
  | _ => true

/-- **One step of the server.** -/
def step (st : State) : Act → Option State
  | .main ready =>
    (mainStep st.sh st.main ready).map fun (sh, m) => { st with sh := sh, main := m }
  | .accept clientFd =>
    if 0 ≤ clientFd ∧ st.main.pc.accepting then
      some { st with
        threads := Function.update st.threads st.threadId { pc := .readIam, clientFd := clientFd }
        threadId := st.threadId + 1 }
    else none
  | .thread c o =>
    (threadStep st.sh c (st.threads c) o).map fun (sh, t) =>
      { st with sh := sh, threads := Function.update st.threads c t }

section Step

variable {st st' : State} {c : ℕ} {o : Outcome} {ready : List Seat} {clientFd : ℤ}

lemma step_thread (h : step st (.thread c o) = some st') :
    threadStep st.sh c (st.threads c) o = some (st'.sh, st'.threads c) ∧ st'.main = st.main ∧
      ∀ c' ≠ c, st'.threads c' = st.threads c' := by
  simp only [step, Option.map_eq_some_iff] at h
  obtain ⟨⟨sh, t⟩, h, rfl⟩ := h
  refine ⟨?_, rfl, fun c' hc => Function.update_of_ne hc _ _⟩
  simpa using h

lemma step_main (h : step st (.main ready) = some st') :
    mainStep st.sh st.main ready = some (st'.sh, st'.main) ∧ st'.threads = st.threads := by
  simp only [step, Option.map_eq_some_iff] at h
  obtain ⟨⟨sh, m⟩, h, rfl⟩ := h
  exact ⟨h, rfl⟩

lemma step_accept (h : step st (.accept clientFd) = some st') :
    st'.sh = st.sh ∧ st'.main = st.main ∧
      st'.threads =
        Function.update st.threads st.threadId { pc := .readIam, clientFd := clientFd } := by
  simp only [step, Option.ite_none_right_eq_some, Option.some.injEq] at h
  obtain ⟨-, rfl⟩ := h
  exact ⟨rfl, rfl, rfl⟩

end Step

/-- The server as `start_game` calls `barrier` for the first time. -/
def init (timeout : ℤ) (deals : List Deal) : State :=
  { sh := { timeout := timeout }, main := { deals := deals } }

/-- The states of the runs all of whose steps meet a condition. -/
abbrev RunsTo (ok : State → Act → Prop) (timeout : ℤ) (deals : List Deal) (st : State) : Prop :=
  Reach step ok (init timeout deals) st

/-- The states of all runs. -/
abbrev Reachable (timeout : ℤ) (deals : List Deal) (st : State) : Prop :=
  RunsTo (fun _ _ => True) timeout deals st

/-! ### Runs written down -/

lemma exists_run (ok : State → Act → Prop) [∀ st a, Decidable (ok st a)] (deals : List Deal)
    (as : List Act) (p : State → Bool) (h : (exec step ok (init 5000 deals) as).any p = true) :
    ∃ st, RunsTo ok 5000 deals st ∧ p st = true := Reach.exists_of_exec h

lemma exists_recorded {η : Type} (note : State → Act → State → η → η) (h₀ : η)
    (ok : State × η → Act → Prop) [∀ p a, Decidable (ok p a)] (deals : List Deal) (as : List Act)
    (p : State × η → Bool)
    (h : (exec (record step note) ok (init 5000 deals, h₀) as).any p = true) :
    ∃ st hist, Reach (record step note) ok (init 5000 deals, h₀) (st, hist) ∧ p (st, hist) = true := by
  obtain ⟨⟨st, hist⟩, hr, hp⟩ := Reach.exists_of_exec h
  exact ⟨st, hist, hr, hp⟩

/-- The main thread moves `n` times without a `poll`. -/
def mains (n : ℕ) : List Act := List.replicate n (.main [])

/-- The thread of connection `c` moves `n` times and all its calls go through. -/
def ticks (c n : ℕ) : List Act := List.replicate n (.thread c .tick)

/-- A client connects as number `c` and asks for a seat. -/
def asks (c : ℕ) (s : Seat) : List Act :=
  [.accept (5 + c), .thread c (.line (Senders.iamLine s))]

/-- The thread of connection `c` finds its pipe ready and reads it, and moves `n` times more. -/
def hears (c n : ℕ) : List Act := .thread c (.ready false true 0) :: ticks c (n + 1)

/-- The client of connection `c` leaves, `pipe` telling whether the pipe of its thread holds a byte
too, and its thread moves `n` times more. -/
def leaves (c : ℕ) (pipe : Bool) (n : ℕ) : List Act :=
  [.thread c (.ready true pipe 0), .thread c .eof] ++ ticks c n

/-- All the seats connect, numbered in the order of the pipes, and answer `barrier`, which passes
and loads the next deal. -/
def opening : List Act :=
  mains 5 ++ asks 0 .N ++ ticks 0 3 ++ asks 1 .E ++ ticks 1 3 ++ asks 2 .S ++ ticks 2 3 ++
  asks 3 .W ++ ticks 3 3 ++ hears 0 1 ++ hears 1 1 ++ hears 2 1 ++ hears 3 2 ++
  [.main [.W]] ++ mains 7

/-- A deal of the game file: every seat holds one suit, and `N` starts. -/
def suitsDeal : Deal where
  trickType := 1
  seat := .N
  rawCards s := [['2'], ['3'], ['4'], ['5'], ['6'], ['7'], ['8'], ['9'], ['1', '0'], ['J'], ['Q'],
    ['K'], ['A']].flatMap fun figure => figure ++ [match s with
      | .N => 'C' | .E => 'D' | .S => 'H' | .W => 'S']

/-- The client of connection `c` sends a line, `pipe` telling whether the pipe of its thread holds a
byte too, and its thread moves `n` times more. -/
def sends (c : ℕ) (l : Text) (pipe : Bool) (n : ℕ) : List Act :=
  [.thread c (.ready true pipe 0), .thread c (.line l)] ++ ticks c n

/-- The seat of connection `c` is asked for a card and plays it, and the main thread hears of it. -/
def playsCard (c : ℕ) (s : Seat) (card : Text) : List Act :=
  hears c 3 ++ hears c 3 ++ hears c 3 ++
  sends c (['T', 'R', 'I', 'C', 'K', '1'] ++ card ++ ['\r', '\n']) false 2 ++ [.main [s]] ++ mains 4

end Kierki.Serwer
