import Kierki.Klient.Worker
import Kierki.Serwer.Machine

/-!
# A table of AI clients

The server together with the clients it serves and the lines between them. A client is the worker of
`Klient` as an AI client runs it: it asks for its seat as it connects, and answers every line as it
reads it. A connection carries the lines either way in order; a line is on its way from the write of
the one side to the read of the other.

The outcomes of the system calls of the server that tell of a client are no longer free: a thread
reads the oldest line its client has written, and `poll` reports the socket only when there is one.
-/

namespace Kierki

open Senders Serwer

/-- The server, its clients by the number of their connection, and the lines on their way. -/
structure Table where
  server : State
  clients : ℕ → Klient := fun _ => { seat := .N, isAi := true }
  /-- The lines written to a client and not yet read by it. -/
  down : ℕ → List Text := fun _ => []
  /-- The lines written by a client and not yet read by its thread. -/
  up : ℕ → List Text := fun _ => []

/-- The line a step of the thread writes to its client. -/
def Serwer.Thread.writes (t : Thread) (o : Outcome) : List Text :=
  match t.pc, o with
  | .send l _, .tick => [l]
  | _, _ => []

/-- What the client has written agrees with how a system call ends. -/
def Serwer.Outcome.Fits (written : List Text) : Outcome → Prop
  | .line l => written.head? = some l
  | .ready socket _ _ => socket = true → written ≠ []
  | .eof => False
  | .tick | .fail | .expire => True

instance (written : List Text) : (o : Outcome) → Decidable (o.Fits written)
  | .line _ => inferInstanceAs (Decidable (_ = _))
  | .ready _ _ _ => inferInstanceAs (Decidable (_ → _))
  | .eof => inferInstanceAs (Decidable False)
  | .tick | .fail | .expire => inferInstanceAs (Decidable True)

/-- What is left of the lines the client has written. -/
def Serwer.Outcome.unread (written : List Text) : Outcome → List Text
  | .line _ => written.tail
  | _ => written

namespace Table

/-- An action at the table. -/
inductive Act
  /-- The main thread of the server moves. -/
  | main (ready : List Seat)
  /-- A client connects, on a descriptor of the server, and asks for a seat. -/
  | connect (clientFd : ℤ) (seat : Seat)
  /-- The thread of connection `c` moves. -/
  | thread (c : ℕ) (o : Outcome)
  /-- The client of connection `c` reads a line and answers it. -/
  | client (c : ℕ)

/-- **One step at the table.** -/
def step (T : Table) : Act → Option Table
  | .main ready => (Serwer.step T.server (.main ready)).map fun st => { T with server := st }
  | .connect clientFd seat =>
    (Serwer.step T.server (.accept clientFd)).map fun st =>
      { T with
        server := st
        clients := Function.update T.clients T.server.threadId { seat := seat, isAi := true }
        up := Function.update T.up T.server.threadId [iamLine seat] }
  | .thread c o =>
    if o.Fits (T.up c) then
      (Serwer.step T.server (.thread c o)).map fun st =>
        { T with
          server := st
          down := Function.update T.down c (T.down c ++ (T.server.threads c).writes o)
          up := Function.update T.up c (o.unread (T.up c)) }
    else none
  | .client c =>
    match T.down c with
    | [] => none
    | l :: rest =>
      ((T.clients c).receive l).map fun (k, out) =>
        { T with
          clients := Function.update T.clients c k
          down := Function.update T.down c rest
          up := Function.update T.up c (T.up c ++ out) }

/-- The table as the server starts. -/
def init (timeout : ℤ) (deals : List Deal) : Table := { server := Serwer.init timeout deals }

section Step

variable {T T' : Table} {ready : List Seat} {clientFd : ℤ} {seat : Seat} {c : ℕ} {o : Outcome}

lemma step_main (h : T.step (.main ready) = some T') :
    Serwer.step T.server (.main ready) = some T'.server ∧ T'.clients = T.clients ∧
      T'.down = T.down ∧ T'.up = T.up := by
  simp only [step, Option.map_eq_some_iff] at h
  obtain ⟨st, hs, rfl⟩ := h
  exact ⟨hs, rfl, rfl, rfl⟩

lemma step_connect (h : T.step (.connect clientFd seat) = some T') :
    Serwer.step T.server (.accept clientFd) = some T'.server ∧
      T'.clients = Function.update T.clients T.server.threadId { seat := seat, isAi := true } ∧
      T'.down = T.down ∧ T'.up = Function.update T.up T.server.threadId [iamLine seat] := by
  simp only [step, Option.map_eq_some_iff] at h
  obtain ⟨st, hs, rfl⟩ := h
  exact ⟨hs, rfl, rfl, rfl⟩

lemma step_thread (h : T.step (.thread c o) = some T') :
    o.Fits (T.up c) ∧ Serwer.step T.server (.thread c o) = some T'.server ∧
      T'.clients = T.clients ∧
      T'.down = Function.update T.down c (T.down c ++ (T.server.threads c).writes o) ∧
      T'.up = Function.update T.up c (o.unread (T.up c)) := by
  simp only [step, Option.ite_none_right_eq_some, Option.map_eq_some_iff] at h
  obtain ⟨ho, st, hs, rfl⟩ := h
  exact ⟨ho, hs, rfl, rfl, rfl⟩

lemma step_client (h : T.step (.client c) = some T') : ∃ l rest k out, T.down c = l :: rest ∧
    (T.clients c).receive l = some (k, out) ∧ T'.server = T.server ∧
      T'.clients = Function.update T.clients c k ∧ T'.down = Function.update T.down c rest ∧
      T'.up = Function.update T.up c (T.up c ++ out) := by
  simp only [step] at h
  split at h
  · cases h
  · rename_i l rest hdown
    simp only [Option.map_eq_some_iff] at h
    obtain ⟨⟨k, out⟩, hk, rfl⟩ := h
    exact ⟨l, rest, k, out, hdown, hk, rfl, rfl, rfl, rfl⟩

end Step

end Table

/-! ### Clients that play on time -/

/-- The call goes through, and the time is not over. -/
def Serwer.Thread.inTime (t : Thread) : Outcome → Bool
  | .fail | .expire => false
  | .ready false _ passedMs => !t.bWasDestinedToPlay || 0 < int32 (t.timeoutCopy - passedMs)
  | _ => true

namespace Table

/-- No call fails, no time runs out, and every client asks for a seat of its own. -/
def Prompt (T : Table) : Act → Prop
  | .connect _ seat => ∀ c < T.server.threadId, (T.clients c).seat ≠ seat
  | .thread c o => (T.server.threads c).inTime o = true
  | .main _ | .client _ => True

instance (T : Table) : (a : Act) → Decidable (T.Prompt a)
  | .connect _ _ => inferInstanceAs (Decidable (∀ _ < _, _))
  | .thread _ _ => inferInstanceAs (Decidable (_ = _))
  | .main _ | .client _ => inferInstanceAs (Decidable True)

/-- The states of the runs in which all clients play on time. -/
abbrev RunsTo (timeout : ℤ) (deals : List Deal) (T : Table) : Prop :=
  Lib.Lts.Reach step Prompt (init timeout deals) T

end Table

end Kierki
