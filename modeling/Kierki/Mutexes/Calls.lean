import Kierki.Lib.Locks
import Kierki.Serwer.Shared

/-!
# Calls that lock

The worker thread of the client and the threads of the seats as programs over their calls, the ones on
the mutexes among them. What a call answers is up to the system and to the other threads: so is what a
thread finds in the fields it shares with them, which is the answer of a call as well.

`print_log` and the second `print_error` of `common.cpp` lock the mutex they are given.
-/

namespace Kierki.Mutexes

open Lib.Calls Lib.Locks

inductive Mutex
  /-- `access_mutex` of the client. -/
  | access
  /-- `memory_mutex` of the server. -/
  | memory
  /-- `print_mutex` of the server. -/
  | print
  deriving DecidableEq

/-- The calls of these threads. -/
inductive Call
  | lock (m : Mutex)
  | unlock (m : Mutex)
  | poll
  | readPipe
  | readSocket
  | writeSocket (message : Text)
  | writePipe (message : Text)
  | setsockopt
  | close (fd : ℤ)
  | cout (text : Text)
  | cerr (errorMessage : String)
  /-- The first of `messages_to_send`, which is taken off. -/
  | front
  /-- A look at the fields of the server, and a change of them. -/
  | shared
  | change (f : Serwer.Shared → Serwer.Shared)
  /-- What the two iterators of `reserve_spot` point to. -/
  | iterators

/-- What `poll` says of a pipe and of a socket. -/
structure Polled where
  result : ℤ
  pipeIn : Bool := false
  pipeErr : Bool := false
  socketIn : Bool := false
  socketErr : Bool := false

/-- The answers. A function that reads answers with its result and the string it was given. -/
@[reducible] def Call.Answer : Call → Type
  | poll => Polled
  | readPipe | readSocket => ℤ × Text
  | writeSocket _ | writePipe _ | setsockopt => ℤ
  | front => Text
  | shared => Serwer.Shared
  | iterators => List Text × Seat
  | lock _ | unlock _ | close _ | cout _ | cerr _ | change _ => Unit

/-- The body of a function that returns a `ρ`. -/
abbrev Proc (ρ α : Type) := Prog Call Call.Answer ρ α

section Common

variable {ρ : Type}

/-- One call. -/
abbrev ask (c : Call) : Proc ρ c.Answer := Prog.ask c

/-- A call that answers nothing. -/
def lock (m : Mutex) : Proc ρ PUnit := ask (.lock m)

def unlock (m : Mutex) : Proc ρ PUnit := ask (.unlock m)

/-- `assert_close` -/
def close (fd : ℤ) : Proc ρ PUnit := ask (.close fd)

def cout (text : Text) : Proc ρ PUnit := ask (.cout text)

def change (f : Serwer.Shared → Serwer.Shared) : Proc ρ PUnit := ask (.change f)

/-- `print_error`, the one without a mutex. -/
def cerr (errorMessage : String) : Proc ρ PUnit := ask (.cerr errorMessage)

/-- `print_error`, the one with a mutex. -/
def printError (errorMessage : String) (m : Mutex) : Proc ρ PUnit := do
  lock m
  cerr errorMessage
  unlock m

/-- `print_log`; a message that does not end with the delimiter gets an end of line. -/
def printLog (message : Text) (m : Mutex) (isAi : Bool) : Proc ρ PUnit := do
  if isAi ∧ message ≠ [] then
    lock m
    cout message
    if message.length < 2 ∨ substr message (message.length - 2) 2 ≠ ['\r', '\n'] then cout ['\n']
    unlock m

end Common

/-! ### The rules of one mutex -/

/-- What a call does to the mutex `m`. -/
def opOf (m : Mutex) : Call → Option Op
  | .lock m' => if m' = m then some .lock else none
  | .unlock m' => if m' = m then some .unlock else none
  | _ => none

/-- The lines read from the socket so far, with the results. -/
def note (lines : List (ℤ × Text)) : (c : Call) × c.Answer → List (ℤ × Text)
  | ⟨.readSocket, a⟩ => lines ++ [a]
  | _ => lines

/-- What is counted on of the fields of the server. -/
def countedOn (may : Serwer.Shared → Prop) : (c : Call) → c.Answer → Prop
  | .shared, sh => may sh
  | _, _ => True

/-- The rules of the mutex `m`. -/
def lockRules (m : Mutex) (may : Serwer.Shared → Prop) (spins : Bool × List (ℤ × Text) → Prop) :
    Rules Call Call.Answer (Bool × List (ℤ × Text)) := rules (opOf m) note (countedOn may) spins

section Wp

variable {ρ : Type} {m m' : Mutex} {may : Serwer.Shared → Prop} {spins : Bool × List (ℤ × Text) → Prop}
  {E : ρ → Bool × List (ℤ × Text) → Prop} {held : Bool} {lines : List (ℤ × Text)}

open Prog

@[simp] lemma wp_lock {Q : PUnit → Bool × List (ℤ × Text) → Prop} :
    wp (lockRules m may spins) (lock m') E Q (held, lines) ↔
      (m' = m → held = false) ∧ Q ⟨⟩ (held || decide (m' = m), lines) := by
  have hcall : wp (lockRules m may spins) (lock m') E Q (held, lines) ↔
      (lockRules m may spins).ok (held, lines) (.lock m') ∧
        ∀ _ : Unit, True → Q ⟨⟩ (heldBy (opOf m) held (.lock m'), lines) := Iff.rfl
  rw [hcall, forall_const, true_imp_iff]
  by_cases hm : m' = m <;> simp [lockRules, rules, opOf, heldBy, hm]

@[simp] lemma wp_unlock {Q : PUnit → Bool × List (ℤ × Text) → Prop} :
    wp (lockRules m may spins) (unlock m') E Q (held, lines) ↔
      (m' = m → held = true) ∧ Q ⟨⟩ (held && !decide (m' = m), lines) := by
  have hcall : wp (lockRules m may spins) (unlock m') E Q (held, lines) ↔
      (lockRules m may spins).ok (held, lines) (.unlock m') ∧
        ∀ _ : Unit, True → Q ⟨⟩ (heldBy (opOf m) held (.unlock m'), lines) := Iff.rfl
  rw [hcall, forall_const, true_imp_iff]
  by_cases hm : m' = m <;> simp [lockRules, rules, opOf, heldBy, hm]

lemma wp_locked {Q : PUnit → Bool × List (ℤ × Text) → Prop} (h : Q ⟨⟩ (decide (m' = m), lines)) :
    wp (lockRules m may spins) (lock m') E Q (false, lines) := by
  simpa using h

lemma wp_unlocked {Q : PUnit → Bool × List (ℤ × Text) → Prop} (h : Q ⟨⟩ (false, lines)) :
    wp (lockRules m may spins) (unlock m') E Q (decide (m' = m), lines) := by
  simpa using h

lemma wp_ask {c : Call} {Q : c.Answer → Bool × List (ℤ × Text) → Prop} (hc : opOf m c = none)
    (h : ∀ a, Q a (held, note lines ⟨c, a⟩)) : wp (lockRules m may spins) (ask c) E Q (held, lines) := by
  refine ⟨by simp [lockRules, rules, hc], fun a _ => ?_⟩
  have hheld : heldBy (opOf m) held c = held := by simp [heldBy, hc]
  show Q a (heldBy (opOf m) held c, note lines ⟨c, a⟩)
  rw [hheld]
  exact h a

lemma wp_shared {Q : Serwer.Shared → Bool × List (ℤ × Text) → Prop}
    (h : ∀ sh, may sh → Q sh (held, lines)) :
    wp (lockRules m may spins) (ask .shared) E Q (held, lines) :=
  ⟨trivial, h⟩

@[simp] lemma wp_close {fd : ℤ} {Q : PUnit → Bool × List (ℤ × Text) → Prop} :
    wp (lockRules m may spins) (close fd) E Q (held, lines) ↔ Q ⟨⟩ (held, lines) :=
  ⟨fun h => h.2 ⟨⟩ trivial, fun h => wp_ask rfl fun _ => h⟩

@[simp] lemma wp_cout {text : Text} {Q : PUnit → Bool × List (ℤ × Text) → Prop} :
    wp (lockRules m may spins) (cout text) E Q (held, lines) ↔ Q ⟨⟩ (held, lines) :=
  ⟨fun h => h.2 ⟨⟩ trivial, fun h => wp_ask rfl fun _ => h⟩

@[simp] lemma wp_cerr {errorMessage : String} {Q : PUnit → Bool × List (ℤ × Text) → Prop} :
    wp (lockRules m may spins) (cerr errorMessage) E Q (held, lines) ↔ Q ⟨⟩ (held, lines) :=
  ⟨fun h => h.2 ⟨⟩ trivial, fun h => wp_ask rfl fun _ => h⟩

@[simp] lemma wp_change {f : Serwer.Shared → Serwer.Shared}
    {Q : PUnit → Bool × List (ℤ × Text) → Prop} :
    wp (lockRules m may spins) (change f) E Q (held, lines) ↔ Q ⟨⟩ (held, lines) :=
  ⟨fun h => h.2 ⟨⟩ trivial, fun h => wp_ask rfl fun _ => h⟩

@[simp] lemma wp_printError {errorMessage : String} {Q : PUnit → Bool × List (ℤ × Text) → Prop} :
    wp (lockRules m may spins) (printError errorMessage m') E Q (false, lines) ↔ Q ⟨⟩ (false, lines) := by
  simp [printError]

@[simp] lemma wp_printLog {message : Text} {isAi : Bool} {Q : PUnit → Bool × List (ℤ × Text) → Prop} :
    wp (lockRules m may spins) (printLog message m' isAi) E Q (false, lines) ↔ Q ⟨⟩ (false, lines) := by
  unfold printLog
  split_ifs <;> simp

end Wp

end Kierki.Mutexes
