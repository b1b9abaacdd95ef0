import Kierki.Mutexes.SeatCalls

/-!
# The discipline of the mutexes

What the preconditions say of every run: `reserve_spot`, `parse_message` and `close_thread` lock and
unlock the mutexes of the server in order and return with them released, and so does the worker thread
of the client with `access_mutex`, unless it is the one of an AI client that reads a line of a taken
seat.
-/

namespace Kierki.Mutexes

open Lib.Calls Lib.Locks Lib.Calls.Prog Mutexes.Serwer Regex Senders

section Runs

variable {α ρ : Type} (m : Mutex) (env : ℕ → (c : Call) → c.Answer) (p : Proc ρ α)

/-- What a run does to the mutex `m`. -/
def locks : List Op := ops (opOf m) (p.log env 0)

/-- The lines a run reads from its socket, with the results. -/
def linesRead : List (ℤ × Text) := (p.log env 0).foldl note []

variable {m p} {may : Serwer.Shared → Prop} {spins : Bool × List (ℤ × Text) → Prop}

lemma run_of_wp {E : ρ → Bool × List (ℤ × Text) → Prop} {Q : α → Bool × List (ℤ × Text) → Prop}
    (h : wp (lockRules m may spins) p E Q (false, [])) (hmay : ∀ n, may (env n .shared)) :
    Obeys false (locks m env p) ∧ (lockRules m may spins).Ended E Q
      (heldAfter false (locks m env p), linesRead env p) (p.outcome env 0) := by
  refine disciplined_of_wp h fun n c => ?_
  cases c with
  | shared => exact hmay n
  | _ => trivial

lemma returns_of_wp {P : α → Prop} (h : wp (lockRules m may spins) p (fun _ _ => False)
    (fun a s => P a ∧ s.1 = false) (false, [])) (hmay : ∀ n, may (env n .shared))
    (hspins : ∀ s, ¬spins s) :
    Disciplined (locks m env p) ∧ ∃ a, P a ∧ p.outcome env 0 = some (.inr a) := by
  obtain ⟨hobeys, hended⟩ := run_of_wp env h hmay
  match hout : p.outcome env 0 with
  | none =>
    rw [hout] at hended
    exact absurd hended (hspins _)
  | some (.inl r) =>
    rw [hout] at hended
    exact False.elim hended
  | some (.inr a) =>
    rw [hout] at hended
    exact ⟨⟨hobeys, hended.2⟩, a, hended.1, rfl⟩

lemma disciplined_iff {P : List (ℤ × Text) → Prop} {E : ρ → Bool × List (ℤ × Text) → Prop}
    {Q : α → Bool × List (ℤ × Text) → Prop} (h : wp (lockRules m may spins) p E Q (false, []))
    (hmay : ∀ n, may (env n .shared)) (hspins : ∀ s, spins s → (s.1 = true ↔ P s.2))
    (hE : ∀ r s, E r s → (s.1 = true ↔ P s.2)) (hQ : ∀ a s, Q a s → (s.1 = true ↔ P s.2)) :
    Disciplined (locks m env p) ↔ ¬P (linesRead env p) := by
  obtain ⟨hobeys, hended⟩ := run_of_wp env h hmay
  have hheld := hended.always hspins hE hQ
  rw [← hheld, Bool.not_eq_true]
  exact ⟨fun hd => hd.released, fun hfree => ⟨hobeys, hfree⟩⟩

end Runs

/-! ### The threads -/

/-- The rules of a mutex for a program without a loop. -/
abbrev noLoop (m : Mutex) : Rules Call Call.Answer (Bool × List (ℤ × Text)) :=
  lockRules m (fun _ => True) fun _ => False

section Threads

variable {env : ℕ → (c : Call) → c.Answer} {m : Mutex} {socketFd clientFd : ℤ} {k : Klient} {fuel : ℕ}

lemma iff_of_free {held : Bool} {lines : List (ℤ × Text)} (hfree : held = false) (hbusy : ¬Busy lines) :
    held = true ↔ k.isAi = true ∧ Busy lines := by
  subst hfree
  exact iff_of_false Bool.false_ne_true fun h => hbusy h.2

lemma not_busy_nil : ¬Busy [] := by
  rintro ⟨x, hx, -⟩
  cases hx

lemma turn_disciplined : Disciplined (locks .access env (turn socketFd k)) ↔
    ¬(k.isAi = true ∧ Busy (linesRead env (turn socketFd k))) := by
  have hwp : wp (noLoop .access) (turn socketFd k) _ _ (false, []) := wp_turn not_busy_nil
  exact disciplined_iff (P := fun lines => k.isAi = true ∧ Busy lines) env hwp (fun _ => trivial)
    (fun _ => False.elim) (fun _ _ h => h) fun _ _ h => iff_of_free h.2.1 h.2.2

lemma handleClient_disciplined : Disciplined (locks .access env (handleClient socketFd fuel k)) ↔
    ¬(k.isAi = true ∧ Busy (linesRead env (handleClient socketFd fuel k))) := by
  have hwp : wp (lockRules .access (fun _ => True) _) (handleClient socketFd fuel k) _ _ (false, []) :=
    wp_handleClient not_busy_nil
  exact disciplined_iff (P := fun lines => k.isAi = true ∧ Busy lines) env hwp (fun _ => trivial)
    (fun _ h => iff_of_free h.1 h.2) (fun _ _ h => h) fun _ _ h => iff_of_free h.2.1 h.2.2

lemma reserveSpot_returns {seat : Text} (hfuel : ∀ n, (env n .shared).takenTricks.length ≤ fuel) :
    Disciplined (locks m env (reserveSpot fuel clientFd seat : Proc Unit _)) ∧
      ∃ r, (reserveSpot fuel clientFd seat : Proc Unit _).outcome env 0 = some (.inr r) := by
  have hwp : wp (lockRules m (fun sh => sh.takenTricks.length ≤ fuel) fun _ => False)
      (reserveSpot fuel clientFd seat : Proc Unit _) (fun _ _ => False)
      (fun _ s => True ∧ s.1 = false) (false, []) :=
    wp_mono (fun _ _ => id) (fun _ _ h => ⟨trivial, h⟩)
      (wp_reserveSpot fun sh _ hmay hmore => absurd hmay (Nat.not_le_of_gt hmore))
  obtain ⟨hd, r, -, hr⟩ := returns_of_wp env hwp hfuel fun _ => id
  exact ⟨hd, r, hr⟩

/-- `reserve_spot` returns with the mutex free, unless the tricks outnumber the fuel of its loop: then what
it does is in order as far as it goes. -/
lemma reserveSpot_disciplined {seat : Text} :
    let run : Proc Unit _ := reserveSpot fuel clientFd seat
    (Disciplined (locks m env run) ∧ ∃ r, run.outcome env 0 = some (.inr r)) ∨
      Obeys false (locks m env run) ∧ run.outcome env 0 = none ∧
        ∃ n, fuel < (env n .shared).takenTricks.length := by
  intro run
  have hwp : wp (lockRules m (fun _ => True) fun _ => True) run (fun _ _ => False)
      (fun _ s => s.1 = false) (false, []) := wp_reserveSpot fun _ _ _ _ => trivial
  obtain ⟨hobeys, hended⟩ := run_of_wp env hwp fun _ => trivial
  match hout : run.outcome env 0 with
  | none =>
    refine .inr ⟨hobeys, rfl, ?_⟩
    by_contra hfew
    push Not at hfew
    obtain ⟨-, r, hr⟩ : Disciplined (locks m env run) ∧ ∃ r, run.outcome env 0 = some (.inr r) :=
      reserveSpot_returns hfew
    rw [hout] at hr
    cases hr
  | some (.inl r) =>
    rw [hout] at hended
    exact False.elim hended
  | some (.inr r) =>
    rw [hout] at hended
    exact .inl ⟨⟨hobeys, hended⟩, r, rfl⟩

lemma parseMessage_disciplined {message : Text} {seat : Seat} {bWasDestinedToPlay : Bool}
    {currentTrick : ℕ} {timeoutCopy : ℤ} :
    let run : Proc Unit _ :=
      parseMessage message clientFd seat bWasDestinedToPlay currentTrick timeoutCopy
    Disciplined (locks m env run) ∧ ∃ p, run.outcome env 0 = some (.inr (some p)) := by
  intro run
  have hwp : wp (noLoop m) run (fun _ _ => False) (fun r s => r ≠ none ∧ s.1 = false) (false, []) :=
    wp_parseMessage
  obtain ⟨hd, p, hp, hout⟩ := returns_of_wp env hwp (fun _ => trivial) fun _ => id
  obtain ⟨p, rfl⟩ := Option.ne_none_iff_exists'.mp hp
  exact ⟨hd, p, hout⟩

lemma closeThread_disciplined {errorMessage : String} {fds : List ℤ} {seat : Text}
    {occupying ended : Bool} :
    Disciplined (locks m env (closeThread errorMessage fds seat occupying ended : Proc Unit _)) := by
  have hwp : wp (noLoop m) (closeThread errorMessage fds seat occupying ended : Proc Unit _)
      (fun _ _ => False) (fun _ s => True ∧ s.1 = false) (false, []) := wp_closeThread ⟨trivial, rfl⟩
  exact (returns_of_wp env hwp (fun _ => trivial) fun _ => id).1

end Threads

/-- **The discipline of the mutexes**, for all states, answers of the calls and views of the shared
fields. A pass of the client, and any number of passes, takes and releases `access_mutex` in order unless
an AI client reads a line of a taken seat; the functions of the server do so with their mutexes. -/
theorem lock_discipline (env : ℕ → (c : Call) → c.Answer) (socketFd : ℤ) (k : Klient) (fuel : ℕ) :
    (Disciplined (locks .access env (turn socketFd k)) ↔
      ¬(k.isAi = true ∧ Busy (linesRead env (turn socketFd k)))) ∧
    (Disciplined (locks .access env (handleClient socketFd fuel k)) ↔
      ¬(k.isAi = true ∧ Busy (linesRead env (handleClient socketFd fuel k)))) ∧
    ∀ (m : Mutex) (clientFd : ℤ),
      (∀ seat,
        let run : Proc Unit _ := reserveSpot fuel clientFd seat
        (Disciplined (locks m env run) ∧ ∃ r, run.outcome env 0 = some (.inr r)) ∨
          Obeys false (locks m env run) ∧ run.outcome env 0 = none ∧
            ∃ n, fuel < (env n .shared).takenTricks.length) ∧
      (∀ message seat bWasDestinedToPlay currentTrick timeoutCopy,
        let run : Proc Unit _ :=
          parseMessage message clientFd seat bWasDestinedToPlay currentTrick timeoutCopy
        Disciplined (locks m env run) ∧ ∃ p, run.outcome env 0 = some (.inr (some p))) ∧
      ∀ errorMessage fds seat bWasOccupying bWasEndedByServer, Disciplined (locks m env
        (closeThread errorMessage fds seat bWasOccupying bWasEndedByServer : Proc Unit _)) :=
  ⟨turn_disciplined, handleClient_disciplined, fun _ _ => ⟨fun _ => reserveSpot_disciplined,
    fun _ _ _ _ _ => parseMessage_disciplined, fun _ _ _ _ _ => closeThread_disciplined⟩⟩

/-- The server says that the seat is taken. -/
def busyAnswers : ℕ → (c : Call) → c.Answer
  | _, .poll => { result := 1, socketIn := true }
  | _, .readSocket => (7, busyLine [.N])
  | _, .readPipe => (1, disconnected)
  | _, .writeSocket msg => msg.length
  | _, .writePipe _ => 1
  | _, .setsockopt => 0
  | _, .front => []
  | _, .shared => { timeout := 5000 }
  | _, .iterators => ([], .N)
  | _, .lock _ | _, .unlock _ | _, .close _ | _, .cout _ | _, .cerr _ | _, .change _ => ()

/-- The AI client that wanted the seat returns with `access_mutex` held. -/
theorem turn_busy_ai :
    ¬Disciplined (locks .access busyAnswers (turn 4 { seat := .N, isAi := true })) := by
  intro h
  have hheld : heldAfter false (locks .access busyAnswers (turn 4 { seat := .N, isAi := true })) = true := by
    decide +kernel
  exact absurd (h.released.symm.trans hheld) Bool.false_ne_true

end Kierki.Mutexes
