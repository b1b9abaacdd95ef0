import Kierki.Process.Pacts

/-!
# The worker keeps its side

`handle_client` under the pact of the worker: part by part, with what is known of the memory at the
points between the calls.
-/

namespace Kierki.Process

open Lib.Calls Lib.Threads Mutexes Regex Senders

/-- **What the worker knows** between two calls: the tally of the lines read and whether they ended the
game, whether it holds the mutex, how many bytes it has read of cards still on the queue, and the cards
taken off whose line is still to be written. -/
structure At (isAi : Bool) (b : Bool × Bool) (P : Prop) (held : Bool) (n : ℕ) (pending : List Text)
    (s : Memory) : Prop where
  coherent : Coherent isAi s
  holder : s.holder = some .worker ↔ held = true
  announced : s.announced = n
  silent : s.said = none
  running : s.finished = false
  scores : tallied s.read = b
  isOver : Over s.read ↔ P
  sent : isAi = false → ∃ sent, s.taken = sent ++ pending ∧ Lines sent s.written

/-- The worker has said how it ended, or has nobody to tell. -/
structure Leaves (isAi : Bool) (s : Memory) : Prop where
  coherent : Coherent isAi s
  free : isAi = false → s.holder ≠ some .worker
  running : s.finished = false

variable {isAi held : Bool} {b : Bool × Bool} {P : Prop} {n : ℕ} {pending : List Text}
  {s s' : Memory}

lemma At.rely (h : At isAi b P held n pending s) (hs : MainKeeps isAi s s') :
    At isAi b P held n pending s' :=
  ⟨hs.coherent h.coherent, hs.holder.trans h.holder, hs.announced.trans h.announced,
    hs.said.trans h.silent, hs.finished.trans h.running, by rw [hs.read]; exact h.scores,
    by rw [hs.read]; exact h.isOver, by rw [hs.taken, hs.written]; exact h.sent⟩

lemma At.cast {b' : Bool × Bool} {P' : Prop} (h : At isAi b P held n pending s) (hb : b = b')
    (hP : P ↔ P') : At isAi b' P' held n pending s :=
  ⟨h.coherent, h.holder, h.announced, h.silent, h.running, h.scores.trans hb, h.isOver.trans hP, h.sent⟩

lemma Leaves.rely (h : Leaves isAi s) (hs : MainKeeps isAi s s') : Leaves isAi s' :=
  ⟨hs.coherent h.coherent, fun hai hw => h.free hai (hs.holder.mp hw), hs.finished.trans h.running⟩

lemma At.opened (h : At isAi b P held n pending s) : s.closed = [] ∨ s.failed = true := by
  by_cases hc : s.closed = []
  · exact .inl hc
  · have := h.coherent.opened hc
    rw [h.running] at this
    exact .inr (this.resolve_left (by simp))

/-! ### The calls -/

/-- The pact of the worker, for the calls of `handle_client`. -/
abbrev handlePact (isAi : Bool) : Pact Call Call.Answer Memory :=
  (workerPact isAi).pull .of fun _ => .refl _

section Calls

variable {ρ : Type} {E : ρ → Memory → Prop}

lemma safe_call {c : Call} {R : Memory → Prop} {Q : c.Answer → Memory → Prop}
    (hR : ∀ s s', R s → MainKeeps isAi s s' → R s')
    (hQ : ∀ a s s', Q a s → MainKeeps isAi s s' → Q a s')
    (hok : ∀ s, R s → workerOk s (.of c))
    (hact : ∀ s a s', R s → workerAct s (.of c) a = some s' → WorkerKeeps isAi s s' ∧ Q a s') (h : R s) :
    safe (handlePact isAi) (Mutexes.ask c : Proc ρ _) E Q s := by
  refine safe_ask fun s' hs => ?_
  have hs' := hR s s' h hs
  refine ⟨hok s' hs', ?_⟩
  intro a s'' ha
  obtain ⟨hkeeps, hq⟩ := hact s' a s'' hs' ha
  exact ⟨hkeeps, fun t ht => hQ a s'' t hq ht⟩

lemma safe_still {c : Call} {R : Memory → Prop} (hR : ∀ s s', R s → MainKeeps isAi s s' → R s')
    (hok : ∀ s, R s → workerOk s (.of c)) (hact : ∀ s a, workerAct s (.of c) a = some s) (h : R s) :
    safe (handlePact isAi) (Mutexes.ask c : Proc ρ _) E (fun _ => R) s := by
  refine safe_call hR (fun _ => hR) hok (fun s a s' hs ha => ?_) h
  obtain rfl : s = s' := Option.some.inj ((hact s a).symm.trans ha)
  exact ⟨.refl s, hs⟩

lemma safe_cout {text : Text} (h : At isAi b P held n pending s) :
    safe (handlePact isAi) (cout text : Proc ρ _) E (fun _ => At isAi b P held n pending) s :=
  safe_still (fun _ _ => At.rely) (fun _ hs => hs.silent) (fun _ _ => rfl) h

lemma safe_cerr {errorMessage : String} (h : Leaves isAi s) :
    safe (handlePact isAi) (cerr errorMessage : Proc ρ _) E (fun _ => Leaves isAi) s :=
  safe_still (fun _ _ => Leaves.rely) (fun _ _ => trivial) (fun _ _ => rfl) h

lemma safe_close {fd : ℤ} (h : Leaves isAi s) :
    safe (handlePact isAi) (close fd : Proc ρ _) E (fun _ => Leaves isAi) s :=
  safe_still (fun _ _ => Leaves.rely) (fun _ _ => trivial) (fun _ _ => rfl) h

lemma safe_lock (h : At isAi b P false n pending s) :
    safe (handlePact isAi) (lock .access : Proc ρ _) E (fun _ => At isAi b P true n pending) s := by
  refine safe_call (fun _ _ => At.rely) (fun _ _ _ => At.rely) (fun s hs => ?_) ?_ h
  · exact ⟨fun hw => by simpa using hs.holder.mp hw, hs.silent⟩
  · intro s a s' hs ha
    obtain ⟨hnone, rfl⟩ := Option.ite_none_right_eq_some.mp ha |>.imp_right Option.some.inj
    have hc := hs.coherent
    have hcoherent : Coherent isAi { s with holder := some .worker } :=
      ⟨hc.bytes, hc.queued, hc.cards, hc.told, hc.farewell,
        fun hf => absurd (hf.symm.trans hs.running) (by simp), hc.opened, hc.lines⟩
    refine ⟨⟨fun _ => hcoherent, by simp [hnone], rfl, rfl, rfl, rfl, id, fun _ => id⟩, ?_⟩
    exact ⟨hcoherent, by simp, hs.announced, hs.silent, hs.running, hs.scores, hs.isOver, hs.sent⟩

lemma safe_unlock (h : At isAi b P true n pending s) :
    safe (handlePact isAi) (unlock .access : Proc ρ _) E (fun _ => At isAi b P false n pending) s := by
  refine safe_call (fun _ _ => At.rely) (fun _ _ _ => At.rely) (fun s hs => ?_) ?_ h
  · exact ⟨hs.holder.mpr rfl, hs.silent⟩
  · rintro s a s' hs ⟨⟩
    have hc := hs.coherent
    have hholder : s.holder = some .worker := hs.holder.mpr rfl
    have hcoherent : Coherent isAi { s with holder := none } :=
      ⟨hc.bytes, hc.queued, hc.cards, hc.told, hc.farewell, fun _ _ => by simp, hc.opened, hc.lines⟩
    refine ⟨⟨fun _ => hcoherent, by simp [hholder], rfl, rfl, rfl, rfl, id, fun _ => id⟩, ?_⟩
    exact ⟨hcoherent, by simp, hs.announced, hs.silent, hs.running, hs.scores, hs.isOver, hs.sent⟩

lemma safe_poll (h : At isAi b P held n pending s) :
    safe (handlePact isAi) (Mutexes.ask .poll : Proc ρ _) E (fun _ => At isAi b P held n pending) s := by
  refine safe_call (fun _ _ => At.rely) (fun _ _ _ => At.rely) (fun s hs => ⟨hs.silent, hs.opened⟩) ?_ h
  intro s a s' hs ha
  obtain ⟨-, rfl⟩ := Option.ite_none_left_eq_some.mp ha |>.imp_right Option.some.inj
  exact ⟨.refl s, hs⟩

lemma safe_readPipe (h : At isAi b P held 0 pending s) :
    safe (handlePact isAi) (Mutexes.ask .readPipe : Proc ρ _) E
      (fun a s => (a.1 ≤ 0 ∧ At isAi b P held 0 pending s) ∨
        a.1 = 1 ∧ a.2 = cardPlay ∧ At isAi b P held 1 pending s) s := by
  refine safe_call (fun _ _ => At.rely) ?_ (fun s hs => ⟨hs.silent, hs.opened⟩) ?_ h
  · rintro a s s' (⟨hle, hs⟩ | ⟨hone, hcard, hs⟩) hkeeps
    · exact .inl ⟨hle, hs.rely hkeeps⟩
    · exact .inr ⟨hone, hcard, hs.rely hkeeps⟩
  · rintro s ⟨result, message⟩ s' hs ha
    simp only [workerAct] at ha
    by_cases hle : result ≤ 0
    · rw [if_pos hle] at ha
      cases ha
      exact ⟨.refl s, .inl ⟨hle, hs⟩⟩
    · rw [if_neg hle] at ha
      obtain ⟨⟨hone, hhead⟩, ha⟩ := Option.ite_none_right_eq_some.mp ha
      obtain ⟨rest, hpipe⟩ := List.head?_eq_some_iff.mp hhead
      have hc := hs.coherent
      have hcard : message = cardPlay := hc.bytes message (by simp [hpipe])
      have hlength := hc.queued
      rw [if_pos hcard, hpipe, List.tail_cons] at ha
      rw [hpipe, List.length_cons, hs.announced] at hlength
      cases ha
      have hcoherent : Coherent isAi { s with toWorker := rest, announced := s.announced + 1 } := by
        refine ⟨fun m hm => hc.bytes m (by simp [hpipe, hm]), ?_, hc.cards, hc.told, hc.farewell,
          hc.freed, hc.opened, hc.lines⟩
        rw [hs.announced]
        dsimp only
        omega
      refine ⟨⟨fun _ => hcoherent, Iff.rfl, rfl, rfl, rfl, ?_, id, fun _ => id⟩, .inr ⟨hone, hcard, ?_⟩⟩
      · rw [hpipe, List.length_cons]
        dsimp only
        omega
      · exact ⟨hcoherent, hs.holder, by simp [hs.announced], hs.silent, hs.running, hs.scores, hs.isOver,
          hs.sent⟩

/-- **There is a card to take off.** -/
lemma safe_front (h : At isAi b P true 1 [] s) :
    safe (handlePact isAi) (Mutexes.ask .front : Proc ρ _) E
      (fun card => At isAi b P true 0 [card]) s := by
  have hqueue : ∀ s, At isAi b P true 1 [] s → s.messagesToSend ≠ [] := by
    intro s hs he
    have hlength := hs.coherent.queued
    rw [he, hs.announced, List.length_nil] at hlength
    omega
  refine safe_call (fun _ _ => At.rely) (fun _ _ _ => At.rely)
    (fun s hs => ⟨hs.holder.mpr rfl, hqueue s hs, hs.silent⟩) ?_ h
  intro s card s' hs ha
  have hc := hs.coherent
  obtain ⟨card', q, hq⟩ := List.exists_cons_of_ne_nil (hqueue s hs)
  have ha : s.pop card = some s' := ha
  rw [Memory.pop, hq, List.tail_cons] at ha
  obtain ⟨hcard, rfl⟩ := Option.ite_none_right_eq_some.mp ha |>.imp_right Option.some.inj
  obtain rfl : card' = card := by simpa using hcard
  have hlength := hc.queued
  rw [hs.announced, hq, List.length_cons] at hlength
  have hsent : isAi = false → ∃ sent, s.taken ++ [card'] = sent ++ [card'] ∧ Lines sent s.written := by
    intro hai
    obtain ⟨sent, htaken, hlines⟩ := hs.sent hai
    exact ⟨sent, by rw [htaken, List.append_nil], hlines⟩
  have hcoherent : Coherent isAi { s with
      messagesToSend := q, taken := s.taken ++ [card'], announced := s.announced - 1 } := by
    refine ⟨hc.bytes, ?_, ?_, hc.told, hc.farewell, hc.freed, hc.opened, fun hai => ?_⟩
    · dsimp only
      rw [hs.announced]
      omega
    · simp [hc.cards, hq]
    · obtain ⟨sent, htaken, hlines⟩ := hsent hai
      exact ⟨sent, [card'], htaken, le_rfl, hlines⟩
  refine ⟨⟨fun _ => hcoherent, Iff.rfl, rfl, rfl, rfl, ?_, id, fun _ => id⟩, ?_⟩
  · dsimp only
    rw [hq, hs.announced, List.length_cons]
    omega
  · exact ⟨hcoherent, hs.holder, by simp [hs.announced], hs.silent, hs.running, hs.scores, hs.isOver, hsent⟩

lemma safe_writeCard {card : Text} {m : ℕ} (h : At isAi b P held 0 [card] s) :
    safe (handlePact isAi) (Mutexes.ask (.writeSocket (trickLine m [card])) : Proc ρ _) E
      (fun _ => At isAi b P held 0 []) s := by
  refine safe_call (fun _ _ => At.rely) (fun _ _ _ => At.rely) (fun s hs => hs.silent) ?_ h
  rintro s a s' hs ⟨⟩
  have hc := hs.coherent
  have hsent : isAi = false → ∃ sent, s.taken = sent ++ [] ∧
      Lines sent (s.written ++ [trickLine m [card]]) := by
    intro hai
    obtain ⟨sent, htaken, hlines⟩ := hs.sent hai
    exact ⟨sent ++ [card], by rw [htaken, List.append_nil],
      List.rel_append hlines (.cons ⟨m, rfl⟩ .nil)⟩
  have hcoherent : Coherent isAi { s with written := s.written ++ [trickLine m [card]] } := by
    refine ⟨hc.bytes, hc.queued, hc.cards, hc.told, hc.farewell, hc.freed, hc.opened, fun hai => ?_⟩
    obtain ⟨sent, htaken, hlines⟩ := hsent hai
    exact ⟨sent, [], htaken, Nat.zero_le _, hlines⟩
  exact ⟨⟨fun _ => hcoherent, Iff.rfl, rfl, rfl, rfl, rfl, id, fun _ => id⟩, hcoherent, hs.holder,
    hs.announced, hs.silent, hs.running, hs.scores, hs.isOver, hsent⟩

lemma safe_writeAi {l : Text} (hai : isAi = true) (h : At isAi b P held n pending s) :
    safe (handlePact isAi) (Mutexes.ask (.writeSocket l) : Proc ρ _) E
      (fun _ => At isAi b P held n pending) s := by
  refine safe_call (fun _ _ => At.rely) (fun _ _ _ => At.rely) (fun s hs => hs.silent) ?_ h
  rintro s a s' hs ⟨⟩
  have hc := hs.coherent
  have hcoherent : Coherent isAi { s with written := s.written ++ [l] } :=
    ⟨hc.bytes, hc.queued, hc.cards, hc.told, hc.farewell, hc.freed, hc.opened,
      fun hno => absurd (hai.symm.trans hno) (by simp)⟩
  exact ⟨⟨fun _ => hcoherent, Iff.rfl, rfl, rfl, rfl, rfl, id, fun _ => id⟩, hcoherent, hs.holder,
    hs.announced, hs.silent, hs.running, hs.scores, hs.isOver,
    fun hno => absurd (hai.symm.trans hno) (by simp)⟩

/-- What is known once a line is read: how the game would end now. -/
lemma safe_readSocket (h : At isAi b P held n pending s) :
    safe (handlePact isAi) (Mutexes.ask .readSocket : Proc ρ _) E
      (fun a => At isAi (tally b a.2) (0 < a.1 ∧ BUSYCheck a.2 = true ∨ a.1 = 0 ∧ b = (true, true))
        held n pending) s := by
  refine safe_call (fun _ _ => At.rely) (fun _ _ _ => At.rely) (fun s hs => hs.silent) ?_ h
  rintro s a s' hs ⟨⟩
  have hc := hs.coherent
  have hcoherent : Coherent isAi { s with read := s.read ++ [a] } :=
    ⟨hc.bytes, hc.queued, hc.cards, hc.told,
      fun m hm => absurd (hs.silent.symm.trans hm) (by simp), hc.freed, hc.opened, hc.lines⟩
  refine ⟨⟨fun _ => hcoherent, Iff.rfl, rfl, rfl, rfl, rfl, id, fun _ => id⟩,
    ⟨hcoherent, hs.holder, hs.announced, hs.silent, hs.running, ?_, ?_, hs.sent⟩⟩
  · rw [tallied_snoc, hs.scores]
  · rw [over_snoc, hs.scores]

lemma safe_farewell {m : Text} (hm : m ∈ farewells) (hover : m = normalEnd ↔ P)
    (hheld : held = true → isAi = true) (h : At isAi b P held n pending s) :
    safe (handlePact isAi) (Mutexes.ask (.writePipe m) : Proc ρ _) E (fun _ => Leaves isAi) s := by
  refine safe_call (fun _ _ => At.rely) (fun _ _ _ => Leaves.rely)
    (fun s hs => ⟨hs.silent, hs.opened⟩) ?_ h
  intro s a s' hs hact
  have hc := hs.coherent
  have hsay : ∀ m', some m = some m' → m' ∈ farewells ∧ (m' = normalEnd ↔ Over s.read) := by
    rintro _ ⟨⟩
    exact ⟨hm, hover.trans hs.isOver.symm⟩
  have hnobody : ∀ m', s.said ≠ some m' := by simp [hs.silent]
  have hempty : s.toMain = [] :=
    List.eq_nil_iff_forall_not_mem.mpr fun x hx => hnobody x (hc.told x hx)
  have hfree : isAi = false → s.holder ≠ some .worker := fun hai hw =>
    absurd (hheld (hs.holder.mp hw)) (by simp [hai])
  simp only [workerAct] at hact
  split_ifs at hact <;> cases hact
  rotate_left
  · have hcoherent : Coherent isAi { s with toMain := s.toMain ++ [m], said := some m } :=
      ⟨hc.bytes, hc.queued, hc.cards, by simp [hempty], hsay, hc.freed, hc.opened, hc.lines⟩
    exact ⟨⟨fun _ => hcoherent, Iff.rfl, rfl, rfl, rfl, rfl, id, fun m' hm' => absurd hm' (hnobody m')⟩,
      hcoherent, hfree, hs.running⟩
  · have hcoherent : Coherent isAi { s with said := some m } :=
      ⟨hc.bytes, hc.queued, hc.cards, by simp [hempty], hsay, hc.freed, hc.opened, hc.lines⟩
    exact ⟨⟨fun _ => hcoherent, Iff.rfl, rfl, rfl, rfl, rfl, id, fun m' hm' => absurd hm' (hnobody m')⟩,
      hcoherent, hfree, hs.running⟩

end Calls

/-! ### The parts of a turn -/

section Parts

variable {ρ : Type} {E : ρ → Memory → Prop} {k : Klient} {socketFd : ℤ} {errorMessage : String}
  {message : Text}

lemma safe_closeWorker {m : Text} (hm : m ∈ farewells) (hover : m = normalEnd ↔ P)
    (hheld : held = true → isAi = true) (h : At isAi b P held n pending s) :
    safe (handlePact isAi) (closeWorker socketFd errorMessage m : Proc ρ _) E (fun _ => Leaves isAi) s := by
  refine safe_seq (safe_farewell hm hover hheld h) fun a s hs => ?_
  split_ifs
  · exact safe_seq (safe_cerr hs) fun _ _ hs => safe_seq (safe_cerr hs) fun _ _ hs => safe_close hs
  · exact safe_seq (safe_cerr hs) fun _ _ hs => safe_close hs
  · exact safe_seq (safe_cerr hs) fun _ _ hs => safe_close hs
  · exact safe_close hs

lemma safe_leave {α : Type} {Q : α → Memory → Prop} {m : Text} (hm : m ∈ farewells)
    (hover : m = normalEnd ↔ P) (hheld : held = true → isAi = true)
    (h : At isAi b P held n pending s) :
    safe (handlePact isAi) (leave socketFd errorMessage m : Proc Unit α) (fun _ => Leaves isAi) Q s :=
  safe_seq (safe_closeWorker hm hover hheld h) fun _ _ hs _ => hs.rely

lemma safe_printLogs {msg : Text} (h : At isAi b P false n pending s) :
    safe (handlePact isAi) (printLogs k msg : Proc ρ _) E (fun _ => At isAi b P false n pending) s := by
  unfold printLogs printLog
  split_ifs
  · refine safe_seq (safe_lock h) fun _ s hs => safe_seq (safe_cout hs) fun _ s hs => ?_
    exact safe_seq (safe_cout hs) fun _ _ hs => safe_unlock hs
  · refine safe_seq (safe_lock h) fun _ s hs => safe_seq (safe_cout hs) fun _ s hs => ?_
    exact safe_unlock hs
  · exact fun _ => h.rely

lemma farewell_disconnected : disconnected ∈ farewells ∧ ¬disconnected = normalEnd := by decide

lemma farewell_serverDisconnect : serverDisconnect ∈ farewells ∧ ¬serverDisconnect = normalEnd := by
  decide

lemma safe_assertClientReadPipe {result : ℤ} (h : At isAi b False false n pending s) :
    safe (handlePact isAi) (assertClientReadPipe socketFd result : Proc ρ _) E
      (fun x s => x = -1 ∧ result ≤ 0 ∧ Leaves isAi s ∨
        x = 0 ∧ 0 < result ∧ At isAi b False false n pending s) s := by
  have hfail : ∀ message : String, result ≤ 0 → safe (handlePact isAi)
      (do closeWorker socketFd message disconnected
          return -1 : Proc ρ ℤ) E
      (fun x s => x = -1 ∧ result ≤ 0 ∧ Leaves isAi s ∨
        x = 0 ∧ 0 < result ∧ At isAi b False false n pending s) s := by
    intro message hle
    refine safe_seq (safe_closeWorker farewell_disconnected.1
      (iff_of_false farewell_disconnected.2 id) (by simp) h) fun _ s hs => ?_
    exact fun s' hkeeps => .inl ⟨rfl, hle, hs.rely hkeeps⟩
  unfold assertClientReadPipe
  split_ifs with hneg hzero
  · exact hfail _ hneg.le
  · exact hfail _ hzero.le
  · exact fun s' hkeeps => .inr ⟨rfl, by omega, h.rely hkeeps⟩

lemma safe_assertClientWriteSocket {result expected : ℤ} (h : At isAi b False false n pending s) :
    safe (handlePact isAi) (assertClientWriteSocket socketFd result expected : Proc ρ _) E
      (fun x s => x = -1 ∧ Leaves isAi s ∨ x = 0 ∧ At isAi b False false n pending s) s := by
  unfold assertClientWriteSocket
  split_ifs
  · refine safe_seq (safe_closeWorker farewell_disconnected.1
      (iff_of_false farewell_disconnected.2 id) (by simp) h) fun _ s hs => ?_
    exact fun s' hkeeps => .inl ⟨rfl, hs.rely hkeeps⟩
  · exact fun s' hkeeps => .inr ⟨rfl, h.rely hkeeps⟩

lemma safe_assertClientReadSocket {result : ℤ} (hb : b = (k.gotScore, k.gotTotal)) {b' : Bool × Bool}
    (h : At isAi b' (0 < result ∧ BUSYCheck message = true ∨ result = 0 ∧ b = (true, true))
      false n pending s) :
    safe (handlePact isAi) (assertClientReadSocket socketFd k result : Proc ρ _) E
      (fun x s => x = -1 ∧ result ≤ 0 ∧ Leaves isAi s ∨
        x = 0 ∧ 0 < result ∧ At isAi b' (BUSYCheck message = true) false n pending s) s := by
  unfold assertClientReadSocket
  split_ifs with hneg hzero hscores
  · have hnot : ¬(0 < result ∧ BUSYCheck message = true ∨ result = 0 ∧ b = (true, true)) := by
      rintro (⟨hpos, -⟩ | ⟨hzero, -⟩) <;> omega
    refine safe_seq (safe_closeWorker farewell_disconnected.1
      (iff_of_false farewell_disconnected.2 hnot) (by simp) h) fun _ s hs => ?_
    exact fun s' hkeeps => .inl ⟨rfl, hneg.le, hs.rely hkeeps⟩
  · have hover : 0 < result ∧ BUSYCheck message = true ∨ result = 0 ∧ b = (true, true) :=
      .inr ⟨hzero, by rw [hb, hscores.1, hscores.2]⟩
    refine safe_seq (safe_lock h) fun _ s hs => safe_seq (safe_unlock hs) fun _ s hs => ?_
    refine safe_seq (safe_closeWorker (by decide) (iff_of_true rfl hover) (by simp) hs) fun _ s hs => ?_
    exact fun s' hkeeps => .inl ⟨rfl, hzero.le, hs.rely hkeeps⟩
  · have hnot : ¬(0 < result ∧ BUSYCheck message = true ∨ result = 0 ∧ b = (true, true)) := by
      rintro (⟨hpos, -⟩ | ⟨-, htrue⟩)
      · omega
      · rw [hb] at htrue
        exact hscores ⟨congrArg Prod.fst htrue, congrArg Prod.snd htrue⟩
    refine safe_seq (safe_lock h) fun _ s hs => safe_seq (safe_unlock hs) fun _ s hs => ?_
    refine safe_seq (safe_closeWorker farewell_serverDisconnect.1
      (iff_of_false farewell_serverDisconnect.2 hnot) (by simp) hs) fun _ s hs => ?_
    exact fun s' hkeeps => .inl ⟨rfl, hzero.le, hs.rely hkeeps⟩
  · have hpos : 0 < result := by omega
    refine fun s' hkeeps => .inr ⟨rfl, hpos, (h.rely hkeeps).cast rfl ?_⟩
    simp [hpos, hpos.ne']

/-! ### A turn -/

/-- Between two turns: what the client remembers is the tally. -/
def Idle (isAi : Bool) (k : Klient) (s : Memory) : Prop :=
  k.isAi = isAi ∧ At isAi (k.gotScore, k.gotTotal) False false 0 [] s

lemma Idle.rely (h : Idle isAi k s) (hs : MainKeeps isAi s s') : Idle isAi k s' := ⟨h.1, h.2.rely hs⟩

lemma typed_scores (k : Klient) (card : Text) : (typed k card).isAi = k.isAi ∧
    (typed k card).gotScore = k.gotScore ∧ (typed k card).gotTotal = k.gotTotal := by
  unfold typed
  split_ifs <;> exact ⟨rfl, rfl, rfl⟩

/-- **A byte of the main thread**: its card is taken off the queue and sent. -/
lemma safe_pipePart {polled : Polled} (h : Idle isAi k s) :
    safe (handlePact isAi) (Mutexes.pipePart socketFd k polled) (fun _ => Leaves isAi) (Idle isAi) s := by
  obtain ⟨hai, h⟩ := h
  unfold Mutexes.pipePart
  split_ifs with hin herr
  · refine safe_seq (safe_readPipe h) ?_
    rintro ⟨pipeResult, message⟩ s (⟨hle, hs⟩ | ⟨hone, hcard, hs⟩)
    · refine safe_seq (safe_assertClientReadPipe hs) ?_
      rintro x s (⟨rfl, -, hs⟩ | ⟨-, hpos, -⟩)
      · exact fun s' hkeeps => hs.rely hkeeps
      · exact absurd hpos (not_lt.mpr hle)
    · refine safe_seq (safe_assertClientReadPipe hs) ?_
      dsimp only at hone hcard
      rintro x s (⟨-, hle, -⟩ | ⟨rfl, -, hs⟩)
      · omega
      · have hnot : ¬message = disconnected := by
          rw [hcard]
          decide
        rw [if_neg (by omega), if_neg hnot, if_pos hcard]
        refine safe_seq (safe_lock hs) fun _ s hs => safe_seq (safe_front hs) fun card s hs => ?_
        refine safe_seq (safe_unlock hs) fun _ s hs => safe_seq (safe_writeCard hs) fun sent s hs => ?_
        refine safe_seq (safe_printLogs hs) fun _ s hs => ?_
        refine safe_seq (safe_assertClientWriteSocket hs) ?_
        obtain ⟨hai', hscore, htotal⟩ := typed_scores k card
        rintro x s (⟨rfl, hs⟩ | ⟨rfl, hs⟩)
        · exact fun s' hkeeps => hs.rely hkeeps
        · refine fun s' hkeeps => ⟨hai'.trans hai, ?_⟩
          rw [hscore, htotal]
          exact hs.rely hkeeps
  · exact safe_leave farewell_disconnected.1 (iff_of_false farewell_disconnected.2 id) (by simp) h
  · exact fun s' hkeeps => ⟨hai, h.rely hkeeps⟩

lemma safe_shown {k' : Klient} {text : Text} (hai : k'.isAi = isAi)
    (h : At isAi (k'.gotScore, k'.gotTotal) False true 0 [] s) :
    safe (handlePact isAi) (shown k' text) (fun _ => Leaves isAi) (Idle isAi) s := by
  unfold shown
  split_ifs
  · refine safe_seq (safe_cout h) fun _ s hs => safe_seq (safe_unlock hs) fun _ s hs => ?_
    exact fun s' hkeeps => ⟨hai, hs.rely hkeeps⟩
  · refine safe_seq (safe_unlock h) fun _ s hs => ?_
    exact fun s' hkeeps => ⟨hai, hs.rely hkeeps⟩

lemma safe_answerPart (hai : k.isAi = true)
    (h : At true ((k.answer message).1.gotScore, (k.answer message).1.gotTotal) False true 0 [] s) :
    safe (handlePact true) (answerPart socketFd k message) (fun _ => Leaves true) (Idle true) s := by
  have hanswer : (k.answer message).1 =
      ({ k with expectedColor := k.trickColor message }.strategy (k.trickColor message)).2 := by
    simp [Klient.answer, hai]
  have hai' := (k.answer_keeps message).isAi.trans hai
  rw [hanswer] at h hai'
  refine safe_seq (safe_writeAi rfl h) fun result s hs => safe_seq (safe_unlock hs) fun _ s hs => ?_
  refine safe_seq (safe_printLogs hs) fun _ s hs => safe_seq (safe_assertClientWriteSocket hs) ?_
  rintro x s (⟨rfl, hs⟩ | ⟨rfl, hs⟩)
  · exact fun s' hkeeps => hs.rely hkeeps
  · rw [if_neg (by omega)]
    exact fun s' hkeeps => ⟨hai', hs.rely hkeeps⟩

/-- **A line of the server**, the mutex being held. -/
lemma safe_linePart (hai : k.isAi = isAi)
    (h : At isAi (tally (k.gotScore, k.gotTotal) message) (BUSYCheck message = true) true 0 [] s) :
    safe (handlePact isAi) (linePart socketFd k message) (fun _ => Leaves isAi) (Idle isAi) s := by
  -- what becomes of the client is what the tally says
  have hgoes : ∀ k' out, BUSYCheck message = false → k.receive message = some (k', out) →
      k'.isAi = isAi ∧ At isAi (k'.gotScore, k'.gotTotal) False true 0 [] s := by
    intro k' out hbusy hrec
    refine ⟨(Klient.isAi_receive hrec).trans hai, h.cast (tally_receive hrec).symm ?_⟩
    simp [hbusy]
  have hshown : ∀ k' text, BUSYCheck message = false → k.receive message = some (k', []) →
      safe (handlePact isAi) (shown k' text) (fun _ => Leaves isAi) (Idle isAi) s := by
    intro k' text hbusy hrec
    obtain ⟨hai', hs⟩ := hgoes k' [] hbusy hrec
    exact safe_shown hai' hs
  unfold linePart
  split_ifs with hb huser hdeal hwrong htaken hscore htotal htrick huser
  · refine safe_seq (safe_cout h) fun _ _ hs => safe_seq (safe_unlock hs) fun _ s hs => ?_
    exact safe_leave (by decide) (iff_of_true rfl hb) (by simp) hs
  · have hai' : k.isAi = true := by simpa using huser
    exact safe_leave (by decide) (iff_of_true rfl hb) (fun _ => hai.symm.trans hai') h
  all_goals simp only [Bool.not_eq_true] at *
  · exact hshown _ _ hb (by simp [Klient.receive, hb, hdeal])
  · exact hshown _ _ hb (by simp [Klient.receive, hb, hdeal, hwrong])
  · exact hshown _ _ hb (by simp [Klient.receive, hb, hdeal, hwrong, htaken])
  · exact hshown _ _ hb (by simp [Klient.receive, hb, hdeal, hwrong, htaken, hscore])
  · exact hshown _ _ hb (by simp [Klient.receive, hb, hdeal, hwrong, htaken, hscore, htotal])
  · rw [Bool.not_eq_true'] at huser
    refine hshown _ _ hb ?_
    simp [Klient.receive, Klient.answer, hb, hdeal, hwrong, htaken, hscore, htotal, htrick, huser]
  · have hai' : k.isAi = true := by simpa using huser
    obtain rfl : isAi = true := hai.symm.trans hai'
    have hrec : k.receive message = some (k.answer message) := by
      simp [Klient.receive, hb, hdeal, hwrong, htaken, hscore, htotal, htrick]
    exact safe_answerPart hai' (hgoes _ _ hb hrec).2
  · have hrec : k.receive message = some (k, []) := by
      simp [Klient.receive, hb, hdeal, hwrong, htaken, hscore, htotal, htrick]
    refine safe_seq (safe_unlock (hgoes k [] hb hrec).2) fun _ s hs => ?_
    exact fun s' hkeeps => ⟨hai, hs.rely hkeeps⟩

lemma safe_socketPart {polled : Polled} (h : Idle isAi k s) :
    safe (handlePact isAi) (socketPart socketFd k polled) (fun _ => Leaves isAi) (Idle isAi) s := by
  obtain ⟨hai, h⟩ := h
  unfold socketPart
  split_ifs
  · refine safe_seq (safe_readSocket h) ?_
    rintro ⟨result, message⟩ s hs
    refine safe_seq (safe_printLogs hs) fun _ s hs => ?_
    refine safe_seq (safe_assertClientReadSocket rfl hs) ?_
    rintro x s (⟨rfl, -, hs⟩ | ⟨rfl, -, hs⟩)
    · exact fun s' hkeeps => hs.rely hkeeps
    · rw [if_neg (by omega)]
      exact safe_seq (safe_lock hs) fun _ s hs => safe_linePart hai hs
  · exact safe_leave farewell_disconnected.1 (iff_of_false farewell_disconnected.2 id) (by simp) h
  · exact fun s' hkeeps => ⟨hai, h.rely hkeeps⟩

/-- **A turn of the loop of `handle_client`.** -/
theorem safe_turn (h : Idle isAi k s) :
    safe (handlePact isAi) (turn socketFd k) (fun _ => Leaves isAi) (Idle isAi) s := by
  refine safe_seq (safe_poll h.2) fun polled s hs => ?_
  split_ifs
  · exact safe_leave farewell_disconnected.1 (iff_of_false farewell_disconnected.2 id) (by simp) hs
  · exact safe_seq (safe_pipePart ⟨h.1, hs⟩) fun k' s hs => safe_socketPart hs

/-- **The worker keeps its side of the pact**, and is marked as finished when its thread ends. -/
theorem safe_worker (fuel : ℕ) (h : Idle isAi k s) :
    safe (workerPact isAi) (worker socketFd fuel k) (fun _ _ => False)
      (fun _ s => Coherent isAi s ∧ s.finished = true) s := by
  have hspins : ∀ (k : Klient) s, Idle isAi k s → (handlePact isAi).spins s :=
    fun _ _ hs hw => absurd (hs.2.holder.mp hw) (by decide)
  have hloop : safe (handlePact isAi) (handleClient socketFd fuel k) (fun _ => Leaves isAi)
      (fun k' s => Idle isAi k' s ∧ true = false) s :=
    safe_loop (I := Idle isAi) (fun _ _ _ => Idle.rely) hspins (fun _ _ hs _ => safe_turn hs) h
  have hbody : safe (handlePact isAi) (handleClient socketFd fuel k >>= fun _ => pure ())
      (fun _ => Leaves isAi) (fun _ => Leaves isAi) s :=
    safe_seq hloop fun _ s hs => absurd hs.2 (by decide)
  unfold worker
  refine safe_seq (safe_returned (safe_embed hbody)) fun _ s hs => ?_
  refine safe_ask fun s' hkeeps => ⟨trivial, ?_⟩
  have hs' := hs.rely hkeeps
  have hc := hs'.coherent
  rintro a s'' ⟨⟩
  have hcoherent : Coherent isAi { s' with finished := true } :=
    ⟨hc.bytes, hc.queued, hc.cards, hc.told, hc.farewell, fun _ => hs'.free, fun _ => .inl rfl, hc.lines⟩
  refine ⟨⟨fun _ => hcoherent, Iff.rfl, rfl, rfl, rfl, rfl, fun _ => rfl, fun _ => id⟩, ?_⟩
  exact fun t ht => ⟨ht.coherent hcoherent, ht.finished⟩

end Parts

end Kierki.Process
