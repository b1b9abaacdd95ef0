import Kierki.Process.Pacts

/-!
# The main thread keeps its side

`run_client` under the pact of the main thread. It tells the worker of a card once the card is on the
queue, hears of nothing but the end of the worker, and closes the pipes at its own end alone.
-/

namespace Kierki.Process

open Lib.Calls Lib.Threads Mutexes

/-- **What the main thread knows** between two calls: what would mean that a call failed, whether it
holds the mutex, and how many cards of the queue the worker has not been told of. -/
structure Attends (isAi : Bool) (F : Prop) (held : Bool) (untold : ℕ) (s : Memory) : Prop where
  coherent : Coherent isAi s
  holder : s.holder = some .main ↔ held = true
  opened : s.closed = []
  untold : s.toWorker.length + s.announced + untold ≤ s.messagesToSend.length
  failed : F → s.failed = true

/-- The main thread is about to end: the worker said `m`, or a call failed. -/
structure Quits (isAi : Bool) (m : Option Text) (s : Memory) : Prop where
  coherent : Coherent isAi s
  free : s.holder ≠ some .main
  told : ∀ m', m = some m' → s.said = some m'
  failed : m = none → s.failed = true

/-- The same, with the worker gone and these ends of the pipes closed. -/
structure Closes (isAi : Bool) (m : Option Text) (closed : List PipeEnd) (s : Memory) : Prop
    extends Quits isAi m s where
  closed_eq : s.closed = closed
  gone : s.finished = true ∨ s.failed = true

/-- The ends of the pipes in the order they are closed in, the last one first. -/
def allEnds : List PipeEnd := [.clientWritePipe1, .clientWritePipe0, .clientReadPipe1, .clientReadPipe0]

/-- **How `run_client` returns `r`.** -/
def Returns (isAi : Bool) (r : ℤ) (s : Memory) : Prop :=
  ∃ m, Closes isAi m allEnds s ∧ (r = 0 ↔ m = some normalEnd)

variable {isAi held : Bool} {F : Prop} {untold : ℕ} {m : Option Text} {closed : List PipeEnd} {s s' : Memory}

lemma Attends.rely (h : Attends isAi F held untold s) (hs : WorkerKeeps isAi s s') :
    Attends isAi F held untold s' := by
  refine ⟨hs.coherent h.coherent, hs.holder.trans h.holder, hs.closed.trans h.opened, ?_,
    fun hF => hs.failed.trans (h.failed hF)⟩
  have hold := h.untold
  have hnew := hs.ahead
  omega

lemma Quits.rely (h : Quits isAi m s) (hs : WorkerKeeps isAi s s') : Quits isAi m s' :=
  ⟨hs.coherent h.coherent, fun hw => h.free (hs.holder.mp hw), fun m' hm => hs.said m' (h.told m' hm),
    fun hm => hs.failed.trans (h.failed hm)⟩

lemma Closes.rely (h : Closes isAi m closed s) (hs : WorkerKeeps isAi s s') : Closes isAi m closed s' :=
  ⟨h.toQuits.rely hs, hs.closed.trans h.closed_eq, h.gone.imp hs.finished hs.failed.trans⟩

/-- The main thread, its pipes still open. -/
def Stops (isAi : Bool) (m : Option Text) (s : Memory) : Prop := Quits isAi m s ∧ s.closed = []

lemma Stops.rely (h : Stops isAi m s) (hs : WorkerKeeps isAi s s') : Stops isAi m s' :=
  ⟨h.1.rely hs, hs.closed.trans h.2⟩

lemma Returns.rely {r : ℤ} (h : Returns isAi r s) (hs : WorkerKeeps isAi s s') : Returns isAi r s' := by
  obtain ⟨m, hm, hr⟩ := h
  exact ⟨m, hm.rely hs, hr⟩

lemma Coherent.fail (h : Coherent isAi s) : Coherent isAi { s with failed := true } :=
  ⟨h.bytes, h.queued, h.cards, h.told, h.farewell, h.freed, fun _ => .inr rfl, h.lines⟩

lemma MainKeeps.fail (s : Memory) : MainKeeps isAi s { s with failed := true } :=
  ⟨Coherent.fail, Iff.rfl, rfl, rfl, rfl, rfl, rfl, rfl, List.prefix_rfl, fun _ => rfl⟩

lemma Attends.fail (h : Attends isAi F false untold s) : Stops isAi none { s with failed := true } :=
  ⟨⟨h.coherent.fail, fun hw => absurd (h.holder.mp hw) (by simp), fun m' hm => (nomatch hm),
    fun _ => rfl⟩, h.opened⟩

/-! ### The calls -/

section Calls

variable {ρ : Type} {E : ρ → Memory → Prop}

lemma safe_tell {c : MainCall} {R : Memory → Prop} {Q : c.Answer → Memory → Prop}
    (hR : ∀ s s', R s → WorkerKeeps isAi s s' → R s')
    (hQ : ∀ a s s', Q a s → WorkerKeeps isAi s s' → Q a s')
    (hok : ∀ s, R s → mainOk isAi s c)
    (hact : ∀ s a s', R s → mainAct s c a = some s' → MainKeeps isAi s s' ∧ Q a s') (h : R s) :
    safe (mainPact isAi) (tell c : MainProc ρ _) E Q s := by
  refine safe_ask fun s' hs => ?_
  have hs' := hR s s' h hs
  refine ⟨hok s' hs', fun a s'' ha => ?_⟩
  obtain ⟨hkeeps, hq⟩ := hact s' a s'' hs' ha
  exact ⟨hkeeps, fun t ht => hQ a s'' t hq ht⟩

lemma safe_quiet {c : MainCall} {R : Memory → Prop} (hR : ∀ s s', R s → WorkerKeeps isAi s s' → R s')
    (hok : ∀ s, R s → mainOk isAi s c) (hact : ∀ s a, mainAct s c a = some s) (h : R s) :
    safe (mainPact isAi) (tell c : MainProc ρ _) E (fun _ => R) s := by
  refine safe_tell hR (fun _ => hR) hok (fun s a s' hs ha => ?_) h
  obtain rfl : s = s' := Option.some.inj ((hact s a).symm.trans ha)
  exact ⟨.refl s, hs⟩

lemma safe_mainCerr {errorMessage : String} {R : Memory → Prop}
    (hR : ∀ s s', R s → WorkerKeeps isAi s s' → R s') (h : R s) :
    safe (mainPact isAi) (tell (.cerr errorMessage) : MainProc ρ _) E (fun _ => R) s :=
  safe_quiet hR (fun _ _ => trivial) (fun _ _ => rfl) h

lemma safe_mainLock (hai : isAi = false) (h : Attends isAi F false untold s) :
    safe (mainPact isAi) (tell .lock : MainProc ρ _) E (fun _ => Attends isAi F true untold) s := by
  refine safe_tell (fun _ _ => Attends.rely) (fun _ _ _ => Attends.rely) (fun s hs => ?_) ?_ h
  · exact ⟨fun hw => absurd (hs.holder.mp hw) (by simp), hai, hs.opened⟩
  · intro s a s' hs ha
    obtain ⟨hnone, rfl⟩ := Option.ite_none_right_eq_some.mp ha |>.imp_right Option.some.inj
    have hcoherent : Coherent isAi s → Coherent isAi { s with holder := some .main } := fun hc =>
      ⟨hc.bytes, hc.queued, hc.cards, hc.told, hc.farewell, fun _ _ => by simp, hc.opened, hc.lines⟩
    exact ⟨⟨hcoherent, by simp [hnone], rfl, rfl, rfl, rfl, rfl, rfl, List.prefix_rfl, id⟩,
      hcoherent hs.coherent, by simp, hs.opened, hs.untold, hs.failed⟩

lemma safe_mainUnlock (h : Attends isAi F true untold s) :
    safe (mainPact isAi) (tell .unlock : MainProc ρ _) E (fun _ => Attends isAi F false untold) s := by
  refine safe_tell (fun _ _ => Attends.rely) (fun _ _ _ => Attends.rely)
    (fun s hs => hs.holder.mpr rfl) ?_ h
  rintro s a s' hs ⟨⟩
  have hholder : s.holder = some .main := hs.holder.mpr rfl
  have hcoherent : Coherent isAi s → Coherent isAi { s with holder := none } := fun hc =>
    ⟨hc.bytes, hc.queued, hc.cards, hc.told, hc.farewell, fun _ _ => by simp, hc.opened, hc.lines⟩
  exact ⟨⟨hcoherent, by simp [hholder], rfl, rfl, rfl, rfl, rfl, rfl, List.prefix_rfl, id⟩,
    hcoherent hs.coherent, by simp, hs.opened, hs.untold, hs.failed⟩

lemma safe_push {card : Text} (h : Attends isAi F true 0 s) :
    safe (mainPact isAi) (tell (.push card) : MainProc ρ _) E (fun _ => Attends isAi F true 1) s := by
  refine safe_tell (fun _ _ => Attends.rely) (fun _ _ _ => Attends.rely)
    (fun s hs => hs.holder.mpr rfl) ?_ h
  rintro s a s' hs ⟨⟩
  have huntold := hs.untold
  have hcoherent : Coherent isAi s → Coherent isAi { s with
      messagesToSend := s.messagesToSend ++ [card], typed := s.typed ++ [card] } := by
    intro hc
    refine ⟨hc.bytes, ?_, by simp [hc.cards], hc.told, hc.farewell, hc.freed, hc.opened, hc.lines⟩
    rw [List.length_append]
    exact hc.queued.trans (Nat.le_add_right _ _)
  refine ⟨⟨hcoherent, Iff.rfl, rfl, rfl, rfl, rfl, rfl, rfl, List.prefix_append _ _, id⟩,
    hcoherent hs.coherent, hs.holder, hs.opened, ?_, hs.failed⟩
  rw [List.length_append, List.length_singleton]
  dsimp only
  omega

lemma safe_tellCard (h : Attends isAi F false 1 s) :
    safe (mainPact isAi) (tell (.writePipe cardPlay) : MainProc ρ _) E
      (fun result s => result = 1 ∧ Attends isAi F false 0 s ∨ result ≤ 0 ∧ Stops isAi none s) s := by
  refine safe_tell (fun _ _ => Attends.rely) ?_
    (fun s hs => ⟨hs.opened, fun hw => absurd (hs.holder.mp hw) (by simp)⟩) ?_ h
  · rintro a s s' (⟨hone, hs⟩ | ⟨hle, hs⟩) hkeeps
    · exact .inl ⟨hone, hs.rely hkeeps⟩
    · exact .inr ⟨hle, hs.rely hkeeps⟩
  · intro s a s' hs ha
    simp only [mainAct] at ha
    split_ifs at ha with hle hone <;> cases ha
    · exact ⟨.fail s, .inr ⟨hle, hs.fail⟩⟩
    · have hc := hs.coherent
      have huntold := hs.untold
      have hcoherent : Coherent isAi { s with toWorker := s.toWorker ++ [cardPlay] } := by
        refine ⟨fun x hx => ?_, ?_, hc.cards, hc.told, hc.farewell, hc.freed, hc.opened, hc.lines⟩
        · obtain hx | hx := List.mem_append.mp hx
          · exact hc.bytes x hx
          · exact List.mem_singleton.mp hx
        · rw [List.length_append, List.length_singleton]
          dsimp only
          omega
      refine ⟨⟨fun _ => hcoherent, Iff.rfl, rfl, rfl, rfl, rfl, rfl, rfl, List.prefix_rfl, id⟩,
        .inl ⟨hone, hcoherent, hs.holder, hs.opened, hcoherent.queued, hs.failed⟩⟩

lemma safe_mainPoll (h : Attends isAi F false 0 s) :
    safe (mainPact isAi) (tell .poll : MainProc ρ _) E (fun polled =>
      Attends isAi (polled.result ≤ 0 ∨ polled.stdinErr = true) false 0) s := by
  refine safe_tell (fun _ _ => Attends.rely) (fun _ _ _ => Attends.rely)
    (fun s hs => ⟨hs.opened, fun hw => absurd (hs.holder.mp hw) (by simp)⟩) ?_ h
  intro s polled s' hs ha
  obtain ⟨-, rfl⟩ := Option.ite_none_left_eq_some.mp ha |>.imp_right Option.some.inj
  have hcoherent : Coherent isAi s → Coherent isAi
      { s with failed := s.failed || polled.result ≤ 0 || polled.stdinErr } := fun hc =>
    ⟨hc.bytes, hc.queued, hc.cards, hc.told, hc.farewell, hc.freed,
      fun ho => (hc.opened ho).imp_right fun hf => by simp [hf], hc.lines⟩
  refine ⟨⟨hcoherent, Iff.rfl, rfl, rfl, rfl, rfl, rfl, rfl, List.prefix_rfl, fun hf => by simp [hf]⟩,
    hcoherent hs.coherent, hs.holder, hs.opened, hs.untold, ?_⟩
  rintro (hp | hp) <;> simp [hp]

/-- **What the main thread reads is what the worker said.** -/
lemma safe_mainRead (h : Attends isAi F false 0 s) :
    safe (mainPact isAi) (tell .readPipe : MainProc ρ _) E
      (fun a s => a.1 = 1 ∧ a.2 ∈ farewells ∧ Stops isAi (some a.2) s ∨ a.1 ≤ 0 ∧ Stops isAi none s) s := by
  refine safe_tell (fun _ _ => Attends.rely) ?_
    (fun s hs => ⟨hs.opened, fun hw => absurd (hs.holder.mp hw) (by simp)⟩) ?_ h
  · rintro a s s' (⟨hone, hm, hs⟩ | ⟨hle, hs⟩) hkeeps
    · exact .inl ⟨hone, hm, hs.rely hkeeps⟩
    · exact .inr ⟨hle, hs.rely hkeeps⟩
  · intro s ⟨result, message⟩ s' hs ha
    simp only [mainAct] at ha
    split_ifs at ha with hle hpipe <;> cases ha
    · exact ⟨.fail s, .inr ⟨hle, hs.fail⟩⟩
    · obtain ⟨hone, hhead⟩ := hpipe
      obtain ⟨rest, hpipe⟩ := List.head?_eq_some_iff.mp hhead
      have hc := hs.coherent
      have hsaid : s.said = some message := hc.told message (by simp [hpipe])
      have hcoherent : Coherent isAi { s with toMain := s.toMain.tail } :=
        ⟨hc.bytes, hc.queued, hc.cards, fun x hx => hc.told x (List.mem_of_mem_tail hx), hc.farewell,
          hc.freed, hc.opened, hc.lines⟩
      refine ⟨⟨fun _ => hcoherent, Iff.rfl, rfl, rfl, rfl, rfl, rfl, rfl, List.prefix_rfl, id⟩, .inl
        ⟨hone, (hc.farewell message hsaid).1, ⟨hcoherent, fun hw => ?_, ?_, fun hm => (nomatch hm)⟩,
          hs.opened⟩⟩
      · exact absurd (hs.holder.mp hw) (by simp)
      · rintro _ ⟨⟩
        exact hsaid

lemma safe_join (h : Stops isAi m s) :
    safe (mainPact isAi) (tell .join : MainProc ρ _) E (fun _ => Closes isAi m []) s := by
  refine safe_tell (fun _ _ => Stops.rely) (fun _ _ _ => Closes.rely) (fun s hs => hs.1.free) ?_ h
  intro s a s' ⟨hs, hopened⟩ ha
  simp only [mainAct] at ha
  split_ifs at ha with hthrows hfinished <;> cases ha
  · exact ⟨.fail s, ⟨hs.coherent.fail, hs.free, hs.told, fun _ => rfl⟩, hopened, .inr rfl⟩
  · exact ⟨.refl s, hs, hopened, .inl hfinished⟩

lemma safe_closeEnd {e : PipeEnd} (he : e ∉ closed) (h : Closes isAi m closed s) :
    safe (mainPact isAi) (tell (.close e) : MainProc ρ _) E (fun _ => Closes isAi m (e :: closed)) s := by
  refine safe_tell (fun _ _ => Closes.rely) (fun _ _ _ => Closes.rely)
    (fun s hs => ⟨by rwa [hs.closed_eq], hs.gone⟩) ?_ h
  rintro s a s' hs ⟨⟩
  have hc := hs.coherent
  have hcoherent : Coherent isAi { s with closed := e :: s.closed } :=
    ⟨hc.bytes, hc.queued, hc.cards, hc.told, hc.farewell, hc.freed, fun _ => hs.gone, hc.lines⟩
  exact ⟨⟨fun _ => hcoherent, Iff.rfl, rfl, rfl, rfl, rfl, rfl, rfl, List.prefix_rfl, id⟩,
    ⟨hcoherent, hs.free, hs.told, hs.failed⟩, congrArg (e :: ·) hs.closed_eq, hs.gone⟩

end Calls

/-! ### The parts of a turn -/

section Parts

variable {ρ : Type} {E : ρ → Memory → Prop} {errorMessage : String} {result : ℤ}

lemma safe_closePipeSockets (h : Closes isAi m [] s) :
    safe (mainPact isAi) (closePipeSockets : MainProc ρ _) E (fun _ => Closes isAi m allEnds) s := by
  refine safe_seq (safe_closeEnd (by decide) h) fun _ s hs => ?_
  refine safe_seq (safe_closeEnd (by decide) hs) fun _ s hs => ?_
  refine safe_seq (safe_closeEnd (by decide) hs) fun _ s hs => ?_
  exact safe_closeEnd (by decide) hs

lemma safe_joinWorker (h : Stops isAi m s) :
    safe (mainPact isAi) (joinWorker : MainProc ρ _) E (fun _ => Closes isAi m []) s := by
  refine safe_seq (safe_join h) fun a s hs => ?_
  cases a with
  | none => exact fun _ => hs.rely
  | some what => exact safe_mainCerr (fun _ _ => Closes.rely) hs

lemma safe_closeMainSockets (hresult : result = 1 ∨ m = none) (h : Stops isAi m s) :
    safe (mainPact isAi) (closeMainSockets result errorMessage : MainProc ρ _) E
      (fun _ => Closes isAi m allEnds) s := by
  have hjoin : ∀ s, Stops isAi m s → safe (mainPact isAi) (joinWorker >>= fun _ => closePipeSockets :
      MainProc ρ PUnit) E (fun _ => Closes isAi m allEnds) s :=
    fun s hs => safe_seq (safe_joinWorker hs) fun _ s hs => safe_closePipeSockets hs
  have hleave : result ≠ 1 → ∀ s, Stops isAi m s → safe (mainPact isAi) (closePipeSockets :
      MainProc ρ PUnit) E (fun _ => Closes isAi m allEnds) s :=
    fun hone s hs => safe_closePipeSockets ⟨hs.1, hs.2, .inr (hs.1.failed (hresult.resolve_left hone))⟩
  unfold closeMainSockets
  split_ifs with hone
  · exact safe_seq (safe_mainCerr (fun _ _ => Stops.rely) h) fun _ s hs => hjoin s hs
  · exact hjoin s h
  · exact safe_seq (safe_mainCerr (fun _ _ => Stops.rely) h) fun _ s hs => hleave hone s hs
  · exact hleave hone s h

/-- `close_main` is only ever told to notify nobody: it does not wait for the worker. -/
lemma safe_closeMain (h : Stops isAi none s) :
    safe (mainPact isAi) (closeMain errorMessage disconnected : MainProc ρ _) E
      (fun _ => Closes isAi none allEnds) s := by
  have hnotify : (notifyWorker disconnected : MainProc ρ ℤ) = return 0 := rfl
  unfold closeMain
  rw [hnotify]
  refine safe_seq (R := fun _ => Stops isAi none) (fun s' hs => h.rely hs) fun pipeResult s hs => ?_
  have hrest : ∀ s, Stops isAi none s → safe (mainPact isAi)
      (do tell (.cerr errorMessage)
          closeMainSockets pipeResult "" : MainProc ρ PUnit) E (fun _ => Closes isAi none allEnds) s :=
    fun s hs => safe_seq (safe_mainCerr (fun _ _ => Stops.rely) hs) fun _ s hs =>
      safe_closeMainSockets (.inr rfl) hs
  split_ifs
  · exact safe_seq (safe_mainCerr (fun _ _ => Stops.rely) hs) fun _ s hs => hrest s hs
  · exact hrest s hs

lemma safe_assertMainReadPipe {R : Memory → Prop} (hR : ∀ s s', R s → WorkerKeeps isAi s s' → R s')
    (h : result = 1 ∧ R s ∨ result ≤ 0 ∧ Stops isAi none s) :
    safe (mainPact isAi) (assertMainReadPipe result : MainProc ρ _) E
      (fun x s => x = 0 ∧ result = 1 ∧ R s ∨ x = -1 ∧ Closes isAi none allEnds s) s := by
  have hfail : ∀ message, Stops isAi none s → safe (mainPact isAi)
      (do closeMain message disconnected
          return -1 : MainProc ρ ℤ) E
      (fun x s => x = 0 ∧ result = 1 ∧ R s ∨ x = -1 ∧ Closes isAi none allEnds s) s :=
    fun message hs => safe_seq (safe_closeMain hs) fun _ s hs s' hkeeps => .inr ⟨rfl, hs.rely hkeeps⟩
  unfold assertMainReadPipe
  obtain ⟨hone, hs⟩ | ⟨hle, hs⟩ := h
  · rw [if_neg (by omega), if_neg (by omega)]
    exact fun s' hkeeps => .inl ⟨rfl, hone, hR s s' hs hkeeps⟩
  · split_ifs
    · exact hfail _ hs
    · exact hfail _ hs
    · omega

lemma Closes.returns_failed {r : ℤ} (h : Closes isAi none allEnds s) (hr : r ≠ 0) : Returns isAi r s :=
  ⟨none, h, iff_of_false hr (by simp)⟩

/-- **A card the user typed** is put on the queue, and the worker told. -/
lemma safe_typedCard {card : Text} (hai : isAi = false) (h : Attends isAi F false 0 s) :
    safe (mainPact isAi) (typedCard card) (Returns isAi) (fun _ => Attends isAi F false 0) s := by
  refine safe_seq (safe_mainLock hai h) fun _ s hs => safe_seq (safe_push hs) fun _ s hs => ?_
  refine safe_seq (safe_mainUnlock hs) fun _ s hs => safe_seq (safe_tellCard hs) fun result s hs => ?_
  refine safe_seq (safe_assertMainReadPipe (fun _ _ => Attends.rely) hs) ?_
  rintro x s (⟨rfl, -, hs⟩ | ⟨rfl, hs⟩)
  · exact fun s' hkeeps => hs.rely hkeeps
  · exact fun s' hkeeps => (hs.rely hkeeps).returns_failed (by omega)

lemma safe_command {message : Text} (h : Attends isAi F true 0 s) :
    safe (mainPact isAi) (command message : MainProc ρ _) E (fun _ => Attends isAi F true 0) s := by
  have hcout : ∀ text s, Attends isAi F true 0 s → safe (mainPact isAi)
      (tell (.cout text) : MainProc ρ _) E (fun _ => Attends isAi F true 0) s := fun text s hs =>
    safe_quiet (fun _ _ => Attends.rely) (fun _ _ => trivial) (fun _ _ => rfl) hs
  unfold command
  split_ifs
  · refine safe_seq (safe_quiet (fun _ _ => Attends.rely) (fun s hs => hs.holder.mpr rfl)
      (fun _ _ => rfl) h) fun cards s hs => ?_
    exact hcout _ s hs
  · refine safe_seq (safe_quiet (fun _ _ => Attends.rely) (fun s hs => hs.holder.mpr rfl)
      (fun _ _ => rfl) h) fun tricks s hs => ?_
    exact hcout _ s hs
  · exact hcout _ s h

lemma safe_stdinPart {polled : MainPolled} (h : Attends isAi F false 0 s) :
    safe (mainPact isAi) (stdinPart isAi polled) (Returns isAi) (fun _ => Attends isAi F false 0) s := by
  unfold stdinPart
  split_ifs with hin
  · refine safe_seq (safe_quiet (fun _ _ => Attends.rely) (fun _ _ => trivial)
      (fun _ _ => rfl) h) fun message s hs => ?_
    split_ifs
    · exact safe_typedCard hin.1 hs
    · refine safe_seq (safe_mainLock hin.1 hs) fun _ s hs => safe_seq (safe_command hs) fun _ s hs => ?_
      exact safe_mainUnlock hs
  · exact fun s' hkeeps => h.rely hkeeps

lemma safe_heard {a : ℤ × Text} (ha : a.2 ∈ farewells) (h : Stops isAi (some a.2) s) :
    safe (mainPact isAi)
      (if a.2 = serverDisconnect ∨ a.2 = disconnected ∨ a.2 = normalEnd then do
          closeMainSockets 1 ""
          .exit (if a.2 = normalEnd then 0 else 1)
        else do
          closeMain "Wrong message from worker." disconnected
          .exit 1 : MainProc ℤ PUnit) (Returns isAi) (fun _ => Attends isAi F false 0) s := by
  have hknown : a.2 = serverDisconnect ∨ a.2 = disconnected ∨ a.2 = normalEnd := by
    simp only [farewells, List.mem_cons, List.not_mem_nil, or_false] at ha
    tauto
  rw [if_pos hknown]
  refine safe_seq (safe_closeMainSockets (.inl rfl) h) fun _ s hs s' hkeeps => ?_
  refine ⟨_, hs.rely hkeeps, ?_⟩
  split_ifs with hend
  · exact iff_of_true rfl (congrArg some hend)
  · exact iff_of_false (by omega) fun he => hend (Option.some.inj he)

lemma safe_mainPipePart {polled : MainPolled}
    (h : Attends isAi (polled.result ≤ 0 ∨ polled.stdinErr = true) false 0 s) :
    safe (mainPact isAi) (pipePart isAi polled) (Returns isAi)
      (fun _ => Attends isAi (polled.result ≤ 0 ∨ polled.stdinErr = true) false 0) s := by
  unfold pipePart
  split_ifs with hin herr
  · refine safe_seq (safe_mainRead h) ?_
    rintro ⟨pipeResult, message⟩ s hs
    have hrely : ∀ s s', message ∈ farewells ∧ Stops isAi (some message) s → WorkerKeeps isAi s s' →
        message ∈ farewells ∧ Stops isAi (some message) s' :=
      fun _ _ hr hkeeps => ⟨hr.1, hr.2.rely hkeeps⟩
    refine safe_seq (safe_assertMainReadPipe hrely hs) ?_
    rintro x s (⟨rfl, rfl, hm, hs⟩ | ⟨rfl, hs⟩)
    · exact safe_heard (a := (1, message)) hm hs
    · exact fun s' hkeeps => (hs.rely hkeeps).returns_failed (by omega)
  · have hstops : Stops isAi none s :=
      ⟨⟨h.coherent, fun hw => absurd (h.holder.mp hw) (by simp), fun m' hm => (nomatch hm),
        fun _ => h.failed (.inr herr.2)⟩, h.opened⟩
    refine safe_seq (safe_closeMainSockets (.inl rfl) hstops) fun _ s hs s' hkeeps => ?_
    exact (hs.rely hkeeps).returns_failed (by omega)
  · exact fun s' hkeeps => h.rely hkeeps

/-- **A turn of the loop of `run_client`.** -/
theorem safe_mainTurn (h : Attends isAi False false 0 s) :
    safe (mainPact isAi) (mainTurn isAi) (Returns isAi) (fun _ => Attends isAi False false 0) s := by
  refine safe_seq (safe_mainPoll h) fun polled s hs => ?_
  split_ifs with hpolled
  · have hstops : Stops isAi none s :=
      ⟨⟨hs.coherent, fun hw => absurd (hs.holder.mp hw) (by simp), fun m' hm => (nomatch hm),
        fun _ => hs.failed (.inl hpolled)⟩, hs.opened⟩
    refine safe_seq (safe_closeMain hstops) fun _ s hs s' hkeeps => ?_
    exact (hs.rely hkeeps).returns_failed (by omega)
  · refine safe_seq (safe_stdinPart hs) fun _ s hs => ?_
    refine safe_mono (fun _ _ => id) (fun _ s hs => ?_) (safe_mainPipePart hs)
    exact ⟨hs.coherent, hs.holder, hs.opened, hs.untold, False.elim⟩

/-- **The main thread keeps its side of the pact.** -/
theorem safe_runClient (fuel : ℕ) (h : Attends isAi False false 0 s) :
    safe (mainPact isAi) (runClient isAi fuel) (Returns isAi) (fun _ _ => False) s := by
  have hspins : ∀ (_ : PUnit) s, Attends isAi False false 0 s → (mainPact isAi).spins s :=
    fun _ _ hs hw => absurd (hs.holder.mp hw) (by simp)
  exact safe_mono (fun _ _ => id) (fun _ _ hs => absurd hs.2 (by decide))
    (safe_loop (I := fun _ : PUnit => Attends isAi False false 0) (fun _ _ _ => Attends.rely) hspins
      (fun _ _ hs _ => safe_mainTurn hs) h)

end Parts

end Kierki.Process
