import Kierki.Serwer.Seats

/-!
# The lines on their way to `parse_message`

A line of a client goes to `parse_message` at once or waits in the queue of the seat for the end of
a barrier. The two routes keep the order: a thread out of barrier mode empties the queue before it
reads another line. But the queue belongs to the seat, and neither `close_thread` nor
`reserve_spot` empties it, so what a connection leaves in it is parsed on behalf of the next.
-/

namespace Kierki.Serwer

open Lib.Lts

/-! ### The history of the lines -/

/-- The line a thread reads from its client after the first, if its step is such a read. -/
def Thread.reads (t : Thread) (o : Outcome) : List Text :=
  match t.pc, o with
  | .readSocket _, .line l => [l]
  | _, _ => []

/-- The line with which `parse_message` has just been called. -/
def Thread.parses (t : Thread) : List Text :=
  match t.pc with
  | .parse m _ => [m]
  | _ => []

/-- What is recorded of the lines of each connection. -/
structure Lines where
  /-- The lines read from the client after its first. -/
  received : ℕ → List Text := fun _ => []
  /-- The lines with which `parse_message` was called. -/
  handed : ℕ → List Text := fun _ => []
  /-- The queue of the seat when the connection took it. -/
  leftover : ℕ → List Text := fun _ => []

def Lines.note (st : State) (a : Act) (st' : State) (l : Lines) : Lines :=
  match a with
  | .thread c o =>
    { received := Function.update l.received c (l.received c ++ (st.threads c).reads o)
      handed := Function.update l.handed c (l.handed c ++ (st'.threads c).parses)
      leftover := if (st.threads c).pc = .take ∧ st.sh.seatsStatus (st.threads c).seat = -1
        then Function.update l.leftover c (st.sh.barrierMessages (st.threads c).seat)
        else l.leftover }
  | .main _ | .accept _ => l

/-! ### What a step does to the queue -/

/-- The points between the loop over the queue and the next turn of the loop of `client_poll`. -/
def Pc.settled : Pc → Bool
  | poll | readSocket _ | again _ | readPipe _ | send _ (.again _) => true
  | parse _ (.pipe _) | writeCardPlay (.pipe _) | send _ (.wrong (.pipe _)) => true
  | _ => false

/-- What one step of a thread can do to the queue of its seat. -/
inductive QueueMove (sh : Shared) (t : Thread) (o : Outcome) : Shared → Thread → Prop
  | keep (sh' : Shared) (t' : Thread) (hq : sh'.barrierMessages = sh.barrierMessages)
      (hr : t.reads o = []) (hp : t'.parses = []) (hseat : t.pc.kind ≠ .fresh → t'.seat = t.seat)
      (hk : t'.pc.kind.holds = true → t.pc.kind.holds = true ∨
        (t.pc = .take ∧ sh.seatsStatus t.seat = -1) ∧ t'.seat = t.seat)
      (hd : t'.pc.settled = true → t'.bIsBarrier = false →
        t.pc.settled = true ∧ t.bIsBarrier = false ∨ sh.barrierMessages t.seat = []) :
      QueueMove sh t o sh' t'
  | push (pipe : Bool) (l : Text) (hpc : t.pc = .readSocket pipe) (ho : o = .line l)
      (hb : t.bIsBarrier = true) :
      QueueMove sh t o
        { sh with
          barrierMessages :=
            Function.update sh.barrierMessages t.seat (sh.barrierMessages t.seat ++ [l]) }
        (t.goto (.readPipe pipe))
  | direct (pipe : Bool) (l : Text) (hpc : t.pc = .readSocket pipe) (ho : o = .line l)
      (hb : t.bIsBarrier = false) : QueueMove sh t o sh (t.goto (.parse l (.pipe pipe)))
  | pop (k : After) (m : Text) (q : List Text) (hpc : t.pc = .drain ∨ t.pc = .drainEnd)
      (hk : k = .drain ∨ k = .drainEnd) (hq : sh.barrierMessages t.seat = m :: q) :
      QueueMove sh t o { sh with barrierMessages := Function.update sh.barrierMessages t.seat q }
        (t.goto (.parse m k))

section Complete

variable {sh sh' : Shared} {c : ℕ} {t t' : Thread} {o : Outcome}

private lemma QueueMove.still (hr : t.reads o = []) (hk : t.pc.kind.holds = true)
    (hq : sh'.barrierMessages = sh.barrierMessages) (hp : t'.parses = []) (hseat : t'.seat = t.seat)
    (hd : t'.pc.settled = true → t.pc.settled = true ∧ t'.bIsBarrier = t.bIsBarrier) :
    QueueMove sh t o sh' t' :=
  .keep sh' t' hq hr hp (fun _ => hseat) (fun _ => .inl hk) fun hs hb =>
    .inl ⟨(hd hs).1, (hd hs).2 ▸ hb⟩

private lemma QueueMove.idle (hr : t.reads o = []) (hseat : t.pc.kind = .fresh ∨ t'.seat = t.seat)
    (hq : sh'.barrierMessages = sh.barrierMessages) (hp : t'.parses = [])
    (hk : t'.pc.kind.holds = false) (hd : t'.pc.settled = false) : QueueMove sh t o sh' t' :=
  .keep sh' t' hq hr hp (fun hf => hseat.resolve_left hf) (fun h => by simp [hk] at h)
    fun h => by simp [hd] at h

lemma Thread.reads_eq_nil (h : ∀ pipe, t.pc ≠ .readSocket pipe) : t.reads o = [] := by
  unfold Thread.reads
  split
  · rename_i pipe _ hpc
    exact absurd hpc (h pipe)
  · rfl

private lemma Thread.reads_leave (ho : o = .fail ∨ o = .eof ∨ t.pc.isBadLine) : t.reads o = [] := by
  unfold Thread.reads
  split
  · rename_i hpc
    rcases ho with ho | ho | ho
    · cases ho
    · cases ho
    · rw [hpc] at ho
      cases ho
  · rfl

private lemma queueMove_top (hpc : t.pc = .loopTop) : QueueMove sh t .tick sh (t.atLoopTop sh) := by
  refine .keep sh _ rfl (Thread.reads_eq_nil (by simp [hpc])) ?_ (fun _ => rfl)
    (fun _ => .inl (by rw [hpc]; rfl)) fun hs hb => ?_
  · by_cases hb : (t.bIsBarrier || sh.bIsBarrierOngoing) = true <;>
      simp [Thread.atLoopTop, Thread.parses, hb]
  · simp only [Thread.atLoopTop] at hs hb
    simp [hb, Pc.settled] at hs

private lemma queueMove_gotByte {b : Byte} {rest : List Byte} (hpc : t.pc = .readPipe true) :
    QueueMove sh t .tick (t.gotByte (sh.heard t.seat rest) c b).1
      (t.gotByte (sh.heard t.seat rest) c b).2 := by
  have hr : t.reads .tick = [] := Thread.reads_eq_nil (by simp [hpc])
  have hk : t.pc.kind.holds = true := by rw [hpc]; rfl
  cases b with
  | barrierResponse =>
    by_cases ho : int16 (sh.occupied + 1) = 4 <;>
      exact .still hr hk rfl (by simp [Thread.gotByte, Thread.parses, ho]) rfl
        (by simp [Thread.gotByte, Pc.settled, ho])
  | _ => exact .still hr hk rfl rfl rfl (fun hs => by cases hs)

private lemma queueMove_sent {l : Text} {p : Purpose} (hpc : t.pc = .send l p) :
    QueueMove sh t .tick sh (Thread.sent { t with outbox := l :: t.outbox } p) := by
  have hr : t.reads .tick = [] := Thread.reads_eq_nil (by simp [hpc])
  cases p with
  | busy =>
    exact .keep sh _ rfl hr rfl (fun _ => rfl) (fun hk => (nomatch hk)) fun hs => (nomatch hs)
  | again pipe =>
    exact .still hr (by rw [hpc]; rfl) rfl rfl rfl fun _ => ⟨by rw [hpc]; rfl, rfl⟩
  | wrong k =>
    cases k with
    | pipe r => exact .still hr (by rw [hpc]; rfl) rfl rfl rfl fun _ => ⟨by rw [hpc]; rfl, rfl⟩
    | _ => exact .still hr (by rw [hpc]; rfl) rfl rfl rfl fun hs => (nomatch hs)
  | _ => exact .still hr (by rw [hpc]; rfl) rfl rfl rfl fun hs => (nomatch hs)

private lemma queueMove_notSent {l : Text} {p : Purpose} (hpc : t.pc = .send l p) :
    QueueMove sh t .fail (t.notSent sh c p).1 (t.notSent sh c p).2 := by
  have hr : t.reads .fail = [] := Thread.reads_eq_nil (by simp [hpc])
  cases p with
  | busy => exact .idle hr (.inr rfl) rfl rfl rfl rfl
  | _ => exact .still hr (by rw [hpc]; rfl) rfl rfl rfl fun hs => (nomatch hs)

private lemma queueMove_parse {m : Text} {k : After} {pc : Pc} (hpc : t.pc = .parse m k)
    (hpc' : t'.pc = pc) (hk : (∃ l, pc = .send l (.wrong k)) ∨ pc = .writeCardPlay k)
    (hq : sh'.barrierMessages = sh.barrierMessages) (hseat : t'.seat = t.seat)
    (hb : t'.bIsBarrier = t.bIsBarrier) : QueueMove sh t .tick sh' t' := by
  have hp : t'.parses = [] := by
    unfold Thread.parses
    rcases hk with ⟨l, rfl⟩ | rfl <;> rw [hpc']
  refine .still (Thread.reads_eq_nil (by simp [hpc])) (by rw [hpc]; rfl) hq hp hseat
    fun hs => ⟨?_, hb⟩
  rw [hpc]
  rw [hpc'] at hs
  rcases hk with ⟨l, rfl⟩ | rfl <;> cases k <;> first | rfl | cases hs

/-- **The list is complete.** -/
theorem ThreadMove.queue (hm : ThreadMove sh c t o sh' t') : QueueMove sh t o sh' t' := by
  cases hm with
  | iam l s hpc hs =>
    exact .idle (Thread.reads_eq_nil (by simp [hpc])) (.inl (by rw [hpc]; rfl)) rfl rfl rfl rfl
  | refuse _ hpc =>
    exact .idle (Thread.reads_eq_nil (by simp [hpc])) (.inr rfl) rfl rfl rfl rfl
  | take pc' hpc hs hpc' =>
    refine .keep _ _ rfl (Thread.reads_eq_nil (by simp [hpc])) ?_ (fun _ => rfl)
      (fun _ => .inr ⟨⟨hpc, hs⟩, rfl⟩) fun hset => ?_
    · rcases hpc' with ⟨rfl, -⟩ | ⟨rfl, -⟩ <;> rfl
    · rcases hpc' with ⟨rfl, -⟩ | ⟨rfl, -⟩ <;> cases hset
  | busy hpc | reported hpc | unreported hpc | done hpc =>
    exact .idle (Thread.reads_eq_nil (by simp [hpc])) (.inr rfl) rfl rfl rfl rfl
  | close b hpc =>
    cases b <;> exact .idle (Thread.reads_eq_nil (by simp [hpc])) (.inr rfl) rfl rfl rfl rfl
  | copied _ _ hpc | next _ hpc | turn _ hpc | noTurn _ hpc | taken _ _ _ hpc | join hpc
    | skip hpc | woke hpc =>
    exact .still (Thread.reads_eq_nil (by simp [hpc])) (by rw [hpc]; rfl) rfl rfl rfl
      fun hs => (nomatch hs)
  | sent _ _ hpc => exact queueMove_sent hpc
  | notSent _ _ hpc => exact queueMove_notSent hpc
  | top hpc => exact queueMove_top hpc
  | drained after hpc hq =>
    rcases hpc with ⟨hpc, rfl⟩ | ⟨hpc, rfl⟩ <;>
      exact .keep sh _ rfl (Thread.reads_eq_nil (by simp [hpc])) rfl (fun _ => rfl)
        (fun _ => .inl (by rw [hpc]; rfl)) fun _ _ => .inr hq
  | popped k m q hpc hq =>
    exact .pop k m q (hpc.imp And.left And.left) (hpc.imp And.right And.right) hq
  | expired pc' hpc _ hpc' =>
    refine .still (Thread.reads_eq_nil (by simp [hpc])) (by rw [hpc]; rfl) rfl ?_ rfl
      fun _ => ⟨by rw [hpc]; rfl, rfl⟩
    rcases hpc' with rfl | ⟨rfl, -⟩ <;> rfl
  | waited pc' pipe _ hpc _ hpc' =>
    refine .still (Thread.reads_eq_nil (by simp [hpc])) (by rw [hpc]; rfl) rfl ?_ rfl
      fun _ => ⟨by rw [hpc]; rfl, rfl⟩
    rcases hpc' with rfl | rfl <;> rfl
  | readable _ _ hpc | heard _ _ hpc | again _ hpc =>
    exact .still (Thread.reads_eq_nil (by simp [hpc])) (by rw [hpc]; rfl) rfl rfl rfl
      fun _ => ⟨by rw [hpc]; rfl, rfl⟩
  | queued pipe l hpc hb => exact .push pipe l hpc rfl hb
  | direct pipe l hpc hb => exact .direct pipe l hpc rfl hb
  | leave _ hk ho =>
    exact .still (Thread.reads_leave ho) (Kind.holds_of_polls hk) rfl rfl rfl fun hs => (nomatch hs)
  | byte b rest hpc hp => exact queueMove_gotByte hpc
  | early m k hpc => exact queueMove_parse hpc rfl (.inl ⟨_, rfl⟩) rfl rfl rfl
  | wrong m k hpc => exact queueMove_parse hpc rfl (.inl ⟨_, rfl⟩) rfl rfl rfl
  | accept m k card hpc => exact queueMove_parse hpc rfl (.inr rfl) rfl rfl rfl
  | played k hpc =>
    have hr : t.reads .tick = [] := Thread.reads_eq_nil (by simp [hpc])
    cases k with
    | pipe r => exact .still hr (by rw [hpc]; rfl) rfl rfl rfl fun _ => ⟨by rw [hpc]; rfl, rfl⟩
    | _ => exact .still hr (by rw [hpc]; rfl) rfl rfl rfl fun hs => (nomatch hs)

lemma QueueMove.other (hm : QueueMove sh t o sh' t') {s : Seat}
    (hs : t.pc.kind.holds = true → s ≠ t.seat) : sh'.barrierMessages s = sh.barrierMessages s := by
  cases hm with
  | keep _ _ hq => rw [hq]
  | push _ _ hpc => exact Function.update_of_ne (hs (by rw [hpc]; rfl)) _ _
  | direct => rfl
  | pop _ _ _ hpc =>
    refine Function.update_of_ne (hs ?_) _ _
    rcases hpc with hpc | hpc <;> rw [hpc] <;> rfl

end Complete

/-! ### The invariant -/

/-- **The invariant of the lines**: what a connection found in the queue of its seat and what its
client sent is what was handed over and what still waits, in this order. -/
structure Carried (sh : Shared) (ts : ℕ → Thread) (l : Lines) : Prop where
  fresh : ∀ c, (ts c).pc.kind = .fresh → l.received c = [] ∧ l.handed c = []
  split : ∀ c, (ts c).pc.kind.holds = true →
    l.leftover c ++ l.received c = l.handed c ++ sh.barrierMessages (ts c).seat
  ordered : ∀ c, l.handed c <+: l.leftover c ++ l.received c
  settled : ∀ c, (ts c).pc.settled = true → (ts c).bIsBarrier = false →
    sh.barrierMessages (ts c).seat = []

section Keeps

variable {st st' : State} {l : Lines} {c : ℕ} {o : Outcome} {sh' : Shared} {t' : Thread}

lemma Kind.holds_of_settled {pc : Pc} (h : pc.settled = true) : pc.kind.holds = true := by
  unfold Pc.settled at h
  split at h <;> first | rfl | cases h

lemma Move.fresh {sh sh' : Shared} {t : Thread} {v' : View} (hm : Move sh c t o sh' v')
    (h : v'.kind = .fresh) : t.view.kind = .fresh := by
  cases hm with
  | take _ _ hk => exact hk
  | played _ _ hk' => rcases hk' with rfl | rfl <;> cases h
  | iam _ _ hk => exact hk
  | quiet | top | inform | ack => exact h
  | _ => cases h

/-- What the invariant says of one connection with the thread `t`. -/
structure Own (sh : Shared) (t : Thread) (leftover received handed : List Text) : Prop where
  fresh : t.pc.kind = .fresh → received = [] ∧ handed = []
  split : t.pc.kind.holds = true → leftover ++ received = handed ++ sh.barrierMessages t.seat
  ordered : handed <+: leftover ++ received
  settled : t.pc.settled = true → t.bIsBarrier = false → sh.barrierMessages t.seat = []

lemma carried_iff {sh : Shared} {ts : ℕ → Thread} :
    Carried sh ts l ↔ ∀ c, Own sh (ts c) (l.leftover c) (l.received c) (l.handed c) :=
  ⟨fun h c => ⟨h.fresh c, h.split c, h.ordered c, h.settled c⟩,
    fun h => ⟨fun c => (h c).fresh, fun c => (h c).split, fun c => (h c).ordered, fun c => (h c).settled⟩⟩

section Own

variable {sh : Shared} {t : Thread} {leftover received handed : List Text}

lemma Own.still (h : Own sh t leftover received handed)
    (hq : t.pc.kind.holds = true → sh'.barrierMessages t.seat = sh.barrierMessages t.seat) :
    Own sh' t leftover received handed where
  fresh := h.fresh
  split hk := by
    rw [hq hk]
    exact h.split hk
  ordered := h.ordered
  settled hs hb := (hq (Kind.holds_of_settled hs)).trans (h.settled hs hb)

lemma Own.found (h : Own sh t leftover received handed) (htake : t.pc = .take)
    (hq : sh'.barrierMessages = sh.barrierMessages)
    (hk : t'.pc.kind.holds = true → t'.seat = t.seat)
    (hd : t'.pc.settled = true → t'.bIsBarrier = false → sh.barrierMessages t.seat = []) :
    Own sh' t' (sh.barrierMessages t.seat) received handed := by
  obtain ⟨rfl, rfl⟩ := h.fresh (by rw [htake]; rfl)
  refine ⟨fun _ => ⟨rfl, rfl⟩, fun hk' => ?_, List.nil_prefix, fun hs hb => ?_⟩
  · rw [hq, hk hk', List.append_nil, List.nil_append]
  · rw [hq, hk (Kind.holds_of_settled hs)]
    exact hd hs hb

lemma Own.kept (h : Own sh t leftover received handed) (hq : sh'.barrierMessages = sh.barrierMessages)
    (hfresh : t'.pc.kind = .fresh → t.pc.kind = .fresh)
    (hk : t'.pc.kind.holds = true → t.pc.kind.holds = true ∧ t'.seat = t.seat)
    (hd : t'.pc.settled = true → t'.bIsBarrier = false →
      t.pc.settled = true ∧ t.bIsBarrier = false ∨ sh.barrierMessages t.seat = []) :
    Own sh' t' leftover received handed := by
  refine ⟨fun hf => h.fresh (hfresh hf), fun hk' => ?_, h.ordered, fun hs hb => ?_⟩
  · obtain ⟨hold, hseat⟩ := hk hk'
    rw [hq, hseat]
    exact h.split hold
  · rw [hq, (hk (Kind.holds_of_settled hs)).2]
    rcases hd hs hb with ⟨hs', hb'⟩ | hempty
    · exact h.settled hs' hb'
    · exact hempty

/-- **A step of a thread and its own lines.** -/
lemma Own.move (h : Own sh t leftover received handed)
    (hfresh : t'.pc.kind = .fresh → t.pc.kind = .fresh) (hm : QueueMove sh t o sh' t') :
    Own sh' t'
      (if t.pc = .take ∧ sh.seatsStatus t.seat = -1 then sh.barrierMessages t.seat else leftover)
      (received ++ t.reads o) (handed ++ t'.parses) := by
  cases hm with
  | keep _ _ hq hr hp hseat hk hd =>
    rw [hr, hp, List.append_nil, List.append_nil]
    split_ifs with htake
    · have hnot : t.pc.kind.holds = false := by rw [htake.1]; rfl
      refine h.found htake.1 hq (fun hk' => ?_) fun hs hb => (hd hs hb).resolve_left fun hold => ?_
      · exact ((hk hk').resolve_left (by simp [hnot])).2
      · have := Kind.holds_of_settled hold.1
        simp [hnot] at this
    · refine h.kept hq hfresh (fun hk' => ?_) hd
      have hold := (hk hk').resolve_right fun hr => htake hr.1
      refine ⟨hold, hseat fun hf => ?_⟩
      rw [hf] at hold
      cases hold
  | push pipe m hpc ho hb =>
    have hkeep := h.split (by rw [hpc]; rfl)
    have hr : t.reads o = [m] := by simp [Thread.reads, hpc, ho]
    have hp : (t.goto (.readPipe pipe)).parses = [] := rfl
    rw [hr, hp, if_neg (by simp [hpc]), List.append_nil]
    refine ⟨fun hf => (by cases hf), fun _ => ?_, ?_, fun _ hb' => ?_⟩
    · rw [← List.append_assoc, hkeep, Thread.goto_seat]
      simp
    · rw [← List.append_assoc]
      exact h.ordered.trans (List.prefix_append _ _)
    · rw [Thread.goto_bIsBarrier, hb] at hb'
      cases hb'
  | direct pipe m hpc ho hb =>
    have hempty := h.settled (by rw [hpc]; rfl) hb
    have hkeep := h.split (by rw [hpc]; rfl)
    rw [hempty, List.append_nil] at hkeep
    have hr : t.reads o = [m] := by simp [Thread.reads, hpc, ho]
    have hp : (t.goto (.parse m (.pipe pipe))).parses = [m] := rfl
    rw [hr, hp, if_neg (by simp [hpc])]
    refine ⟨fun hf => (by cases hf), fun _ => ?_, ?_, fun _ _ => hempty⟩
    · rw [← List.append_assoc, hkeep, Thread.goto_seat, hempty, List.append_nil]
    · rw [← List.append_assoc, hkeep]
  | pop k m q hpc hk hq =>
    have hkeep := h.split (by rcases hpc with hpc | hpc <;> rw [hpc] <;> rfl)
    have hr : t.reads o = [] := by rcases hpc with hpc | hpc <;> simp [Thread.reads, hpc]
    have hp : (t.goto (.parse m k)).parses = [m] := rfl
    have htake : t.pc ≠ .take := by rcases hpc with hpc | hpc <;> simp [hpc]
    rw [hr, hp, if_neg fun h => htake h.1, List.append_nil]
    refine ⟨fun hf => (by cases hf), fun _ => ?_, ?_, fun hs => ?_⟩
    · rw [hkeep, hq, Thread.goto_seat]
      simp
    · rw [hkeep, hq]
      exact ⟨q, by simp⟩
    · rcases hk with rfl | rfl <;> cases hs

end Own

/-- **A step of a thread keeps the invariant.** -/
theorem Carried.thread (h : Carried st.sh st.threads l) (hst : Seated st.sh st.view)
    (hs : step st (.thread c o) = some st') :
    Carried st'.sh st'.threads (Lines.note st (.thread c o) st' l) := by
  obtain ⟨hstep, -, hthreads⟩ := step_thread hs
  have hm := (threadMove_of_threadStep hstep).queue
  have hfresh := (move_of_threadStep hstep).fresh
  rw [carried_iff] at h ⊢
  intro c'
  by_cases hc : c' = c
  · subst hc
    have hself := (h c').move hfresh hm
    simp only [Lines.note, Function.update_self]
    split_ifs at hself ⊢ with htake
    · rwa [Function.update_self]
    · exact hself
  · -- a thread that moves leaves the lines of the others and their queues alone
    have hleft : (Lines.note st (.thread c o) st' l).leftover c' = l.leftover c' := by
      simp only [Lines.note]
      split
      · exact Function.update_of_ne hc _ _
      · rfl
    have hreceived : (Lines.note st (.thread c o) st' l).received c' = l.received c' :=
      Function.update_of_ne hc _ _
    have hhanded : (Lines.note st (.thread c o) st' l).handed c' = l.handed c' :=
      Function.update_of_ne hc _ _
    rw [hleft, hreceived, hhanded, hthreads c' hc]
    refine (h c').still fun hk => hm.other fun hk' hseat => hc ?_
    have hsame : c' = c := hst.holder_unique hk hk' hseat
    exact hsame

lemma MainMove.barrierMessages_eq {sh sh' : Shared} {m m' : Main} (hm : MainMove sh m sh' m') :
    sh'.barrierMessages = sh.barrierMessages := by
  cases hm <;> rfl

/-- **Every step keeps the invariant.** -/
theorem Carried.step {a : Act} (h : Carried st.sh st.threads l) (hst : Seated st.sh st.view)
    (hn : st.Numbered) (hs : Serwer.step st a = some st') :
    Carried st'.sh st'.threads (Lines.note st a st' l) := by
  cases a with
  | thread c o => exact h.thread hst hs
  | main ready =>
    obtain ⟨hstep, hthreads⟩ := step_main hs
    have hq := (mainMove_of_mainStep hstep).barrierMessages_eq
    rw [hthreads]
    exact ⟨h.fresh, fun c hk => hq ▸ h.split c hk, h.ordered,
      fun c hc hb => (congrFun hq _).trans (h.settled c hc hb)⟩
  | accept fd =>
    obtain ⟨hsh, -, hthreads⟩ := step_accept hs
    have hnew : (st.threads st.threadId).pc.kind = .fresh := by rw [hn _ le_rfl]; rfl
    rw [hsh, hthreads]
    rw [carried_iff] at h ⊢
    intro c
    by_cases hcc : c = st.threadId
    · subst hcc
      rw [Function.update_self]
      exact ⟨fun _ => (h _).fresh hnew, fun hk => (by cases hk), (h _).ordered, fun hc => (by cases hc)⟩
    · rw [Function.update_of_ne hcc]
      exact h c

end Keeps

/-! ### The runs -/

/-- `reserve_spot` marks a seat as taken only when nothing waits in the queue of the seat. -/
def QueueEmpty (st : State) : Act → Prop
  | .thread c _ => (st.threads c).pc = .take → st.sh.seatsStatus (st.threads c).seat = -1 →
      st.sh.barrierMessages (st.threads c).seat = []
  | .main _ | .accept _ => True

instance (st : State) : (a : Act) → Decidable (QueueEmpty st a)
  | .thread _ _ => inferInstanceAs (Decidable (_ → _ → _))
  | .main _ | .accept _ => inferInstanceAs (Decidable True)

/-- The lines with which `parse_message` was called for a connection are the first of those its
client sent, and while the thread holds its seat the others are those that wait. -/
def LinesInOrder (st : State) (l : Lines) : Prop :=
  ∀ c, l.handed c <+: l.received c ∧ ((st.threads c).pc.kind.holds = true →
    l.received c = l.handed c ++ st.sh.barrierMessages (st.threads c).seat)

section Runs

variable {ok : State × Lines → Act → Prop} {timeout : ℤ} {deals : List Deal} {st : State} {l : Lines}

lemma carried (h : Reach (record step Lines.note) ok (init timeout deals, {}) (st, l)) :
    Carried st.sh st.threads l := by
  refine Reach.invariant_with (I := fun p : State × Lines => Carried p.1.sh p.1.threads p.2)
    (J := fun p : State × Lines => Seated p.1.sh p.1.view ∧ p.1.Numbered)
    (fun p hp => ?_) ?_ (fun p a p' hj hi _ hs => ?_) h
  · have hr : Reachable timeout deals p.1 := hp.forget fun _ _ _ => trivial
    exact ⟨seated hr, numbered hr⟩
  · exact ⟨fun _ _ => ⟨rfl, rfl⟩, fun _ hk => (nomatch hk), fun _ => List.nil_prefix,
      fun _ hs => (nomatch hs)⟩
  · obtain ⟨hs, hl⟩ := record_eq_some.mp hs
    rw [hl]
    exact hi.step hj.1 hj.2 hs

/-- Of one connection that holds its seat, in any run: its lines are in order if and only if it
found nothing in the queue. -/
theorem in_order_iff (h : Reach (record step Lines.note) ok (init timeout deals, {}) (st, l)) {c : ℕ}
    (hk : (st.threads c).pc.kind.holds = true) :
    l.received c = l.handed c ++ st.sh.barrierMessages (st.threads c).seat ↔
      l.leftover c = [] := by
  rw [← (carried h).split c hk, List.self_eq_append_left]

lemma leftover_eq_nil
    (h : Reach (record step Lines.note) (fun p a => QueueEmpty p.1 a) (init timeout deals, {})
      (st, l)) (c : ℕ) : l.leftover c = [] := by
  refine Reach.invariant (I := fun p : State × Lines => ∀ c, p.2.leftover c = []) (fun _ => rfl)
    (fun p a p' hi hok hs => ?_) h c
  obtain ⟨-, hl⟩ := record_eq_some.mp hs
  rw [hl]
  intro c'
  cases a with
  | thread c o =>
    simp only [Lines.note]
    split
    · rename_i htake
      by_cases hc : c' = c
      · subst hc
        rw [Function.update_self]
        exact hok htake.1 htake.2
      · rw [Function.update_of_ne hc]
        exact hi c'
    · exact hi c'
  | main | accept => exact hi c'

/-- **The lines of a client are parsed in order, and none of another's**, in the runs in which a
seat is taken only when its queue is empty. -/
theorem lines_in_order
    (h : Reach (record step Lines.note) (fun p a => QueueEmpty p.1 a) (init timeout deals, {})
      (st, l)) : LinesInOrder st l := by
  intro c
  have hleft := leftover_eq_nil h c
  refine ⟨?_, fun hk => (in_order_iff h hk).mpr hleft⟩
  simpa [hleft] using (carried h).ordered c

/-- A line that `N`'s client sends in the barrier waits in the queue and is parsed after it. -/
theorem lines_in_order_queued : ∃ st l,
    Reach (record step Lines.note) (fun p a => QueueEmpty p.1 a) (init 5000 [suitsDeal], {}) (st, l) ∧
    l.handed 0 = [Senders.trickLine 1 [['2', 'C']]] ∧ LinesInOrder st l := by
  obtain ⟨st, l, hr, hp⟩ := exists_recorded Lines.note {} (fun p a => QueueEmpty p.1 a) [suitsDeal]
    (opening ++ sends 0 (Senders.trickLine 1 [['2', 'C']]) true 2)
    (fun p => decide (p.2.handed 0 = [Senders.trickLine 1 [['2', 'C']]])) (by decide +kernel)
  exact ⟨st, l, hr, of_decide_eq_true hp, lines_in_order hr⟩

/-- `N`'s client sends a line in the barrier and leaves; another client takes the seat, and the
barrier ends. -/
def leftLine : List Act :=
  mains 5 ++ asks 0 .N ++ ticks 0 3 ++ hears 0 1 ++
  sends 0 (Senders.trickLine 1 [['2', 'C']]) false 2 ++ leaves 0 false 3 ++
  [.main [.N]] ++ mains 3 ++ asks 1 .N ++ ticks 1 3 ++ asks 2 .E ++ ticks 2 3 ++
  asks 3 .S ++ ticks 3 3 ++ asks 4 .W ++ ticks 4 3 ++
  hears 1 1 ++ hears 2 1 ++ hears 3 1 ++ hears 4 2 ++ [.main [.W]] ++ mains 6 ++ hears 1 1

/-- **The line of one client is parsed on behalf of the next.** -/
theorem line_of_another : ∃ st l, Reach (record step Lines.note) (fun _ _ => True)
      (init 5000 [suitsDeal], {}) (st, l) ∧
    l.received 1 = [] ∧ l.handed 1 = [Senders.trickLine 1 [['2', 'C']]] ∧ ¬LinesInOrder st l := by
  obtain ⟨st, l, hr, hp⟩ := exists_recorded Lines.note {} (fun _ _ => True) [suitsDeal] leftLine
    (fun p => decide (p.2.received 1 = [] ∧ p.2.handed 1 = [Senders.trickLine 1 [['2', 'C']]]))
    (by decide +kernel)
  obtain ⟨hrec, hhand⟩ := of_decide_eq_true hp
  refine ⟨st, l, hr, hrec, hhand, fun h => ?_⟩
  have := (h 1).1
  rw [hrec, hhand] at this
  simp at this

end Runs

end Kierki.Serwer
