import Kierki.Serwer.Failing.Program

/-!
# The calls of the connection thread

`connectionsRules` say which calls of the connection thread are in order by the descriptors it has
closed: nothing closed is used, and after the listening socket there is nothing to wait for.
`wp_handleConnections` says that `handle_connections` keeps to them, for every answer but a refused
connection and a refused option of the socket.
-/

namespace Kierki.Serwer.Failing

open Lib.Calls Lib.Calls.Prog

/-- The calls the connection thread makes after it closed the listening socket. -/
def Leaving : Call → Prop
  | .write _ _ | .printError _ => True
  | .close fd => fd ≠ .serverFd
  | _ => False

/-- The descriptors the connection thread closes. -/
def Fd.OfConnections : Fd → Prop
  | serverFd | clientFd _ => True
  | _ => False

/-- A call of the connection thread is in order, `closed` being the descriptors it has closed. -/
structure AllowsConnections (closed : List Fd) (c : Call) : Prop where
  fds : ∀ fd ∈ c.fds, fd ∉ closed
  closes : ∀ fd ∈ c.closes, fd.OfConnections
  leaving : closed ≠ [] → Leaving c
  server : ∀ caller errorMessage, c ≠ .closeServer caller errorMessage

def connectionsRules : Rules Call Call.Answer (List Fd) where
  ok := AllowsConnections
  may _ c a := counted c a = true
  next closed c _ := closed ++ c.closes
  spins closed := closed = []

section ConnectionThread

variable {ρ : Type} {closed : List Fd} {E : ρ → List Fd → Prop}

lemma wp_asksConnections {c : Call} {Q : c.Answer → List Fd → Prop} (hcloses : c.closes = [])
    (hfds : ∀ fd ∈ c.fds, fd ∉ closed) (hleaving : closed ≠ [] → Leaving c)
    (hserver : ∀ caller errorMessage, c ≠ .closeServer caller errorMessage)
    (h : ∀ a, counted c a = true → Q a closed) :
    wp connectionsRules (ask c : Proc ρ c.Answer) E Q closed := by
  refine ⟨⟨hfds, by simp [hcloses], hleaving, hserver⟩, fun a ha => ?_⟩
  show Q a (closed ++ c.closes)
  rw [hcloses, List.append_nil]
  exact h a ha

lemma wp_printErrorConnections (message : String) {Q : PUnit → List Fd → Prop} (h : Q ⟨⟩ closed) :
    wp connectionsRules (printError message : Proc ρ PUnit) E Q closed :=
  wp_bind.mpr (wp_asksConnections rfl (by simp [Call.fds]) (fun _ => trivial) nofun fun _ _ => h)

lemma wp_report (hpipe : .serverReadPipes 4 1 ∉ closed) {Q : PUnit → List Fd → Prop} (h : Q ⟨⟩ closed) :
    wp connectionsRules (report : Proc ρ PUnit) E Q closed := by
  refine wp_bind.mpr (wp_asksConnections rfl (by simpa [Call.fds] using hpipe) (fun _ => trivial) nofun
    fun pipeWrite _ => ?_)
  rw [wp_ite]
  split
  · exact wp_printErrorConnections _ h
  · exact h

lemma wp_closeSocket {fds : List Fd} (hfds : ∀ fd ∈ fds, ∃ id, fd = .clientFd id) (hnodup : fds.Nodup)
    {Q : PUnit → List Fd → Prop} (h : Q ⟨⟩ (.serverFd :: fds)) :
    wp connectionsRules (closeFds (.serverFd :: fds) : Proc ρ PUnit) E Q [] := by
  have hall : (Fd.serverFd :: fds).Nodup := by
    refine List.nodup_cons.mpr ⟨fun hmem => ?_, hnodup⟩
    obtain ⟨id, hid⟩ := hfds _ hmem
    cases hid
  refine wp_mono (fun _ _ => id) ?_ (wp_forM (I := fun before closed => closed = before) ?_ rfl)
  · rintro _ _ rfl
    exact h
  rintro before fd after closed hl rfl
  rw [hl] at hall
  have hnew : fd ∉ closed := fun hmem => (List.nodup_append.mp hall).2.2 fd hmem fd (by simp) rfl
  refine ⟨⟨by simpa [Call.fds] using hnew, ?_, ?_, nofun⟩, fun _ _ => rfl⟩
  · intro fd' hfd'
    obtain rfl : fd' = fd := by simpa [Call.closes] using hfd'
    have hmem : fd' ∈ Fd.serverFd :: fds := by rw [hl]; simp
    obtain rfl | hmem := List.mem_cons.mp hmem
    · trivial
    · obtain ⟨id, rfl⟩ := hfds fd' hmem
      trivial
  · intro hne
    cases closed with
    | nil => exact absurd rfl hne
    | cons fd₀ closed =>
      have hfirst : Fd.serverFd = fd₀ := (List.cons.inj hl).1
      show fd ≠ .serverFd
      rintro rfl
      exact hnew (by simp [hfirst])

lemma wp_closeThread (errorMessage : String) {fds : List Fd}
    (hfds : ∀ fd ∈ fds, ∃ id, fd = .clientFd id) (hnodup : fds.Nodup) {Q : PUnit → List Fd → Prop}
    (h : Q ⟨⟩ (.serverFd :: fds)) :
    wp connectionsRules (closeThread errorMessage (.serverFd :: fds) : Proc ρ PUnit) E Q [] := by
  have hrest : wp connectionsRules (do report; closeFds (.serverFd :: fds) : Proc ρ PUnit) E Q [] :=
    wp_bind.mpr (wp_report (by simp) (wp_closeSocket hfds hnodup h))
  unfold closeThread
  split_ifs
  · exact wp_bind.mpr (wp_printErrorConnections _ hrest)
  · exact hrest

lemma wp_leave (errorMessage : String) {α : Type} {Q : α → List Fd → Prop} :
    wp connectionsRules (do closeThread errorMessage [.serverFd]; exit ⟨⟩ : Proc PUnit α)
      (fun _ _ => True) Q [] :=
  wp_bind.mpr (wp_closeThread errorMessage (by simp) .nil trivial)

/-- What `setup_server_socket` returns: the listening socket, or `none` where it could not be set up. -/
def SetUp (r : Option Fd) (closed : List Fd) : Prop :=
  r = some .serverFd ∧ closed = [] ∨ r = none ∧ .serverReadPipes 4 1 ∉ closed

lemma wp_setupServerSocket :
    wp connectionsRules (setupServerSocket : Proc ρ (Option Fd)) E SetUp [] := by
  refine wp_returned.mpr ?_
  have hclose : wp connectionsRules
      (do closeFds [.serverFd]; exit none : Proc (Option Fd) (Option Fd)) SetUp SetUp [] :=
    wp_bind.mpr (wp_closeSocket (by simp) .nil (.inr ⟨rfl, by simp⟩))
  refine wp_bind.mpr (wp_asksConnections rfl (by simp) (absurd rfl) nofun fun made _ => ?_)
  rw [wp_ite]
  split
  · exact .inr ⟨rfl, by simp⟩
  refine wp_bind.mpr (wp_asksConnections rfl (by simp) (absurd rfl) nofun fun taken htaken => ?_)
  rw [if_neg (by simpa [counted] using htaken)]
  refine wp_bind.mpr (wp_asksConnections rfl (by simp) (absurd rfl) nofun fun taken htaken => ?_)
  rw [if_neg (by simpa [counted] using htaken)]
  refine wp_bind.mpr (wp_asksConnections rfl (by simp) (absurd rfl) nofun fun bound _ => ?_)
  rw [wp_ite]
  split
  · exact hclose
  refine wp_bind.mpr (wp_asksConnections rfl (by simp) (absurd rfl) nofun fun listening _ => ?_)
  rw [wp_ite]
  split
  · exact hclose
  · exact .inl ⟨rfl, rfl⟩

lemma wp_handleSocket (revents : Revents) (threadId : ℕ) :
    wp connectionsRules (handleSocket .serverFd revents threadId) (fun _ _ => True)
      (fun _ closed => closed = []) [] := by
  unfold handleSocket
  rw [wp_ite]
  split
  · refine wp_bind.mpr (wp_asksConnections rfl (by simp) (absurd rfl) nofun
      fun accepted haccepted => ?_)
    rw [if_pos (by simpa [counted] using haccepted)]
    refine wp_bind.mpr (wp_asksConnections rfl (by simp [Call.fds]) (absurd rfl) nofun
      fun thrown _ => ?_)
    cases thrown with
    | some what => exact wp_bind.mpr (wp_closeThread what (by simp) (by simp) trivial)
    | none => exact rfl
  · rw [wp_ite]
    split
    · exact wp_leave _
    · exact rfl

lemma wp_assertClientReadPipe {result : ℤ} {Q : ℤ → List Fd → Prop} (h : Q 0 [])
    (hlost : ∀ closed, Q (-1) closed) :
    wp connectionsRules (assertClientReadPipe result [.serverFd] : Proc ρ ℤ) E Q [] := by
  unfold assertClientReadPipe
  split_ifs
  · exact wp_bind.mpr (wp_closeThread _ (by simp) .nil (hlost _))
  · exact wp_bind.mpr (wp_closeThread _ (by simp) .nil (hlost _))
  · exact h

lemma wp_handleServer (revents : Revents) :
    wp connectionsRules (handleServer .serverFd revents) (fun _ _ => True)
      (fun _ closed => closed = []) [] := by
  unfold handleServer
  rw [wp_ite]
  split
  · refine wp_bind.mpr (wp_asksConnections rfl (by simp) (absurd rfl) nofun fun got _ => ?_)
    refine wp_bind.mpr (wp_assertClientReadPipe ?_ fun closed => ?_)
    · rw [if_neg (by decide), wp_ite]
      split
      · exact wp_bind.mpr (wp_closeSocket (by simp) .nil trivial)
      · refine wp_bind.mpr (wp_printErrorConnections _ ?_)
        exact wp_bind.mpr (wp_closeSocket (by simp) .nil trivial)
    · rw [if_pos (by decide)]
      exact trivial
  · rw [wp_ite]
    split
    · exact wp_leave _
    · exact rfl

lemma wp_connectionsRound (threadId : ℕ) :
    wp connectionsRules (connectionsRound .serverFd threadId) (fun _ _ => True)
      (fun _ closed => closed = []) [] := by
  refine wp_bind.mpr (wp_asksConnections rfl (by simp) (absurd rfl) nofun fun revents _ => ?_)
  cases revents with
  | none => exact wp_leave _
  | some revents =>
    refine wp_bind.mpr (wp_mono (fun _ _ => id) ?_ (wp_handleSocket (revents .serverFd) threadId))
    rintro threadId _ rfl
    refine wp_bind.mpr (wp_mono (fun _ _ => id) ?_ (wp_handleServer (revents (.serverWritePipes 4 0))))
    rintro _ _ rfl
    exact rfl

/-- **`handle_connections`.** -/
lemma wp_handleConnections (fuel : ℕ) :
    wp connectionsRules (handleConnections fuel : Proc ρ PUnit) E (fun _ _ => True) [] := by
  refine wp_returned.mpr (wp_bind.mpr (wp_mono (fun _ _ => id) ?_ wp_setupServerSocket))
  rintro r closed (⟨rfl, rfl⟩ | ⟨rfl, hpipe⟩)
  · refine wp_bind.mpr (wp_mono (fun _ _ => id) (fun _ _ _ => trivial)
      (wp_loop (I := fun _ closed => closed = []) ?_ ?_ rfl))
    · rintro _ _ rfl
      exact rfl
    · rintro threadId _ rfl
      exact wp_connectionsRound threadId
  · exact wp_report hpipe trivial

end ConnectionThread

end Kierki.Serwer.Failing
