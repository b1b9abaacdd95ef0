import Mathlib.Logic.Function.Basic
import Mathlib.Data.List.Basic

/-!
# Runs of a partial step function

A system is a partial function `step : σ → α → Option σ` on states and actions, and a condition
`ok` says which actions count at a state. `Reach step ok s₀` are the states of the runs from `s₀`
all of whose steps meet the condition; with the condition `fun _ _ => True` these are the
reachable states.

* `Reach.invariant`: what holds at the start and is kept by every step holds of every state;
* `Reach.invariant_with`: the same, where a step may use another fact about the states reached;
* `exec`: the run of a list of actions, computed; `Reach.of_exec` turns a computed run into a
  reachable state, and `length_le_of_exec` bounds it by a measure;
* `Reach.exists_stuck`: with such a measure every run goes on to a state in which no step is possible;
* `record`: the system with a history that every step extends; `Reach.forget` leaves the history
  out again, and `Reach.recorded` adds it to a run.
-/

namespace Kierki.Lib.Lts

variable {σ α : Type*}

/-- The states of the runs from `s₀` in which every step meets the condition `ok`. -/
inductive Reach (step : σ → α → Option σ) (ok : σ → α → Prop) (s₀ : σ) : σ → Prop
  | start : Reach step ok s₀ s₀
  | tail {s s' : σ} {a : α} : Reach step ok s₀ s → ok s a → step s a = some s' → Reach step ok s₀ s'

variable {step : σ → α → Option σ} {ok ok' : σ → α → Prop} {s₀ s s' : σ} {a : α}

/-- **The induction rule of runs.** -/
theorem Reach.invariant {I : σ → Prop} (h₀ : I s₀)
    (hstep : ∀ s a s', I s → ok s a → step s a = some s' → I s') (h : Reach step ok s₀ s) : I s := by
  induction h with
  | start => exact h₀
  | tail _ hok hs ih => exact hstep _ _ _ ih hok hs

/-- The induction rule of runs, relative to a fact `J` known of every state reached. -/
theorem Reach.invariant_with {I J : σ → Prop} (hJ : ∀ s, Reach step ok s₀ s → J s) (h₀ : I s₀)
    (hstep : ∀ s a s', J s → I s → ok s a → step s a = some s' → I s')
    (h : Reach step ok s₀ s) : I s := by
  induction h with
  | start => exact h₀
  | tail hr hok hs ih => exact hstep _ _ _ (hJ _ hr) ih hok hs

theorem Reach.mono (hok : ∀ s a, ok s a → ok' s a) (h : Reach step ok s₀ s) :
    Reach step ok' s₀ s := by
  induction h with
  | start => exact .start
  | tail _ h hs ih => exact .tail ih (hok _ _ h) hs

theorem Reach.trans (h : Reach step ok s₀ s) (h' : Reach step ok s s') : Reach step ok s₀ s' := by
  induction h' with
  | start => exact h
  | tail _ hok hs ih => exact .tail ih hok hs

theorem Reach.with_known {J : σ → Prop} (hJ : ∀ s, Reach step ok s₀ s → J s)
    (h : Reach step ok s₀ s) : Reach step (fun s a => ok s a ∧ J s) s₀ s := by
  induction h with
  | start => exact .start
  | tail hr hok hs ih => exact .tail ih ⟨hok, hJ _ hr⟩ hs

/-- **A run comes to an end**, if a measure gets smaller with its steps: it goes on to a state in which
no step is possible. -/
theorem Reach.exists_stuck {μ : σ → ℕ}
    (hμ : ∀ s a s', Reach step ok s₀ s → ok s a → step s a = some s' → μ s' < μ s)
    (hr : Reach step ok s₀ s) : ∃ t, Reach step ok s t ∧ ∀ a, ok t a → step t a = none := by
  induction hn : μ s using Nat.strongRecOn generalizing s with
  | _ n ih =>
    by_cases hstuck : ∀ a, ok s a → step s a = none
    · exact ⟨s, .start, hstuck⟩
    · push Not at hstuck
      obtain ⟨a, hok, hne⟩ := hstuck
      obtain ⟨s', hs⟩ := Option.ne_none_iff_exists'.mp hne
      obtain ⟨t, ht, hend⟩ := ih (μ s') (hn ▸ hμ s a s' hr hok hs) (hr.tail hok hs) rfl
      exact ⟨t, (Reach.start.tail hok hs).trans ht, hend⟩

/-! ### Histories -/

section Record

variable {η : Type*} {note : σ → α → σ → η → η} {h₀ h : η}

/-- The system with a history: `note` says what a step adds to it. -/
def record (step : σ → α → Option σ) (note : σ → α → σ → η → η) (p : σ × η) (a : α) :
    Option (σ × η) :=
  (step p.1 a).map fun s' => (s', note p.1 a s' p.2)

theorem record_eq_some {p p' : σ × η} : record step note p a = some p' ↔
    step p.1 a = some p'.1 ∧ p'.2 = note p.1 a p'.1 p.2 := by
  unfold record
  rw [Option.map_eq_some_iff]
  constructor
  · rintro ⟨s', hs, rfl⟩
    exact ⟨hs, rfl⟩
  · rintro ⟨hs, hh⟩
    exact ⟨p'.1, hs, Prod.ext rfl hh.symm⟩

/-- A run with its history is a run, if its condition says as much of the states alone. -/
theorem Reach.forget {okh : σ × η → α → Prop} {p₀ p : σ × η} (hok : ∀ p a, okh p a → ok p.1 a)
    (hr : Reach (record step note) okh p₀ p) : Reach step ok p₀.1 p.1 := by
  induction hr with
  | start => exact .start
  | tail _ h hs ih => exact .tail ih (hok _ _ h) (record_eq_some.mp hs).1

theorem Reach.recorded (h₀ : η) (hr : Reach step ok s₀ s) :
    ∃ h, Reach (record step note) (fun p a => ok p.1 a) (s₀, h₀) (s, h) := by
  induction hr with
  | start => exact ⟨h₀, .start⟩
  | tail _ hok hs ih =>
    obtain ⟨h, hr⟩ := ih
    exact ⟨note _ _ _ h, Reach.tail hr hok (record_eq_some.mpr ⟨hs, rfl⟩)⟩

end Record

/-- The run of a list of actions; `none` when an action is not enabled or misses the condition. -/
def exec (step : σ → α → Option σ) (ok : σ → α → Prop) [∀ s a, Decidable (ok s a)] :
    σ → List α → Option σ
  | s, [] => some s
  | s, a :: as => if ok s a then (step s a).bind fun s' => exec step ok s' as else none

section Exec

variable [∀ s a, Decidable (ok s a)]

theorem exec_cons {as : List α} {t : σ} (h : exec step ok s (a :: as) = some t) :
    ok s a ∧ ∃ s', step s a = some s' ∧ exec step ok s' as = some t := by
  simp only [exec] at h
  split at h
  · rename_i hok
    exact ⟨hok, Option.bind_eq_some_iff.mp h⟩
  · cases h

theorem Reach.exec_from {as : List α} {t : σ} (hr : Reach step ok s₀ s)
    (h : exec step ok s as = some t) : Reach step ok s₀ t := by
  induction as generalizing s with
  | nil => cases h; exact hr
  | cons a as ih =>
    obtain ⟨hok, s', hs, ht⟩ := exec_cons h
    exact ih (.tail hr hok hs) ht

theorem Reach.of_exec {as : List α} (h : exec step ok s₀ as = some s) : Reach step ok s₀ s :=
  Reach.exec_from .start h

/-- **A run is no longer than a measure** that its steps make smaller. -/
theorem Reach.length_le_of_exec {μ : σ → ℕ}
    (hμ : ∀ s a s', Reach step ok s₀ s → ok s a → step s a = some s' → μ s' < μ s)
    (hr : Reach step ok s₀ s) {as : List α} {t : σ} (h : exec step ok s as = some t) :
    as.length + μ t ≤ μ s := by
  induction as generalizing s with
  | nil =>
    cases h
    simp
  | cons a as ih =>
    obtain ⟨hok, s', hs, ht⟩ := exec_cons h
    have hfirst := hμ s a s' hr hok hs
    have hrest := ih (hr.tail hok hs) ht
    rw [List.length_cons]
    omega

theorem length_le_of_exec {μ : σ → ℕ} (hμ : ∀ s a s', ok s a → step s a = some s' → μ s' < μ s)
    {as : List α} {t : σ} (h : exec step ok s as = some t) : as.length + μ t ≤ μ s :=
  Reach.start.length_le_of_exec (fun s a s' _ => hμ s a s') h

theorem Reach.exists_of_exec {as : List α} {p : σ → Bool}
    (h : (exec step ok s₀ as).any p = true) : ∃ s, Reach step ok s₀ s ∧ p s = true := by
  obtain ⟨s, hs, hp⟩ := (Option.any_eq_true _ _).mp h
  exact ⟨s, .of_exec hs, hp⟩

end Exec

end Kierki.Lib.Lts
