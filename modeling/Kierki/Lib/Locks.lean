import Kierki.Lib.Calls

/-!
# Locking and unlocking

The discipline of a mutex that is not recursive, for the calls of one thread: it is locked only while
the thread does not hold it, unlocked only while it does, and not held at the end. `rules` are the rules
of calls that say so, next to anything else one wants to remember of the calls, and
`disciplined_of_wp` is what a weakest precondition under them says of every run.
-/

namespace Kierki.Lib.Locks

open Lib.Calls Lib.Calls.Prog

/-- What a call may do to the mutex. -/
inductive Op
  | lock | unlock
  deriving DecidableEq

/-- The mutex is locked only while it is free, and unlocked only while it is held. -/
def Obeys : (held : Bool) → List Op → Prop
  | _, [] => True
  | held, .lock :: ops => held = false ∧ Obeys true ops
  | held, .unlock :: ops => held = true ∧ Obeys false ops

/-- Whether the mutex is held at the end. -/
def heldAfter : (held : Bool) → List Op → Bool
  | held, [] => held
  | _, .lock :: ops => heldAfter true ops
  | _, .unlock :: ops => heldAfter false ops

/-- **The discipline**, from a mutex that is free. -/
structure Disciplined (ops : List Op) : Prop where
  obeys : Obeys false ops
  released : heldAfter false ops = false

section Rules

variable {C : Type} {A : C → Type} {ρ α τ : Type} (op : C → Option Op)
  (note : τ → ((c : C) × A c) → τ) (may : (c : C) → A c → Prop)

/-- Whether the mutex is held after a call. -/
def heldBy (held : Bool) (c : C) : Bool :=
  match op c with
  | none => held
  | some .lock => true
  | some .unlock => false

/-- The rules of the mutex, with notes of the calls and their answers, of which `may` is counted on. -/
def rules (spins : Bool × τ → Prop) : Rules C A (Bool × τ) where
  ok s c := match op c with
    | none => True
    | some .lock => s.1 = false
    | some .unlock => s.1 = true
  may _ := may
  next s c a := (heldBy op s.1 c, note s.2 ⟨c, a⟩)
  spins := spins

/-- What a run does to the mutex. -/
def ops (l : List ((c : C) × A c)) : List Op := l.filterMap fun x => op x.1

variable {op note may} {spins : Bool × τ → Prop}

lemma kept_iff {l : List ((c : C) × A c)} {held : Bool} {t : τ} :
    (rules op note may spins).Kept (held, t) l ↔ Obeys held (ops op l) := by
  induction l generalizing held t with
  | nil => rfl
  | cons x l ih =>
    obtain ⟨c, a⟩ := x
    simp only [Rules.Kept, ops, List.filterMap_cons]
    cases hc : op c with
    | none =>
      simp only [rules, hc, heldBy, true_and]
      exact ih
    | some o =>
      cases o <;> simp only [rules, hc, heldBy, Obeys] <;> exact and_congr_right fun _ => ih

lemma after_eq {l : List ((c : C) × A c)} {held : Bool} {t : τ} :
    (rules op note may spins).after (held, t) l = (heldAfter held (ops op l), l.foldl note t) := by
  induction l generalizing held t with
  | nil => rfl
  | cons x l ih =>
    obtain ⟨c, a⟩ := x
    have hcall : (rules op note may spins).after (held, t) (⟨c, a⟩ :: l) =
        (rules op note may spins).after (heldBy op held c, note t ⟨c, a⟩) l := rfl
    rw [hcall, ih, List.foldl_cons, ops, ops, List.filterMap_cons, heldBy]
    cases hc : op c with
    | none => rfl
    | some o => cases o <;> rfl

/-- **What a precondition under these rules says of a run**: it obeys, and it ends as demanded, the mutex
being as its calls leave it. -/
theorem disciplined_of_wp {p : Prog C A ρ α} {E : ρ → Bool × τ → Prop} {Q : α → Bool × τ → Prop}
    {held : Bool} {t : τ} {env : ℕ → (c : C) → A c} (h : wp (rules op note may spins) p E Q (held, t))
    (hmay : ∀ n c, may c (env n c)) :
    Obeys held (ops op (p.log env 0)) ∧ (rules op note may spins).Ended E Q
      (heldAfter held (ops op (p.log env 0)), (p.log env 0).foldl note t) (p.outcome env 0) := by
  obtain ⟨hkept, hended⟩ := wp_log h (fun _ => hmay) 0
  rw [after_eq] at hended
  exact ⟨kept_iff.mp hkept, hended⟩

end Rules

end Kierki.Lib.Locks
