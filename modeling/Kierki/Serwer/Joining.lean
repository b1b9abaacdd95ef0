import Mathlib.Data.Finset.Basic

/-!
# Joining the threads that have finished

The loop at the start of a trick in which `run_deal` joins the threads on `joinable_threads`. It is a
range-based `for` over the vector, so its end is the one of the vector before the first turn, while its
body erases from the vector: behind an element that is erased the others move one place to the front,
and the loop passes over the next one. What it reads behind the end of the shortened vector is not
defined; it is a parameter here.
-/

namespace Kierki.Serwer

/-- What the loop works on, `joined` being the threads joined so far. -/
structure Reaping where
  joinableThreads : List ℕ
  /-- The keys of the map. -/
  clientThreads : Finset ℕ
  joined : List ℕ := []
  /-- The loop has read behind the end of the vector, or erased there. -/
  outOfBounds : Bool := false
  deriving DecidableEq

/-- One turn of the loop, at the place `i`; behind the end of the vector it reads `stale i`. An `erase`
at what `find` returns for a number that is not there is one behind the end as well. -/
def reapTurn (stale : ℕ → ℕ) (r : Reaping) (i : ℕ) : Reaping :=
  let id := (r.joinableThreads[i]?).getD (stale i)
  let outOfBounds := r.outOfBounds || decide (r.joinableThreads.length ≤ i)
  if id ∈ r.clientThreads then
    { joinableThreads := r.joinableThreads.erase id
      clientThreads := r.clientThreads.erase id
      joined := r.joined ++ [id]
      outOfBounds := outOfBounds || decide (id ∉ r.joinableThreads) }
  else { r with outOfBounds := outOfBounds }

/-- **The loop.** Its places are those of the vector before the first turn. -/
def reap (stale : ℕ → ℕ) (joinableThreads : List ℕ) (clientThreads : Finset ℕ) : Reaping :=
  (List.range joinableThreads.length).foldl (reapTurn stale)
    { joinableThreads := joinableThreads, clientThreads := clientThreads }

/-- What the loop is for: it stays in bounds, joins every thread listed exactly once and leaves none of
them in either collection. -/
def Reaped (joinableThreads : List ℕ) (clientThreads : Finset ℕ) (r : Reaping) : Prop :=
  r.outOfBounds = false ∧ r.joined.Perm joinableThreads ∧ r.joinableThreads = [] ∧
    r.clientThreads = clientThreads \ joinableThreads.toFinset

instance (joinableThreads : List ℕ) (clientThreads : Finset ℕ) (r : Reaping) :
    Decidable (Reaped joinableThreads clientThreads r) := inferInstanceAs (Decidable (_ ∧ _ ∧ _ ∧ _))

/-- The first, the third, the fifth entry and so on. -/
def everyOther {α : Type*} : List α → List α
  | [] => []
  | [a] => [a]
  | a :: _ :: l => a :: everyOther l

section Turns

variable (stale : ℕ → ℕ)

lemma length_everyOther {α : Type*} (l : List α) : (everyOther l).length = (l.length + 1) / 2 := by
  induction l using everyOther.induct with
  | case1 => simp [everyOther]
  | case2 a => simp [everyOther]
  | case3 a b l ih =>
    simp only [everyOther, List.length_cons, ih]
    omega

lemma everyOther_cons {α : Type*} (a : α) (l : List α) : everyOther (a :: l) = a :: everyOther l.tail := by
  cases l <;> rfl

lemma reapTurn_inBounds (joined : List ℕ) {before after : List ℕ} {id : ℕ} {clientThreads : Finset ℕ}
    (hnodup : (before ++ id :: after).Nodup) (hid : id ∈ clientThreads) :
    reapTurn stale ⟨before ++ id :: after, clientThreads, joined, false⟩ before.length =
      ⟨before ++ after, clientThreads.erase id, joined ++ [id], false⟩ := by
  have hnot : id ∉ before := fun h => (List.disjoint_of_nodup_append hnodup) h (by simp)
  have herase : (before ++ id :: after).erase id = before ++ after := by
    rw [List.erase_append_right _ hnot, List.erase_cons_head]
  simp [reapTurn, hid, herase]

/-- **The turns in bounds.** From a place on, the loop joins every other thread of the rest. -/
lemma reap_turns (rest before joined : List ℕ) {clientThreads : Finset ℕ}
    (hnodup : (before ++ rest).Nodup) (hids : ∀ id ∈ rest, id ∈ clientThreads) :
    (List.range' before.length ((rest.length + 1) / 2)).foldl (reapTurn stale)
        ⟨before ++ rest, clientThreads, joined, false⟩ =
      ⟨before ++ everyOther rest.tail, clientThreads \ (everyOther rest).toFinset,
        joined ++ everyOther rest, false⟩ := by
  induction rest using everyOther.induct generalizing before joined clientThreads with
  | case1 => simp [everyOther]
  | case2 id =>
    have hturn := reapTurn_inBounds stale joined hnodup (hids id (by simp))
    simp [everyOther, hturn, Finset.sdiff_singleton_eq_erase]
  | case3 id next rest ih =>
    have hturn := reapTurn_inBounds stale joined hnodup (hids id (by simp))
    have hplaces : ((id :: next :: rest).length + 1) / 2 = (rest.length + 1) / 2 + 1 := by
      simp only [List.length_cons]
      omega
    have hnodup' : ((before ++ [next]) ++ rest).Nodup := by
      rw [List.append_assoc]
      exact hnodup.sublist ((List.sublist_cons_self _ _).append_left _)
    have hids' : ∀ id' ∈ rest, id' ∈ clientThreads.erase id := by
      intro id' hid'
      refine Finset.mem_erase.mpr ⟨?_, hids id' (by simp [hid'])⟩
      rintro rfl
      have := (List.nodup_append.mp hnodup).2.1
      simp [hid'] at this
    have hrest := ih (before ++ [next]) (joined ++ [id]) hnodup' hids'
    rw [List.append_assoc, List.singleton_append, List.length_append] at hrest
    rw [hplaces, List.range'_succ, List.foldl_cons, hturn]
    refine hrest.trans ?_
    rw [List.tail_cons, everyOther_cons next, everyOther, List.toFinset_cons, Finset.sdiff_insert,
      Finset.erase_sdiff_comm, List.append_assoc, List.append_assoc]
    rfl

lemma outOfBounds_foldl {r : Reaping} (places : List ℕ) (h : r.outOfBounds = true) :
    (places.foldl (reapTurn stale) r).outOfBounds = true := by
  induction places generalizing r with
  | nil => exact h
  | cons i places ih =>
    apply ih
    unfold reapTurn
    dsimp only
    split <;> simp [h]

lemma reapTurn_outOfBounds {r : Reaping} {i : ℕ} (h : r.joinableThreads.length ≤ i) :
    (reapTurn stale r i).outOfBounds = true := by
  unfold reapTurn
  dsimp only
  split <;> simp [h]

variable {joinableThreads : List ℕ} {clientThreads : Finset ℕ}

lemma reap_half (hnodup : joinableThreads.Nodup) (hids : ∀ id ∈ joinableThreads, id ∈ clientThreads) :
    (List.range ((joinableThreads.length + 1) / 2)).foldl (reapTurn stale)
        { joinableThreads := joinableThreads, clientThreads := clientThreads } =
      { joinableThreads := everyOther joinableThreads.tail
        clientThreads := clientThreads \ (everyOther joinableThreads).toFinset
        joined := everyOther joinableThreads } := by
  have h := reap_turns stale joinableThreads [] [] hnodup hids
  simpa [List.range_eq_range'] using h

lemma reap_outOfBounds (hnodup : joinableThreads.Nodup)
    (hids : ∀ id ∈ joinableThreads, id ∈ clientThreads) (h2 : 2 ≤ joinableThreads.length) :
    (reap stale joinableThreads clientThreads).outOfBounds = true := by
  obtain ⟨k, hk⟩ : ∃ k, joinableThreads.length = (joinableThreads.length + 1) / 2 + (k + 1) :=
    ⟨joinableThreads.length - (joinableThreads.length + 1) / 2 - 1, by omega⟩
  have hplaces : List.range joinableThreads.length =
      List.range ((joinableThreads.length + 1) / 2) ++
        (joinableThreads.length + 1) / 2 :: List.range' ((joinableThreads.length + 1) / 2 + 1) k := by
    have hsplit := List.range'_append_1 (s := 0) (m := (joinableThreads.length + 1) / 2) (n := k + 1)
    rw [Nat.zero_add, ← hk] at hsplit
    rw [List.range_eq_range', List.range_eq_range', ← List.range'_succ, hsplit]
  unfold reap
  rw [hplaces, List.foldl_append, reap_half stale hnodup hids, List.foldl_cons]
  apply outOfBounds_foldl
  apply reapTurn_outOfBounds
  rw [length_everyOther, List.length_tail]
  omega

end Turns

/-- **When the loop does what it is for**: exactly when at most one thread has finished, whatever the
reads behind the end of the vector give. Of more threads it joins the first, the third, the fifth and so
on, and then, with the others still on the vector, it reads behind its end. -/
theorem finished_threads_joined (stale : ℕ → ℕ) (joinableThreads : List ℕ) (clientThreads : Finset ℕ)
    (hnodup : joinableThreads.Nodup) (hids : ∀ id ∈ joinableThreads, id ∈ clientThreads) :
    (Reaped joinableThreads clientThreads (reap stale joinableThreads clientThreads) ↔
      joinableThreads.length ≤ 1) ∧
    (List.range ((joinableThreads.length + 1) / 2)).foldl (reapTurn stale)
        { joinableThreads := joinableThreads, clientThreads := clientThreads } =
      { joinableThreads := everyOther joinableThreads.tail
        clientThreads := clientThreads \ (everyOther joinableThreads).toFinset
        joined := everyOther joinableThreads
        outOfBounds := false } := by
  refine ⟨⟨fun h => ?_, fun h => ?_⟩, reap_half stale hnodup hids⟩
  · by_contra hlt
    have hout := reap_outOfBounds stale hnodup hids (by omega)
    exact absurd (h.1.symm.trans hout) (by decide)
  · -- all the places are in bounds
    have hall : (joinableThreads.length + 1) / 2 = joinableThreads.length := by omega
    have hhalf := reap_half stale hnodup hids
    rw [hall] at hhalf
    have hshort : everyOther joinableThreads = joinableThreads ∧ everyOther joinableThreads.tail = [] := by
      match joinableThreads, h with
      | [], _ => exact ⟨rfl, rfl⟩
      | [id], _ => exact ⟨rfl, rfl⟩
    rw [hshort.1, hshort.2] at hhalf
    unfold Reaped reap
    rw [hhalf]
    exact ⟨rfl, .refl _, rfl, rfl⟩

/-- One thread has finished. -/
theorem finished_threads_joined_one :
    (Reaped [4] {1, 4} (reap (fun _ => 0) [4] {1, 4}) ↔ [4].length ≤ 1) ∧
    (List.range (([4].length + 1) / 2)).foldl (reapTurn fun _ => 0)
        { joinableThreads := [4], clientThreads := {1, 4} } =
      { joinableThreads := everyOther [4].tail
        clientThreads := {1, 4} \ (everyOther [4]).toFinset
        joined := everyOther [4]
        outOfBounds := false } :=
  finished_threads_joined (fun _ => 0) [4] {1, 4} (by decide) (by decide)

/-- **Two threads finish, and the loop leaves its bounds**; of three it passes over the second one even
where the reads behind the end give what the vector held there before; and where they give the number of
a thread that goes on, the loop waits for that thread to end. -/
theorem finished_threads_missed :
    ¬(∀ (stale : ℕ → ℕ) (joinableThreads : List ℕ) (clientThreads : Finset ℕ), joinableThreads.Nodup →
      (∀ id ∈ joinableThreads, id ∈ clientThreads) →
      Reaped joinableThreads clientThreads (reap stale joinableThreads clientThreads)) ∧
    reap (fun _ => 5) [4, 5] {1, 4, 5} =
      { joinableThreads := [], clientThreads := {1}, joined := [4, 5], outOfBounds := true } ∧
    reap (fun _ => 6) [4, 5, 6] {1, 4, 5, 6} =
      { joinableThreads := [5], clientThreads := {1, 5}, joined := [4, 6], outOfBounds := true } ∧
    reap (fun _ => 1) [4, 5] {1, 4, 5} =
      { joinableThreads := [5], clientThreads := {5}, joined := [4, 1], outOfBounds := true } := by
  refine ⟨fun h => ?_, by decide, by decide, by decide⟩
  have hreaped := h (fun _ => 6) [4, 5, 6] {1, 4, 5, 6} (by decide) (by decide)
  exact absurd hreaped (by decide)

end Kierki.Serwer
