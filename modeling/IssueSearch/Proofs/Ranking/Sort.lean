import IssueSearch.Proofs.Ranking.Merge
import IssueSearch.Ranking.Sort
/-!
Sorting puts a list in order. Runs that wait to be merged stay runs, whatever the order in which
they are merged, and no item is lost on the way.
-/
namespace IssueSearch.Ranking

variable {α : Type} {lt : α → α → Bool} {p : α → Prop}

/-- The items of runs that wait to be merged, in the order of the list that they come from. -/
def waiting (pending : List (Pending α)) : List α := pending.reverse.flatMap Pending.items

theorem waiting_cons (last : Pending α) (pending : List (Pending α)) :
    waiting (last :: pending) = waiting pending ++ last.items := by
  simp [waiting]

/-- All that wait are runs. -/
def Runs (lt : α → α → Bool) (p : α → Prop) (pending : List (Pending α)) : Prop :=
  ∀ run ∈ pending, Run lt p run.items

theorem runs_cons {last : Pending α} {pending : List (Pending α)} :
    Runs lt p (last :: pending) ↔ Run lt p last.items ∧ Runs lt p pending :=
  List.forall_mem_cons

theorem waiting_merge (lt : α → α → Bool) (patience : Nat) (previous last : Pending α)
    (earlier : List (Pending α)) :
    (waiting earlier ++ (merge lt patience previous.items last.items).1).Perm
      (waiting (last :: previous :: earlier)) := by
  rw [waiting_cons, waiting_cons, List.append_assoc]
  exact (merge_perm lt patience _ _).append_left _

theorem settle_perm (lt : α → α → Bool) (depth : Nat) (last : Pending α)
    (earlier : List (Pending α)) (patience : Nat) :
    (waiting (settle lt depth last earlier patience).1).Perm (waiting (last :: earlier)) := by
  induction earlier generalizing last patience with
  | nil => exact .refl _
  | cons previous earlier ih =>
      rw [settle]
      split
      · refine (ih _ _).trans ?_
        rw [waiting_cons]
        exact waiting_merge lt patience previous last earlier
      · rw [waiting_cons, waiting_cons last]

theorem settle_runs (horders : Orders lt p) (depth : Nat) {last : Pending α}
    {earlier : List (Pending α)} (patience : Nat) (hruns : Runs lt p (last :: earlier)) :
    Runs lt p (settle lt depth last earlier patience).1 := by
  induction earlier generalizing last patience with
  | nil =>
      have hlast := (runs_cons.1 hruns).1
      exact runs_cons.2 ⟨hlast, fun _ h => absurd h List.not_mem_nil⟩
  | cons previous earlier ih =>
      obtain ⟨hlast, hearlier⟩ := runs_cons.1 hruns
      obtain ⟨hprevious, hrest⟩ := runs_cons.1 hearlier
      rw [settle]
      split
      · exact ih _ (runs_cons.2 ⟨merge_run horders patience hprevious hlast, hrest⟩)
      · exact runs_cons.2 ⟨hlast, hearlier⟩

theorem mergeAll_perm (lt : α → α → Bool) (fuel patience : Nat) (pending : List (Pending α)) :
    (mergeAll lt fuel patience pending).Perm (waiting pending) := by
  induction fuel generalizing patience pending with
  | zero => exact .refl _
  | succ fuel ih =>
      match pending with
      | [] | [last] => exact .refl _
      | [last, previous] => exact waiting_merge lt patience previous last []
      | last :: previous :: first :: earlier =>
          rw [mergeAll]
          split
          · refine (ih _ _).trans ?_
            rw [waiting_cons, waiting_cons, waiting_cons]
            exact (waiting_merge lt patience first previous earlier).append_right _
          · refine (ih _ _).trans ?_
            rw [waiting_cons]
            exact waiting_merge lt patience previous last (first :: earlier)

theorem mergeAll_run (horders : Orders lt p) {fuel : Nat} (patience : Nat)
    {pending : List (Pending α)} (hfuel : pending.length ≤ fuel) (hruns : Runs lt p pending) :
    Run lt p (mergeAll lt fuel patience pending) := by
  induction fuel generalizing patience pending with
  | zero =>
      obtain rfl := List.length_eq_zero_iff.1 (Nat.le_zero.1 hfuel)
      exact ⟨by simp [mergeAll], by simp [mergeAll]⟩
  | succ fuel ih =>
      match pending with
      | [] => exact ⟨by simp [mergeAll], by simp [mergeAll]⟩
      | [last] =>
          have hitems : mergeAll lt (fuel + 1) patience [last] = last.items := by simp [mergeAll]
          rw [hitems]
          exact hruns last List.mem_cons_self
      | [last, previous] =>
          exact merge_run horders patience (hruns previous (by simp)) (hruns last (by simp))
      | last :: previous :: first :: earlier =>
          obtain ⟨hlast, hothers⟩ := runs_cons.1 hruns
          obtain ⟨hprevious, hothers⟩ := runs_cons.1 hothers
          obtain ⟨hfirst, hearlier⟩ := runs_cons.1 hothers
          simp only [List.length_cons] at hfuel
          rw [mergeAll]
          split
          · refine ih _ (by simp only [List.length_cons]; omega) ?_
            exact runs_cons.2 ⟨hlast, runs_cons.2
              ⟨merge_run horders patience hfirst hprevious, hearlier⟩⟩
          · refine ih _ (by simp only [List.length_cons]; omega) ?_
            exact runs_cons.2 ⟨merge_run horders patience hprevious hlast,
              runs_cons.2 ⟨hfirst, hearlier⟩⟩

/-- The runs that wait when another has been found. -/
def settled (lt : α → α → Bool) (length count patience : Nat) :
    List (Pending α) → List (Pending α) × Nat
  | [] => ([], patience)
  | last :: earlier =>
      settle lt (boundaryDepth length last.start last.items.length count) last earlier patience

theorem divide_eq (lt : α → α → Bool) (length least fuel start patience : Nat)
    (pending : List (Pending α)) (x : α) (xs : List α) :
    divide lt length least (fuel + 1) start patience pending (x :: xs) =
      let run := nextRun lt least (x :: xs)
      let before := settled lt length run.1.length patience pending
      divide lt length least fuel (start + run.1.length) before.2
        ({ start, items := run.1 } :: before.1) run.2 := by
  cases pending <;> rfl

theorem settled_perm (lt : α → α → Bool) (length count patience : Nat)
    (pending : List (Pending α)) :
    (waiting (settled lt length count patience pending).1).Perm (waiting pending) := by
  cases pending with
  | nil => exact .refl _
  | cons last earlier => exact settle_perm lt _ last earlier patience

theorem settled_runs (horders : Orders lt p) (length count patience : Nat)
    {pending : List (Pending α)} (hruns : Runs lt p pending) :
    Runs lt p (settled lt length count patience pending).1 := by
  cases pending with
  | nil => exact hruns
  | cons last earlier => exact settle_runs horders _ patience hruns

theorem divide_perm (lt : α → α → Bool) (length least fuel start patience : Nat)
    (pending : List (Pending α)) (xs : List α) :
    (divide lt length least fuel start patience pending xs).Perm (waiting pending ++ xs) := by
  induction fuel generalizing start patience pending xs with
  | zero => exact (mergeAll_perm lt _ patience pending).append_right _
  | succ fuel ih =>
      cases xs with
      | nil => exact (mergeAll_perm lt _ patience pending).append_right _
      | cons x xs =>
          rw [divide_eq]
          refine (ih _ _ _ _).trans ?_
          rw [waiting_cons, List.append_assoc]
          exact (settled_perm lt length _ patience pending).append (nextRun_perm lt least (x :: xs))

theorem divide_run (horders : Orders lt p) (length least : Nat) {fuel : Nat} (start patience : Nat)
    {pending : List (Pending α)} {xs : List α} (hfuel : xs.length ≤ fuel)
    (hruns : Runs lt p pending) (hall : ∀ a ∈ xs, p a) :
    Run lt p (divide lt length least fuel start patience pending xs) := by
  induction fuel generalizing start patience pending xs with
  | zero =>
      obtain rfl := List.length_eq_zero_iff.1 (Nat.le_zero.1 hfuel)
      change Run lt p (mergeAll lt pending.length patience pending ++ [])
      rw [List.append_nil]
      exact mergeAll_run horders patience (Nat.le_refl _) hruns
  | succ fuel ih =>
      cases xs with
      | nil =>
          change Run lt p (mergeAll lt pending.length patience pending ++ [])
          rw [List.append_nil]
          exact mergeAll_run horders patience (Nat.le_refl _) hruns
      | cons x xs =>
          rw [divide_eq]
          have hshrinks := nextRun_shrinks lt least x xs
          rw [List.length_cons] at hfuel
          refine ih _ _ (by omega) ?_ fun a ha => ?_
          · exact runs_cons.2 ⟨nextRun_run horders least hall,
              settled_runs horders length _ patience hruns⟩
          · exact hall a ((nextRun_perm lt least (x :: xs)).subset (List.mem_append_right _ ha))

/-- Sorting loses and adds nothing. -/
theorem sorted_perm (lt : α → α → Bool) (xs : List α) : (sorted lt xs).Perm xs :=
  divide_perm lt _ _ _ _ _ [] xs

/-- Sorting by a strict weak order puts in order. -/
theorem sorted_run (horders : Orders lt p) {xs : List α} (hall : ∀ a ∈ xs, p a) :
    Run lt p (sorted lt xs) :=
  divide_run horders _ _ _ _ (Nat.le_refl _) (fun _ h => absurd h List.not_mem_nil) hall

end IssueSearch.Ranking
