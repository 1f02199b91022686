import IssueSearch.Monitor.Stats
import Mathlib
/-!
What the window of a monitor holds: the last measurements since it was reset, as many as there is
room for. The operations of the window take it apart, each measurement going to one of them.
-/
namespace IssueSearch.Monitor

/-! ### The last items -/

section KeepLast

variable {α β : Type}

theorem length_keepLast (n : Nat) (xs : List α) : (keepLast n xs).length = min xs.length n := by
  rw [keepLast, List.length_drop]
  omega

theorem keepLast_sublist (n : Nat) (xs : List α) : (keepLast n xs).Sublist xs :=
  List.drop_sublist _ _

theorem map_keepLast (f : α → β) (n : Nat) (xs : List α) :
    (keepLast n xs).map f = keepLast n (xs.map f) := by
  rw [keepLast, keepLast, List.map_drop, List.length_map]

/-- What was left behind before is left behind later. -/
theorem keepLast_keepLast_append (n : Nat) (xs ys : List α) :
    keepLast n (keepLast n xs ++ ys) = keepLast n (xs ++ ys) := by
  have hle : xs.length - n ≤ xs.length := Nat.sub_le _ _
  rw [keepLast, keepLast, keepLast, ← List.drop_append_of_le_length hle, List.drop_drop]
  congr 1
  simp only [List.length_drop, List.length_append]
  omega

/-- The last items, as many as a monitor has room for. -/
def lastOf (m : Monitor) (xs : List α) : List α :=
  match m.capacity with
  | some n => keepLast n xs
  | none => xs

theorem lastOf_sublist (m : Monitor) (xs : List α) : (m.lastOf xs).Sublist xs := by
  rw [lastOf]
  split
  · exact keepLast_sublist _ xs
  · exact .refl xs

theorem map_lastOf (f : α → β) (m : Monitor) (xs : List α) :
    (m.lastOf xs).map f = m.lastOf (xs.map f) := by
  rw [lastOf, lastOf]
  split
  · exact map_keepLast f _ xs
  · rfl

theorem lastOf_lastOf_append (m : Monitor) (xs ys : List α) :
    m.lastOf (m.lastOf xs ++ ys) = m.lastOf (xs ++ ys) := by
  simp only [lastOf]
  split
  · exact keepLast_keepLast_append _ xs ys
  · rfl

theorem lastOf_congr {m m' : Monitor} (hcapacity : m.capacity = m'.capacity) (xs : List α) :
    m.lastOf xs = m'.lastOf xs := by
  rw [lastOf, lastOf, hcapacity]

end KeepLast

theorem capacity_keep (m : Monitor) (x : Measurement) : (m.keep x).capacity = m.capacity := by
  unfold keep
  split <;> rfl

theorem window_keep (m : Monitor) (x : Measurement) :
    (m.keep x).window = m.lastOf (m.window ++ [x]) := by
  simp only [keep, lastOf]
  cases m.capacity <;> rfl

/-! ### Runs -/

/-- What a monitor can be told to do with measurements. -/
inductive Command where
  | track (x : Measurement)
  | reset

def step (m : Monitor) : Command → Monitor
  | .track x => (m.track x).1
  | .reset => m.reset

def run (m : Monitor) (commands : List Command) : Monitor := commands.foldl step m

/-- The measurements that have been tracked since the last reset. -/
def sinceReset (commands : List Command) : List Measurement :=
  commands.foldl (fun tracked command =>
    match command with
    | .track x => tracked ++ [x]
    | .reset => []) []

theorem run_concat (m : Monitor) (commands : List Command) (command : Command) :
    m.run (commands ++ [command]) = (m.run commands).step command := by
  rw [run, List.foldl_append]
  rfl

theorem capacity_run (m : Monitor) (commands : List Command) :
    (m.run commands).capacity = m.capacity := by
  induction commands using List.reverseRecOn with
  | nil => rfl
  | append_singleton commands command ih =>
      rw [run_concat]
      cases command with
      | track x => exact (capacity_keep _ x).trans ih
      | reset => exact ih

/-- The window holds the last measurements since the last reset. -/
theorem window_run {m : Monitor} (hempty : m.window = []) (commands : List Command) :
    (m.run commands).window = m.lastOf (sinceReset commands) := by
  have hnone : m.lastOf ([] : List Measurement) = [] :=
    List.sublist_nil.1 (lastOf_sublist m [])
  induction commands using List.reverseRecOn with
  | nil => exact hempty.trans hnone.symm
  | append_singleton commands command ih =>
      rw [run_concat, sinceReset, List.foldl_append]
      cases command with
      | track x =>
          have hkeep := window_keep (m.run commands) x
          rw [ih, lastOf_congr (capacity_run m commands), lastOf_lastOf_append] at hkeep
          exact hkeep
      | reset => exact hnone.symm

/-! ### Operations -/

/-- The names of some measurements, each once, behind those that were met before. -/
def namesFrom (names : List String) (xs : List Measurement) : List String :=
  xs.foldl
    (fun names x => if names.contains x.operation then names else names ++ [x.operation]) names

theorem operations_eq (m : Monitor) : m.operations = namesFrom [] m.window := rfl

theorem namesFrom_concat (names : List String) (xs : List Measurement) (x : Measurement) :
    namesFrom names (xs ++ [x]) = if x.operation ∈ namesFrom names xs then namesFrom names xs
      else namesFrom names xs ++ [x.operation] := by
  simp only [namesFrom, List.foldl_append, List.foldl_cons, List.foldl_nil, List.contains_iff_mem]

theorem mem_namesFrom {xs : List Measurement} {name : String} :
    name ∈ namesFrom [] xs ↔ name ∈ xs.map Measurement.operation := by
  induction xs using List.reverseRecOn with
  | nil => exact Iff.rfl
  | append_singleton xs x ih =>
      rw [namesFrom_concat, List.map_append, List.mem_append, ← ih, List.map_singleton,
        List.mem_singleton]
      split
      · rename_i hmet
        exact ⟨.inl, fun hname => hname.elim id (· ▸ hmet)⟩
      · rw [List.mem_append, List.mem_singleton]

/-- Names come in the order in which they are first met. -/
theorem namesFrom_ordered (xs : List Measurement) : (namesFrom [] xs).Pairwise fun a b =>
    (xs.map Measurement.operation).idxOf a < (xs.map Measurement.operation).idxOf b := by
  induction xs using List.reverseRecOn with
  | nil => exact .nil
  | append_singleton xs x ih =>
      have hplace {name : String} (hname : name ∈ namesFrom [] xs) :
          ((xs ++ [x]).map Measurement.operation).idxOf name =
            (xs.map Measurement.operation).idxOf name := by
        rw [List.map_append, List.idxOf_append_of_mem (mem_namesFrom.1 hname)]
      have hfront : (namesFrom [] xs).Pairwise fun a b =>
          ((xs ++ [x]).map Measurement.operation).idxOf a <
            ((xs ++ [x]).map Measurement.operation).idxOf b := by
        refine ih.imp_of_mem fun ha hb hlt => ?_
        rwa [hplace ha, hplace hb]
      rw [namesFrom_concat]
      split
      · exact hfront
      · rename_i hnew
        refine List.pairwise_append.2 ⟨hfront, List.pairwise_singleton _ _, ?_⟩
        intro a ha b hb
        rw [mem_namesFrom] at ha hnew
        rw [List.mem_singleton.1 hb, List.map_append, List.idxOf_append_of_mem ha,
          List.idxOf_append_of_notMem hnew]
        exact Nat.lt_add_right _ (List.idxOf_lt_length_of_mem ha)

theorem mem_operations {m : Monitor} {name : String} :
    name ∈ m.operations ↔ ∃ x ∈ m.window, x.operation = name := by
  rw [operations_eq, mem_namesFrom, List.mem_map]

/-- The operations are listed by their first occurrence in the window. -/
theorem operations_ordered (m : Monitor) : m.operations.Pairwise fun a b =>
    (m.window.map Measurement.operation).idxOf a < (m.window.map Measurement.operation).idxOf b :=
  namesFrom_ordered m.window

theorem operations_nodup (m : Monitor) : m.operations.Nodup := by
  refine m.operations_ordered.imp fun hlt heq => ?_
  rw [heq] at hlt
  exact Nat.lt_irrefl _ hlt

/-- Each measurement is in the selection of one of the operations. -/
theorem sum_length_selection (m : Monitor) :
    (m.operations.map fun name => (m.selection (some name)).length).sum = m.window.length := by
  have hperm : m.operations.Perm (m.window.map Measurement.operation).dedup := by
    refine (List.perm_ext_iff_of_nodup m.operations_nodup (List.nodup_dedup _)).2 fun name => ?_
    rw [List.mem_dedup, operations_eq, mem_namesFrom]
  have hcount (name : String) : (m.selection (some name)).length =
      (m.window.map Measurement.operation).count name := by
    rw [selection, List.count, List.countP_map, List.countP_eq_length_filter]
    rfl
  simp only [hcount]
  rw [(hperm.map _).sum_nat, List.sum_map_count_dedup_eq_length, List.length_map]

end IssueSearch.Monitor
