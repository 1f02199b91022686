import IssueSearch.Proofs.Monitor.Stats
import IssueSearch.Proofs.Monitor.Window
/-!
Statistics over the whole window and over each of its operations: they count the same measurements,
and the extremes of the whole are found among those of the operations.
-/
namespace IssueSearch.Monitor

/-- Statistics of the whole window agree with those of its operations. -/
structure Agree (m : Monitor) (whole : OperationStats) (each : String → OperationStats) : Prop where
  count_sum : (m.operations.map fun name => (each name).count).sum = whole.count
  least_le : ∀ name ∈ m.operations, (each name).least.lt whole.least = false
  least_met : m.window ≠ [] →
    ∃ name ∈ m.operations, (each name).least.position? = whole.least.position?
  le_greatest : ∀ name ∈ m.operations, whole.greatest.lt (each name).greatest = false
  greatest_met : m.window ≠ [] →
    ∃ name ∈ m.operations, (each name).greatest.position? = whole.greatest.position?

section

variable {m : Monitor}

theorem selection_sublist (operation : Option String) :
    (m.selection operation).Sublist m.window := by
  cases operation with
  | none => exact .refl _
  | some name => exact List.filter_sublist

theorem mem_selection {x : Measurement} (hx : x ∈ m.window) :
    x ∈ m.selection (some x.operation) :=
  List.mem_filter.2 ⟨hx, beq_self_eq_true _⟩

/-- No operation of the window has an empty selection. -/
theorem selection_ne_nil {name : String} (hname : name ∈ m.operations) :
    m.selection (some name) ≠ [] := by
  obtain ⟨x, hx, rfl⟩ := mem_operations.1 hname
  exact List.ne_nil_of_mem (mem_selection hx)

theorem stats_of_empty {operation : Option String} (hempty : m.selection operation = []) :
    m.stats operation = .ok {} := by
  rw [stats, hempty]
  rfl

theorem stats_count {operation : Option String} {s : OperationStats}
    (hstats : m.stats operation = .ok s) : s.count = (m.selection operation).length := by
  by_cases hempty : m.selection operation = []
  · rw [stats_of_empty hempty] at hstats
    cases hstats
    rw [hempty]
    rfl
  · exact (figures_of_statsOf hempty hstats).count_eq

variable (hlies : ∀ x ∈ m.window, x.duration.Lies)

include hlies

theorem describes_of_stats {operation : Option String} {s : OperationStats}
    (hne : m.selection operation ≠ []) (hstats : m.stats operation = .ok s) :
    Describes (m.selection operation) s :=
  (figures_of_statsOf hne hstats).describes hne fun x hx =>
    hlies x ((selection_sublist operation).subset hx)

/-- Statistics of the whole window agree with those of its operations: the extremes of the window
are those of the operations that they belong to. -/
theorem agree_of_stats {whole : OperationStats} {each : String → OperationStats}
    (hwhole : m.stats none = .ok whole)
    (heach : ∀ name ∈ m.operations, m.stats (some name) = .ok (each name)) :
    Agree m whole each := by
  have hdescribes {name : String} (hname : name ∈ m.operations) :
      Describes (m.selection (some name)) (each name) :=
    describes_of_stats hlies (selection_ne_nil hname) (heach name hname)
  have hall (hne : m.window ≠ []) : Describes m.window whole :=
    describes_of_stats hlies (show m.selection none ≠ [] from hne) hwhole
  have hinside {name : String} {x : Measurement} (hx : x ∈ m.selection (some name)) :
      x ∈ m.window :=
    (selection_sublist (some name)).subset hx
  have hfilled {name : String} (hname : name ∈ m.operations) : m.window ≠ [] := by
    obtain ⟨x, hx, -⟩ := mem_operations.1 hname
    exact List.ne_nil_of_mem hx
  constructor
  · have hcounts : (m.operations.map fun name => (each name).count) =
        m.operations.map fun name => (m.selection (some name)).length :=
      List.map_congr_left fun name hname => stats_count (heach name hname)
    rw [hcounts, sum_length_selection, stats_count hwhole]
    rfl
  · intro name hname
    obtain ⟨x, hx, heq⟩ := (hdescribes hname).least_mem
    exact heq ▸ (hall (hfilled hname)).least_le x (hinside hx)
  · intro hne
    obtain ⟨x, hx, heq⟩ := (hall hne).least_mem
    have hname := mem_operations.2 ⟨x, hx, rfl⟩
    exact ⟨x.operation, hname, position?_least_eq (hall hne) (hdescribes hname)
      (fun _ => hinside) hlies (mem_selection hx) heq⟩
  · intro name hname
    obtain ⟨x, hx, heq⟩ := (hdescribes hname).greatest_mem
    exact heq ▸ (hall (hfilled hname)).le_greatest x (hinside hx)
  · intro hne
    obtain ⟨x, hx, heq⟩ := (hall hne).greatest_mem
    have hname := mem_operations.2 ⟨x, hx, rfl⟩
    exact ⟨x.operation, hname, position?_greatest_eq (hall hne) (hdescribes hname)
      (fun _ => hinside) hlies (mem_selection hx) heq⟩

end

/-- What has been tracked since the last reset is among all that was tracked. -/
theorem tracked_of_mem_sinceReset {commands : List Command} {x : Measurement}
    (hx : x ∈ sinceReset commands) : .track x ∈ commands := by
  induction commands using List.reverseRecOn with
  | nil => cases hx
  | append_singleton commands command ih =>
      rw [sinceReset, List.foldl_append] at hx
      cases command with
      | track y =>
          rcases List.mem_append.1 hx with hx | hx
          · exact List.mem_append_left _ (ih hx)
          · rw [List.mem_singleton.1 hx]
            exact List.mem_append_right _ (List.mem_singleton.2 rfl)
      | reset => cases hx

/-- Statistics describe the window, whatever a monitor was told to track and to forget: which
measurements there are and on which operations, where the figures of a selection lie among its
durations, when there are figures, and how those of all operations follow from those of each. -/
theorem run_stats (capacity : Nat) (slowThreshold : Number) (commands : List Command)
    (hlies : ∀ x, .track x ∈ commands → x.duration.Lies) :
    let m := run { capacity := some capacity, slowThreshold } commands
    (m.window = keepLast capacity (sinceReset commands) ∧
      m.window.length = min (sinceReset commands).length capacity) ∧
    (m.operations.Nodup ∧
      (∀ name, name ∈ m.operations ↔ ∃ x ∈ m.window, x.operation = name) ∧
      m.operations.Pairwise fun a b => (m.window.map Measurement.operation).idxOf a <
        (m.window.map Measurement.operation).idxOf b) ∧
    (∀ operation, m.selection operation ≠ [] →
      let count := (m.selection operation).length
      p95Index count < count ∧
        (count < 1185157796676461 → p95Index count = 19 * count / 20) ∧
        ∀ s, m.stats operation = .ok s →
          (sortedDurations (m.selection operation))[p95Index count]? = some s.p95 ∧
            Describes (m.selection operation) s) ∧
    (∀ operation, Small (m.selection operation) → ∃ s, m.stats operation = .ok s) ∧
    ∀ whole each, m.stats none = .ok whole →
      (∀ name ∈ m.operations, m.stats (some name) = .ok (each name)) →
      whole.count = min (sinceReset commands).length capacity ∧ Agree m whole each := by
  intro m
  have hwindow : m.window = keepLast capacity (sinceReset commands) :=
    window_run rfl commands
  have hlength : m.window.length = min (sinceReset commands).length capacity := by
    rw [hwindow, length_keepLast]
  have hinside : ∀ x ∈ m.window, x.duration.Lies := by
    intro x hx
    rw [hwindow] at hx
    exact hlies x (tracked_of_mem_sinceReset ((keepLast_sublist _ _).subset hx))
  refine ⟨⟨hwindow, hlength⟩,
    ⟨m.operations_nodup, fun _ => mem_operations, m.operations_ordered⟩, ?_,
    fun operation hsmall => statsOf_ok hsmall, ?_⟩
  · intro operation hne count
    refine ⟨p95Index_lt (List.length_pos_iff.2 hne), p95Index_eq, fun s hstats => ?_⟩
    exact ⟨(figures_of_statsOf hne hstats).p95_eq, describes_of_stats hinside hne hstats⟩
  · intro whole each hwhole heach
    exact ⟨(stats_count hwhole).trans hlength, agree_of_stats hinside hwhole heach⟩

/-- Three measurements of two operations, and one before them that is forgotten. -/
def trackedThrice : List Command :=
  [.track ⟨"load", .int 3, true, false⟩, .reset, .track ⟨"sync", .int 8, true, false⟩,
    .track ⟨"load", .float 5.0, false, false⟩, .track ⟨"sync", .int 4, true, true⟩]

theorem run_stats_trackedThrice :
    let m := run { capacity := some 2, slowThreshold := .int 1000 } trackedThrice
    (∀ x, .track x ∈ trackedThrice → x.duration.Lies) ∧
      m.window.map Measurement.duration = [.float 5.0, .int 4] ∧
      m.operations = ["load", "sync"] ∧
      ∃ s, m.stats none = .ok s ∧ s.count = 2 ∧ Describes (m.selection none) s := by
  intro m
  have hlies : ∀ x, .track x ∈ trackedThrice → x.duration.Lies := by
    intro x hx
    simp only [trackedThrice, List.mem_cons, Command.track.injEq, List.not_mem_nil, or_false,
      reduceCtorEq, false_or] at hx
    rcases hx with rfl | rfl | rfl | rfl <;> rfl
  obtain ⟨-, -, hselections, hexist, -⟩ := run_stats 2 (.int 1000) trackedThrice hlies
  obtain ⟨s, hstats⟩ := hexist none (by decide +kernel)
  obtain ⟨-, -, hdescribes⟩ := hselections none (by decide +kernel)
  have hall := (hdescribes s hstats).2
  exact ⟨hlies, rfl, rfl, s, hstats, hall.count_eq, hall⟩

/-- A duration so long that no double is near it has no statistics. Of more measurements than any
memory holds the place of the percentile would be another one, and of still more a twentieth could
lie behind it. -/
theorem stats_beyondDoubles :
    let x : Measurement := ⟨"sync", .int (10 ^ 400), true, false⟩
    let m := run { capacity := some 1 } [.track x]
    (x.duration.Lies ∧ m.operations = ["sync"] ∧ m.stats none = .error .quotient) ∧
      p95Index 1185157796676461 ≠ 19 * 1185157796676461 / 20 ∧
      2 ^ 53 + 1 ≤ 20 * (2 ^ 53 + 1 - (p95Index (2 ^ 53 + 1) + 1)) := by
  intro x m
  have hbeyond : Decimal.beyondDoubles * 1 ≤ (0 + 10 ^ 400 : Int).natAbs := by decide +kernel
  have hdiv : (Number.int (0 + 10 ^ 400)).divNat [x].length = .error .quotient := by
    rw [Number.divNat, Decimal.nearestQuotient, List.length_singleton, if_pos hbeyond]
  exact ⟨⟨rfl, rfl, statsOf_eq_error (List.cons_ne_nil x []) rfl hdiv⟩, by decide +kernel,
    by decide +kernel⟩

end IssueSearch.Monitor
