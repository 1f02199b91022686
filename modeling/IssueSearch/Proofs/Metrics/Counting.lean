import IssueSearch.Proofs.Decimal.Quotient
import IssueSearch.Proofs.Metrics.Series
/-!
Durations and counters stay in step. On a library of counters a record counts once on either side if
its duration is a number and on neither if it is not, whatever was recorded before; so after any
records, in any order, both sides tell how many had a duration that is a number.
-/
namespace IssueSearch.Metrics

variable {σ δ : Type} {client : Client σ δ} {call : Call} {s s' : σ}

/-! ### Durations in seconds -/

/-- A duration is a number that lies in the range of doubles, or it is no number at all. A double
that is not a number is neither. -/
def InRange : Json → Prop
  | .float x => x.isNaN = false
  | .int n => n.natAbs < Decimal.beyondDoubles
  | _ => True

instance : DecidablePred InRange
  | .float x => inferInstanceAs (Decidable (x.isNaN = false))
  | .int n => inferInstanceAs (Decidable (n.natAbs < Decimal.beyondDoubles))
  | .null | .bool _ | .str _ | .arr _ | .obj _ | .foreign _ => inferInstanceAs (Decidable True)

/-- Numbers in range have a value in seconds. -/
theorem seconds?_of_number {duration : Json} {a : Number} (hrange : InRange duration)
    (hnumber : Number.ofJson? duration = some a) :
    ∃ seconds, seconds? duration = some seconds ∧ seconds.isNaN = false := by
  cases duration with
  | bool b => exact ⟨_, rfl, by cases b <;> decide⟩
  | int n =>
      have hfinite := Decimal.isFinite_thousandth (decide (n < 0)) hrange
      refine ⟨_, ?_, Decimal.isNaN_of_isFinite hfinite⟩
      rw [seconds?, Decimal.isInf_of_isFinite hfinite]
      rfl
  | float x => exact ⟨_, rfl, Decimal.isNaN_div hrange Decimal.unpack_thousand⟩
  | _ => exact absurd hnumber.symm (Option.some_ne_none a)

/-- What is no number has none. -/
theorem seconds?_of_no_number {duration : Json} (hnumber : Number.ofJson? duration = none) :
    seconds? duration = none := by
  cases duration with
  | bool _ | int _ | float _ => exact absurd hnumber (Option.some_ne_none _)
  | _ => rfl

/-! ### One record -/

/-- A record counts under some labels: they are its own, and its duration is a number. -/
def Call.countsUnder (call : Call) (labels : Labels) : Bool :=
  call.labels == labels && (Number.ofJson? call.duration).isSome

namespace Client

theorem observed_of_some {labels : Labels} {durations : δ}
    (hdurations : client.durations? s labels = some durations) :
    client.observed s labels = client.count durations := by
  rw [observed, hdurations]

theorem observed_congr {labels : Labels}
    (hsame : client.durations? s' labels = client.durations? s labels) :
    client.observed s' labels = client.observed s labels := by
  rw [observed, observed, hsame]

theorem counted_congr {labels : Labels}
    (hsame : client.total? s' labels = client.total? s labels) :
    client.counted s' labels = client.counted s labels := by
  rw [counted, counted, hsame]

/-- Asked for and added to, durations are one more, and others as many as before. -/
theorem Counting.observes (hcounting : client.Counting) (labels : Labels) {seconds : Float}
    (hnumber : seconds.isNaN = false) (s : σ) :
    ∃ opened s', (client.openDurations labels).runOn s = (.ok (), opened) ∧
      (client.observe labels seconds).runOn opened = (.ok (), s') ∧
      (∀ other, client.observed s' other =
        client.observed s other + if labels = other then 1 else 0) ∧
      ∀ other, client.total? s' other = client.total? s other := by
  obtain ⟨opened, hopen, hopened, htotals⟩ := hcounting.openDurations labels s
  have hself := hopened labels
  rw [if_pos rfl] at hself
  obtain ⟨s', new, hobserve, hcount, hobserved, htotals'⟩ :=
    hcounting.observe labels seconds opened _ hnumber hself
  refine ⟨opened, s', hopen, hobserve, fun other => ?_, fun other => ?_⟩
  · by_cases hother : labels = other
    · subst hother
      have hnew := hobserved labels
      rw [if_pos rfl] at hnew
      rw [if_pos rfl, observed_of_some hnew, hcount, observed]
      cases client.durations? s labels with
      | none => rw [Option.getD_none, hcounting.count_fresh]
      | some old => rfl
    · rw [if_neg hother, Nat.add_zero]
      refine observed_congr ?_
      rw [hobserved, if_neg (Ne.symm hother), hopened, if_neg (Ne.symm hother)]
  · rw [htotals', htotals]

/-- Asked for and added to, a counter is one more, and others are as before. -/
theorem Counting.counts (hcounting : client.Counting) (labels : Labels) (s : σ) :
    ∃ opened s', (client.openTotal labels).runOn s = (.ok (), opened) ∧
      (client.increment labels).runOn opened = (.ok (), s') ∧
      (∀ other, client.counted s' other =
        client.counted s other + if labels = other then 1 else 0) ∧
      ∀ other, client.durations? s' other = client.durations? s other := by
  obtain ⟨opened, hopen, hopened, hdurations⟩ := hcounting.openTotal labels s
  have hself := hopened labels
  rw [if_pos rfl] at hself
  obtain ⟨s', hincrement, hcounted, hdurations'⟩ := hcounting.increment labels opened _ hself
  refine ⟨opened, s', hopen, hincrement, fun other => ?_, fun other => ?_⟩
  · rw [counted, hcounted]
    by_cases hother : labels = other
    · subst hother
      rw [if_pos rfl, if_pos rfl]
      rfl
    · rw [if_neg (Ne.symm hother), hopened, if_neg (Ne.symm hother), if_neg hother]
      rfl
  · rw [hdurations', hdurations]

/-- Between two states both sides have counted as many more, each under its labels. -/
def CountsMore (client : Client σ δ) (s s' : σ) (more : Labels → Nat) : Prop :=
  ∀ labels, client.counted s' labels = client.counted s labels + more labels ∧
    client.observed s' labels = client.observed s labels + more labels

/-- A record with a value in seconds is observed, then counted. -/
theorem Counting.emit_ok (hcounting : client.Counting) {seconds : Float}
    (hseconds : seconds? call.duration = some seconds) (hnumber : seconds.isNaN = false) (s : σ) :
    ∃ s', (client.emit call).runOn s = (.ok (), s') ∧
      client.CountsMore s s' fun labels => if call.labels = labels then 1 else 0 := by
  obtain ⟨opened, s₁, hopen, hobserve, hobserved, htotals⟩ :=
    hcounting.observes call.labels hnumber s
  obtain ⟨opened', s', hopen', hincrement, hcounted, hdurations⟩ :=
    hcounting.counts call.labels s₁
  have hworked : (Effect.seconds call.duration).runOn opened = (.ok seconds, opened) := by
    rw [Effect.seconds, hseconds]
    rfl
  refine ⟨s', ?_, fun labels => ⟨?_, ?_⟩⟩
  · rw [emit, Effect.runOn_bind_ok hopen, Effect.runOn_bind_ok hworked,
      Effect.runOn_bind_ok hobserve, Effect.runOn_bind_ok hopen', hincrement]
  · rw [hcounted, counted_congr (htotals labels)]
  · rw [observed_congr (hdurations labels), hobserved]

/-- A record without one is cut short when its durations have been asked for. -/
theorem Counting.emit_error (hcounting : client.Counting)
    (hseconds : seconds? call.duration = none) (s : σ) :
    ∃ s', (client.emit call).runOn s = (.error .duration, s') ∧
      (∀ other, other ≠ call.labels → client.durations? s' other = client.durations? s other) ∧
      (∀ labels, client.total? s' labels = client.total? s labels) ∧
      client.CountsMore s s' fun _ => 0 := by
  obtain ⟨s', hopen, hopened, htotals⟩ := hcounting.openDurations call.labels s
  have hworked : (Effect.seconds call.duration).runOn s' = (.error .duration, s') := by
    rw [Effect.seconds, hseconds]
    rfl
  refine ⟨s', ?_, fun other hother => ?_, htotals, fun labels => ⟨?_, ?_⟩⟩
  · rw [emit, Effect.runOn_bind_ok hopen, Effect.runOn_bind_error hworked]
  · rw [hopened, if_neg hother]
  · exact counted_congr (htotals labels)
  · by_cases hlabels : labels = call.labels
    · subst hlabels
      have hself := hopened call.labels
      rw [if_pos rfl] at hself
      rw [observed_of_some hself, observed]
      cases client.durations? s call.labels with
      | none => exact hcounting.count_fresh
      | some old => rfl
    · refine observed_congr ?_
      rw [hopened, if_neg hlabels]

/-! ### Records one after the other -/

/-- A record with a duration in range counts once on either side, or on neither. -/
theorem Counting.emit_counts (hcounting : client.Counting) (hrange : InRange call.duration)
    (s : σ) : client.CountsMore s ((client.emit call).runOn s).2 fun labels =>
      if call.countsUnder labels then 1 else 0 := by
  cases hnumber : Number.ofJson? call.duration with
  | none =>
      obtain ⟨s', hemit, -, -, hcounts⟩ :=
        hcounting.emit_error (seconds?_of_no_number hnumber) s
      rw [hemit]
      simpa [Call.countsUnder, hnumber] using hcounts
  | some a =>
      obtain ⟨seconds, hseconds, hnan⟩ := seconds?_of_number hrange hnumber
      obtain ⟨s', hemit, hcounts⟩ := hcounting.emit_ok hseconds hnan s
      rw [hemit]
      simpa [Call.countsUnder, hnumber] using hcounts

/-- After records both sides have counted those that count. -/
theorem Counting.after_counts (hcounting : client.Counting) {calls : List Call}
    (hrange : ∀ call ∈ calls, InRange call.duration) (s : σ) :
    client.CountsMore s (client.after s calls) fun labels =>
      calls.countP (·.countsUnder labels) := by
  induction calls generalizing s with
  | nil => exact fun _ => ⟨rfl, rfl⟩
  | cons call rest ih =>
      intro labels
      have hfirst := hcounting.emit_counts (hrange call List.mem_cons_self) s labels
      have hrest := ih (fun call hcall => hrange call (List.mem_cons_of_mem _ hcall))
        ((client.emit call).runOn s).2 labels
      dsimp only at hfirst hrest ⊢
      rw [after_cons, List.countP_cons]
      omega

/-- There are no series yet. -/
def Unused (client : Client σ δ) (s : σ) : Prop :=
  ∀ labels, client.durations? s labels = none ∧ client.total? s labels = none

/-- How a record fails: exactly if its duration is no number, and then it is logged, nothing is
raised, no counter comes to be or changes, and neither do durations under other labels. -/
structure FailsQuietly (client : Client σ δ) (s : σ) (call : Call) : Prop where
  fails_iff : (∃ fault s', (client.emit call).runOn s = (.error fault, s')) ↔
    Number.ofJson? call.duration = none
  leaves : ∀ fault s', (client.emit call).runOn s = (.error fault, s') →
    (client.record true call).runOn s = (.ok [emitFailed], s') ∧
    (∀ other, other ≠ call.labels → client.durations? s' other = client.durations? s other) ∧
    ∀ labels, client.total? s' labels = client.total? s labels

theorem Counting.failsQuietly (hcounting : client.Counting) (hrange : InRange call.duration)
    (s : σ) : client.FailsQuietly s call := by
  cases hnumber : Number.ofJson? call.duration with
  | none =>
      obtain ⟨left, hemit, hdurations, htotals, -⟩ :=
        hcounting.emit_error (seconds?_of_no_number hnumber) s
      refine ⟨⟨fun _ => hnumber, fun _ => ⟨_, _, hemit⟩⟩, fun fault s' hfails => ?_⟩
      obtain ⟨-, rfl⟩ := Prod.mk.inj (hemit.symm.trans hfails)
      exact ⟨record_of_failed hemit, hdurations, htotals⟩
  | some a =>
      obtain ⟨seconds, hseconds, hnan⟩ := seconds?_of_number hrange hnumber
      obtain ⟨left, hemit, -⟩ := hcounting.emit_ok hseconds hnan s
      have hnever : ∀ fault s', (client.emit call).runOn s ≠ (.error fault, s') := by
        intro fault s' hfails
        exact absurd (congrArg Prod.fst (hemit.symm.trans hfails)) (by simp)
      refine ⟨⟨?_, ?_⟩, fun fault s' hfails => absurd hfails (hnever fault s')⟩
      · rintro ⟨fault, s', hfails⟩
        exact absurd hfails (hnever fault s')
      · intro hnone
        exact absurd (hnumber.symm.trans hnone) (Option.some_ne_none a)

/-- What records in turn come to: none of them raises, both sides tell under all labels how many had
those labels and a duration that is a number, those that fail do so quietly, and what both sides
tell does not depend on the order. -/
structure InStep (client : Client σ δ) (start : σ) (calls : List Call) : Prop where
  completes : ∃ logs, (client.run calls).runOn start = (.ok logs, client.after start calls)
  counts : ∀ labels,
    client.counted (client.after start calls) labels = calls.countP (·.countsUnder labels) ∧
    client.observed (client.after start calls) labels = calls.countP (·.countsUnder labels)
  fails : ∀ before call later, calls = before ++ call :: later →
    client.FailsQuietly (client.after start before) call
  reordered : ∀ calls', calls'.Perm calls → ∀ labels,
    client.counted (client.after start calls') labels =
      client.counted (client.after start calls) labels ∧
    client.observed (client.after start calls') labels =
      client.observed (client.after start calls) labels

/-- From no series on, both sides tell how many records count. -/
theorem Counting.counts_of_unused (hcounting : client.Counting) {start : σ}
    (hunused : client.Unused start) {calls : List Call}
    (hrange : ∀ call ∈ calls, InRange call.duration) (labels : Labels) :
    client.counted (client.after start calls) labels = calls.countP (·.countsUnder labels) ∧
      client.observed (client.after start calls) labels =
        calls.countP (·.countsUnder labels) := by
  obtain ⟨hcounted, hobserved⟩ := hcounting.after_counts hrange start labels
  have hnone : client.counted start labels = 0 := by
    rw [counted, (hunused labels).2]
    rfl
  have hnone' : client.observed start labels = 0 := by
    rw [observed, (hunused labels).1]
  exact ⟨by rw [hcounted, hnone, Nat.zero_add], by rw [hobserved, hnone', Nat.zero_add]⟩

/-- On a library of counters without any series both sides stay in step. -/
theorem Counting.inStep (hcounting : client.Counting) {start : σ} (hunused : client.Unused start)
    {calls : List Call} (hrange : ∀ call ∈ calls, InRange call.duration) :
    client.InStep start calls where
  completes := client.run_ok calls start
  counts := hcounting.counts_of_unused hunused hrange
  fails := by
    rintro before call later rfl
    exact hcounting.failsQuietly (hrange call (List.mem_append_right _ List.mem_cons_self)) _
  reordered := by
    intro calls' hperm labels
    have hrange' : ∀ call ∈ calls', InRange call.duration := fun call hcall =>
      hrange call (hperm.subset hcall)
    have hcounts := hcounting.counts_of_unused hunused hrange labels
    have hcounts' := hcounting.counts_of_unused hunused hrange' labels
    rw [hperm.countP_eq] at hcounts'
    exact ⟨hcounts'.1.trans hcounts.1.symm, hcounts'.2.trans hcounts.2.symm⟩

end Client

/-! ### The series of this library -/

theorem series_unused : series.Unused {} := fun _ => ⟨rfl, rfl⟩

/-- On a library of counters without any series, records whose durations are in range or no numbers
at all keep durations and counters in step. The series of this library are such a library, and
`Metrics.record` records on them. -/
theorem run_staysInStep (hcounting : client.Counting) {start : σ} (hunused : client.Unused start)
    {calls : List Call} (hrange : ∀ call ∈ calls, InRange call.duration) :
    client.InStep start calls ∧
      series.InStep {} calls ∧ series.after {} calls = recordAll {} calls :=
  ⟨hcounting.inStep hunused hrange, series_counting.inStep series_unused hrange, series_after rfl _⟩

/-- Hits and fetches in turn, of which one of each has a duration that is no number. -/
def mixed : List Call :=
  let hit : Labels := ⟨"execute_query", "hit", true⟩
  let fetched : Labels := ⟨"execute_query", "success", false⟩
  [⟨hit, .float 250.0⟩, ⟨fetched, .str "soon"⟩, ⟨hit, .int (-12)⟩, ⟨hit, .null⟩,
    ⟨fetched, .bool true⟩]

theorem recordAll_mixed :
    series.Counting ∧ series.Unused {} ∧ (∀ call ∈ mixed, InRange call.duration) ∧
      series.InStep {} mixed ∧
      series.counted (recordAll {} mixed) ⟨"execute_query", "hit", true⟩ = 2 ∧
      series.observed (recordAll {} mixed) ⟨"execute_query", "hit", true⟩ = 2 := by
  have hrange : ∀ call ∈ mixed, InRange call.duration := by decide +kernel
  obtain ⟨hstep, -, hafter⟩ := run_staysInStep series_counting series_unused hrange
  have hcounts := hstep.counts ⟨"execute_query", "hit", true⟩
  have hmixed : mixed.countP (·.countsUnder ⟨"execute_query", "hit", true⟩) = 2 := by decide
  rw [hafter, hmixed] at hcounts
  exact ⟨series_counting, series_unused, hrange, hstep, hcounts⟩

/-- A double that is not a number is counted and not observed. -/
example :
    let labels : Labels := ⟨"execute_query", "hit", true⟩
    let m := recordAll {} [⟨labels, .float (0.0 / 0.0)⟩]
    series.counted m labels = 1 ∧ series.observed m labels = 0 := by decide

end IssueSearch.Metrics
