import IssueSearch.Proofs.Metrics.Client
/-!
The series of this library. They keep what a library of counters promises, and recording on them is
`Metrics.record`, one record after the other `Metrics.recordAll`.
-/
namespace IssueSearch.Metrics

/-! ### Series by their labels -/

section Keyed

variable {γ : Type} {key : γ → Labels} {series : List γ} {labels other : Labels}

/-- One more series is found under its own labels, and others as before. -/
theorem find?_open {new : γ} (hnew : key new = labels) :
    (if series.any (key · == labels) then series else series ++ [new]).find? (key · == other) =
      if other = labels then some ((series.find? (key · == labels)).getD new)
      else series.find? (key · == other) := by
  by_cases hother : other = labels
  · subst hother
    rw [if_pos rfl]
    split
    · rename_i hany
      obtain ⟨s, hs, hkey⟩ := List.any_eq_true.1 hany
      cases hfind : series.find? (key · == other) with
      | some found => rfl
      | none => exact absurd hkey (List.find?_eq_none.1 hfind s hs)
    · rename_i hany
      have hfind : series.find? (key · == other) = none :=
        List.find?_eq_none.2 fun s hs hkey => hany (List.any_eq_true.2 ⟨s, hs, hkey⟩)
      rw [List.find?_append, hfind, List.find?_singleton, hnew]
      simp
  · rw [if_neg hother]
    split
    · rfl
    · rw [List.find?_append, List.find?_singleton, hnew]
      simp [Ne.symm hother]

/-- A series that is changed is found under its own labels, and others as before. -/
theorem find?_adjust {f : γ → γ} (hkey : ∀ s, key (f s) = key s) :
    (series.map fun s => if key s == labels then f s else s).find? (key · == other) =
      if other = labels then (series.find? (key · == labels)).map f
      else series.find? (key · == other) := by
  have hsame : (key · == other) ∘ (fun s => if key s == labels then f s else s) =
      (key · == other) := by
    funext s
    simp only [Function.comp]
    split
    · rw [hkey]
    · rfl
  rw [List.find?_map, hsame]
  by_cases hother : other = labels
  · subst hother
    rw [if_pos rfl]
    cases hfind : series.find? (key · == other) with
    | none => rfl
    | some s =>
        have hs := List.find?_some hfind
        exact congrArg some (if_pos hs)
  · rw [if_neg hother]
    cases hfind : series.find? (key · == other) with
    | none => rfl
    | some s =>
        have hs := List.find?_some hfind
        refine congrArg some (if_neg fun hlabels => hother ?_)
        rw [← beq_iff_eq.1 hs, beq_iff_eq.1 hlabels]

end Keyed

/-- Asking for durations a second time changes nothing. -/
theorem openDurations_openDurations (labels : Labels) (all : List Durations) :
    openDurations labels (openDurations labels all) = openDurations labels all := by
  by_cases hany : all.any (·.labels == labels)
  · have hopened : openDurations labels all = all := if_pos hany
    rw [hopened, hopened]
  · have hopened : openDurations labels all = all ++ [{ labels := labels }] := if_neg hany
    rw [hopened, openDurations, if_pos (by simp)]

/-- To add to durations is to ask for them first. -/
theorem observe_openDurations (labels : Labels) (seconds : Float) (all : List Durations) :
    observe labels seconds (openDurations labels all) = observe labels seconds all := by
  rw [observe, observe, openDurations_openDurations]

/-- To add one to a counter is to ask for it first. -/
theorem increment_openTotal (labels : Labels) (all : List Total) :
    increment labels (openTotal labels all) = increment labels all := by
  by_cases hany : all.any (·.labels == labels)
  · have hopened : openTotal labels all = all := if_pos hany
    rw [hopened]
  · have hopened : openTotal labels all = all ++ [{ labels := labels }] := if_neg hany
    have hothers : all.map (fun s => if s.labels == labels then
        { s with count := s.count + 1 } else s) = all := by
      conv_rhs => rw [← all.map_id]
      refine List.map_congr_left fun s hs => if_neg fun hlabels => hany ?_
      exact List.any_eq_true.2 ⟨s, hs, hlabels⟩
    rw [hopened, increment, increment, if_neg hany, if_pos (by simp), List.map_append, hothers]
    simp

theorem find?_openDurations (labels other : Labels) (all : List Durations) :
    (openDurations labels all).find? (·.labels == other) =
      if other = labels then some ((all.find? (·.labels == labels)).getD { labels := labels })
      else all.find? (·.labels == other) :=
  find?_open rfl

theorem find?_openTotal (labels other : Labels) (all : List Total) :
    (openTotal labels all).find? (·.labels == other) =
      if other = labels then some ((all.find? (·.labels == labels)).getD { labels := labels })
      else all.find? (·.labels == other) :=
  find?_open rfl

/-! ### The series of this library -/

theorem find?_observe (labels other : Labels) (seconds : Float) (all : List Durations) :
    (observe labels seconds all).find? (·.labels == other) =
      if other = labels then ((openDurations labels all).find? (·.labels == labels)).map fun s =>
        { s with
          count := s.count + (if seconds.isNaN then 0 else 1)
          sum := s.sum + seconds }
      else (openDurations labels all).find? (·.labels == other) :=
  find?_adjust (fun _ => rfl)

theorem find?_increment {labels : Labels} {all : List Total}
    (hany : all.any (·.labels == labels)) (other : Labels) :
    (increment labels all).find? (·.labels == other) =
      if other = labels then (all.find? (·.labels == labels)).map fun s =>
        { s with count := s.count + 1 }
      else all.find? (·.labels == other) := by
  rw [increment, if_pos hany]
  exact find?_adjust fun _ => rfl

/-- The series of this library are counters. -/
theorem series_counting : series.Counting where
  count_fresh := rfl
  openDurations labels m := by
    refine ⟨_, rfl, fun other => ?_, fun _ => rfl⟩
    change ((openDurations labels m.durations).find? (·.labels == other)).map _ = _
    rw [find?_openDurations]
    split
    · exact congrArg some (Option.getD_map (fun s : Durations => (s.count, s.sum)) _ _).symm
    · rfl
  observe labels seconds m old hnumber hold := by
    obtain ⟨s, hfind, rfl⟩ := Option.map_eq_some_iff.1 hold
    refine ⟨_, (s.count + 1, s.sum + seconds), rfl, rfl, fun other => ?_, fun _ => rfl⟩
    have hs := List.find?_some hfind
    have hopened : openDurations labels m.durations = m.durations :=
      if_pos (List.any_eq_true.2 ⟨s, List.mem_of_find?_eq_some hfind, hs⟩)
    change ((observe labels seconds m.durations).find? (·.labels == other)).map _ = _
    rw [find?_observe, hopened, hfind, hnumber]
    split
    · rfl
    · rfl
  openTotal labels m := by
    refine ⟨_, rfl, fun other => ?_, fun _ => rfl⟩
    change ((openTotal labels m.totals).find? (·.labels == other)).map _ = _
    rw [find?_openTotal]
    split
    · exact congrArg some (Option.getD_map Total.count _ _).symm
    · rfl
  increment labels m old hold := by
    obtain ⟨s, hfind, rfl⟩ := Option.map_eq_some_iff.1 hold
    refine ⟨_, rfl, fun other => ?_, fun _ => rfl⟩
    have hs := List.find?_some hfind
    have hany : m.totals.any (·.labels == labels) :=
      List.any_eq_true.2 ⟨s, List.mem_of_find?_eq_some hfind, hs⟩
    change ((increment labels m.totals).find? (·.labels == other)).map _ = _
    rw [find?_increment hany, hfind]
    split
    · rfl
    · rfl

/-- Recording on the series of this library is what `Metrics.record` does. -/
theorem series_record (m : Metrics) (call : Call) :
    (series.record m.enabled call).runOn m =
      (.ok (m.record call.labels call.duration).2, (m.record call.labels call.duration).1) := by
  cases henabled : m.enabled with
  | false =>
      have hrecord : m.record call.labels call.duration = (m, []) := by
        rw [record, henabled]
        rfl
      rw [hrecord]
      rfl
  | true =>
      cases hseconds : seconds? call.duration with
      | none =>
          have hemit : (series.emit call).runOn m = (.error .duration,
              { m with durations := openDurations call.labels m.durations }) := by
            rw [Client.emit, Effect.seconds, hseconds]
            rfl
          have hrecord : m.record call.labels call.duration =
              ({ m with durations := openDurations call.labels m.durations }, [emitFailed]) := by
            rw [record, henabled, hseconds]
            rfl
          rw [Client.record_of_failed hemit, hrecord]
      | some seconds =>
          have hemit : (series.emit call).runOn m = (.ok (),
              { m with
                durations := observe call.labels seconds m.durations
                totals := increment call.labels m.totals }) := by
            rw [← observe_openDurations, ← increment_openTotal, Client.emit, Effect.seconds,
              hseconds]
            rfl
          have hrecord : m.record call.labels call.duration =
              ({ m with
                durations := observe call.labels seconds m.durations
                totals := increment call.labels m.totals }, []) := by
            rw [record, henabled, hseconds]
            rfl
          rw [Client.record_of_emitted hemit, hrecord]

theorem record_enabled (m : Metrics) (labels : Labels) (duration : Json) :
    (m.record labels duration).1.enabled = m.enabled := by
  unfold record
  split
  · rfl
  · split
    · rfl
    · rfl

/-- Records that are taken in one after the other leave the same series either way. -/
theorem series_after {m : Metrics} (henabled : m.enabled = true) (calls : List Call) :
    series.after m calls = m.recordAll calls := by
  induction calls generalizing m with
  | nil => rfl
  | cons call rest ih =>
      have hrecord := series_record m call
      obtain ⟨log, hlog⟩ := series.record_ok call m
      rw [henabled] at hrecord
      have hstate : ((series.emit call).runOn m).2 = (m.record call.labels call.duration).1 :=
        congrArg Prod.snd (hlog.symm.trans hrecord)
      rw [Client.after_cons, hstate, ih ((record_enabled ..).trans henabled)]
      rfl

end IssueSearch.Metrics
