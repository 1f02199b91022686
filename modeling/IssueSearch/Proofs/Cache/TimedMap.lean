import IssueSearch.Proofs.Cache.Passing
import Mathlib.Data.List.Induction
/-!
A cache on an exact clock is a timed map. A key is found exactly when a store under it has
succeeded, it has not been removed or given up since the last, and the deadline of that store has
not come. Dropped entries, sweeps and commands to other keys do not show, but for evictions.
-/
namespace IssueSearch.Cache

variable {τ α : Type} [LinearOrder τ] [ExactTimeline τ]

/-- A command does to a key what the history of the key says. -/
theorem step_passes {c : Cache τ α} (hnodup : c.keys.Nodup) (now : τ) (command : Command α)
    (key : String) :
    ∃ next, Event.Passes ⟨c, now, command⟩ key (c.stored? key) next ∧
      Fades now next ((c.step now command).2.1.stored? key) := by
  cases command with
  | get other => exact passes_get c now other key
  | set other payload ttl => exact passes_set hnodup now other payload ttl key
  | contains other => exact passes_contains c now other key
  | delete other =>
      refine passes_filter (p := (· == other)) rfl rfl (erase_entries c other) ?_
      rw [beq_iff_eq, eq_comm]
      rfl
  | deletePattern pattern =>
      exact passes_filter (p := fun key => Text.occursIn pattern.toList key.toList) rfl rfl rfl
        Iff.rfl
  | invalidateDomain domain =>
      exact passes_filter (p := fun key => Text.occursIn (domain ++ ":").toList key.toList) rfl rfl
        rfl Iff.rfl
  | clear =>
      refine passes_filter (p := fun _ => true) rfl rfl ?_ (iff_of_true trivial rfl)
      exact (List.filter_eq_nil_iff.2 fun e _ => Bool.false_ne_true).symm
  | sweep => exact passes_sweep hnodup now key

/-- Commands are run at readings that never go back, the last of them at a moment or before it. -/
def Chronological (commands : List (τ × Command α)) (now : τ) : Prop :=
  (commands.map Prod.fst ++ [now]).Pairwise (· ≤ ·)

omit [ExactTimeline τ] in
theorem Chronological.of_concat {commands : List (τ × Command α)} {command : τ × Command α}
    {now : τ} (hclock : Chronological (commands ++ [command]) now) :
    Chronological commands command.1 ∧ command.1 ≤ now := by
  rw [Chronological, List.map_append, List.map_singleton, List.pairwise_append] at hclock
  exact ⟨hclock.1, hclock.2.2 _ (List.mem_append_right _ List.mem_cons_self) _
    List.mem_cons_self⟩

/-- What is stored under a key after a run is what its history holds, faded. -/
theorem run_fades {c : Cache τ α} (hfresh : c.entries = []) (key : String)
    {commands : List (τ × Command α)} {now : τ} (hclock : Chronological commands now) :
    (c.run commands).keys.Nodup ∧
      ∃ held, (∀ e, Held (c.events commands) key e ↔ held = some e) ∧
        Fades now held ((c.run commands).stored? key) := by
  induction commands using List.reverseRecOn generalizing now with
  | nil =>
      refine ⟨by simp [run, keys, hfresh], none, ?_, .inl (by simp [run, stored?, hfresh])⟩
      exact fun e => iff_of_false (not_held_nil e) (Option.some_ne_none e).symm
  | append_singleton commands command ih =>
      obtain ⟨hbefore, hle⟩ := hclock.of_concat
      obtain ⟨hnodup, held, hheld, hfades⟩ := ih hbefore
      obtain ⟨next, hpasses, hleft⟩ := step_passes hnodup command.1 command.2 key
      obtain ⟨next', hpasses', hnext⟩ := hpasses.fades hfades
      rw [run_append, events_append]
      refine ⟨step_nodup hnodup command.1 command.2, next', hpasses'.held_iff hheld, ?_⟩
      exact (hnext.trans hleft).mono hle

/-- The entry that is held at a moment, if its deadline has not come. -/
def unexpiredAt (now : τ) (held : Option (Entry τ α)) : Option (Entry τ α) :=
  held.filter fun e => decide (now < e.deadline)

theorem Fades.unexpiredAt_eq {now : τ} {held stored : Option (Entry τ α)}
    (hfades : Fades now held stored) : unexpiredAt now stored = unexpiredAt now held := by
  rcases hfades with rfl | ⟨rfl, hexpired⟩
  · rfl
  · cases held with
    | none => rfl
    | some e =>
        rw [unexpiredAt, unexpiredAt, Option.filter_none, Option.filter_some, if_neg]
        simpa using hexpired e rfl

theorem reply_get_eq {c : Cache τ α} {now : τ} {key : String} {held : Option (Entry τ α)}
    (hfades : Fades now held (c.stored? key)) :
    (c.step now (.get key)).1 =
      .found ((unexpiredAt now held).map fun e => { e with hits := e.hits + 1 }) := by
  obtain ⟨left, hlive⟩ := c.live_eq now key
  rw [← hfades.unexpiredAt_eq, unexpiredAt]
  simp only [step, get?, hlive, Except.map]
  cases (c.stored? key).filter fun e => decide (now < e.deadline) with
  | none => rfl
  | some e => rfl

theorem reply_contains_eq {c : Cache τ α} {now : τ} {key : String} {held : Option (Entry τ α)}
    (hfades : Fades now held (c.stored? key)) :
    (c.step now (.contains key)).1 = .present (unexpiredAt now held).isSome := by
  obtain ⟨left, hlive⟩ := c.live_eq now key
  rw [← hfades.unexpiredAt_eq, unexpiredAt]
  simp only [step, contains, hlive, Except.map]

/-- A cache answers from the history of a key alone. It finds what the history holds until the
deadline, with a hit for each lookup that has found it, and finds nothing else. A command that has
nothing to do with the key does not show. -/
theorem run_timedMap (policy : Policy) (commands : List (τ × Command α)) (now : τ)
    (hclock : Chronological commands now) (key : String) :
    let fresh : Cache τ α := { policy }
    let c := fresh.run commands
    (∀ e, (c.step now (.get key)).1 = .found (some e) ↔
      ∃ held, Held (fresh.events commands) key held ∧ now < held.deadline ∧
        e = { held with hits := held.hits + 1 }) ∧
    ((c.step now (.get key)).1 = .found none ↔
      ¬ ∃ held, Held (fresh.events commands) key held ∧ now < held.deadline) ∧
    ((c.step now (.contains key)).1 = .present true ↔
      ∃ held, Held (fresh.events commands) key held ∧ now < held.deadline) ∧
    ((c.step now (.contains key)).1 = .present false ↔
      ¬ ∃ held, Held (fresh.events commands) key held ∧ now < held.deadline) ∧
    ∀ time command, Chronological (commands ++ [(time, command)]) now →
      ¬ Event.Concerns ⟨c, time, command⟩ key →
      ((c.step time command).2.1.step now (.get key)).1 = (c.step now (.get key)).1 ∧
      ((c.step time command).2.1.step now (.contains key)).1 = (c.step now (.contains key)).1 := by
  intro fresh c
  obtain ⟨hnodup, held, hheld, hfades⟩ := run_fades (c := fresh) rfl key hclock
  have hget := reply_get_eq hfades
  have hcontains := reply_contains_eq hfades
  have hfound : ∀ e, unexpiredAt now held = some e ↔
      Held (fresh.events commands) key e ∧ now < e.deadline := by
    intro e
    rw [unexpiredAt, Option.filter_eq_some_iff, hheld, decide_eq_true_iff]
  have hexists : (∃ e, Held (fresh.events commands) key e ∧ now < e.deadline) ↔
      (unexpiredAt now held).isSome = true := by
    simp only [← hfound]
    exact Option.isSome_iff_exists.symm
  refine ⟨fun e => ?_, ?_, ?_, ?_, ?_⟩
  · rw [hget, Reply.found.injEq, Option.map_eq_some_iff]
    simp only [hfound, and_assoc, eq_comm]
  · rw [hexists, hget, Reply.found.injEq, Option.map_eq_none_iff, Option.not_isSome_iff_eq_none]
  · rw [hexists, hcontains, Reply.present.injEq]
  · rw [hexists, hcontains, Reply.present.injEq, Bool.not_eq_true]
  · intro time command htime hother
    obtain ⟨-, held', hheld', hfades'⟩ := run_fades (c := fresh) rfl key htime
    rw [events_append] at hheld'
    rw [run_append] at hfades'
    have hsame : held' = held := by
      refine Option.ext fun e => ?_
      rw [← hheld', ← hheld]
      exact held_concat_of_not_concerns hother
    subst hsame
    have hget' := reply_get_eq hfades'
    have hcontains' := reply_contains_eq hfades'
    exact ⟨hget'.trans hget.symm, hcontains'.trans hcontains.symm⟩

/-- A cache with room for two keys: a key is written again and found, and another is given up for a
third. -/
def overwritten : List (ℚ × Command String) :=
  [(0, .set "issues:b" "first" (.int 60)), (1, .set "issues:a" "old" (.int 10)),
    (3 / 2, .get "issues:a"), (2, .set "issues:a" "new" (.int 10)), (5 / 2, .get "issues:a"),
    (3, .set "issues:c" "third" .null), (4, .sweep)]

theorem overwritten_chronological : Chronological overwritten (23 / 2) := by
  unfold Chronological
  decide +kernel

/-- The payload stored last is found just before its deadline, for the second time. -/
theorem run_timedMap_overwritten :
    Chronological overwritten (23 / 2) ∧
    ∃ held, Held (Cache.events { policy := { maxKeys := 2 } } overwritten) "issues:a" held ∧
      23 / 2 < held.deadline ∧ held.payload = "new" ∧ held.createdAt = 2 ∧ held.hits = 1 := by
  refine ⟨overwritten_chronological, ?_⟩
  obtain ⟨hget, -⟩ := run_timedMap { maxKeys := 2 } overwritten (23 / 2)
    overwritten_chronological "issues:a"
  obtain ⟨held, hheld, hlive, he⟩ := (hget ⟨"issues:a", "new", 2, 10, 2⟩).1 (by
    with_unfolding_all rfl)
  obtain ⟨-, hpayload, htime, -, hhits⟩ := Entry.mk.inj he
  exact ⟨held, hheld, hlive, hpayload.symm, htime.symm, (Nat.succ.inj hhits).symm⟩

end IssueSearch.Cache
