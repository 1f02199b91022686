import IssueSearch.Proofs.Cache.Lookup
/-!
A command changes the entry of a key only as the history of the key says, except that an entry which
has expired may be dropped. One lemma for each kind of command says what it does to one key.
-/
namespace IssueSearch.Cache

variable {τ α : Type} [LinearOrder τ] [ExactTimeline τ]

/-- What is stored is what is held, or it was dropped after it had expired. -/
def Fades (now : τ) (held stored : Option (Entry τ α)) : Prop :=
  stored = held ∨ stored = none ∧ ∀ e ∈ held, e.deadline ≤ now

theorem Fades.refl (now : τ) (held : Option (Entry τ α)) : Fades now held held := .inl rfl

theorem Fades.trans {now : τ} {held stored left : Option (Entry τ α)}
    (hfirst : Fades now held stored) (hsecond : Fades now stored left) : Fades now held left := by
  rcases hsecond with rfl | ⟨rfl, hexpired⟩
  · exact hfirst
  · rcases hfirst with rfl | ⟨rfl, hlate⟩
    · exact .inr ⟨rfl, hexpired⟩
    · exact .inr ⟨rfl, hlate⟩

theorem Fades.mono {now later : τ} {held stored : Option (Entry τ α)}
    (hfades : Fades now held stored) (hle : now ≤ later) : Fades later held stored :=
  hfades.imp_right fun hnone => ⟨hnone.1, fun e he => (hnone.2 e he).trans hle⟩

/-- An event does to what is held what it does to what is stored. -/
theorem Event.Passes.fades {ev : Event τ α} {key : String} {now : τ}
    {held stored next : Option (Entry τ α)} (hpasses : ev.Passes key stored next)
    (hfades : Fades now held stored) :
    ∃ next', ev.Passes key held next' ∧ Fades now next' next := by
  cases hpasses with
  | set sets => exact ⟨_, .set sets, .refl _ _⟩
  | removed spares removes => exact ⟨_, .removed spares removes, .refl _ _⟩
  | found spares keeps finds =>
      rcases hfades with rfl | ⟨hnone, -⟩
      · exact ⟨_, .found spares keeps finds, .refl _ _⟩
      · cases hnone
  | kept spares keeps misses => exact ⟨_, .kept spares keeps misses, hfades⟩

variable {c : Cache τ α} {now : τ} {key : String}

theorem Event.not_sets {ev : Event τ α} (hcommand : ev.command.isStore = false) (payload : α)
    (seconds : Int) : ¬ ev.Sets key payload seconds := by
  rintro ⟨⟨ttl, hset, -⟩, -⟩
  rw [hset] at hcommand
  cases hcommand

/-- A lookup leaves what is stored under a key, unless that has expired. -/
theorem Looks.fades {left : Cache τ α} {other : String} {found : Option (Entry τ α)}
    (hlooks : Looks c now other found left) : Fades now (c.stored? key) (left.stored? key) := by
  cases hlooks with
  | absent missing => exact .refl _ _
  | live stored unexpired => exact .refl _ _
  | @expired e stored expired =>
      rw [Entry.isExpired_eq, Except.ok.injEq, decide_eq_true_iff] at expired
      have hleft : (without other c.entries).find? (·.key == key) =
          if key = other then none else c.stored? key := find?_without c.entries other key
      rw [Fades, stored?, hleft]
      by_cases hkey : key = other
      · subst hkey
        refine .inr ⟨if_pos rfl, fun e' he' => ?_⟩
        obtain rfl := Option.some.inj (stored.symm.trans he')
        exact expired
      · exact .inl (if_neg hkey)

/-- A lookup either finds the key or leaves it. -/
theorem passes_get (c : Cache τ α) (now : τ) (other key : String) :
    ∃ next, Event.Passes ⟨c, now, .get other⟩ key (c.stored? key) next ∧
      Fades now next ((c.step now (.get other)).2.1.stored? key) := by
  have hspares : ∀ payload seconds, ¬ Event.Sets ⟨c, now, .get other⟩ key payload seconds :=
    Event.not_sets rfl
  obtain ⟨found, left, hlive, hlooks⟩ := c.live_ok now other
  have hstep : c.step now (.get other) =
      (.found (countLookup (found, left)).1, (countLookup (found, left)).2, []) := by
    simp only [step, get?, hlive, Except.map]
  rw [hstep]
  cases found with
  | none =>
      have hmisses : Event.finds ⟨c, now, .get other⟩ key = false := by
        simp only [Event.finds, Event.reply, hstep]
        rfl
      exact ⟨_, .kept hspares id hmisses, hlooks.fades⟩
  | some e =>
      obtain ⟨hstored, hleft⟩ : c.stored? other = some e ∧ left = c := by
        cases hlooks with
        | live stored unexpired => exact ⟨stored, rfl⟩
      subst hleft
      obtain ⟨-, rfl⟩ := stored?_some hstored
      have hfinds : Event.finds ⟨left, now, .get e.key⟩ key = (e.key == key) := by
        simp only [Event.finds, Event.reply, hstep]
        rfl
      have hreplaced : (countLookup (some e, left)).2.stored? key = (left.stored? key).map
          fun old => if key = e.key then { e with hits := e.hits + 1 } else old :=
        find?_replace left.entries { e with hits := e.hits + 1 } key
      by_cases hkey : e.key = key
      · subst hkey
        rw [hstored] at hreplaced ⊢
        refine ⟨_, .found hspares id (hfinds.trans (beq_self_eq_true _)), .inl ?_⟩
        rw [hreplaced, Option.map_some, if_pos rfl]
      · refine ⟨_, .kept hspares id (hfinds.trans (beq_eq_false_iff_ne.2 hkey)), .inl ?_⟩
        rw [hreplaced]
        simp [Ne.symm hkey]

theorem passes_contains (c : Cache τ α) (now : τ) (other key : String) :
    ∃ next, Event.Passes ⟨c, now, .contains other⟩ key (c.stored? key) next ∧
      Fades now next ((c.step now (.contains other)).2.1.stored? key) := by
  obtain ⟨found, left, hlive, hlooks⟩ := c.live_ok now other
  have hstep : c.step now (.contains other) = (.present found.isSome, left, []) := by
    simp only [step, contains, hlive, Except.map]
  rw [hstep]
  exact ⟨_, .kept (Event.not_sets rfl) id rfl, hlooks.fades⟩

/-- A removal of the keys that something is true of removes those, and leaves the others. -/
theorem passes_filter {command : Command α} {p : String → Bool}
    (hcommand : command.isStore = false) (hmisses : Event.finds ⟨c, now, command⟩ key = false)
    (hleft : (c.step now command).2.1.entries = c.entries.filter fun e => !p e.key)
    (hremoves : Event.Removes ⟨c, now, command⟩ key ↔ p key = true) :
    ∃ next, Event.Passes ⟨c, now, command⟩ key (c.stored? key) next ∧
      Fades now next ((c.step now command).2.1.stored? key) := by
  have hstored : (c.step now command).2.1.stored? key =
      if (!p key) = true then c.stored? key else none := by
    rw [stored?, hleft]
    exact find?_filter_key c.entries (fun key => !p key) key
  rw [hstored]
  by_cases hp : p key = true
  · refine ⟨_, .removed (Event.not_sets hcommand) (hremoves.2 hp), .inl ?_⟩
    simp [hp]
  · refine ⟨_, .kept (Event.not_sets hcommand) (mt hremoves.1 hp) hmisses, .inl ?_⟩
    simp [hp]

theorem sweep_fades (hnodup : c.keys.Nodup) (now : τ) {left : Cache τ α}
    (hleft : left.entries = c.entries.filter fun e => decide (now < e.deadline)) :
    Fades now (c.stored? key) (left.stored? key) := by
  have hswept : left.stored? key = (c.stored? key).filter fun e => decide (now < e.deadline) := by
    rw [stored?, hleft, find?_filter_of_nodup hnodup]
    rfl
  rw [Fades, hswept]
  cases c.stored? key with
  | none => exact .inl rfl
  | some e =>
      by_cases hlate : e.deadline ≤ now
      · refine .inr ⟨?_, ?_⟩
        · simpa using hlate
        · rintro e' ⟨⟩
          exact hlate
      · refine .inl ?_
        simpa using hlate

theorem passes_sweep (hnodup : c.keys.Nodup) (now : τ) (key : String) :
    ∃ next, Event.Passes ⟨c, now, .sweep⟩ key (c.stored? key) next ∧
      Fades now next ((c.step now .sweep).2.1.stored? key) := by
  have hstep : (c.step now .sweep).2.1.entries =
      c.entries.filter fun e => decide (now < e.deadline) := by
    simp only [step, sweep, unexpired_eq, Except.map]
    rfl
  exact ⟨_, .kept (Event.not_sets rfl) id rfl, sweep_fades hnodup now hstep⟩

/-- A store on an exact clock succeeds. What it leaves is what it has placed, after a sweep or
without one. -/
theorem store_ok (c : Cache τ α) (now : τ) (key : String) (payload : α) (seconds : Int) :
    ∃ left log, c.store now key payload seconds = (.ok ⟨key, payload, now, seconds, 0⟩, left, log) ∧
      left.counters.evictions =
        (c.place ⟨key, payload, now, seconds, 0⟩).1.counters.evictions ∧
      (left.entries = (c.place ⟨key, payload, now, seconds, 0⟩).1.entries ∨
        left.entries = (c.place ⟨key, payload, now, seconds, 0⟩).1.entries.filter
          fun e => decide (now < e.deadline)) := by
  simp only [store, sweep, unexpired_eq, Except.map]
  split
  · exact ⟨_, _, rfl, rfl, .inr rfl⟩
  · exact ⟨_, _, rfl, rfl, .inl rfl⟩

/-- A store that is refused does nothing. -/
theorem passes_set_refused {other : String} {ttl : Json} {cause : InvalidTtl}
    (hrefused : c.policy.resolveTtl other ttl = .error cause) (now : τ) (payload : α)
    (key : String) :
    ∃ next, Event.Passes ⟨c, now, .set other payload ttl⟩ key (c.stored? key) next ∧
      Fades now next ((c.step now (.set other payload ttl)).2.1.stored? key) := by
  have hstep : c.step now (.set other payload ttl) = (.failed (.ttl cause), c, []) := by
    simp only [step, insert, hrefused]
  rw [hstep]
  refine ⟨_, .kept ?_ ?_ rfl, .refl _ _⟩
  · rintro payload' seconds ⟨-, e, hreply⟩
    rw [Event.reply, hstep] at hreply
    cases hreply
  · rintro ⟨hcount, -⟩
    rw [Event.left, hstep] at hcount
    exact lt_irrefl _ hcount

/-- Placing the entry of a store sets its key. It leaves any other, unless it gives it up. -/
theorem passes_place (hnodup : c.keys.Nodup) {other : String} {payload : α} {ttl : Json}
    {seconds : Int} (hseconds : c.policy.resolveTtl other ttl = .ok seconds)
    {placed left : Cache τ α} {log : List LogRecord}
    (hplaces : Places c ⟨other, payload, now, seconds, 0⟩ placed)
    (hstep : c.step now (.set other payload ttl) =
      (.stored ⟨other, payload, now, seconds, 0⟩, left, log))
    (hevictions : left.counters.evictions = placed.counters.evictions) (key : String) :
    Event.Passes ⟨c, now, .set other payload ttl⟩ key (c.stored? key) (placed.stored? key) := by
  by_cases hkey : key = other
  · subst hkey
    rw [hplaces.stored?_self]
    exact .set ⟨⟨ttl, rfl, hseconds⟩, _, congrArg Prod.fst hstep⟩
  · have hspares : ∀ payload' seconds',
        ¬ Event.Sets ⟨c, now, .set other payload ttl⟩ key payload' seconds' := by
      rintro payload' seconds' ⟨⟨ttl', hset, -⟩, -⟩
      obtain ⟨rfl, -⟩ := Command.set.inj hset
      exact hkey rfl
    have hremoves : Event.Removes ⟨c, now, .set other payload ttl⟩ key ↔
        c.counters.evictions < placed.counters.evictions ∧ c.keys.head? = some key := by
      rw [← hevictions]
      simp only [Event.Removes, Event.Evicts, Event.left, hstep]
    rcases hplaces.stored?_of_ne hnodup hkey with ⟨hstored, hspared⟩ | ⟨hstored, hevicted⟩
    · rw [hstored]
      exact .kept hspares (mt hremoves.1 hspared) rfl
    · rw [hstored]
      exact .removed hspares (hremoves.2 hevicted)

theorem passes_set (hnodup : c.keys.Nodup) (now : τ) (other : String) (payload : α) (ttl : Json)
    (key : String) :
    ∃ next, Event.Passes ⟨c, now, .set other payload ttl⟩ key (c.stored? key) next ∧
      Fades now next ((c.step now (.set other payload ttl)).2.1.stored? key) := by
  cases hseconds : c.policy.resolveTtl other ttl with
  | error cause => exact passes_set_refused hseconds now payload key
  | ok seconds =>
      obtain ⟨left, log, hstore, hevictions, hleft⟩ := c.store_ok now other payload seconds
      have hstep : c.step now (.set other payload ttl) =
          (.stored ⟨other, payload, now, seconds, 0⟩, left, log) := by
        simp only [step, insert, hseconds, hstore]
        rfl
      have hplaced := place_nodup hnodup ⟨other, payload, now, seconds, 0⟩
      have hplaces := place_places c ⟨other, payload, now, seconds, 0⟩
      generalize (c.place ⟨other, payload, now, seconds, 0⟩).1 = placed at *
      refine ⟨_, passes_place hnodup hseconds hplaces hstep hevictions key, ?_⟩
      rw [hstep]
      rcases hleft with hsame | hswept
      · refine .inl ?_
        rw [stored?, hsame]
        rfl
      · exact sweep_fades hplaced now hswept

end IssueSearch.Cache
