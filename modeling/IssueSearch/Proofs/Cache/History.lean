import IssueSearch.Cache.Basic
import Mathlib.Data.List.Basic
/-!
What has happened to a key. The commands that a cache has run, each with the cache that it found,
tell which store under a key was the last, whether the key has been removed since, and how often it
has been found since. Of other keys, only a store that gave the key up to make room matters.
-/
namespace IssueSearch.Cache

/-- A command as it is run. -/
structure Event (τ α : Type) where
  /-- The cache that the command finds. -/
  cache : Cache τ α
  time : τ
  command : Command α

variable {τ α : Type}

/-- A history that is split at one of its events ends there, or the rest of it ends in its last. -/
theorem split_concat {history before after : List (Event τ α)} {ev last : Event τ α}
    (hsplit : history ++ [last] = before ++ ev :: after) :
    ev = last ∧ after = [] ∨ ∃ rest, after = rest ++ [last] ∧ history = before ++ ev :: rest := by
  rcases List.eq_nil_or_concat after with rfl | ⟨rest, final, rfl⟩
  · obtain ⟨-, hlast⟩ := List.append_inj' hsplit rfl
    exact .inl ⟨(List.singleton_inj.1 hlast).symm, rfl⟩
  · rw [List.concat_eq_append, ← List.cons_append, ← List.append_assoc] at hsplit
    obtain ⟨hhistory, hlast⟩ := List.append_inj' hsplit rfl
    obtain rfl := List.singleton_inj.1 hlast
    exact .inr ⟨rest, List.concat_eq_append, hhistory⟩

variable [Timeline τ]

namespace Event

def reply (ev : Event τ α) : Reply τ α := (ev.cache.step ev.time ev.command).1

/-- The cache that the command leaves. -/
def left (ev : Event τ α) : Cache τ α := (ev.cache.step ev.time ev.command).2.1

/-- A store under a key that succeeds, and the seconds that its time to live comes to. -/
def Sets (ev : Event τ α) (key : String) (payload : α) (seconds : Int) : Prop :=
  (∃ ttl, ev.command = .set key payload ttl ∧
    ev.cache.policy.resolveTtl key ttl = .ok seconds) ∧
  ∃ e, ev.reply = .stored e

/-- A lookup that finds a key. -/
def finds (ev : Event τ α) (key : String) : Bool :=
  match ev.command, ev.reply with
  | .get other, .found (some _) => other == key
  | _, _ => false

/-- An eviction is counted, and the key was the first. -/
def Evicts (ev : Event τ α) (key : String) : Prop :=
  ev.cache.counters.evictions < ev.left.counters.evictions ∧ ev.cache.keys.head? = some key

/-- Whether a command removes a key on purpose, or gives it up. -/
def Removes (ev : Event τ α) (key : String) : Prop :=
  match ev.command with
  | .delete other => other = key
  | .deletePattern pattern => Text.occursIn pattern.toList key.toList = true
  | .invalidateDomain domain => Text.occursIn (domain ++ ":").toList key.toList = true
  | .clear => True
  | .set _ _ _ => ev.Evicts key
  | .get _ | .contains _ | .sweep => False

/-- Whether a command has to do with a key. -/
def Concerns (ev : Event τ α) (key : String) : Prop :=
  (∃ payload seconds, ev.Sets key payload seconds) ∨ ev.Removes key ∨ ev.finds key = true

theorem Sets.unique {ev : Event τ α} {key : String} {payload payload' : α} {seconds seconds' : Int}
    (hsets : ev.Sets key payload seconds) (hsets' : ev.Sets key payload' seconds') :
    payload = payload' ∧ seconds = seconds' := by
  obtain ⟨⟨ttl, hcommand, hseconds⟩, -⟩ := hsets
  obtain ⟨⟨ttl', hcommand', hseconds'⟩, -⟩ := hsets'
  rw [hcommand] at hcommand'
  obtain ⟨-, rfl, rfl⟩ := Command.set.inj hcommand'
  rw [hseconds] at hseconds'
  exact ⟨rfl, Except.ok.inj hseconds'⟩

end Event

/-- The cache that commands leave. -/
def run (c : Cache τ α) : List (τ × Command α) → Cache τ α
  | [] => c
  | (time, command) :: rest => run (c.step time command).2.1 rest

/-- The commands as they are run, one after another. -/
def events (c : Cache τ α) : List (τ × Command α) → List (Event τ α)
  | [] => []
  | (time, command) :: rest => ⟨c, time, command⟩ :: events (c.step time command).2.1 rest

theorem run_append (c : Cache τ α) (before after : List (τ × Command α)) :
    c.run (before ++ after) = (c.run before).run after := by
  induction before generalizing c with
  | nil => rfl
  | cons command before ih => exact ih _

theorem events_append (c : Cache τ α) (before after : List (τ × Command α)) :
    c.events (before ++ after) = c.events before ++ (c.run before).events after := by
  induction before generalizing c with
  | nil => rfl
  | cons command before ih => exact congrArg _ (ih _)

/-- The entry that is held for a key: that of the last store under it, unless the key has been
removed since. Its hits are the lookups that have found it. -/
def Held (history : List (Event τ α)) (key : String) (e : Entry τ α) : Prop :=
  ∃ before store after, history = before ++ store :: after ∧
    store.Sets key e.payload e.ttl ∧ e.key = key ∧ e.createdAt = store.time ∧
    (∀ later ∈ after, (∀ payload seconds, ¬ later.Sets key payload seconds) ∧
      ¬ later.Removes key) ∧
    e.hits = after.countP (Event.finds · key)

variable {history : List (Event τ α)} {ev : Event τ α} {key : String}

theorem not_held_nil (e : Entry τ α) : ¬ Held [] key e := by
  rintro ⟨before, store, after, hhistory, -⟩
  cases before <;> cases hhistory

/-- An event that stores nothing under a key and does not remove it leaves what is held. -/
theorem held_concat_iff (hsets : ∀ payload seconds, ¬ ev.Sets key payload seconds)
    (hremoves : ¬ ev.Removes key) {e : Entry τ α} :
    Held (history ++ [ev]) key e ↔
      ∃ old, Held history key old ∧
        e = { old with hits := old.hits + if ev.finds key = true then 1 else 0 } := by
  constructor
  · rintro ⟨before, store, after, hhistory, hstore, hkey, htime, hafter, hhits⟩
    rcases split_concat hhistory with ⟨rfl, rfl⟩ | ⟨rest, rfl, rfl⟩
    · exact absurd hstore (hsets _ _)
    · rw [List.countP_append, List.countP_singleton] at hhits
      refine ⟨{ e with hits := rest.countP (Event.finds · key) },
        ⟨before, store, rest, rfl, hstore, hkey, htime, ?_, rfl⟩, ?_⟩
      · exact fun later hlater => hafter later (List.mem_append_left _ hlater)
      · rw [← hhits]
  · rintro ⟨old, ⟨before, store, after, rfl, hstore, hkey, htime, hafter, hhits⟩, rfl⟩
    refine ⟨before, store, after ++ [ev], by simp, hstore, hkey, htime, ?_, ?_⟩
    · intro later hlater
      rcases List.mem_append.1 hlater with hlater | hlast
      · exact hafter later hlater
      · rw [List.mem_singleton.1 hlast]
        exact ⟨hsets, hremoves⟩
    · rw [List.countP_append, List.countP_singleton, hhits]

/-- An event that has nothing to do with a key leaves what is held as it is. -/
theorem held_concat_of_not_concerns (hother : ¬ ev.Concerns key) {e : Entry τ α} :
    Held (history ++ [ev]) key e ↔ Held history key e := by
  obtain ⟨hsets, hremoves, hfinds⟩ : (¬ ∃ payload seconds, ev.Sets key payload seconds) ∧
      ¬ ev.Removes key ∧ ¬ ev.finds key = true := by
    rw [Event.Concerns, not_or, not_or] at hother
    exact hother
  rw [held_concat_iff (fun payload seconds h => hsets ⟨payload, seconds, h⟩) hremoves,
    if_neg hfinds]
  constructor
  · rintro ⟨old, hold, rfl⟩
    exact hold
  · intro hold
    exact ⟨e, hold, rfl⟩

/-- A store makes its own entry the one held. -/
theorem held_concat_set_iff {payload : α} {seconds : Int} (hsets : ev.Sets key payload seconds)
    {e : Entry τ α} :
    Held (history ++ [ev]) key e ↔ e = ⟨key, payload, ev.time, seconds, 0⟩ := by
  constructor
  · rintro ⟨before, store, after, hhistory, hstore, hkey, htime, hafter, hhits⟩
    rcases split_concat hhistory with ⟨rfl, rfl⟩ | ⟨rest, rfl, rfl⟩
    · obtain ⟨rfl, rfl⟩ := hsets.unique hstore
      rw [List.countP_nil] at hhits
      rw [← hkey, ← htime, ← hhits]
    · have hlast := hafter ev (List.mem_append_right _ List.mem_cons_self)
      exact absurd hsets (hlast.1 _ _)
  · rintro rfl
    exact ⟨history, ev, [], rfl, hsets, rfl, rfl, by simp, rfl⟩

/-- Nothing is held for a key that has just been removed. -/
theorem not_held_concat (hsets : ∀ payload seconds, ¬ ev.Sets key payload seconds)
    (hremoves : ev.Removes key) (e : Entry τ α) : ¬ Held (history ++ [ev]) key e := by
  rintro ⟨before, store, after, hhistory, hstore, -, -, hafter, -⟩
  rcases split_concat hhistory with ⟨rfl, rfl⟩ | ⟨rest, rfl, rfl⟩
  · exact hsets _ _ hstore
  · exact (hafter ev (List.mem_append_right _ List.mem_cons_self)).2 hremoves

/-- What an event makes of the entry of a key. -/
inductive Event.Passes (ev : Event τ α) (key : String) :
    Option (Entry τ α) → Option (Entry τ α) → Prop
  | set {held : Option (Entry τ α)} {payload : α} {seconds : Int}
      (sets : ev.Sets key payload seconds) :
      Passes ev key held (some ⟨key, payload, ev.time, seconds, 0⟩)
  | removed {held : Option (Entry τ α)} (spares : ∀ payload seconds, ¬ ev.Sets key payload seconds)
      (removes : ev.Removes key) : Passes ev key held none
  | found {e : Entry τ α} (spares : ∀ payload seconds, ¬ ev.Sets key payload seconds)
      (keeps : ¬ ev.Removes key) (finds : ev.finds key = true) :
      Passes ev key (some e) (some { e with hits := e.hits + 1 })
  | kept {held : Option (Entry τ α)} (spares : ∀ payload seconds, ¬ ev.Sets key payload seconds)
      (keeps : ¬ ev.Removes key) (misses : ev.finds key = false) : Passes ev key held held

/-- What is held after an event is what the event makes of what was held before it. -/
theorem Event.Passes.held_iff {held next : Option (Entry τ α)} (hpasses : ev.Passes key held next)
    (hheld : ∀ e, Held history key e ↔ held = some e) (e : Entry τ α) :
    Held (history ++ [ev]) key e ↔ next = some e := by
  cases hpasses with
  | set sets => rw [held_concat_set_iff sets, Option.some.injEq, eq_comm]
  | removed spares removes => simpa using not_held_concat spares removes e
  | @found old spares keeps finds =>
      rw [held_concat_iff spares keeps, if_pos finds, Option.some.injEq]
      simp only [hheld, Option.some.injEq, exists_eq_left']
      exact eq_comm
  | kept spares keeps misses =>
      have hother : ¬ ev.Concerns key := by
        rintro (⟨payload, seconds, hsets⟩ | hremoves | hfinds)
        · exact spares payload seconds hsets
        · exact keeps hremoves
        · rw [misses] at hfinds
          cases hfinds
      rw [held_concat_of_not_concerns hother]
      exact hheld e

end IssueSearch.Cache
