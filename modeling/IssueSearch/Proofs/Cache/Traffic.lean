import IssueSearch.Cache.Traffic
import IssueSearch.Proofs.Cache.Queue
/-!
Where the answers of calls through a cache come from, whatever order calls and fetches take. `Moves`
lists what can happen, together with the fetch that it completes. A call is explained by the fetches
that were begun and completed on its behalf, an entry of the cache by the last fetch under its key.
-/
namespace IssueSearch.Cache.Traffic

variable {τ α : Type}

/-- A fetch that the fetcher has come back from. -/
structure Completion (τ α : Type) where
  time : τ
  call : CallId
  args : Args
  answer : Except Failure α

/-- The fetch that an event completes. -/
def completion? (t : Traffic τ α) (now : τ) : Event α → Option (Completion τ α)
  | .back id answer =>
      match t.calls[id]? with
      | some ⟨args, .fetching⟩ => some ⟨now, id, args, answer⟩
      | _ => none
  | _ => none

variable [Timeline τ] {w : ReadThrough}

/-- The fetches that events complete in turn. -/
def completions (w : ReadThrough) : Traffic τ α → List (τ × Event α) → List (Completion τ α)
  | _, [] => []
  | t, (now, event) :: rest =>
      (t.completion? now event).toList ++ completions w (t.step w now event).1 rest

theorem run_concat (t : Traffic τ α) (events : List (τ × Event α)) (event : τ × Event α) :
    t.run w (events ++ [event]) = ((t.run w events).step w event.1 event.2).1 := by
  rw [run, List.foldl_append]
  rfl

theorem completions_concat (t : Traffic τ α) (events : List (τ × Event α)) (event : τ × Event α) :
    completions w t (events ++ [event]) =
      completions w t events ++ ((t.run w events).completion? event.1 event.2).toList := by
  induction events generalizing t with
  | nil => simp [completions, run]
  | cons first rest ih =>
      rw [List.cons_append, completions, completions, ih, List.append_assoc]
      rfl

variable (w) in
/-- What can happen at one reading of the clock, the fetch that it completes, and the traffic that
it leaves. -/
inductive Moves (t : Traffic τ α) (now : τ) :
    Event α → Option (Completion τ α) → Traffic τ α → Prop
  | unread {args : Args} {cause : Overflow}
      (looked : ReadThrough.begin? t.cache now (key w args) = .error cause) :
      Moves t now (.call args) none (t.enter args (.ended (.failed (.cache (.overflow cause)))))
  | hit {args : Args} {payload : α} {cache : Cache τ α}
      (looked : ReadThrough.begin? t.cache now (key w args) = .ok (some payload, cache)) :
      Moves t now (.call args) none ({ t with cache }.enter args (.ended (.cached payload)))
  | miss {args : Args} {cache : Cache τ α}
      (looked : ReadThrough.begin? t.cache now (key w args) = .ok (none, cache)) :
      Moves t now (.call args) none
        ({ t with cache, fetches := t.fetches ++ [(t.calls.length, args)] }.enter args .fetching)
  | fail {id : CallId} {args : Args} {failure : Failure}
      (waiting : t.calls[id]? = some ⟨args, .fetching⟩) :
      Moves t now (.back id (.error failure)) (some ⟨now, id, args, .error failure⟩)
        (t.close id (.failed (.fetch failure)))
  | keep {id : CallId} {args : Args} {payload : α} {cache : Cache τ α} {log : List LogRecord}
      (waiting : t.calls[id]? = some ⟨args, .fetching⟩)
      (stored : w.finish t.cache now (key w args) payload = (.ok (), cache, log)) :
      Moves t now (.back id (.ok payload)) (some ⟨now, id, args, .ok payload⟩)
        ({ t with cache }.close id (.fetched payload))
  | lose {id : CallId} {args : Args} {payload : α} {cause : Cache.Error} {cache : Cache τ α}
      {log : List LogRecord} (waiting : t.calls[id]? = some ⟨args, .fetching⟩)
      (lost : w.finish t.cache now (key w args) payload = (.error cause, cache, log)) :
      Moves t now (.back id (.ok payload)) (some ⟨now, id, args, .ok payload⟩)
        ({ t with cache }.close id (.failed (.cache cause)))
  | stray {id : CallId} {answer : Except Failure α} : Moves t now (.back id answer) none t
  | tell (command : Command α) :
      Moves t now (.tell command) none { t with cache := (t.cache.step now command).2.1 }

theorem step_moves (t : Traffic τ α) (now : τ) (event : Event α) :
    Moves w t now event (t.completion? now event) (t.step w now event).1 := by
  cases event with
  | call args =>
      simp only [step, begin, completion?]
      rcases hlooked : ReadThrough.begin? t.cache now (key w args) with
        cause | ⟨_ | payload, cache⟩
      · exact .unread hlooked
      · exact .miss hlooked
      · exact .hit hlooked
  | back id answer =>
      simp only [step, back, completion?]
      rcases hcall : t.calls[id]? with _ | ⟨args, _ | result⟩
      · exact .stray
      · cases answer with
        | error failure => exact .fail hcall
        | ok payload =>
            rcases hfinish : w.finish t.cache now (key w args) payload with
              ⟨cause | done, cache, log⟩
            · simp only [hfinish]
              exact .lose hcall hfinish
            · simp only [hfinish]
              exact .keep hcall hfinish
      · exact .stray
  | tell command => exact .tell command

/-- How a call ends that nothing comes between. -/
def End.ofOutcome (outcome : ReadThrough.Outcome α) : End α :=
  match outcome.answer with
  | .error error => .failed error
  | .ok answer => if outcome.fetched then .fetched answer.payload else .cached answer.payload

/-- A call that nothing comes between is traffic of two events, of which the second is stray if the
cache has answered. -/
theorem run_call (c : Cache Float α) (now later : Float) (args : Args)
    (answer : Except Failure α) :
    let outcome := w.call c now later args.positional args.named answer
    let t := run w { cache := c } [(now, .call args), (later, .back 0 answer)]
    t.cache = outcome.cache ∧ t.calls = [⟨args, .ended (.ofOutcome outcome)⟩] ∧
      t.fetches.length = outcome.fetched.toNat := by
  simp only [run, List.foldl_cons, List.foldl_nil, step, begin, ReadThrough.call, key]
  rcases ReadThrough.begin? c now (w.key args.positional args.named) with
    cause | ⟨_ | payload, left⟩
  · exact ⟨rfl, rfl, rfl⟩
  · cases answer with
    | error failure => exact ⟨rfl, rfl, rfl⟩
    | ok payload =>
        rcases hfinish : w.finish left later (w.key args.positional args.named) payload with
          ⟨cause | done, stored, log⟩ <;>
          simp [back, enter, close, key, hfinish, End.ofOutcome, Except.mapError, Except.map]
  · exact ⟨rfl, rfl, rfl⟩

/-! ### What the cache holds -/

/-- The last payload that was fetched for arguments of some kind, and when. -/
def LastFetch (kind : Args → Prop) (history : List (Completion τ α)) (time : τ) (payload : α) :
    Prop :=
  ∃ before id args after, history = before ++ ⟨time, id, args, .ok payload⟩ :: after ∧ kind args ∧
    ∀ c ∈ after, ∀ other, c.answer = .ok other → ¬ kind c.args

section LastFetch

omit [Timeline τ]

variable {kind kind' : Args → Prop} {history : List (Completion τ α)} {time : τ} {payload : α}

theorem LastFetch.last (history : List (Completion τ α)) (time : τ) (id : CallId) {args : Args}
    (payload : α) (hkind : kind args) :
    LastFetch kind (history ++ [⟨time, id, args, .ok payload⟩]) time payload :=
  ⟨history, id, args, [], rfl, hkind, by simp⟩

theorem LastFetch.concat (hlast : LastFetch kind history time payload) {c : Completion τ α}
    (hother : ∀ other, c.answer = .ok other → ¬ kind c.args) :
    LastFetch kind (history ++ [c]) time payload := by
  obtain ⟨before, id, args, after, rfl, hkind, hlatest⟩ := hlast
  refine ⟨before, id, args, after ++ [c], by simp, hkind, fun d hd => ?_⟩
  rcases List.mem_append.1 hd with hd | hd
  · exact hlatest d hd
  · obtain rfl := List.mem_singleton.1 hd
    exact hother

theorem LastFetch.congr (hlast : LastFetch kind history time payload)
    (hkinds : ∀ c ∈ history, kind c.args ↔ kind' c.args) :
    LastFetch kind' history time payload := by
  obtain ⟨before, id, args, after, rfl, hkind, hlatest⟩ := hlast
  refine ⟨before, id, args, after, rfl,
    (hkinds ⟨time, id, args, .ok payload⟩ (by simp)).1 hkind, ?_⟩
  intro c hc other hok hkind'
  exact hlatest c hc other hok ((hkinds c (by simp [hc])).2 hkind')

end LastFetch

variable (w) in
/-- An entry is what the last successful fetch under its key has brought. -/
structure Stocked (policy : Policy) (history : List (Completion τ α)) (e : Entry τ α) : Prop where
  last : LastFetch (fun args => key w args = e.key) history e.createdAt e.payload
  ttl : policy.resolveTtl e.key w.ttl = .ok e.ttl

/-- Whatever happens, the cache is told no more than commands. -/
theorem Moves.cache_eq_run {t left : Traffic τ α} {now : τ} {event : Event α}
    {c : Option (Completion τ α)} (hmoves : Moves w t now event c left) :
    ∃ commands, left.cache = t.cache.run commands := by
  cases hmoves with
  | unread looked | fail waiting | stray => exact ⟨[], rfl⟩
  | hit looked | miss looked => exact ⟨_, begin?_runs t.cache now looked⟩
  | @keep id args payload cache log waiting stored
  | @lose id args payload cause cache log waiting stored =>
      have hfinish := finish_runs t.cache now w (key w args) payload
      rw [stored] at hfinish
      exact ⟨_, hfinish⟩
  | tell command => exact ⟨[(now, command)], rfl⟩

theorem run_cache (policy : Policy) (events : List (τ × Event α)) :
    ∃ commands, (run w { cache := { policy } } events : Traffic τ α).cache =
      Cache.run { policy } commands := by
  induction events using List.reverseRecOn with
  | nil => exact ⟨[], rfl⟩
  | append_singleton events event ih =>
      obtain ⟨commands, hcache⟩ := ih
      obtain ⟨more, hmore⟩ := (step_moves (w := w) _ event.1 event.2).cache_eq_run
      exact ⟨commands ++ more, by rw [run_concat, hmore, hcache, Cache.run_append]⟩

section Stocked

variable {policy : Policy} {history : List (Completion τ α)} {c : Cache τ α}

omit [Timeline τ] in
theorem Stocked.concat {e : Entry τ α} (hstocked : Stocked w policy history e)
    {new : Completion τ α} (hother : ∀ other, new.answer = .ok other → key w new.args ≠ e.key) :
    Stocked w policy (history ++ [new]) e :=
  ⟨hstocked.last.concat hother, hstocked.ttl⟩

omit [Timeline τ] in
theorem Stocked.of_keeps {left : Cache τ α} (hkeeps : Keeps c left)
    (hall : ∀ e ∈ c.entries, Stocked w policy history e) :
    ∀ e ∈ left.entries, Stocked w policy history e := by
  intro e he
  obtain ⟨old, hold, hsame⟩ := hkeeps e he
  rw [hsame]
  exact ⟨(hall old hold).last, (hall old hold).ttl⟩

/-- What a fetch has brought takes the place of the entry under its key. -/
theorem Stocked.finish {args : Args} {seconds : Int}
    (hseconds : c.policy.resolveTtl (key w args) w.ttl = .ok seconds)
    (hall : ∀ e ∈ c.entries, Stocked w c.policy history e) (now : τ) (id : CallId) (payload : α) :
    ∀ e ∈ (w.finish c now (key w args) payload).2.1.entries,
      Stocked w c.policy (history ++ [⟨now, id, args, .ok payload⟩]) e := by
  intro e he
  have hleft : (w.finish c now (key w args) payload).2.1 =
      (c.store now (key w args) payload seconds).2.1 := insert_left hseconds now payload
  rw [hleft] at he
  rcases mem_place ((c.store_sublist now _ payload seconds).subset he) with rfl | ⟨hold, hkey⟩
  · exact ⟨.last history now id payload rfl, hseconds⟩
  · exact (hall e hold).concat fun _ _ => hkey.symm

theorem begin?_keeps {left : Cache τ α} {now : τ} {key : String} {found : Option α}
    (hlooked : ReadThrough.begin? c now key = .ok (found, left)) : Keeps c left := by
  have hget : (Command.get key : Command α).isStore = false := rfl
  rw [begin?_runs c now hlooked]
  exact step_keeps hget

/-- Whatever happens, entries stay the last fetches under their keys. -/
theorem Moves.stocked {t left : Traffic τ α} {now : τ} {event : Event α}
    {new : Option (Completion τ α)} (hmoves : Moves w t now event new left)
    (hpolicy : t.cache.policy = policy)
    (httl : ∀ key, ∃ seconds, policy.resolveTtl key w.ttl = .ok seconds)
    (hwrites : ∀ command, event = .tell command → command.isStore = false)
    (hall : ∀ e ∈ t.cache.entries, Stocked w policy history e) :
    ∀ e ∈ left.cache.entries, Stocked w policy (history ++ new.toList) e := by
  subst hpolicy
  cases hmoves with
  | unread looked | stray =>
      rw [Option.toList_none, List.append_nil]
      exact hall
  | hit looked | miss looked =>
      rw [Option.toList_none, List.append_nil]
      exact .of_keeps (begin?_keeps looked) hall
  | fail waiting =>
      intro e he
      refine (hall e he).concat fun other hok => ?_
      cases hok
  | @keep id args payload cache log waiting stored
  | @lose id args payload cause cache log waiting stored =>
      obtain ⟨seconds, hseconds⟩ := httl (key w args)
      have hfinish := Stocked.finish hseconds hall now id payload
      rw [stored] at hfinish
      exact hfinish
  | tell command =>
      rw [Option.toList_none, List.append_nil]
      exact .of_keeps (step_keeps (hwrites command rfl)) hall

theorem run_stocked (httl : ∀ key, ∃ seconds, policy.resolveTtl key w.ttl = .ok seconds)
    {events : List (τ × Event α)}
    (hwrites : ∀ now command, (now, .tell command) ∈ events → command.isStore = false) :
    let start : Traffic τ α := { cache := { policy } }
    ∀ e ∈ (start.run w events).cache.entries, Stocked w policy (completions w start events) e := by
  intro start
  induction events using List.reverseRecOn with
  | nil =>
      intro e he
      cases he
  | append_singleton events event ih =>
      obtain ⟨commands, hcache⟩ := run_cache (w := w) (τ := τ) (α := α) policy events
      have hpolicy : (start.run w events).cache.policy = policy := by
        rw [hcache]
        exact (run_keeps_books policy commands).policy_eq
      rw [run_concat, completions_concat]
      refine (step_moves _ event.1 event.2).stocked hpolicy httl (fun command htold => ?_)
        (ih fun now command htold => hwrites now command (List.mem_append_left _ htold))
      refine hwrites event.1 command ?_
      rw [← htold]
      simp

end Stocked

end IssueSearch.Cache.Traffic
