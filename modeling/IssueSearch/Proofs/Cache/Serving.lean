import IssueSearch.Proofs.Cache.Key
import IssueSearch.Proofs.Cache.Traffic
/-!
Calls through a cache that nobody else writes to. Keys tell arguments apart up to the order of
members and names, so that what the cache answers is the last payload that was fetched for the same
arguments.
-/
namespace IssueSearch.Cache.Traffic

variable {τ α : Type}

/-! ### Keys tell arguments apart -/

/-- The parameters of the key of a call. -/
def Args.params (args : Args) : Json := ReadThrough.params args.positional args.named

/-- Arguments are JSON values, and none is named twice. -/
def Args.Proper (args : Args) : Prop :=
  (Json.arr args.positional).Proper ∧ (Json.obj args.named).Proper

/-- Equality of arguments, by position and by name, up to the order of names and members. -/
def Args.Alike (args args' : Args) : Prop :=
  Json.Same (.arr args.positional) (.arr args'.positional) ∧
    Json.Same (.obj args.named) (.obj args'.named)

/-- No arguments give no parameters, any others an object of two members. -/
theorem Args.params_cases (args : Args) :
    (args.positional = [] ∧ args.named = [] ∧ args.params = .null) ∨
      (¬ (args.positional = [] ∧ args.named = []) ∧
        args.params = .obj [("args", .arr args.positional), ("kwargs", .obj args.named)]) := by
  obtain ⟨positional, named⟩ := args
  simp only [params, ReadThrough.params]
  cases positional <;> cases named <;> simp

theorem Args.Proper.params {args : Args} (hproper : args.Proper) : args.params.Proper := by
  rcases args.params_cases with ⟨-, -, hparams⟩ | ⟨-, hparams⟩
  · rw [hparams]
    exact .null
  · rw [hparams]
    refine .obj (by simp) fun member hmember => ?_
    simp only [List.mem_cons, List.not_mem_nil, or_false] at hmember
    rcases hmember with rfl | rfl
    · exact hproper.1
    · exact hproper.2

theorem eq_nil_iff_of_same_arr {items items' : List Json}
    (hsame : Json.Same (.arr items) (.arr items')) : items = [] ↔ items' = [] := by
  cases hsame with
  | arr length each => rw [← List.length_eq_zero_iff, ← List.length_eq_zero_iff, length]

theorem eq_nil_iff_of_same_obj {members members' : List (String × Json)}
    (hsame : Json.Same (.obj members) (.obj members')) : members = [] ↔ members' = [] := by
  cases hsame with
  | obj names each =>
      rw [← List.map_eq_nil_iff (f := Prod.fst), ← List.map_eq_nil_iff (f := Prod.fst),
        List.eq_nil_iff_forall_not_mem, List.eq_nil_iff_forall_not_mem]
      simp only [names]

theorem Args.Alike.eq_nil_iff {args args' : Args} (halike : args.Alike args') :
    args.positional = [] ∧ args.named = [] ↔ args'.positional = [] ∧ args'.named = [] := by
  rw [eq_nil_iff_of_same_arr halike.1, eq_nil_iff_of_same_obj halike.2]

theorem Args.same_params_iff (args args' : Args) :
    Json.Same args.params args'.params ↔ args.Alike args' := by
  rcases args.params_cases with ⟨hnone, hnamed, hparams⟩ | ⟨hsome, hparams⟩ <;>
    rcases args'.params_cases with ⟨hnone', hnamed', hparams'⟩ | ⟨hsome', hparams'⟩ <;>
    rw [hparams, hparams']
  · refine iff_of_true .null ?_
    rw [Alike, hnone, hnone', hnamed, hnamed']
    exact ⟨.arr rfl (by simp), .obj (by simp) (by simp)⟩
  · refine iff_of_false (fun hsame => by cases hsame) fun halike => ?_
    exact hsome' (halike.eq_nil_iff.1 ⟨hnone, hnamed⟩)
  · refine iff_of_false (fun hsame => by cases hsame) fun halike => ?_
    exact hsome (halike.eq_nil_iff.2 ⟨hnone', hnamed'⟩)
  · constructor
    · intro hsame
      cases hsame with
      | obj names each =>
          exact ⟨each ("args", _) (by simp) ("args", _) (by simp) rfl,
            each ("kwargs", _) (by simp) ("kwargs", _) (by simp) rfl⟩
    · rintro ⟨hargs, hnamed⟩
      refine .obj (by simp) fun member hmember member' hmember' hname => ?_
      simp only [List.mem_cons, List.not_mem_nil, or_false] at hmember hmember'
      rcases hmember with rfl | rfl <;> rcases hmember' with rfl | rfl
      · exact hargs
      · exact absurd hname (by simp)
      · exact absurd hname (by simp)
      · exact hnamed

theorem Args.isFalsy_params_iff (args : Args) :
    args.params.isFalsy = true ↔ args.positional = [] ∧ args.named = [] := by
  rcases args.params_cases with ⟨hnone, hnamed, hparams⟩ | ⟨hsome, hparams⟩
  · rw [hparams]
    exact iff_of_true rfl ⟨hnone, hnamed⟩
  · rw [hparams]
    exact iff_of_false Bool.false_ne_true hsome

/-- The canonical texts of two calls are one text if they have one digest. -/
def Args.Apart (args args' : Args) : Prop :=
  Digest.short args.params.canonicalText = Digest.short args'.params.canonicalText →
    args.params.canonicalText = args'.params.canonicalText

/-- Keys are equal exactly for equal arguments, unless two canonical texts collide. -/
theorem key_eq_iff_alike {args args' : Args} (hproper : args.Proper) (hproper' : args'.Proper)
    (hapart : args.Apart args') (w : ReadThrough) :
    key w args = key w args' ↔ args.Alike args' := by
  have htext := Json.canonicalText_eq_iff hproper.params hproper'.params
  rw [← Args.same_params_iff, ← htext]
  constructor
  · intro hkey
    rcases paramsDigest_eq_iff.1 (digest_eq_of_key hkey).2 with ⟨hfalsy, hfalsy'⟩ | ⟨-, -, hshort⟩
    · have hnull {args : Args} (hfalsy : args.params.isFalsy = true) : args.params = .null := by
        rcases args.params_cases with ⟨-, -, hparams⟩ | ⟨hsome, -⟩
        · exact hparams
        · exact absurd (args.isFalsy_params_iff.1 hfalsy) hsome
      exact congrArg Json.canonicalText ((hnull hfalsy).trans (hnull hfalsy').symm)
    · exact hapart hshort
  · intro heq
    have halike := (Args.same_params_iff args args').1 (htext.1 heq)
    have hfalsy : args.params.isFalsy = args'.params.isFalsy := by
      rw [Bool.eq_iff_iff, Args.isFalsy_params_iff, Args.isFalsy_params_iff, halike.eq_nil_iff]
    have hdigest : paramsDigest args.params = paramsDigest args'.params := by
      rw [paramsDigest, paramsDigest, hfalsy, heq]
    exact congrArg (w.domain ++ ":" ++ w.endpoint ++ ":" ++ ·) hdigest

/-! ### What becomes of a call -/

/-- The clock cannot tell some deadline. -/
def Untold (τ : Type) [Timeline τ] : Prop :=
  ∃ (time : τ) (seconds : Int) (cause : Overflow), Timeline.after time seconds = .error cause

variable [Timeline τ] {w : ReadThrough} {policy : Policy} {alike : Args → Args → Prop}

/-- A call comes in while the last payload that was fetched for arguments alike is there, its
deadline not yet reached. -/
structure Serves (w : ReadThrough) (alike : Args → Args → Prop) (policy : Policy)
    (events : List (τ × Event α)) (id : CallId) (args : Args) (payload : α) : Prop where
  before : ∃ earlier now later time seconds deadline,
    events = earlier ++ (now, .call args) :: later ∧
    (run w { cache := { policy } } earlier : Traffic τ α).calls.length = id ∧
    LastFetch (alike · args) (completions w { cache := { policy } } earlier) time payload ∧
    policy.resolveTtl (key w args) w.ttl = .ok seconds ∧
    Timeline.after time seconds = .ok deadline ∧ Timeline.reached now deadline = false

/-- What has become of a call, by what the fetcher was asked on its behalf and what it has answered
to it. -/
inductive Explained (w : ReadThrough) (alike : Args → Args → Prop) (policy : Policy)
    (events : List (τ × Event α)) (id : CallId) :
    List (CallId × Args) → List (Completion τ α) → Call α → Prop
  | fetching {args : Args} : Explained w alike policy events id [(id, args)] [] ⟨args, .fetching⟩
  | cached {args : Args} {payload : α}
      (served : Serves w alike policy events id args payload) :
      Explained w alike policy events id [] [] ⟨args, .ended (.cached payload)⟩
  | fetched {args : Args} {time : τ} {payload : α} :
      Explained w alike policy events id [(id, args)] [⟨time, id, args, .ok payload⟩]
        ⟨args, .ended (.fetched payload)⟩
  | failed {args : Args} {time : τ} {failure : Failure} :
      Explained w alike policy events id [(id, args)] [⟨time, id, args, .error failure⟩]
        ⟨args, .ended (.failed (.fetch failure))⟩
  | unread {args : Args} {cause : Overflow} (untold : Untold τ) :
      Explained w alike policy events id [] [] ⟨args, .ended (.failed (.cache (.overflow cause)))⟩
  | unswept {args : Args} {time : τ} {payload : α} {cause : Overflow} (untold : Untold τ) :
      Explained w alike policy events id [(id, args)] [⟨time, id, args, .ok payload⟩]
        ⟨args, .ended (.failed (.cache (.overflow cause)))⟩

theorem Serves.concat {events : List (τ × Event α)} {id : CallId} {args : Args} {payload : α}
    (hserves : Serves w alike policy events id args payload) (event : τ × Event α) :
    Serves w alike policy (events ++ [event]) id args payload := by
  obtain ⟨earlier, now, later, time, seconds, deadline, rfl, hrest⟩ := hserves
  exact ⟨earlier, now, later ++ [event], time, seconds, deadline, by simp, hrest⟩

theorem Explained.concat {events : List (τ × Event α)} {id : CallId}
    {asked : List (CallId × Args)} {answers : List (Completion τ α)} {call : Call α}
    (hexplained : Explained w alike policy events id asked answers call) (event : τ × Event α) :
    Explained w alike policy (events ++ [event]) id asked answers call := by
  cases hexplained with
  | fetching => exact .fetching
  | cached served => exact .cached (served.concat event)
  | fetched => exact .fetched
  | failed => exact .failed
  | unread untold => exact .unread untold
  | unswept untold => exact .unswept untold

/-- A call that waits for the fetcher was asked for and not answered yet. -/
theorem Explained.of_fetching {events : List (τ × Event α)} {id : CallId}
    {asked : List (CallId × Args)} {answers : List (Completion τ α)} {args : Args}
    (hexplained : Explained w alike policy events id asked answers ⟨args, .fetching⟩) :
    asked = [(id, args)] ∧ answers = [] := by
  cases hexplained
  exact ⟨rfl, rfl⟩

/-- All calls of the traffic are explained, and nothing was fetched on behalf of any other. -/
structure Settled (w : ReadThrough) (alike : Args → Args → Prop) (policy : Policy)
    (events : List (τ × Event α)) (t : Traffic τ α) (history : List (Completion τ α)) : Prop where
  explained : ∀ id call, t.calls[id]? = some call →
    Explained w alike policy events id (t.fetches.filter (·.1 == id))
      (history.filter (·.call == id)) call
  asked_lt : ∀ f ∈ t.fetches, f.1 < t.calls.length
  answered_lt : ∀ c ∈ history, c.call < t.calls.length

section Settled

variable {events : List (τ × Event α)} {t : Traffic τ α} {history : List (Completion τ α)}

theorem Settled.concat (hsettled : Settled w alike policy events t history) (event : τ × Event α)
    (cache : Cache τ α) :
    Settled w alike policy (events ++ [event]) { t with cache } history :=
  ⟨fun id call hcall => (hsettled.explained id call hcall).concat event, hsettled.asked_lt,
    hsettled.answered_lt⟩

/-- A call that comes in leaves the others as they are. -/
theorem Settled.enter (hsettled : Settled w alike policy events t history) (event : τ × Event α)
    (cache : Cache τ α) (args : Args) (phase : Phase α) (extra : List (CallId × Args))
    (hextra : ∀ f ∈ extra, f.1 = t.calls.length)
    (hnew : Explained w alike policy (events ++ [event]) t.calls.length extra [] ⟨args, phase⟩) :
    Settled w alike policy (events ++ [event])
      ({ t with cache, fetches := t.fetches ++ extra }.enter args phase) history := by
  have hcalls : (({ t with cache, fetches := t.fetches ++ extra } : Traffic τ α).enter args
      phase).calls = t.calls ++ [⟨args, phase⟩] := rfl
  have hlength := congrArg List.length hcalls
  rw [List.length_append, List.length_singleton] at hlength
  constructor
  · intro id call hcall
    rw [hcalls] at hcall
    change Explained w alike policy _ id ((t.fetches ++ extra).filter _) _ call
    rw [List.filter_append]
    rcases Nat.lt_trichotomy id t.calls.length with hlt | rfl | hgt
    · rw [List.getElem?_append_left hlt] at hcall
      have hother : extra.filter (·.1 == id) = [] := by
        refine List.filter_eq_nil_iff.2 fun f hf => ?_
        rw [hextra f hf, beq_iff_eq]
        exact (Nat.ne_of_lt hlt).symm
      rw [hother, List.append_nil]
      exact (hsettled.explained id call hcall).concat event
    · rw [List.getElem?_concat_length] at hcall
      cases hcall
      have hasked : t.fetches.filter (·.1 == t.calls.length) = [] := by
        refine List.filter_eq_nil_iff.2 fun f hf => ?_
        rw [beq_iff_eq]
        exact Nat.ne_of_lt (hsettled.asked_lt f hf)
      have hanswered : history.filter (·.call == t.calls.length) = [] := by
        refine List.filter_eq_nil_iff.2 fun c hc => ?_
        rw [beq_iff_eq]
        exact Nat.ne_of_lt (hsettled.answered_lt c hc)
      have hall : extra.filter (·.1 == t.calls.length) = extra :=
        List.filter_eq_self.2 fun f hf => beq_iff_eq.2 (hextra f hf)
      rw [hasked, hanswered, hall, List.nil_append]
      exact hnew
    · rw [List.getElem?_eq_none (by simpa using Nat.succ_le_of_lt hgt)] at hcall
      cases hcall
  · intro f hf
    rw [hlength]
    rcases List.mem_append.1 hf with hf | hf
    · exact Nat.lt_succ_of_lt (hsettled.asked_lt f hf)
    · rw [hextra f hf]
      exact Nat.lt_succ_self _
  · intro c hc
    rw [hlength]
    exact Nat.lt_succ_of_lt (hsettled.answered_lt c hc)

/-- A call that ends leaves the others as they are. -/
theorem Settled.close (hsettled : Settled w alike policy events t history) (event : τ × Event α)
    (cache : Cache τ α) (new : Completion τ α) {result : End α}
    (hwaiting : t.calls[new.call]? = some ⟨new.args, .fetching⟩)
    (hnew : Explained w alike policy (events ++ [event]) new.call [(new.call, new.args)] [new]
      ⟨new.args, .ended result⟩) :
    Settled w alike policy (events ++ [event]) ({ t with cache }.close new.call result)
      (history ++ [new]) := by
  have hlength : (({ t with cache } : Traffic τ α).close new.call result).calls.length =
      t.calls.length := List.length_modify _ _ _
  have hlt : new.call < t.calls.length := (List.getElem?_eq_some_iff.1 hwaiting).1
  constructor
  · intro id call hcall
    change Explained w alike policy _ id (t.fetches.filter _) _ call
    rw [List.filter_append]
    by_cases hid : id = new.call
    · subst hid
      obtain ⟨hasked, hanswers⟩ := (hsettled.explained _ _ hwaiting).of_fetching
      obtain rfl : ⟨new.args, .ended result⟩ = call := by
        simpa [Traffic.close, hwaiting] using hcall
      rw [hasked, hanswers]
      simpa using hnew
    · have hother : [new].filter (·.call == id) = [] := by
        simpa using Ne.symm hid
      rw [hother, List.append_nil]
      refine (hsettled.explained id call ?_).concat event
      simpa [Traffic.close, List.getElem?_modify, Ne.symm hid] using hcall
  · intro f hf
    rw [hlength]
    exact hsettled.asked_lt f hf
  · intro c hc
    rw [hlength]
    rcases List.mem_append.1 hc with hc | hc
    · exact hsettled.answered_lt c hc
    · obtain rfl := List.mem_singleton.1 hc
      exact hlt

/-- A lookup that fails has met an entry whose deadline cannot be told. -/
theorem untold_of_begin? {c : Cache τ α} {now : τ} {key : String} {cause : Overflow}
    (hlooked : ReadThrough.begin? c now key = .error cause) : Untold τ := by
  rw [ReadThrough.begin?, get?] at hlooked
  cases hlive : c.live now key with
  | error cause' =>
      obtain ⟨e, -, cause, huntold⟩ := live_eq_error hlive
      exact ⟨e.createdAt, e.ttl, cause, huntold⟩
  | ok found =>
      rw [hlive] at hlooked
      cases hlooked

/-- Storing for an accepted time to live fails only over a deadline that cannot be told. -/
theorem untold_of_finish {c left : Cache τ α} {now : τ} {key : String} {payload : α}
    {cause : Cache.Error} {log : List LogRecord} {seconds : Int}
    (hseconds : c.policy.resolveTtl key w.ttl = .ok seconds)
    (hfinish : w.finish c now key payload = (.error cause, left, log)) :
    (∃ overflow, cause = .overflow overflow) ∧ Untold τ := by
  simp only [ReadThrough.finish, insert, hseconds] at hfinish
  rcases hstore : (c.store now key payload seconds).1 with overflow | e
  · rw [hstore] at hfinish
    obtain rfl := Except.error.inj (Prod.mk.inj hfinish).1
    refine ⟨⟨overflow, rfl⟩, ?_⟩
    rcases unexpired_cases now (c.place ⟨key, payload, now, seconds, 0⟩).1.entries with
      ⟨-, e, -, cause, huntold⟩ | ⟨hkept, -⟩
    · exact ⟨e.createdAt, e.ttl, cause, huntold⟩
    · rw [store_eq_error hstore] at hkept
      cases hkept
  · rw [hstore] at hfinish
    cases (Prod.mk.inj hfinish).1

/-- A lookup that the cache answers has found an entry whose deadline is not reached. -/
theorem begin?_eq_some {c left : Cache τ α} {now : τ} {key : String} {payload : α}
    (hlooked : ReadThrough.begin? c now key = .ok (some payload, left)) :
    ∃ e ∈ c.entries, e.key = key ∧ e.payload = payload ∧ e.isExpired now = .ok false := by
  rcases hget : c.get? now key with cause | ⟨_ | e, left'⟩
  · rw [ReadThrough.begin?, hget] at hlooked
    cases hlooked
  · rw [ReadThrough.begin?, hget] at hlooked
    cases hlooked
  · rw [ReadThrough.begin?, hget] at hlooked
    obtain ⟨hpayload, -⟩ := Prod.mk.inj (Except.ok.inj hlooked)
    obtain ⟨old, hstored, hliving, rfl, -⟩ := get?_eq_some hget
    obtain ⟨hmem, hkey⟩ := stored?_some hstored
    exact ⟨old, hmem, hkey, Option.some.inj hpayload, hliving⟩

variable (w policy) in
/-- Whatever happens at a moment, all calls stay explained. -/
theorem Settled.step {start : Traffic τ α} (hstart : start = { cache := { policy } })
    {events : List (τ × Event α)} (hpolicy : (start.run w events).cache.policy = policy)
    (httl : ∀ key, ∃ seconds, policy.resolveTtl key w.ttl = .ok seconds)
    (hstocked : ∀ e ∈ (start.run w events).cache.entries,
      Stocked w policy (completions w start events) e)
    (hsettled : Settled w (fun args args' => key w args = key w args') policy events
      (start.run w events) (completions w start events)) (event : τ × Event α) :
    Settled w (fun args args' => key w args = key w args') policy (events ++ [event])
      (start.run w (events ++ [event])) (completions w start (events ++ [event])) := by
  have hmoves := step_moves (w := w) (start.run w events) event.1 event.2
  rw [run_concat, completions_concat]
  generalize hrun : start.run w events = t at *
  generalize hhistory : completions w start events = history at *
  generalize (t.step w event.1 event.2).1 = left at hmoves
  generalize t.completion? event.1 event.2 = new at hmoves
  obtain ⟨now, event⟩ := event
  cases hmoves with
  | @unread args cause looked =>
      simpa using hsettled.enter (now, .call args) t.cache args _ [] (by simp)
        (.unread (untold_of_begin? looked))
  | @hit args payload cache looked =>
      obtain ⟨e, hmem, hkey, rfl, hliving⟩ := begin?_eq_some looked
      obtain ⟨deadline, hafter, hreached⟩ := Entry.isExpired_eq_ok hliving
      obtain ⟨hlast, hseconds⟩ := hstocked e hmem
      rw [hkey] at hlast hseconds
      have hserves : Serves w (fun args args' => key w args = key w args') policy
          (events ++ [(now, .call args)]) t.calls.length args e.payload := by
        refine ⟨events, now, [], e.createdAt, e.ttl, deadline, rfl, ?_, ?_, hseconds, hafter,
          hreached⟩
        · rw [← hstart, hrun]
        · rw [← hstart, hhistory]
          exact hlast
      simpa using hsettled.enter (now, .call args) cache args _ [] (by simp) (.cached hserves)
  | @miss args cache looked =>
      simpa using hsettled.enter (now, .call args) cache args _ [(t.calls.length, args)] (by simp)
        .fetching
  | @fail id args failure waiting =>
      exact hsettled.close _ t.cache ⟨now, id, args, .error failure⟩ waiting .failed
  | @keep id args payload cache log waiting stored =>
      exact hsettled.close _ cache ⟨now, id, args, .ok payload⟩ waiting .fetched
  | @lose id args payload cause cache log waiting lost =>
      obtain ⟨seconds, hseconds⟩ := httl (key w args)
      rw [← hpolicy] at hseconds
      obtain ⟨⟨overflow, rfl⟩, huntold⟩ := untold_of_finish hseconds lost
      exact hsettled.close _ cache ⟨now, id, args, .ok payload⟩ waiting (.unswept huntold)
  | stray =>
      simpa using hsettled.concat (now, .back _ _) t.cache
  | tell command =>
      simpa using hsettled.concat (now, .tell command) (t.cache.step now command).2.1

end Settled

theorem run_settled (httl : ∀ key, ∃ seconds, policy.resolveTtl key w.ttl = .ok seconds)
    {events : List (τ × Event α)}
    (hwrites : ∀ now command, (now, .tell command) ∈ events → command.isStore = false) :
    let start : Traffic τ α := { cache := { policy } }
    Settled w (fun args args' => key w args = key w args') policy events (start.run w events)
      (completions w start events) := by
  intro start
  induction events using List.reverseRecOn with
  | nil =>
      constructor
      · intro id call hcall
        cases hcall
      · exact fun _ hf => absurd hf List.not_mem_nil
      · exact fun _ hc => absurd hc List.not_mem_nil
  | append_singleton events event ih =>
      have hfirst : ∀ now command, (now, .tell command) ∈ events → command.isStore = false :=
        fun now command htold => hwrites now command (List.mem_append_left _ htold)
      obtain ⟨commands, hcache⟩ := run_cache (w := w) (τ := τ) (α := α) policy events
      have hpolicy : (start.run w events).cache.policy = policy := by
        rw [hcache]
        exact (run_keeps_books policy commands).policy_eq
      exact Settled.step w policy rfl hpolicy httl (run_stocked httl hfirst) (ih hfirst) event

/-! ### The calls of a run -/

/-- The arguments of a call that comes in. -/
def Event.args? : Event α → Option Args
  | .call args => some args
  | _ => none

/-- The arguments of the calls that come in. -/
def callsOf (events : List (τ × Event α)) : List Args := events.filterMap (·.2.args?)

omit [Timeline τ] in
theorem callsOf_concat (events : List (τ × Event α)) (event : τ × Event α) :
    callsOf (events ++ [event]) = callsOf events ++ event.2.args?.toList := by
  rw [callsOf, List.filterMap_append]
  cases hargs : event.2.args? with
  | none => simp [hargs, callsOf]
  | some args => simp [hargs, callsOf]

theorem Moves.args_eq {t left : Traffic τ α} {now : τ} {event : Event α}
    {new : Option (Completion τ α)} (hmoves : Moves w t now event new left) :
    left.calls.map Call.args = t.calls.map Call.args ++ event.args?.toList := by
  have hclose (cache : Cache τ α) (id : CallId) (result : End α) :
      ({ t with cache }.close id result).calls.map Call.args = t.calls.map Call.args := by
    refine List.ext_getElem? fun other => ?_
    by_cases hid : id = other
    · subst hid
      cases hcall : t.calls[id]? <;> simp [Traffic.close, hcall]
    · simp [Traffic.close, hid]
  cases hmoves with
  | unread looked | hit looked | miss looked => simp [enter, Event.args?]
  | fail waiting => simpa [Event.args?] using hclose t.cache _ _
  | keep waiting stored | lose waiting stored => simpa [Event.args?] using hclose _ _ _
  | stray | tell command => simp [Event.args?]

/-- Every call that comes in is there, in order. -/
theorem run_args (events : List (τ × Event α)) :
    ((run w { cache := { policy } } events : Traffic τ α).calls.map Call.args) =
      callsOf events := by
  induction events using List.reverseRecOn with
  | nil => rfl
  | append_singleton events event ih =>
      rw [run_concat, (step_moves _ event.1 event.2).args_eq, ih, callsOf_concat]

theorem Moves.completed {t left : Traffic τ α} {now : τ} {event : Event α}
    {new : Completion τ α} (hmoves : Moves w t now event (some new) left) :
    t.calls[new.call]? = some ⟨new.args, .fetching⟩ := by
  cases hmoves with
  | fail waiting | keep waiting stored | lose waiting stored => exact waiting

theorem args_mem_of_completions {events : List (τ × Event α)} {c : Completion τ α}
    (hmem : c ∈ completions w { cache := { policy } } events) : c.args ∈ callsOf events := by
  induction events using List.reverseRecOn with
  | nil => cases hmem
  | append_singleton events event ih =>
      rw [callsOf_concat]
      refine List.mem_append_left _ ?_
      rw [completions_concat] at hmem
      rcases List.mem_append.1 hmem with hmem | hmem
      · exact ih hmem
      · have hmoves := step_moves (w := w) (run w { cache := { policy } } events : Traffic τ α)
          event.1 event.2
        rw [Option.mem_toList.1 hmem] at hmoves
        have hargs : (run w { cache := { policy } } events : Traffic τ α).calls.map Call.args =
            callsOf events := run_args events
        rw [← hargs]
        exact List.mem_map_of_mem (f := Call.args) (List.mem_of_getElem? hmoves.completed)

/-- Calls that are explained in one way of comparing arguments are explained in another, as long as
both compare the arguments of the run alike. -/
theorem Explained.congr {alike' : Args → Args → Prop} {events : List (τ × Event α)} {id : CallId}
    {asked : List (CallId × Args)} {answers : List (Completion τ α)} {call : Call α}
    (hexplained : Explained w alike policy events id asked answers call)
    (halike : ∀ args ∈ callsOf events, ∀ args' ∈ callsOf events,
      alike args args' ↔ alike' args args') :
    Explained w alike' policy events id asked answers call := by
  cases hexplained with
  | fetching => exact .fetching
  | @cached args payload served =>
      obtain ⟨earlier, now, later, time, seconds, deadline, rfl, hid, hlast, hrest⟩ := served
      refine .cached ⟨earlier, now, later, time, seconds, deadline, rfl, hid, ?_, hrest⟩
      refine hlast.congr fun c hc => halike _ ?_ _ ?_
      · rw [callsOf, List.filterMap_append]
        exact List.mem_append_left _ (args_mem_of_completions hc)
      · simp [callsOf, Event.args?]
  | fetched => exact .fetched
  | failed => exact .failed
  | unread untold => exact .unread untold
  | unswept untold => exact .unswept untold

omit [Timeline τ] in
theorem resolveTtl_of_valid {ttl : Json} (httl : ttl = .null ∨ ∃ n, 0 < n ∧ ttl = .int n)
    (policy : Policy) (key : String) : ∃ seconds, policy.resolveTtl key ttl = .ok seconds := by
  rcases httl with rfl | ⟨n, hpos, rfl⟩
  · exact ⟨_, rfl⟩
  · refine ⟨n, ?_⟩
    simp only [Policy.resolveTtl, ttlOf, dif_pos hpos]
    rfl

/-- Reading through is sound. In any traffic through a cache that is otherwise not written to, every
call that comes in is there and explained: it waits for the one fetch that it has asked for with its
own arguments, or has ended with what that fetch has brought or failed with, or was answered by the
cache without any fetch, with the last payload fetched for the same arguments before it came in, the
deadline of which was not reached. No call ends otherwise, unless the clock cannot tell a deadline.
What stands in the cache was fetched with success, and a failure leaves the cache as it is. -/
theorem run_reads_through {w : ReadThrough} (policy : Policy) (events : List (τ × Event α))
    (httl : w.ttl = .null ∨ ∃ n, 0 < n ∧ w.ttl = .int n)
    (hwrites : ∀ now command, (now, .tell command) ∈ events → command.isStore = false)
    (hproper : ∀ args ∈ callsOf events, args.Proper)
    (hapart : ∀ args ∈ callsOf events, ∀ args' ∈ callsOf events, args.Apart args') :
    let start : Traffic τ α := { cache := { policy } }
    let t := start.run w events
    let history := completions w start events
    t.calls.map Call.args = callsOf events ∧
    (∀ id call, t.calls[id]? = some call →
      Explained w Args.Alike policy events id (t.fetches.filter (·.1 == id))
        (history.filter (·.call == id)) call) ∧
    (∀ e ∈ t.cache.entries, ∃ c ∈ history,
      c.answer = .ok e.payload ∧ c.time = e.createdAt ∧ key w c.args = e.key) ∧
    ∀ now id failure, (t.step w now (.back id (.error failure))).1.cache = t.cache := by
  intro start t history
  have hseconds := resolveTtl_of_valid httl policy
  refine ⟨run_args events, ?_, ?_, ?_⟩
  · intro id call hcall
    refine ((run_settled hseconds hwrites).explained id call hcall).congr ?_
    intro args hargs args' hargs'
    exact key_eq_iff_alike (hproper args hargs) (hproper args' hargs')
      (hapart args hargs args' hargs') w
  · intro e he
    obtain ⟨⟨before, id, args, after, hhistory, hkey, -⟩, -⟩ := run_stocked hseconds hwrites e he
    refine ⟨⟨e.createdAt, id, args, .ok e.payload⟩, ?_, rfl, rfl, hkey⟩
    change _ ∈ completions w start events
    rw [hhistory]
    simp
  · intro now id failure
    have hmoves := step_moves (w := w) t now (.back id (.error failure))
    generalize (t.step w now _).1 = left at hmoves
    generalize t.completion? now _ = new at hmoves
    cases hmoves with
    | fail waiting | stray => rfl

/-- A project that is asked for by two calls, of which the second comes in after the fetch. -/
def calledTwice : List (Int × Event String) :=
  [(0, .call ⟨[.str "YTM"], []⟩), (5, .back 0 (.ok "found")), (9, .call ⟨[.str "YTM"], []⟩)]

/-- The second call is served what was fetched for the first. -/
theorem run_reads_through_calledTwice :
    let w : ReadThrough := ⟨"projects", "get", .int 60⟩
    let t := run w { cache := { policy := {} } } calledTwice
    t.fetches = [(0, ⟨[.str "YTM"], []⟩)] ∧
    t.calls[1]? = some ⟨⟨[.str "YTM"], []⟩, .ended (.cached "found")⟩ ∧
    Serves w Args.Alike {} calledTwice 1 ⟨[.str "YTM"], []⟩ "found" := by
  intro w t
  have hcall : t.fetches = [(0, ⟨[.str "YTM"], []⟩)] ∧
      t.calls[1]? = some ⟨⟨[.str "YTM"], []⟩, .ended (.cached "found")⟩ := by
    simp only [t, calledTwice, run, List.foldl_cons, List.foldl_nil, step]
    generalize w.key _ _ = text
    simp [begin, ReadThrough.begin?, get?, live, stored?, countLookup, enter, back, close,
      ReadThrough.finish, insert, Policy.resolveTtl, ttlOf, store, place, makeRoom, Except.map,
      Except.mapError, Entry.isExpired, Entry.expiresAt, Timeline.after, Timeline.reached, w,
      replace]
  have hargs : ∀ args ∈ callsOf calledTwice, args = ⟨[.str "YTM"], []⟩ := by
    simp [callsOf, calledTwice, Event.args?]
  have hproper : Args.Proper ⟨[.str "YTM"], []⟩ := by
    refine ⟨.arr fun item hitem => ?_, .obj (by simp) (by simp)⟩
    rw [List.mem_singleton.1 hitem]
    exact .str "YTM"
  obtain ⟨-, hexplained, -⟩ := run_reads_through (w := w) {} calledTwice
    (.inr ⟨60, by decide, rfl⟩) (by simp [calledTwice])
    (fun args hmem => by rw [hargs args hmem]; exact hproper)
    (fun args hmem args' hmem' _ => by rw [hargs args hmem, hargs args' hmem'])
  refine ⟨hcall.1, hcall.2, ?_⟩
  have hsecond := hexplained 1 _ hcall.2
  generalize t.fetches.filter _ = asked, List.filter _ _ = answers at hsecond
  cases hsecond with
  | cached served => exact served

end IssueSearch.Cache.Traffic
