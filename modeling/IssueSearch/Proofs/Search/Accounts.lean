import IssueSearch.Proofs.Search.Hits
import Mathlib.Algebra.GroupWithZero.Nat
/-!
What is accounted for. A call that is served from the cache, or that ends as a leader, is reported
once: with one measurement in the monitor, one record in the metrics and one line in the log, which
are all made of one report. Every other call ends without a report; `Silence` lists the ways in
which that happens. So the three agree in every run, and fall short of the calls that have ended by
those that ended silently.
-/
namespace IssueSearch

namespace LogRecord

/-- The messages of a log at the level of information. -/
def infos (log : List LogRecord) : List String :=
  (log.filter (·.level == .info)).map LogRecord.message

theorem infos_append (log log' : List LogRecord) :
    infos (log ++ log') = infos log ++ infos log' := by
  simp only [infos, List.filter_append, List.map_append]

end LogRecord

namespace Metrics

/-- What a counter adds to those of some kind. -/
def Total.counted (p : Labels → Bool) (total : Total) : Nat :=
  if p total.labels then total.count else 0

/-- The number of records taken in under labels of some kind. -/
def recorded (m : Metrics) (p : Labels → Bool) : Nat := (m.totals.map (Total.counted p)).sum

/-- Every combination of labels has one counter. -/
def LabelsDistinct (totals : List Total) : Prop := (totals.map Total.labels).Nodup

theorem labels_increment (labels : Labels) (totals : List Total) :
    (increment labels totals).map Total.labels =
      if totals.any (·.labels == labels) then totals.map Total.labels
      else totals.map Total.labels ++ [labels] := by
  unfold increment
  split
  · rw [List.map_map]
    apply List.map_congr_left
    intro total _
    simp only [Function.comp]
    split <;> rfl
  · rw [List.map_append]
    rfl

theorem LabelsDistinct.increment {totals : List Total} (hdistinct : LabelsDistinct totals)
    (labels : Labels) : LabelsDistinct (increment labels totals) := by
  rw [LabelsDistinct, labels_increment]
  split
  · exact hdistinct
  · rename_i habsent
    rw [← List.concat_eq_append]
    refine List.Nodup.concat (fun hmem => ?_) hdistinct
    obtain ⟨total, htotal, rfl⟩ := List.mem_map.1 hmem
    exact habsent (List.any_eq_true.2 ⟨total, htotal, beq_self_eq_true _⟩)

/-- One counter goes up by one. -/
theorem sum_increment {totals : List Total} (hdistinct : LabelsDistinct totals) (labels : Labels)
    (p : Labels → Bool) : ((increment labels totals).map (Total.counted p)).sum =
      (totals.map (Total.counted p)).sum + if p labels then 1 else 0 := by
  induction totals with
  | nil => simp [increment, Total.counted]
  | cons total rest ih =>
      obtain ⟨hfresh, hrest⟩ := List.nodup_cons.1 hdistinct
      by_cases heq : total.labels = labels
      · subst heq
        have hothers : rest.map (fun other => if other.labels == total.labels then
            { other with count := other.count + 1 } else other) = rest := by
          conv_rhs => rw [← rest.map_id]
          apply List.map_congr_left
          intro other hother
          have hne : other.labels ≠ total.labels := fun heq =>
            hfresh (heq ▸ List.mem_map_of_mem hother)
          rw [if_neg (mt beq_iff_eq.1 hne)]
          rfl
        simp only [increment, List.any_cons, beq_self_eq_true, Bool.true_or, if_true, List.map_cons,
          hothers, List.sum_cons, Total.counted]
        split <;> omega
      · have hskip : increment labels (total :: rest) = total :: increment labels rest := by
          have hne : (total.labels == labels) = false := beq_eq_false_iff_ne.2 heq
          simp only [increment, List.any_cons, hne, Bool.false_or, List.map_cons]
          split <;> simp
        rw [hskip, List.map_cons, List.map_cons, List.sum_cons, List.sum_cons, ih hrest]
        omega

end Metrics

namespace Search

/-- What is told of one call. -/
structure Report where
  key : String
  /-- Milliseconds. -/
  duration : Float
  account : Account

namespace Report

def cached (r : Report) : Bool := r.account == .hit

/-- The measurement that the monitor keeps of a report. -/
def measurement (r : Report) : Measurement :=
  { operation, duration := .float r.duration, success := r.account.isSuccess, cached := r.cached }

/-- The labels that the metrics count a report under. -/
def labels (r : Report) : Metrics.Labels :=
  { operation, outcome := r.account.name, cached := r.cached }

def line (r : Report) : String := accountLine r.key r.duration r.account

/-- A monitor that has taken a report in. -/
def monitored (m : Monitor) (r : Report) : Monitor := (m.trackLookup r.cached).keep r.measurement

/-- Metrics that have taken a report in. -/
def recorded (m : Metrics) (r : Report) : Metrics := (m.record r.labels (.float r.duration)).1

end Report

/-- The report of a call that ends in a state. -/
def State.reportOf (s : State) (flight : Flight) (account : Account) : Report :=
  { key := flight.key, duration := milliseconds flight.start s.now, account }

/-- The monitor, the metrics and the log have taken in some reports, and nothing else. -/
structure Emits (s s' : State) (log : List LogRecord) (reports : List Report) : Prop where
  monitor : s'.monitor = s.monitor.map fun m => reports.foldl Report.monitored m
  metrics : s'.metrics = s.metrics.map fun m => reports.foldl Report.recorded m
  lines : LogRecord.infos log = reports.map Report.line

/-- A log without information. -/
def Quiet (log : List LogRecord) : Prop := ∀ x ∈ log, x.level ≠ .info

theorem Quiet.infos_eq {log : List LogRecord} (hquiet : Quiet log) : LogRecord.infos log = [] := by
  rw [LogRecord.infos, List.filter_eq_nil_iff.2, List.map_nil]
  intro x hx
  simpa using hquiet x hx

theorem Quiet.append {log log' : List LogRecord} (hquiet : Quiet log) (hquiet' : Quiet log') :
    Quiet (log ++ log') := by
  intro x hx
  rcases List.mem_append.1 hx with hold | hnew
  · exact hquiet x hold
  · exact hquiet' x hnew

theorem quiet_nil : Quiet [] := fun _ hx => absurd hx List.not_mem_nil

theorem quiet_singleton {x : LogRecord} (hlevel : x.level ≠ .info) : Quiet [x] := by
  intro y hy
  rw [List.mem_singleton.1 hy]
  exact hlevel

namespace Emits

variable {s s' s'' : State} {log log' : List LogRecord} {reports reports' : List Report}

theorem of_quiet (hquiet : Quiet log) (hmonitor : s'.monitor = s.monitor)
    (hmetrics : s'.metrics = s.metrics) : Emits s s' log [] := by
  refine ⟨?_, ?_, hquiet.infos_eq⟩
  · rw [hmonitor]
    exact Option.map_id'.symm
  · rw [hmetrics]
    exact Option.map_id'.symm

theorem append (hfirst : Emits s s' log reports) (hsecond : Emits s' s'' log' reports') :
    Emits s s'' (log ++ log') (reports ++ reports') := by
  constructor
  · rw [hsecond.monitor, hfirst.monitor, Option.map_map]
    simp only [List.foldl_append]
    rfl
  · rw [hsecond.metrics, hfirst.metrics, Option.map_map]
    simp only [List.foldl_append]
    rfl
  · rw [LogRecord.infos_append, hfirst.lines, hsecond.lines, List.map_append]

end Emits

/-- Accounting for a call is one report of it. -/
theorem account_emits (s : State) (flight : Flight) (account : Account) :
    Emits s (s.account flight account).1 (s.account flight account).2
      [s.reportOf flight account] := by
  have hslow : ∀ (m : Monitor) (x : Measurement) (text : String),
      Quiet (if m.isSlow x then [Monitor.slowRecord x text] else []) := by
    intro m x text
    split
    · exact quiet_singleton (by simp [Monitor.slowRecord])
    · exact quiet_nil
  have hline : ∀ {noise : List LogRecord}, Quiet noise → LogRecord.infos (noise ++
      [⟨.search, .info, accountLine flight.key (milliseconds flight.start s.now) account⟩]) =
      [s.reportOf flight account].map Report.line := by
    intro noise hnoise
    rw [LogRecord.infos_append, hnoise.infos_eq]
    rfl
  constructor
  · cases hmonitor : s.monitor <;> simp only [State.account, hmonitor] <;> rfl
  · cases hmetrics : s.metrics <;> simp only [State.account, hmetrics] <;> rfl
  · apply hline
    apply Quiet.append
    · cases s.monitor with
      | none => exact quiet_nil
      | some m => exact hslow _ _ _
    · cases s.metrics with
      | none => exact quiet_nil
      | some m =>
          cases henabled : m.enabled <;> simp only [Metrics.record, henabled] <;> exact quiet_nil

/-! ### Counting calls -/

namespace State

variable {s : State} {id : CallId} {p : Phase → Bool}

/-- The number of calls whose phase is of some kind. -/
def count (s : State) (p : Phase → Bool) : Nat := s.calls.countP fun call => p call.phase

theorem count_congr {s' : State} (hcalls : s'.calls = s.calls) : s'.count p = s.count p := by
  rw [count, count, hcalls]

theorem count_enter {call : Call} (hcall : s.calls[id]? = some call)
    (hbefore : p call.phase = false) (phase : Phase) :
    (s.enter id phase).count p = s.count p + if p phase then 1 else 0 := by
  obtain ⟨hlt, rfl⟩ := List.getElem?_eq_some_iff.1 hcall
  have hsplit : s.calls = s.calls.take id ++ s.calls[id] :: s.calls.drop (id + 1) := by
    rw [List.getElem_cons_drop, List.take_append_drop]
  rw [count, count, enter, List.modify_eq_take_cons_drop hlt, List.countP_append]
  conv_rhs => rw [hsplit, List.countP_append]
  simp only [List.countP_cons, hbefore, Bool.false_eq_true, if_false]
  omega

theorem count_cancel (s : State) (id : CallId) (p : Phase → Bool) :
    (s.cancel id).count p = s.count p := by
  have hphases : (s.cancel id).calls.map Call.phase = s.calls.map Call.phase := by
    apply List.ext_getElem?
    intro other
    simpa [phase?] using s.phase?_cancel id other
  have hcount : ∀ s : State, s.count p = (s.calls.map Call.phase).countP p := by
    intro s
    rw [List.countP_map]
    rfl
  rw [hcount, hcount, hphases]

end State

/-- Whether a call has ended. -/
def Phase.isEnded : Phase → Bool
  | .finished _ => true
  | _ => false

/-- Whether a call has returned a result from the cache. -/
def Phase.isServed : Phase → Bool
  | .finished (.returned result) => result.metadata.cached
  | _ => false

/-- The ways in which a call ends without a report. -/
inductive Silence where
  /-- Asked to end before it began. -/
  | unbegun
  /-- No request could be read. -/
  | unread
  /-- The key could not be looked up. -/
  | unlooked
  /-- The outcome is that of the leader it followed. -/
  | joined
  /-- Asked to end while it followed. -/
  | left
deriving DecidableEq, Repr

/-- How an event ends a call without a report, if it does. -/
def silence? (search : Search) (s : State) : Event → Option Silence
  | .resume id =>
      match s.calls[id]? with
      | some ⟨.ready _, true⟩ => some .unbegun
      | some ⟨.ready input, false⟩ =>
          match search.requestOf input with
          | .error _ => some .unread
          | .ok r =>
              match s.cache.get? s.now (search.key r) with
              | .error _ => some .unlooked
              | .ok _ => none
      | some ⟨.following _ _, true⟩ => some .left
      | some ⟨.following _ leader, false⟩ =>
          match s.outcome? leader with
          | none | some .cancelled => none
          | some _ => some .joined
      | _ => none
  | _ => none

/-- What a step comes to in the accounts: nothing, or a call that ends silently, or one that ends
with a report. -/
inductive Tally (s : State) : State × List LogRecord → Option Silence → Prop
  | onward {s' : State} {log : List LogRecord} (emits : Emits s s' log [])
      (ended : s'.count Phase.isEnded = s.count Phase.isEnded)
      (served : s'.count Phase.isServed = s.count Phase.isServed) : Tally s (s', log) none
  | silent {s' : State} {log : List LogRecord} (why : Silence) (emits : Emits s s' log [])
      (ended : s'.count Phase.isEnded = s.count Phase.isEnded + 1)
      (served : s'.count Phase.isServed = s.count Phase.isServed) : Tally s (s', log) (some why)
  | told {s' : State} {log : List LogRecord} (report : Report) (emits : Emits s s' log [report])
      (ended : s'.count Phase.isEnded = s.count Phase.isEnded + 1)
      (served : s'.count Phase.isServed = s.count Phase.isServed + if report.cached then 1 else 0) :
      Tally s (s', log) none

namespace Tally

variable {s s' : State} {id : CallId} {call : Call} {log noise : List LogRecord}
  {why : Option Silence} {cache : Cache Float Stored} {inflight : List (String × CallId)}

theorem stay (s : State) : Tally s (s, []) none :=
  .onward (.of_quiet quiet_nil rfl rfl) rfl rfl

/-- More that is logged makes no difference unless it is information. -/
theorem of_quiet (hquiet : Quiet noise) (htally : Tally s (s', log) why) :
    Tally s (s', noise ++ log) why := by
  have hsame : Emits s s noise [] := .of_quiet hquiet rfl rfl
  cases htally with
  | onward emits ended served => exact .onward (hsame.append emits) ended served
  | silent why emits ended served => exact .silent why (hsame.append emits) ended served
  | told report emits ended served => exact .told report (hsame.append emits) ended served

theorem unserved_of_unended {phase : Phase} (hunended : phase.isEnded = false) :
    phase.isServed = false := by
  cases phase with
  | finished outcome => cases hunended
  | ready | leading | following => rfl

/-- A call goes on without an end. -/
theorem of_enter (hquiet : Quiet log) (hcall : s.calls[id]? = some call) {phase : Phase}
    (hunended : call.phase.isEnded = false) (hgoes : phase.isEnded = false) :
    Tally s (State.enter { s with cache, inflight } id phase, log) none := by
  have hcount : ∀ p, (State.enter { s with cache, inflight } id phase).count p =
      (s.enter id phase).count p := fun p => State.count_congr rfl
  refine .onward (.of_quiet hquiet rfl rfl) ((hcount _).trans ?_) ((hcount _).trans ?_)
  · rw [State.count_enter hcall hunended, hgoes]
    rfl
  · rw [State.count_enter hcall (unserved_of_unended hunended), unserved_of_unended hgoes]
    rfl

/-- A call ends without a report. -/
theorem of_silence (hcall : s.calls[id]? = some call) (hunended : call.phase.isEnded = false)
    {outcome : Outcome} (hunserved : (Phase.finished outcome).isServed = false) (why : Silence) :
    Tally s (s.enter id (.finished outcome), []) (some why) := by
  refine .silent why (.of_quiet quiet_nil rfl rfl) ?_ ?_
  · rw [State.count_enter hcall hunended]
    rfl
  · rw [State.count_enter hcall (unserved_of_unended hunended), hunserved]
    rfl

/-- A call ends with a report. -/
theorem of_account (hcall : s.calls[id]? = some call) (hunended : call.phase.isEnded = false)
    {outcome : Outcome} (flight : Flight) {account : Account}
    (hserved : (Phase.finished outcome).isServed = (account == .hit)) :
    Tally s ((State.enter { s with cache, inflight } id (.finished outcome)).account flight account)
      none := by
  have hemits := account_emits (State.enter { s with cache, inflight } id (.finished outcome))
    flight account
  have hcount : ∀ p, ((State.enter { s with cache, inflight } id (.finished outcome)).account
      flight account).1.count p = (s.enter id (.finished outcome)).count p :=
    fun p => State.count_congr rfl
  refine .told _ ⟨hemits.monitor, hemits.metrics, hemits.lines⟩ ((hcount _).trans ?_)
    ((hcount _).trans ?_)
  · rw [State.count_enter hcall hunended]
    rfl
  · rw [State.count_enter hcall (unserved_of_unended hunended), hserved]
    rfl

/-- A leader ends. -/
theorem of_land (hcall : s.calls[id]? = some call) (hunended : call.phase.isEnded = false)
    (flight : Flight) {outcome : Outcome}
    (hunserved : (Phase.finished outcome).isServed = false) :
    Tally s (State.land { s with cache, inflight } id flight outcome) none := by
  refine of_account hcall hunended flight ?_
  rw [hunserved]
  cases outcome <;> rfl

end Tally

variable {search : Search} {s : State} {id : CallId} {cache : Cache Float Stored}

theorem lead_tally {call : Call} (hcall : s.calls[id]? = some call)
    (hunended : call.phase.isEnded = false) (flight : Flight) :
    Tally s (search.lead { s with cache } id flight) none := by
  have hwarned : ∀ warnings, Quiet (LogRecord.ofWarnings warnings) := by
    intro warnings x hx
    obtain ⟨warning, -, rfl⟩ := List.mem_map.1 hx
    simp
  cases hvalid : (Validation.ofRequest search.checks flight.request).valid with
  | false =>
      simp only [lead, hvalid]
      exact .of_land hcall hunended flight (by rfl)
  | true =>
      rcases hcompiled : Query.compile search.grammar flight.request with ⟨warned, cause | query⟩
      · simp only [lead, hvalid, hcompiled, ↓reduceIte]
        exact .of_quiet (hwarned warned) (.of_land hcall hunended flight (by rfl))
      · simp only [lead, hvalid, hcompiled, ↓reduceIte]
        exact .of_enter (hwarned warned) hcall hunended (by rfl)

theorem board_tally {call : Call} (hcall : s.calls[id]? = some call)
    (hunended : call.phase.isEnded = false) (flight : Flight) :
    Tally s (search.board { s with cache } id flight) none := by
  unfold board
  split
  · exact .of_enter (quiet_singleton (by simp)) hcall hunended (by rfl)
  · exact lead_tally hcall hunended flight

/-- A call that begins is silent only if its key cannot be looked up. -/
theorem resume_ready_tally {input : Input} (hcall : s.calls[id]? = some ⟨.ready input, false⟩) :
    Tally s (search.resume s id) (search.silence? s (.resume id)) := by
  cases hasked : search.requestOf input with
  | error cause =>
      simp only [resume, silence?, hcall, hasked]
      exact .of_silence hcall rfl rfl .unread
  | ok r =>
      cases hlooked : s.cache.get? s.now (search.key r) with
      | error cause =>
          simp only [resume, silence?, hcall, hasked, begin, hlooked]
          exact .of_silence hcall rfl rfl .unlooked
      | ok found =>
          rcases found with ⟨_ | entry, left⟩
          · simp only [resume, silence?, hcall, hasked, begin, hlooked]
            exact board_tally hcall rfl _
          · cases hpayload : entry.payload with
            | result stored =>
                simp only [resume, silence?, hcall, hasked, begin, hlooked, hpayload]
                exact .of_account hcall rfl _ (by rfl)
            | foreign value =>
                simp only [resume, silence?, hcall, hasked, begin, hlooked, hpayload]
                exact Tally.of_quiet (quiet_singleton (by simp)) (board_tally hcall rfl _)

/-- A call that follows is silent if it ends. -/
theorem resume_following_tally {flight : Flight} {leader : CallId}
    (hcall : s.calls[id]? = some ⟨.following flight leader, false⟩)
    (hled : ∃ phase, s.phase? leader = some phase ∧ phase.HasLed) :
    Tally s (search.resume s id) (search.silence? s (.resume id)) := by
  rcases hended : s.outcome? leader with _ | outcome
  · simp only [resume, silence?, hcall, hended]
    exact .stay s
  · have hunserved : (Phase.finished outcome).isServed = false := by
      obtain ⟨phase, hphase, hled⟩ := hled
      rw [State.outcome?_eq_some_iff.1 hended] at hphase
      obtain rfl := Option.some.inj hphase
      cases outcome with
      | returned result => exact hled
      | raised | cancelled => rfl
    cases outcome with
    | cancelled =>
        simp only [resume, silence?, hcall, hended]
        exact Tally.of_quiet (quiet_singleton (by simp)) (board_tally hcall rfl flight)
    | returned result =>
        simp only [resume, silence?, hcall, hended]
        exact .of_silence hcall rfl hunserved .joined
    | raised error =>
        simp only [resume, silence?, hcall, hended]
        exact .of_silence hcall rfl hunserved .joined

theorem resume_tally (hled : ∀ id flight leader, s.phase? id = some (.following flight leader) →
      ∃ phase, s.phase? leader = some phase ∧ phase.HasLed) (id : CallId) :
    Tally s (search.resume s id) (search.silence? s (.resume id)) := by
  rcases hcall : s.calls[id]? with _ | ⟨phase, requested⟩
  · simp only [resume, silence?, hcall]
    exact .stay s
  · cases phase with
    | ready input =>
        cases requested with
        | false => exact resume_ready_tally hcall
        | true =>
            simp only [resume, silence?, hcall]
            exact .of_silence hcall rfl rfl .unbegun
    | leading sent =>
        cases requested with
        | false =>
            simp only [resume, silence?, hcall]
            exact .stay s
        | true =>
            simp only [resume, silence?, hcall]
            exact .of_land hcall rfl sent.flight (by rfl)
    | following flight leader =>
        cases requested with
        | false => exact resume_following_tally hcall (hled id flight leader
            (State.phase?_of_called hcall))
        | true =>
            simp only [resume, silence?, hcall]
            exact .of_silence hcall rfl rfl .left
    | finished outcome =>
        simp only [resume, silence?, hcall]
        exact .stay s

/-! ### The cache tells nothing at the level of information -/

theorem quiet_sweep {cache left : Cache Float Stored} {now : Float} {count : Nat}
    {log : List LogRecord} (hsweep : cache.sweep now = .ok (count, left, log)) : Quiet log := by
  unfold Cache.sweep at hsweep
  cases hkept : Cache.unexpired now cache.entries with
  | error cause =>
      rw [hkept] at hsweep
      cases hsweep
  | ok kept =>
      rw [hkept] at hsweep
      simp only [Except.map, Cache.afterSweep, Except.ok.injEq, Prod.mk.injEq] at hsweep
      obtain ⟨-, -, rfl⟩ := hsweep
      split
      · exact quiet_nil
      · exact quiet_singleton (by simp)

theorem quiet_place (cache : Cache Float Stored) (e : Cache.Entry Float Stored) :
    Quiet (cache.place e).2 := by
  have hroom : Quiet cache.makeRoom.2 := by
    unfold Cache.makeRoom
    split
    · exact quiet_nil
    · split
      · exact quiet_singleton (by simp)
      · exact quiet_nil
  simp only [Cache.place]
  split
  · exact quiet_nil
  · exact hroom

theorem quiet_insert (cache : Cache Float Stored) (now : Float) (key : String) (payload : Stored)
    (ttl : Json) : Quiet (cache.insert now key payload ttl).2.2 := by
  unfold Cache.insert
  split
  · exact quiet_nil
  · have hplaced := quiet_place cache ⟨key, payload, now, ‹Int›, 0⟩
    simp only [Cache.store]
    split
    · split
      · exact hplaced.append (quiet_sweep ‹_›)
      · exact hplaced
    · exact hplaced

theorem quiet_keep (search : Search) (s : State) (key : String) (result : SearchResult) :
    Quiet (search.keep s key result).2.2 := by
  have hinserted := quiet_insert s.cache s.now key (.result result) search.settings.resultTtl
  simp only [Search.keep]
  split
  · exact hinserted
  · split
    · split
      · exact hinserted.append (quiet_sweep ‹_›)
      · exact hinserted
    · exact hinserted

theorem quiet_eraseMatching (cache : Cache Float Stored) (pattern : String) :
    Quiet (cache.eraseMatching pattern).2.2 := by
  simp only [Cache.eraseMatching]
  split
  · exact quiet_nil
  · exact quiet_singleton (by simp)

theorem quiet_step (cache : Cache Float Stored) (now : Float) (command : Cache.Command Stored) :
    Quiet (cache.step now command).2.2 := by
  cases command with
  | get key =>
      simp only [Cache.step]
      split <;> exact quiet_nil
  | set key payload ttl =>
      have hinserted := quiet_insert cache now key payload ttl
      simp only [Cache.step]
      generalize cache.insert now key payload ttl = inserted at hinserted ⊢
      rcases inserted with ⟨_ | e, left, log⟩ <;> exact hinserted
  | contains key =>
      simp only [Cache.step]
      split <;> exact quiet_nil
  | delete key => exact quiet_nil
  | deletePattern pattern => exact quiet_eraseMatching cache pattern
  | invalidateDomain domain => exact quiet_eraseMatching cache (domain ++ ":")
  | clear => exact quiet_nil
  | sweep =>
      simp only [Cache.step]
      split
      · exact quiet_sweep ‹_›
      · exact quiet_nil

theorem reply_tally (search : Search) (s : State) (id : CallId) (answer : Except Failure Json) :
    Tally s (search.reply s id answer) none := by
  unfold reply
  split
  · rename_i sent hcall
    cases answer with
    | error failure => exact .of_land hcall rfl sent.flight (by rfl)
    | ok value =>
        cases hanswered : recordsOf value with
        | none =>
            simp only [hanswered]
            exact .of_land hcall rfl sent.flight (by rfl)
        | some records =>
            have hquiet := quiet_keep search s sent.flight.key
              (search.resultOf s.now sent records)
            rcases hkept : search.keep s sent.flight.key (search.resultOf s.now sent records) with
              ⟨kept, s', stored⟩
            rw [hkept] at hquiet
            have hframe := search.keep_frame s hkept
            generalize s'.cache = left at hframe
            subst hframe
            simp only [hanswered, hkept]
            refine .of_quiet hquiet ?_
            cases kept with
            | error cause => exact .of_land hcall rfl sent.flight (by rfl)
            | ok done => exact .of_land hcall rfl sent.flight (by rfl)
  · exact .stay s

theorem step_tally (hled : ∀ id flight leader, s.phase? id = some (.following flight leader) →
      ∃ phase, s.phase? leader = some phase ∧ phase.HasLed) (event : Event) :
    Tally s (search.step s event) (search.silence? s event) := by
  cases event with
  | arrive input =>
      refine .onward (.of_quiet quiet_nil rfl rfl) ?_ ?_
      · rw [State.count, List.countP_append]
        rfl
      · rw [State.count, List.countP_append]
        rfl
  | resume id => exact resume_tally hled id
  | reply id answer => exact reply_tally search s id answer
  | cancel id =>
      exact .onward (.of_quiet quiet_nil rfl rfl) (s.count_cancel id _) (s.count_cancel id _)
  | advance seconds => exact .onward (.of_quiet quiet_nil rfl rfl) rfl rfl
  | cache command =>
      exact .onward (.of_quiet (quiet_step s.cache s.now command) rfl rfl) rfl rfl

/-! ### Runs -/

/-- What is logged in the course of some events. -/
def logged (search : Search) (s : State) : List Event → List LogRecord
  | [] => []
  | event :: rest => (search.step s event).2 ++ search.logged (search.step s event).1 rest

/-- The calls that end without a report in the course of some events, by the ways in which they
do. -/
def silences (search : Search) (s : State) : List Event → List Silence
  | [] => []
  | event :: rest =>
      (search.silence? s event).toList ++ search.silences (search.step s event).1 rest

theorem logged_concat (search : Search) (s : State) (events : List Event) (event : Event) :
    search.logged s (events ++ [event]) =
      search.logged s events ++ (search.step (search.run s events) event).2 := by
  induction events generalizing s with
  | nil => simp [logged, run]
  | cons first rest ih =>
      rw [List.cons_append, logged, ih, logged, List.append_assoc]
      rfl

theorem silences_concat (search : Search) (s : State) (events : List Event) (event : Event) :
    search.silences s (events ++ [event]) =
      search.silences s events ++ (search.silence? (search.run s events) event).toList := by
  induction events generalizing s with
  | nil => simp [silences, run]
  | cons first rest ih =>
      rw [List.cons_append, silences, ih, silences, List.append_assoc]
      rfl

/-- Some reports account for a run: they are all that has been told, and they are as many as the
calls that have ended, save those that ended silently. -/
structure Reported (search : Search) (start : State) (events : List Event)
    (reports : List Report) : Prop where
  emits : Emits start (search.run start events) (search.logged start events) reports
  ended : reports.length + (search.silences start events).length =
    (search.run start events).count Phase.isEnded
  served : reports.countP Report.cached = (search.run start events).count Phase.isServed

theorem run_reported {start : State} (hnew : start.calls = []) (hidle : start.inflight = [])
    (events : List Event) : ∃ reports, search.Reported start events reports := by
  induction events using List.reverseRecOn with
  | nil =>
      refine ⟨[], .of_quiet quiet_nil rfl rfl, ?_, ?_⟩
      · simp [silences, run, State.count, hnew]
      · simp [run, State.count, hnew]
  | append_singleton events event ih =>
      obtain ⟨reports, hemits, hended, hserved⟩ := ih
      have htally : Tally (search.run start events) (search.step (search.run start events) event)
          (search.silence? (search.run start events) event) :=
        step_tally (run_followsLed hnew hidle events) event
      have hlogged := search.logged_concat start events event
      have hsilences := search.silences_concat start events event
      generalize search.silence? (search.run start events) event = why at htally hsilences
      have hrun := search.run_concat start events event
      rcases hstep : search.step (search.run start events) event with ⟨s', log⟩
      rw [hstep] at htally hlogged hrun
      cases htally with
      | onward emits ended served =>
          refine ⟨reports, ?_, ?_, ?_⟩
          · rw [hrun, hlogged, ← reports.append_nil]
            exact hemits.append emits
          · rw [hrun, hsilences, ended, ← hended]
            simp
          · rw [hrun, served, hserved]
      | silent why emits ended served =>
          refine ⟨reports, ?_, ?_, ?_⟩
          · rw [hrun, hlogged, ← reports.append_nil]
            exact hemits.append emits
          · rw [hrun, hsilences, ended, ← hended]
            simp
            omega
          · rw [hrun, served, hserved]
      | told report emits ended served =>
          refine ⟨reports ++ [report], ?_, ?_, ?_⟩
          · rw [hrun, hlogged]
            exact hemits.append emits
          · rw [hrun, hsilences, ended, ← hended]
            simp
            omega
          · rw [hrun, served, List.countP_append, hserved, List.countP_singleton]

/-! ### What monitor and metrics show -/

theorem monitored_eq {m : Monitor} (hunbounded : m.capacity = none) (report : Report) :
    Report.monitored m report = { m with
      window := m.window ++ [report.measurement]
      hits := m.hits + if report.cached then 1 else 0
      misses := m.misses + if report.cached then 0 else 1 } := by
  cases hcached : report.cached <;>
    simp [Report.monitored, Monitor.trackLookup, Monitor.keep, hcached, hunbounded]

/-- A monitor without bound keeps every report. -/
theorem monitored_unbounded {m : Monitor} (hunbounded : m.capacity = none)
    (reports : List Report) :
    (reports.foldl Report.monitored m).window = m.window ++ reports.map Report.measurement ∧
      (reports.foldl Report.monitored m).hits = m.hits + reports.countP Report.cached ∧
      (reports.foldl Report.monitored m).misses =
        m.misses + reports.countP fun report => !report.cached := by
  induction reports generalizing m with
  | nil => simp
  | cons report rest ih =>
      rw [List.foldl_cons, monitored_eq hunbounded, List.countP_cons, List.countP_cons]
      obtain ⟨hwindow, hhits, hmisses⟩ := @ih { m with
        window := m.window ++ [report.measurement]
        hits := m.hits + if report.cached then 1 else 0
        misses := m.misses + if report.cached then 0 else 1 } hunbounded
      rw [hwindow, hhits, hmisses]
      refine ⟨by simp, ?_, ?_⟩
      · simp only
        omega
      · simp only
        cases report.cached with
        | false => simp; omega
        | true => simp

/-- Metrics that are enabled count every report. -/
theorem recorded_foldl {m : Metrics} (henabled : m.enabled = true)
    (hdistinct : Metrics.LabelsDistinct m.totals) (reports : List Report)
    (p : Metrics.Labels → Bool) : (reports.foldl Report.recorded m).recorded p =
      m.recorded p + reports.countP fun report => p report.labels := by
  induction reports generalizing m with
  | nil => simp
  | cons report rest ih =>
      have hrecorded : Report.recorded m report = { m with
          durations := Metrics.observe report.labels (report.duration / 1000.0) m.durations
          totals := Metrics.increment report.labels m.totals } := by
        simp only [Report.recorded, Metrics.record, henabled, Metrics.seconds?]
        rfl
      rw [List.foldl_cons, hrecorded, @ih { m with
        durations := Metrics.observe report.labels (report.duration / 1000.0) m.durations
        totals := Metrics.increment report.labels m.totals } henabled
          (hdistinct.increment report.labels), List.countP_cons, Metrics.recorded,
        Metrics.sum_increment hdistinct, Metrics.recorded]
      omega

/-- What the monitor, the metrics and the log have of a run. -/
structure Accounted (search : Search) (start : State) (events : List Event)
    (reports : List Report) : Prop where
  /-- One measurement for each report, and one lookup counted. -/
  monitor : ∃ m, (search.run start events).monitor = some m ∧
    m.window = reports.map Report.measurement ∧
    m.hits = reports.countP Report.cached ∧
    m.misses = reports.countP fun report => !report.cached
  /-- One record for each report, under its labels. -/
  metrics : ∃ m, (search.run start events).metrics = some m ∧
    ∀ p : Metrics.Labels → Bool, m.recorded p = reports.countP fun report => p report.labels
  /-- One line for each report, and no other at the level of information. -/
  lines : LogRecord.infos (search.logged start events) = reports.map Report.line
  /-- Every call that has ended is reported, save those that ended silently. -/
  ended : reports.length + (search.silences start events).length =
    (search.run start events).count Phase.isEnded
  /-- The reports of hits are as many as the results that were returned from the cache. -/
  served : reports.countP Report.cached = (search.run start events).count Phase.isServed

/-- Whatever the order in which calls arrive, go on, are answered and are asked to end, the monitor,
the metrics and the log have the same reports, one for each call that has ended, save those that
ended silently. -/
theorem run_accounted (search : Search) (cache : Cache Float Stored) (slowThreshold : Number)
    (now : Float) (events : List Event) : ∃ reports, search.Accounted
      (State.start cache (some { capacity := none, slowThreshold }) (some {}) now) events
      reports := by
  obtain ⟨reports, ⟨hmonitor, hmetrics, hlines⟩, hended, hserved⟩ := @run_reported search
    (State.start cache (some { capacity := none, slowThreshold }) (some {}) now) rfl rfl events
  obtain ⟨hwindow, hhits, hmisses⟩ :=
    @monitored_unbounded { capacity := none, slowThreshold } rfl reports
  refine ⟨reports, ⟨_, hmonitor, ?_, ?_, ?_⟩, ⟨_, hmetrics, fun p => ?_⟩, hlines, hended, hserved⟩
  · rw [hwindow]
    rfl
  · rw [hhits]
    exact Nat.zero_add _
  · rw [hmisses]
    exact Nat.zero_add _
  · rw [@recorded_foldl {} rfl List.nodup_nil reports p]
    exact Nat.zero_add _

/-- Two calls for one key, of which the second joins the first and takes its outcome. -/
def crashesJoined : List Event := [
  .arrive (.request crashes), .resume 0, .arrive (.request crashes), .resume 1,
  .reply 0 (.ok (.arr [])), .resume 1]

/-- The state in which the first call leads and the second follows. -/
def crashesWatched : State :=
  { crashesLed with
    cache := { crashesLed.cache with counters.misses := 2 }
    monitor := some { capacity := none }
    metrics := some {}
    calls := [⟨.leading crashesSent, false⟩, ⟨.following crashesSent.flight 0, false⟩] }

theorem run_crashes_watched :
    run {} (State.start {} (some { capacity := none }) (some {}) 1000.0) (crashesJoined.take 4) =
      crashesWatched := by
  let watched (misses : Nat) (calls : List Call) (inflight : List (String × CallId)) : State := {
    cache := { counters.misses := misses }
    monitor := some { capacity := none }
    metrics := some {}
    now := 1000.0, calls, inflight }
  have hled : (step {} (watched 0 [⟨.ready (.request crashes), false⟩] []) (.resume 0)).1 =
      watched 1 [⟨.leading crashesSent, false⟩] [(crashesSent.flight.key, 0)] := by
    rw [resume_crashes rfl rfl rfl, board_crashes rfl rfl]
    rfl
  have hjoins : (step {} (watched 1
      [⟨.leading crashesSent, false⟩, ⟨.ready (.request crashes), false⟩]
      [(crashesSent.flight.key, 0)]) (.resume 1)).1 = crashesWatched := by
    rw [resume_crashes rfl rfl rfl, board_crashes_led rfl]
    rfl
  have hrun : run {} (State.start {} (some { capacity := none }) (some {}) 1000.0)
      (crashesJoined.take 4) =
      (step {} (run {} (step {} (watched 0 [⟨.ready (.request crashes), false⟩] []) (.resume 0)).1
        [.arrive (.request crashes)]) (.resume 1)).1 := rfl
  rw [hrun, hled, ← hjoins]
  rfl

/-- Calls that have ended may be more than those reported. A call that is asked to end before it
begins has nothing to report, and one that takes the outcome of the call it follows leaves the
report to that call. -/
theorem ended_exceeds_reported :
    let start := State.start {} (some { capacity := none }) (some {}) 1000.0
    let asked := run {} start [.arrive (.request crashes), .cancel 0, .resume 0]
    (∃ m, asked.monitor = some m ∧ m.window.length = 0 ∧ asked.calls.length = 1 ∧
      asked.count Phase.isEnded = 1) ∧
    ∃ m, (run {} start crashesJoined).monitor = some m ∧ m.window.length = 1 ∧
      (run {} start crashesJoined).calls.length = 2 ∧
      (run {} start crashesJoined).count Phase.isEnded = 2 := by
  intro start asked
  have hjoined : crashesJoined =
      crashesJoined.take 4 ++ [.reply 0 (.ok (.arr [])), .resume 1] := rfl
  have hready : (step {} (step {} start (.arrive (.request crashes))).1 (.cancel 0)).1 =
      { start with calls := [⟨.ready (.request crashes), true⟩] } := rfl
  have hasked : asked = { start with calls := [⟨.finished .cancelled, true⟩] } := by
    have hresumed : asked =
        (step {} { start with calls := [⟨.ready (.request crashes), true⟩] } (.resume 0)).1 := by
      rw [← hready]
      rfl
    rw [hresumed]
    simp only [step, resume, List.getElem?_cons_zero, State.enter]
    rfl
  rw [hjoined, run_append, run_crashes_watched, hasked]
  exact ⟨⟨_, rfl, rfl, rfl, rfl⟩, _, rfl, rfl, rfl, rfl⟩

end Search
end IssueSearch
