import IssueSearch.Proofs.Search.Looking
import IssueSearch.Proofs.Search.Sharing
/-!
Results that cross from one search to another through a shared cache. Such a result answers the call
that its maker sends for the request; the maker has the first two key parts of the search that
serves it. Order and offset of that call are settled by the request, so they are those of either
search; the page size and the fields are where the request names them, or both searches have the
same defaults; the query text is where both grammars agree on the request. Nothing in a key tells
the rest of the settings apart.
-/
namespace IssueSearch.Search

variable {search other : Search} {r : Request}

/-- Searches ask for pages of one size unless the request names none and their defaults differ. -/
theorem limit_congr (hdefault : r.pagination.limit = none →
    search.settings.defaultLimit = other.settings.defaultLimit) :
    search.limit r = other.limit r := by
  rw [limit, limit]
  cases hlimit : r.pagination.limit with
  | none => exact hdefault hlimit
  | some n => rfl

/-- Searches ask for the same fields unless the request names none and their defaults differ. -/
theorem fields_congr (hdefault : r.fieldSelector.getD [] = [] →
    search.settings.defaultFields = other.settings.defaultFields) :
    search.fields r = other.fields r := by
  rw [fields, fields]
  rcases hselector : r.fieldSelector with _ | _ | ⟨field, rest⟩
  · exact hdefault (by rw [hselector]; rfl)
  · exact hdefault (by rw [hselector]; rfl)
  · rfl

/-- What a backend call that one search sends for a request has in common with the call that
another search would send for it. -/
structure Suits (maker server : Search) (r : Request) (sent : Sent) : Prop where
  /-- The call is the one that the maker sends for the request. -/
  compiled : Query.ofRequest maker.grammar r = .ok sent.query
  call_eq : sent.call = maker.backendCall r sent.query
  /-- Order and offset are always the same. -/
  order : ∀ query, Query.ofRequest server.grammar r = .ok query →
    sent.call.orderBy = (server.backendCall r query).orderBy ∧
      sent.call.offset = (server.backendCall r query).offset
  /-- So are page size and fields, unless the request leaves them to defaults that differ. -/
  limit : (r.pagination.limit = none →
    maker.settings.defaultLimit = server.settings.defaultLimit) → sent.call.limit = server.limit r
  fields : (r.fieldSelector.getD [] = [] →
    maker.settings.defaultFields = server.settings.defaultFields) →
      sent.call.fieldSelector = server.fields r
  /-- So is the query, if the grammars agree on the request. -/
  query : maker.grammar.AgreeOn server.grammar r →
    Query.ofRequest server.grammar r = .ok sent.query

theorem suits_of_compiled {sent : Sent} (hcompiled : Query.ofRequest search.grammar r =
    .ok sent.query) (hcall : sent.call = search.backendCall r sent.query) (server : Search) :
    Suits search server r sent := by
  refine ⟨hcompiled, hcall, ?_, ?_, ?_, fun hagree => ?_⟩
  · intro query hown
    obtain ⟨cs, -, hsent⟩ := Query.ofRequest_eq_ok_iff.1 hcompiled
    obtain ⟨cs', -, rfl⟩ := Query.ofRequest_eq_ok_iff.1 hown
    have horder : sent.query.orderBy = Query.orderOf r.sorting := by rw [hsent]
    rw [hcall]
    exact ⟨horder, rfl⟩
  · intro hdefault
    rw [hcall]
    exact limit_congr hdefault
  · intro hdefault
    rw [hcall]
    exact fields_congr hdefault
  · rw [← Query.ofRequest_of_agreeOn hagree, hcompiled]

namespace Shared

variable {ι : Type} [DecidableEq ι] {searches : ι → Search}

/-- The part of a shared run in which a result served from the cache was made: which search made it
of which answer, what came before that answer, and what came between the answer and the lookup. -/
structure Handover (ι : Type) where
  maker : ι
  earlier : List (ι × Event)
  answer : Event
  between : List (ι × Event)
  later : List (ι × Event)
  leader : CallId
  sent : Sent
  records : List Json
  /-- The request that the result is served to. -/
  request : Request

namespace Handover

variable (searches) (s : Shared ι) (v : Handover ι)

/-- What the leader made of the answer. -/
def made : SearchResult :=
  (searches v.maker).resultOf (run searches s v.earlier).now v.sent v.records

/-- What is true of a result that a search serves from the shared cache. -/
structure Sound (i : ι) (events : List (ι × Event)) (id : CallId) (result : SearchResult) :
    Prop where
  split : events =
    v.earlier ++ (v.maker, v.answer) :: v.between ++ (i, .resume id) :: v.later
  /-- The maker took the answer in as the answer to its backend call. -/
  answered : Fetches ((run searches s v.earlier).view v.maker) v.answer v.leader v.sent v.records
  /-- The served result is what it made of it, marked. -/
  result_eq : result = { v.made searches s with
    metadata := { (v.made searches s).metadata with cached := true } }
  asked : ∃ input,
    ((run searches s (v.earlier ++ (v.maker, v.answer) :: v.between)).view i).calls[id]? =
      some ⟨.ready input, false⟩ ∧ (searches i).requestOf input = .ok v.request
  /-- Both requests are alike, and both searches have keys that begin alike. -/
  alike : v.sent.flight.request.Alike v.request
  keyStart_eq : (searches v.maker).keyStart = (searches i).keyStart
  suits : Suits (searches v.maker) (searches i) v.request v.sent
  /-- What the result tells of its query is what was sent. -/
  compiledQuery : result.metadata.compiledQuery = v.sent.call.queryText
  orderBy : result.metadata.orderBy = v.sent.call.orderBy

end Handover

theorem Asks.mono {events events' : List (ι × Event)} {r : Request}
    (hasks : Asks searches events r) : Asks searches (events ++ events') r := by
  obtain ⟨i, hasks⟩ := hasks
  exact ⟨i, Search.Asks.mono hasks (own_subset_append i events events')⟩

/-- Every result that one of several searches serves from their cache was made by one of them with
keys that begin alike, of the answer to the call that it sends for the request; what the request
settles, and what the settings of both have in common, is what the serving search would send. -/
theorem run_served_handover {cache : Cache Float Stored} {monitors : ι → Option Monitor}
    {metrics : ι → Option Metrics} {now : Float} {events : List (ι × Event)}
    (hempty : cache.entries = []) (hwrites : ∀ event ∈ events, event.2.writes = false)
    (hdistinct : NoCollision searches events) {i : ι} {id : CallId} {result : SearchResult}
    (houtcome : ((run searches (start cache monitors metrics now) events).view i).outcome? id =
      some (.returned result)) (hcached : result.metadata.cached = true) :
    ∃ v : Handover ι, v.Sound searches (start cache monitors metrics now) i events id result := by
  have hnew : ∀ i, ((start cache monitors metrics now).part i).calls = [] := fun _ => rfl
  have hidle : ∀ i, ((start cache monitors metrics now).part i).inflight = [] := fun _ => rfl
  have hstart : (start cache monitors metrics now).cache.entries = [] := hempty
  generalize start cache monitors metrics now = s at *
  obtain ⟨before, later, r, entry, rfl, hserves⟩ :=
    run_serves hnew hidle events id result houtcome hcached
  obtain ⟨⟨input, hcalled, hasked⟩, ⟨left, hlooked⟩, stored, hpayload, rfl⟩ := hserves
  obtain ⟨old, hentry, -, rfl, -⟩ := Cache.get?_eq_some hlooked
  obtain ⟨hmem, hkey⟩ := Cache.stored?_some hentry
  obtain ⟨result, hresult, hmade⟩ := run_made hstart
    (fun event hevent => hwrites event (List.mem_append_left _ hevent)) old hmem
  obtain rfl : stored = result := by
    rw [hresult] at hpayload
    exact (Stored.result.inj hpayload).symm
  rw [hkey] at hmade
  -- The key looked up is the key that the maker stored under, and each tells its own request.
  have hserved : Asks searches before r :=
    ⟨i, input, run_honest hnew i before id _ (State.phase?_of_called hcalled), hasked⟩
  generalize hheld : (searches i).key r = held at hmade
  cases hmade with
  | @of_answer maker earlier between answer leader sent records fetches =>
      obtain ⟨⟨hownkey, hasks⟩, hcompiled, hcall⟩ :
          Phase.Honest (searches maker) (own maker earlier) (.leading sent) :=
        run_honest hnew maker earlier leader _ (State.phase?_of_called fetches.called)
      obtain ⟨hkeyStart, hshort⟩ := key_eq_iff_start.1 (hownkey.symm.trans hheld.symm)
      have halike : sent.flight.request.Alike r := by
        refine Request.alike_of_canonicalText (hdistinct _ _ ?_ hserved.mono hshort)
        have hmaker : Asks searches earlier sent.flight.request := ⟨maker, hasks⟩
        rw [List.append_assoc]
        exact hmaker.mono
      have hquery := Query.ofRequest_congr halike hcompiled
      rw [backendCall_congr _ halike] at hcall
      refine ⟨⟨maker, earlier, answer, between, later, leader, sent, records, r⟩, ?_⟩
      exact {
        split := rfl
        answered := fetches
        result_eq := by
          rw [SearchResult.fromCache, ← halike.includeMetadata]
          rfl
        asked := ⟨input, hcalled, hasked⟩
        alike := halike
        keyStart_eq := hkeyStart
        suits := suits_of_compiled hquery hcall (searches i)
        compiledQuery := by
          rw [hcall]
          rfl
        orderBy := by
          rw [hcall]
          rfl }

/-- A request by a scope only. -/
def inProject : Request := { scopeId := some "YTM" }

/-- A search that takes scopes for areas, with pages and fields of its own. -/
def byArea : Search where
  settings := { defaultLimit := 2, defaultFields := ["id"] }
  grammar := { scopeField := "area" }

/-- The search with no settings of its own, and the one over areas. -/
def pair (second : Bool) : Search := if second then byArea else {}

/-- Both over one cache, before any call has come. -/
def pairOver (cache : Cache Float Stored) : Shared Bool :=
  start cache (Function.const _ none) (Function.const _ none) 1000.0

/-- The first is asked, and answered; then the second is asked. -/
def askedAcross : List (Bool × Event) :=
  [.arrive (.request inProject), .resume 0, .reply 0 (.ok (.arr []))].map (false, ·) ++
    [.arrive (.request inProject), .resume 0].map (true, ·)

/-- The first sends the call that its own settings make, and its result is found by the second. -/
theorem run_askedAcross : ∃ sent : Sent, sent.flight.request = inProject ∧
    sent.query = ⟨"project: YTM", none, []⟩ ∧
    sent.call = backendCall {} inProject ⟨"project: YTM", none, []⟩ ∧
    ((run pair (pairOver {}) (askedAcross.take 2)).view false).phase? 0 = some (.leading sent) ∧
    ((run pair (pairOver {}) askedAcross).view true).outcome? 0 =
      some (.returned ((resultOf {} 1000.0 sent []).fromCache inProject)) := by
  let arrived : State := { calls := [⟨.ready (.request inProject), false⟩] }
  have hempty : Lacks arrived.cache (key {} inProject) := fun e he => by cases he
  obtain ⟨sent, hflight, hquery, hcall, hleads⟩ :=
    @resume_ready_leads {} arrived 0 (.request inProject) inProject ⟨"project: YTM", none, []⟩ rfl
      rfl hempty rfl (by rfl) (by rfl)
  have hkey : sent.flight.key = key byArea inProject := by
    rw [hflight]
    rfl
  have hled : run pair (pairOver {}) (askedAcross.take 2) =
      (pairOver {}).put false (ledBy sent) := by
    have hrun : run pair (pairOver {}) (askedAcross.take 2) =
        run pair (pairOver {}) ([.arrive (.request inProject), .resume 0].map (false, ·)) := rfl
    have hsteps : (pair false).run ((pairOver {}).view false)
        [.arrive (.request inProject), .resume 0] =
          (Search.step {} arrived (.resume 0)).1 := rfl
    rw [hrun, run_alone, hsteps, hleads, ledBy, hflight]
    rfl
  refine ⟨sent, by rw [hflight]; rfl, hquery, hcall, ?_, ?_⟩
  · rw [hled, view_put_self]
    rfl
  · have hlanded : run pair (pairOver {}) (askedAcross.take 3) =
        (pairOver {}).put false (landedBy sent) := by
      have hrun : run pair (pairOver {}) (askedAcross.take 3) =
          step pair (run pair (pairOver {}) (askedAcross.take 2))
            (false, .reply 0 (.ok (.arr []))) := rfl
      have hstep := step_landedBy sent
      rw [hrun, hled, step, view_put_self, put_put]
      exact congrArg ((pairOver {}).put false) hstep
    have hrun : run pair (pairOver {}) askedAcross =
        run pair (run pair (pairOver {}) (askedAcross.take 3))
          ([.arrive (.request inProject), .resume 0].map (true, ·)) := rfl
    rw [hrun, hlanded, run_alone, view_put_self, view_put_of_ne _ _ (by decide)]
    have hlooked := get?_landedBy sent
    rw [hkey] at hlooked
    exact @resume_found byArea _ 0 inProject _ _ _ rfl hlooked rfl

theorem askedAcross_noCollision : NoCollision pair askedAcross := by
  have honly : ∀ r, Asks pair askedAcross r → r = inProject := by
    rintro r ⟨i, input, hmem, hasked⟩
    obtain rfl : input = .request inProject := by
      cases i <;> simpa [own, askedAcross] using hmem
    exact (Except.ok.inj hasked).symm
  intro r r' hr hr' _
  rw [honly r hr, honly r' hr']

theorem run_served_handover_askedAcross :
    ∃ result,
      ((run pair (pairOver {}) askedAcross).view true).outcome? 0 = some (.returned result) ∧
      result.metadata.cached = true ∧
      ∃ v : Handover Bool, v.Sound pair (pairOver {}) true askedAcross 0 result := by
  obtain ⟨sent, -, -, -, -, houtcome⟩ := run_askedAcross
  have hwrites : ∀ event ∈ askedAcross, event.2.writes = false := by
    simp [askedAcross, Event.writes]
  exact ⟨_, houtcome, rfl,
    run_served_handover rfl hwrites askedAcross_noCollision houtcome rfl⟩

/-- The second search is served what the first was answered, with a query, a page size and fields
that it would not have sent. -/
theorem askedAcross_crosses :
    NoCollision pair askedAcross ∧
    (∃ sent : Sent,
      ((run pair (pairOver {}) (askedAcross.take 2)).view false).phase? 0 = some (.leading sent) ∧
      sent.call =
        ⟨"project: YTM", ({} : Search.Settings).defaultFields, 100, 0, none⟩ ∧
      ∃ result : SearchResult,
        ((run pair (pairOver {}) askedAcross).view true).outcome? 0 = some (.returned result) ∧
        result = (resultOf {} 1000.0 sent []).fromCache inProject ∧
        result.metadata.cached = true ∧ result.metadata.compiledQuery = "project: YTM") ∧
    ∃ query, Query.ofRequest (pair true).grammar inProject = .ok query ∧
      (pair true).backendCall inProject query = ⟨"area: YTM", ["id"], 2, 0, none⟩ := by
  obtain ⟨sent, -, hquery, hcall, hleads, houtcome⟩ := run_askedAcross
  have hcompiled : ((resultOf {} 1000.0 sent []).fromCache inProject).metadata.compiledQuery =
      sent.query.text := rfl
  refine ⟨askedAcross_noCollision, ⟨sent, hleads, ?_, _, houtcome, rfl, rfl, ?_⟩, ?_⟩
  · rw [hcall]
    rfl
  · rw [hcompiled, hquery]
  · exact ⟨⟨"area: YTM", none, []⟩, by rfl, by rfl⟩

end Shared
end IssueSearch.Search
