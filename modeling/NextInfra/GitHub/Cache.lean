import NextInfra.GitHub.Committed
import NextInfra.GitHub.Lists

/-!
# Syncs through one page cache

The pages of a list are kept under the URL of the first one, with its entity tag, for
every connection of the process. Where the API answers that this page has not changed,
all the kept pages are taken for the list, the later ones unasked.

So a sync is what it would be with an empty cache, for every history of syncs before it,
if an unchanged first page means an unchanged list (`sync_transparent`); without that
it is not (`second_page_hidden`).
-/

namespace NextInfra

namespace GitHub

/-! ## §1  What is kept -/

/-- All the pages kept were listed to somebody: by the API of that moment, under the
credential of that sync. -/
def Kept (wire : Wire) (past : Api wire → String → Prop) (connector : GitHubConnector) : Prop :=
  ∀ key entry, OrderedMap.lookup connector.pageCache key = some entry →
    ∃ api authorization, past api authorization ∧
      Lists wire api authorization key entry.pages entry.etag

section

variable {wire : Wire} {past : Api wire → String → Prop} {api : Api wire} {secret : List UInt8}
  {endpoint : GitHubEndpoint} {etag : Option String} {budget : GitHubFetchBudget} {number : Nat}

theorem fetchPagesWithBudget_lists {fetched : GitHubPages}
    (h : (fetchPagesWithBudget wire api.transport endpoint secret etag budget number).1 =
      .ok (.pages fetched)) :
    ∃ authorization, authorizationHeader secret = .ok authorization ∧
      Lists wire api authorization endpoint.cacheKey fetched.pages fetched.etag := by
  unfold fetchPagesWithBudget at h
  cases hheaders : headersOf wire secret etag with
  | error failure =>
      rw [hheaders] at h
      cases h
  | ok authorization =>
      rw [hheaders] at h
      have hfetches := @fetchPagesFrom_fetches wire api endpoint.endpointClass authorization etag
        budget.maxRequests budget.maxPages number { url := endpoint.firstUrl }
      obtain ⟨rest, tag, hpages, htag, hlists⟩ := hfetches.lists h
      rw [hpages, htag]
      exact ⟨authorization, headersOf_ok hheaders, hlists⟩

theorem settle_kept (hpast : ∀ authorization, authorizationHeader secret = .ok authorization →
      past api authorization) {connector : GitHubConnector} (hkept : Kept wire past connector)
    (cached : Option CachedPages) :
    Kept wire past (connector.settle endpoint.cacheKey cached
      (fetchPagesWithBudget wire api.transport endpoint secret etag budget number).1).2 := by
  cases hfetch : (fetchPagesWithBudget wire api.transport endpoint secret etag budget number).1 with
  | error failure => exact hkept
  | ok fetch =>
      cases fetch with
      | notModified tag summary =>
          cases cached with
          | none => exact hkept
          | some entry => exact hkept
      | pages fetched =>
          obtain ⟨authorization, hauth, hlists⟩ := fetchPagesWithBudget_lists hfetch
          intro key entry hentry
          unfold GitHubConnector.settle at hentry
          rw [OrderedMap.lookup_insert] at hentry
          split at hentry
          · rename_i hkey
            cases hentry
            rw [hkey]
            exact ⟨api, authorization, hpast _ hauth, hlists⟩
          · exact hkept key entry hentry

theorem fetchCached_kept (hpast : ∀ authorization, authorizationHeader secret = .ok authorization →
      past api authorization) (endpoint : GitHubEndpoint) (maxPages remaining : Nat) (s : Syncing)
    (hkept : Kept wire past s.connector) :
    Kept wire past
      (fetchCached wire api.transport secret endpoint maxPages remaining s).2.connector := by
  unfold fetchCached
  split
  · exact hkept
  simp only
  split
  · exact hkept
  · exact settle_kept hpast hkept _

end

/-! ## §2  Two fetches of one list -/

/-- Of the lists somebody was given, those whose first page the API still has under its
tag are still the API's. -/
def Whole (wire : Wire) (past : Api wire → String → Prop) (api : Api wire)
    (authorization : String) : Prop :=
  ∀ api' authorization', past api' authorization' → ∀ url pages etag,
    Lists wire api' authorization' url pages (some etag) → ∀ response,
      api.respond authorization url = .ok response → response.isSuccess = true →
        response.headers.etag = some etag → Lists wire api authorization url pages (some etag)

section

variable {wire : Wire} {past : Api wire → String → Prop} {api : Api wire} {secret : List UInt8}

/-- A fetch that knows no pages, and one that may: they end alike, or the second is told
that nothing has changed since the pages the first one reads. -/
inductive FetchedAlike (cached cached' : Option CachedPages) :
    Except GitHubPaginationFailure GitHubFetch → Except GitHubPaginationFailure GitHubFetch → Prop
  | exhausted {x y : Except GitHubPaginationFailure GitHubFetch} (h : Exhausted x) :
      FetchedAlike cached cached' x y
  | failed (failure : GitHubPaginationFailure) :
      FetchedAlike cached cached' (.error failure) (.error failure)
  | read (fetched : GitHubPages) :
      FetchedAlike cached cached' (.ok (.pages fetched)) (.ok (.pages fetched))
  | unchanged (etag : Option String) (summary : ProviderRequestSummary) (same : cached = cached') :
      FetchedAlike cached cached' (.ok (.notModified etag summary)) (.ok (.notModified etag summary))
  | saved {entry : CachedPages} {fetched : GitHubPages} (etag : Option String)
      {summary : ProviderRequestSummary} (known : cached' = some entry)
      (pages : fetched.pages = entry.pages) (tag : fetched.etag = entry.etag)
      (fewer : summary.requestCount ≤ fetched.requestSummary.requestCount) :
      FetchedAlike cached cached' (.ok (.pages fetched)) (.ok (.notModified etag summary))

theorem FetchedAlike.of_eq {cached cached' : Option CachedPages}
    {x : Except GitHubPaginationFailure GitHubFetch}
    (h : ∀ etag summary, x = .ok (.notModified etag summary) → cached = cached') :
    FetchedAlike cached cached' x x := by
  cases x with
  | error failure => exact .failed failure
  | ok fetch =>
      cases fetch with
      | notModified etag summary => exact .unchanged etag summary (h etag summary rfl)
      | pages fetched => exact .read fetched

theorem fetchPagesWithBudget_eq {endpoint : GitHubEndpoint} {authorization : String}
    (hauth : authorizationHeader secret = .ok authorization) {etag : Option String}
    (hvalid : etag.all wire.isHeaderText = true) (budget : GitHubFetchBudget) (number : Nat) :
    fetchPagesWithBudget wire api.transport endpoint secret etag budget number =
      fetchPagesFrom wire api.transport endpoint.endpointClass authorization etag
        budget.maxRequests budget.maxPages number { url := endpoint.firstUrl } := by
  unfold fetchPagesWithBudget
  rw [headersOf_eq wire hauth, if_neg (by rw [hvalid]; exact nofun)]

/-- The pages are unchanged: those that are kept are those that are read. -/
theorem fetchPagesFrom_saved {endpoint : GitHubEndpoint} {authorization : String} {entry : CachedPages}
    {response : GitHubTransportResponse} {budget budget' : GitHubFetchBudget} {number number' : Nat}
    (hpages : budget.maxPages = budget'.maxPages)
    (hlists : Lists wire api authorization endpoint.firstUrl.text entry.pages entry.etag)
    (answer : api.respond authorization endpoint.firstUrl.text = .ok response)
    (hmatch : Api.Matches (({ url := endpoint.firstUrl } : Walking).request endpoint.endpointClass
      authorization entry.etag) response) :
    FetchedAlike none (some entry)
      (fetchPagesFrom wire api.transport endpoint.endpointClass authorization none
        budget.maxRequests budget.maxPages number { url := endpoint.firstUrl }).1
      (fetchPagesFrom wire api.transport endpoint.endpointClass authorization entry.etag
        budget'.maxRequests budget'.maxPages number' { url := endpoint.firstUrl }).1 := by
  rcases @fetchPagesFrom_of_lists wire api endpoint.endpointClass authorization none
      budget.maxRequests _ _ _ hlists budget.maxPages number { url := endpoint.firstUrl } rfl
      (Or.inr rfl) (fun _ h => absurd h List.not_mem_nil) with hend | ⟨summary, hread⟩
  · exact .exhausted hend
  · have hfetches := @fetchPagesFrom_fetches wire api endpoint.endpointClass authorization none
      budget.maxRequests budget.maxPages number { url := endpoint.firstUrl }
    have hcounted := hfetches.counted_pos hread
    obtain ⟨left, hleft⟩ := Nat.exists_eq_add_one.mpr budget.pages_allowed.1
    obtain ⟨summary', hsaved, hone⟩ := @fetchPagesFrom_matched wire api endpoint.endpointClass
      authorization entry.etag budget'.maxRequests response left number' endpoint.firstUrl
      budget'.requests_allowed.1 answer hmatch
    rw [← hpages, hleft, hsaved, ← hleft, hread]
    refine .saved _ rfl rfl rfl ?_
    rw [hone]
    exact hcounted

theorem fetchPagesWithBudget_alike
    (hwhole : ∀ authorization, authorizationHeader secret = .ok authorization →
      Whole wire past api authorization)
    {endpoint : GitHubEndpoint} {cached cached' : Option CachedPages}
    (hentries : ∀ entry, cached = some entry → cached' = some entry)
    (hkept : ∀ entry, cached' = some entry → ∃ api authorization, past api authorization ∧
      Lists wire api authorization endpoint.cacheKey entry.pages entry.etag)
    {budget budget' : GitHubFetchBudget} (hpages : budget.maxPages = budget'.maxPages)
    (hrequests : budget.maxRequests ≤ budget'.maxRequests) (number number' : Nat) :
    FetchedAlike cached cached'
      (fetchPagesWithBudget wire api.transport endpoint secret (cached.bind CachedPages.etag) budget
        number).1
      (fetchPagesWithBudget wire api.transport endpoint secret (cached'.bind CachedPages.etag)
        budget' number').1 := by
  cases hauth : authorizationHeader secret with
  | error failure =>
      unfold fetchPagesWithBudget headersOf
      rw [hauth]
      exact .failed _
  | ok authorization =>
      have hvalid : ∀ entry, cached' = some entry → entry.etag.all wire.isHeaderText = true := by
        intro entry hentry
        obtain ⟨_, _, _, hlists⟩ := hkept entry hentry
        cases hetag : entry.etag with
        | none => rfl
        | some etag => exact hlists.tagged etag hetag
      -- the same tag, or none that is still the page's: both fetches go the same way
      have hsame : ∀ {etag etag' : Option String}, etag.all wire.isHeaderText = true →
          etag'.all wire.isHeaderText = true →
          fetchPagesFrom wire api.transport endpoint.endpointClass authorization etag'
              budget'.maxRequests budget'.maxPages number' { url := endpoint.firstUrl } =
            fetchPagesFrom wire api.transport endpoint.endpointClass authorization etag
              budget'.maxRequests budget'.maxPages number' { url := endpoint.firstUrl } →
          (∀ tag summary, (fetchPagesFrom wire api.transport endpoint.endpointClass authorization
            etag budget.maxRequests budget.maxPages number { url := endpoint.firstUrl }).1 =
              .ok (.notModified tag summary) → cached = cached') →
          FetchedAlike cached cached'
            (fetchPagesWithBudget wire api.transport endpoint secret etag budget number).1
            (fetchPagesWithBudget wire api.transport endpoint secret etag' budget' number').1 := by
        intro etag etag' hetag hetag' heq hcached
        rw [fetchPagesWithBudget_eq hauth hetag, fetchPagesWithBudget_eq hauth hetag', heq, ← hpages]
        by_cases hend : Exhausted (fetchPagesFrom wire api.transport endpoint.endpointClass
            authorization etag budget.maxRequests budget.maxPages number
            { url := endpoint.firstUrl }).1
        · exact .exhausted hend
        · rw [fetchPagesFrom_of_more hrequests budget.maxPages number number' _ hend]
          exact .of_eq hcached
      cases cached with
      | some entry =>
          obtain rfl := hentries entry rfl
          exact hsame (hvalid entry rfl) (hvalid entry rfl) rfl fun _ _ _ => rfl
      | none =>
          have hunasked : ∀ tag summary, (fetchPagesFrom wire api.transport endpoint.endpointClass
              authorization none budget.maxRequests budget.maxPages number
              { url := endpoint.firstUrl }).1 = .ok (.notModified tag summary) →
                (none : Option CachedPages) = cached' := by
            intro tag summary hresult
            obtain ⟨_, response, _, hmatch, _⟩ := (@fetchPagesFrom_fetches wire api
              endpoint.endpointClass authorization none budget.maxRequests budget.maxPages number
              { url := endpoint.firstUrl }).unchanged hresult
            exact absurd hmatch (Walking.not_matches (Or.inr rfl) response)
          cases cached' with
          | none => exact hsame rfl rfl rfl hunasked
          | some entry =>
              by_cases hmatched : ∃ response,
                  api.respond authorization endpoint.firstUrl.text = .ok response ∧
                    Api.Matches (({ url := endpoint.firstUrl } : Walking).request
                      endpoint.endpointClass authorization entry.etag) response
              · obtain ⟨response, answer, hmatch⟩ := hmatched
                have hsent : entry.etag.isSome = true ∧ entry.etag = response.headers.etag :=
                  ⟨hmatch.2.1, hmatch.2.2⟩
                obtain ⟨tag, htag⟩ := Option.isSome_iff_exists.mp hsent.1
                obtain ⟨api', authorization', hpast, hlists⟩ := hkept entry rfl
                rw [htag] at hlists
                have hnow := hwhole authorization hauth api' authorization' hpast _ _ _ hlists response
                  answer hmatch.1 (by rw [← hsent.2, htag])
                rw [← htag] at hnow
                show FetchedAlike none (some entry)
                  (fetchPagesWithBudget wire api.transport endpoint secret none budget number).1
                  (fetchPagesWithBudget wire api.transport endpoint secret entry.etag budget'
                    number').1
                rw [fetchPagesWithBudget_eq hauth rfl, fetchPagesWithBudget_eq hauth (hvalid entry rfl)]
                exact fetchPagesFrom_saved hpages hnow answer hmatch
              · refine hsame rfl (hvalid entry rfl) (fetchPagesFrom_unmatched _ _ ?_) hunasked
                exact fun response answer hmatch => hmatched ⟨response, answer, hmatch⟩

end

/-! ## §3  What a sync does to its state -/

section

variable {wire : Wire} {transport : Transport} {secret : List UInt8} {R : Syncing → Syncing → Prop}
  (hrefl : ∀ s, R s s) (htrans : ∀ s t u, R s t → R t u → R s u)
  (hfetch : ∀ endpoint maxPages remaining,
    (fetchCached wire transport secret endpoint maxPages remaining).Leads R)
  (hleave : ∀ c, (leaveOff c).Leads R) (hroutes : ∀ routes, (keepRoutes routes).Leads R)

include hrefl htrans hfetch

theorem collectRepositories_leads (request : SyncRequest) (c : Collector) :
    (collectRepositories wire transport secret request c).Leads R := by
  unfold collectRepositories
  refine .bind htrans (.ofExcept hrefl _) fun endpoint => ?_
  refine .bind htrans (hfetch endpoint _ _).result fun fetched => ?_
  refine .bind htrans (.ofExcept hrefl _) fun read => ?_
  refine .bind htrans (.ofExcept hrefl _) fun selected => ?_
  refine .bind htrans (.ofExcept hrefl _) fun repositories => ?_
  exact .bind htrans (.ofExcept hrefl _) fun output => .pure hrefl _

include hleave in
theorem collectTargetedRepositories_leads (request : SyncRequest)
    (routes : List RepositoryRouteContext) :
    ∀ (output : RepositoryMapperOutput) (c : Collector),
      (collectTargetedRepositories wire transport secret request routes output c).Leads R := by
  induction routes with
  | nil => exact fun output c => .pure hrefl _
  | cons route routes ih =>
      intro output c
      unfold collectTargetedRepositories
      split
      · exact .bind htrans (hleave c) fun c => .pure hrefl _
      · refine .bind htrans (.ofExcept hrefl _) fun endpoint => ?_
        refine .bind htrans (hfetch endpoint _ _).result fun fetched => ?_
        refine .bind htrans (.ofExcept hrefl _) fun read => ?_
        refine .bind htrans (.ofExcept hrefl _) fun repositories => ?_
        exact .bind htrans (.ofExcept hrefl _) fun mapped => ih _ _

include hleave in
theorem collectByMode_leads (request : SyncRequest) (c : Collector) :
    (collectByMode wire transport secret request c).Leads R := by
  intro s
  unfold collectByMode
  cases request.mode with
  | full => exact collectRepositories_leads hrefl htrans hfetch request c s
  | targeted =>
      simp only
      cases targetedRoutes s.connector request with
      | error failure => exact hrefl s
      | ok routes =>
          exact collectTargetedRepositories_leads hrefl htrans hfetch hleave request routes _ c s
  | incremental => exact hrefl s

theorem collectWorkflows_leads (route : RepositoryRouteContext) (c : Collector) :
    (collectWorkflows wire transport secret route c).Leads R := by
  unfold collectWorkflows
  refine .bind htrans (.ofExcept hrefl _) fun endpoint => ?_
  refine .bind htrans (hfetch endpoint _ _).result fun fetched => ?_
  refine .bind htrans (.ofExcept hrefl _) fun read => ?_
  refine .bind htrans (.ofExcept hrefl _) fun lists => ?_
  exact .bind htrans (.ofExcept hrefl _) fun output => .pure hrefl _

theorem collectRuns_leads (route : RepositoryRouteContext) (c : Collector) :
    (collectRuns wire transport secret route c).Leads R := by
  unfold collectRuns
  refine .bind htrans (.ofExcept hrefl _) fun endpoint => ?_
  refine .bind htrans (hfetch endpoint _ _).result fun fetched => ?_
  refine .bind htrans (.ofExcept hrefl _) fun read => ?_
  refine .bind htrans (.ofExcept hrefl _) fun lists => ?_
  exact .bind htrans (.ofExcept hrefl _) fun output => .pure hrefl _

include hleave

theorem collectRepositoryChildren_leads (route : RepositoryRouteContext) (c : Collector) :
    (collectRepositoryChildren wire transport secret route c).Leads R := by
  unfold collectRepositoryChildren
  refine .bind htrans (collectWorkflows_leads hrefl htrans hfetch route c) fun c => ?_
  split
  · exact hleave c
  · exact collectRuns_leads hrefl htrans hfetch route c

theorem collectChildren_leads (routes : List RepositoryRouteContext) :
    ∀ c : Collector, (collectChildren wire transport secret routes c).Leads R := by
  induction routes with
  | nil => exact fun c => .pure hrefl c
  | cons route routes ih =>
      intro c
      unfold collectChildren
      split
      · exact hleave c
      · exact .bind htrans (collectRepositoryChildren_leads hrefl htrans hfetch hleave route c) ih

include hroutes

theorem collect_leads (now : Nat) (request : SyncRequest) :
    (collect wire transport secret now request).Leads R := by
  unfold collect
  refine .bind htrans (collectByMode_leads hrefl htrans hfetch hleave request _) fun collected => ?_
  obtain ⟨output, c⟩ := collected
  dsimp only
  split
  · refine .bind htrans (hroutes _) fun _ => ?_
    exact collectChildren_leads hrefl htrans hfetch hleave _ _
  · exact collectChildren_leads hrefl htrans hfetch hleave _ _

/-- A sync fetches and keeps routes, and changes nothing otherwise. -/
theorem sync_leads (now : Nat) (request : SyncRequest) :
    (sync wire transport now request (some secret)).Leads R := by
  unfold sync
  split
  · exact fun s => hrefl s
  · refine .bind htrans (collect_leads hrefl htrans hfetch hleave hroutes now request) fun c => ?_
    exact .ofExcept hrefl _

end

/-! ## §4  Two syncs side by side -/

/-- What one connector knows, the other knows too. -/
def Within (connector connector' : GitHubConnector) : Prop :=
  ∀ key entry, OrderedMap.lookup connector.pageCache key = some entry →
    OrderedMap.lookup connector'.pageCache key = some entry

/-- What a fetch has sent, by its result. -/
def sentFor : Except GitHubPaginationFailure GitHubPages → Nat
  | .error failure => failure.requestSummary.requestCount
  | .ok pages => pages.requestSummary.requestCount

/-- The same list, the second one read with no more requests. -/
inductive SameRead :
    Except GitHubPaginationFailure GitHubPages → Except GitHubPaginationFailure GitHubPages → Prop
  | failed (failure : GitHubPaginationFailure) : SameRead (.error failure) (.error failure)
  | read {fetched fetched' : GitHubPages} (pages : fetched.pages = fetched'.pages)
      (fewer : fetched'.requestSummary.requestCount ≤ fetched.requestSummary.requestCount) :
      SameRead (.ok fetched) (.ok fetched')

theorem Within.insert {connector connector' : GitHubConnector} (h : Within connector connector')
    (key : String) (entry : CachedPages) :
    Within { connector with pageCache := OrderedMap.insert connector.pageCache key entry }
      { connector' with pageCache := OrderedMap.insert connector'.pageCache key entry } := by
  intro other found hfound
  rw [OrderedMap.lookup_insert] at hfound ⊢
  split
  · rename_i hkey
    rw [if_pos hkey] at hfound
    exact hfound
  · rename_i hkey
    rw [if_neg hkey] at hfound
    exact h other found hfound

theorem settle_alike {connector connector' : GitHubConnector} {key : String}
    {x y : Except GitHubPaginationFailure GitHubFetch} (h : Within connector connector')
    (hfetched : FetchedAlike (OrderedMap.lookup connector.pageCache key)
      (OrderedMap.lookup connector'.pageCache key) x y) :
    Exhausted x ∨
      SameRead (connector.settle key (OrderedMap.lookup connector.pageCache key) x).1
          (connector'.settle key (OrderedMap.lookup connector'.pageCache key) y).1 ∧
        Within (connector.settle key (OrderedMap.lookup connector.pageCache key) x).2
          (connector'.settle key (OrderedMap.lookup connector'.pageCache key) y).2 := by
  cases hfetched with
  | exhausted h => exact Or.inl h
  | failed failure => exact Or.inr ⟨.failed failure, h⟩
  | read fetched => exact Or.inr ⟨.read rfl (Nat.le_refl _), h.insert key _⟩
  | unchanged etag summary same =>
      rw [← same]
      cases OrderedMap.lookup connector.pageCache key with
      | none => exact Or.inr ⟨.failed _, h⟩
      | some entry => exact Or.inr ⟨.read rfl (Nat.le_refl _), h⟩
  | saved etag known pages tag fewer =>
      rename_i entry fetched summary
      rw [known]
      refine Or.inr ⟨.read pages fewer, ?_⟩
      intro other found hfound
      show OrderedMap.lookup connector'.pageCache other = some found
      unfold GitHubConnector.settle at hfound
      rw [OrderedMap.lookup_insert] at hfound
      split at hfound
      · rename_i hkey
        cases hfound
        rw [hkey, known, pages, tag]
      · exact h other found hfound

/-- A sync that a budget has cut short: between two lists, or within one. -/
def HeldUp (s : Syncing) : Prop :=
  s.leftOff = true ∨ ∃ list ∈ s.lists, Exhausted list.result

instance (s : Syncing) : Decidable (HeldUp s) :=
  inferInstanceAs (Decidable (_ ∨ _))

section

variable {wire : Wire} {past : Api wire → String → Prop} {api : Api wire} {secret : List UInt8}

/-- A sync with few pages at hand, and one with as many or more. -/
structure Twins (wire : Wire) (past : Api wire → String → Prop) (s t : Syncing) : Prop where
  within : Within s.connector t.connector
  kept : Kept wire past t.connector
  routes : s.connector.routeCache = t.connector.routeCache
  fewer : t.requests ≤ s.requests

theorem SameRead.fewer {x y : Except GitHubPaginationFailure GitHubPages} (h : SameRead x y) :
    sentFor y ≤ sentFor x := by
  cases h with
  | failed failure => exact Nat.le_refl _
  | read pages fewer => exact fewer

theorem settle_routeCache (connector : GitHubConnector) (key : String) (cached : Option CachedPages)
    (x : Except GitHubPaginationFailure GitHubFetch) :
    (connector.settle key cached x).2.routeCache = connector.routeCache := by
  cases x with
  | error failure => rfl
  | ok fetch =>
      cases fetch with
      | pages fetched => rfl
      | notModified etag summary =>
          cases cached with
          | none => rfl
          | some entry => rfl

theorem sentFor_settle (connector : GitHubConnector) (key : String) (cached : Option CachedPages)
    (x : Except GitHubPaginationFailure GitHubFetch) :
    sentFor (connector.settle key cached x).1 = (summaryOf x).requestCount := by
  cases x with
  | error failure => rfl
  | ok fetch =>
      cases fetch with
      | pages fetched => rfl
      | notModified etag summary =>
          cases cached with
          | none => rfl
          | some entry => rfl

theorem fetchPagesWithBudget_counted (endpoint : GitHubEndpoint) (etag : Option String)
    (budget : GitHubFetchBudget) (number : Nat) :
    (fetchPagesWithBudget wire api.transport endpoint secret etag budget number).2 = number +
      (summaryOf (fetchPagesWithBudget wire api.transport endpoint secret etag budget
        number).1).requestCount := by
  unfold fetchPagesWithBudget
  cases headersOf wire secret etag with
  | error failure => rfl
  | ok authorization =>
      exact (@fetchPagesFrom_fetches wire api endpoint.endpointClass authorization etag
        budget.maxRequests budget.maxPages number { url := endpoint.firstUrl }).counted

/-- What a fetch says it has sent is what it has sent. -/
theorem fetchCached_counted (endpoint : GitHubEndpoint) (maxPages remaining : Nat) (s : Syncing) :
    (fetchCached wire api.transport secret endpoint maxPages remaining s).2.requests = s.requests +
      sentFor (fetchCached wire api.transport secret endpoint maxPages remaining s).1 := by
  unfold fetchCached
  split
  · rfl
  simp only
  split
  · rfl
  · simp only
    rw [sentFor_settle]
    exact fetchPagesWithBudget_counted _ _ _ _

theorem fetchCached_alike
    (hpast : ∀ authorization, authorizationHeader secret = .ok authorization →
      past api authorization ∧ Whole wire past api authorization)
    {s t : Syncing} (h : Twins wire past s t) {remaining remaining' : Nat}
    (hzero : remaining ≠ 0) (hmore : remaining ≤ remaining')
    (endpoint : GitHubEndpoint) (maxPages : Nat) :
    HeldUp (fetchCached wire api.transport secret endpoint maxPages remaining s).2 ∨
      SameRead (fetchCached wire api.transport secret endpoint maxPages remaining s).1
          (fetchCached wire api.transport secret endpoint maxPages remaining' t).1 ∧
        Twins wire past (fetchCached wire api.transport secret endpoint maxPages remaining s).2
          (fetchCached wire api.transport secret endpoint maxPages remaining' t).2 := by
  have hkept := fetchCached_kept (fun a ha => (hpast a ha).1) endpoint maxPages remaining' t h.kept
  have hsent := @fetchCached_counted wire api secret endpoint maxPages remaining s
  have hsent' := @fetchCached_counted wire api secret endpoint maxPages remaining' t
  have hzero' : remaining' ≠ 0 := by omega
  unfold fetchCached at hkept hsent hsent' ⊢
  rw [if_neg hzero] at hsent ⊢
  rw [if_neg hzero'] at hkept hsent' ⊢
  simp only at hkept hsent hsent' ⊢
  unfold GitHubFetchBudget.new at hkept hsent hsent' ⊢
  by_cases hallowed : 0 < maxPages ∧ maxPages ≤ maxPagesPerEndpoint
  · have hrequests : ∀ {n : Nat}, n ≠ 0 →
        0 < min n maxRequestsPerBatch ∧ min n maxRequestsPerBatch ≤ maxRequestsPerBatch :=
      fun hn => ⟨Nat.lt_min.mpr ⟨Nat.pos_of_ne_zero hn, by decide⟩, Nat.min_le_right _ _⟩
    rw [dif_pos ⟨hallowed, hrequests hzero⟩] at hsent ⊢
    rw [dif_pos ⟨hallowed, hrequests hzero'⟩] at hkept hsent' ⊢
    simp only at hkept hsent hsent' ⊢
    have hfetched := @fetchPagesWithBudget_alike wire past api secret (fun a ha => (hpast a ha).2)
      endpoint _ _ (h.within endpoint.cacheKey) (h.kept endpoint.cacheKey)
      ⟨maxPages, min remaining maxRequestsPerBatch, hallowed, hrequests hzero⟩
      ⟨maxPages, min remaining' maxRequestsPerBatch, hallowed, hrequests hzero'⟩
      rfl (by show min _ _ ≤ min _ _; omega) s.requests t.requests
    rcases settle_alike h.within hfetched with hend | ⟨hsame, hwithin⟩
    · obtain ⟨failure, hfailed, hspent⟩ := hend
      left
      rw [hfailed]
      refine Or.inr ⟨⟨endpoint, .error failure⟩, ?_, failure, rfl, hspent⟩
      exact List.mem_append_right _ (List.mem_singleton.mpr rfl)
    · have hfewer' := hsame.fewer
      refine Or.inr ⟨hsame, hwithin, hkept, ?_, ?_⟩
      · simp only [settle_routeCache, h.routes]
      · rw [hsent, hsent']
        exact Nat.add_le_add h.fewer hfewer'
  · rw [dif_neg fun hboth => hallowed hboth.1] at hkept
    rw [dif_neg fun hboth => hallowed hboth.1, dif_neg fun hboth => hallowed hboth.1]
    exact Or.inr ⟨.failed _, h.within, hkept, h.routes, h.fewer⟩

end

/-! ## §5  The collectors -/

/-- What has been collected, whatever it took. -/
def Collector.view (c : Collector) : Collector := { c with summary := {}, remainingRequests := 0 }

section

variable (c : Collector)

theorem collectGaps_view (modules : List ModuleResult) :
    (modules.foldl Collector.collectGap c).view = modules.foldl Collector.collectGap c.view ∧
      (modules.foldl Collector.collectGap c).remainingRequests = c.remainingRequests := by
  induction modules generalizing c with
  | nil => exact ⟨rfl, rfl⟩
  | cons result modules ih =>
      have hstep : (c.collectGap result).view = c.view.collectGap result ∧
          (c.collectGap result).remainingRequests = c.remainingRequests := by
        unfold Collector.collectGap
        cases result.failure with
        | some failure => exact ⟨rfl, rfl⟩
        | none =>
            simp only
            split
            · exact ⟨rfl, rfl⟩
            · exact ⟨rfl, rfl⟩
      obtain ⟨hview, hleft⟩ := ih (c.collectGap result)
      rw [List.foldl_cons, List.foldl_cons, hview, hleft, hstep.1]
      exact ⟨rfl, hstep.2⟩

theorem mergeActions_view (output : ActionMapperOutput) :
    (c.mergeActions output).view = c.view.mergeActions output ∧
      (c.mergeActions output).remainingRequests = c.remainingRequests :=
  collectGaps_view _ output.modules

theorem mergeRepository_view (output : RepositoryMapperOutput) :
    (c.mergeRepository output).view = c.view.mergeRepository output ∧
      (c.mergeRepository output).remainingRequests = c.remainingRequests :=
  collectGaps_view _ output.modules

end

/-- Two syncs have collected the same, with what they have at hand. -/
structure Abreast (wire : Wire) (past : Api wire → String → Prop) (c : Collector) (s : Syncing)
    (d : Collector) (t : Syncing) : Prop where
  twins : Twins wire past s t
  same : c.view = d.view
  left : c.remainingRequests = maxRequestsPerBatch - s.requests
  left' : d.remainingRequests = maxRequestsPerBatch - t.requests

/-- The same pages, and the same reason for no more. -/
structure Reread (read read' : Read) : Prop where
  pages : read.pages = read'.pages
  failure : read.failure = read'.failure

/-- A way to take the pages of a fetch that says what was sent for them. -/
def Takes (take : Except GitHubPaginationFailure GitHubPages → Except ConnectorFailure Read) : Prop :=
  (∀ x read, take x = .ok read → read.requestSummary.requestCount = sentFor x) ∧
    ∀ x y, SameRead x y → (∃ failure, take x = .error failure ∧ take y = .error failure) ∨
      ∃ read read', take x = .ok read ∧ take y = .ok read' ∧ Reread read read'

theorem optionalPages_takes : Takes optionalPages := by
  constructor
  · intro x read h
    cases x with
    | ok pages =>
        cases h
        rfl
    | error failure =>
        unfold optionalPages at h
        obtain ⟨_, _, h⟩ := bind_ok h
        cases h
        rfl
  · intro x y h
    cases h with
    | failed failure =>
        cases hread : optionalPages (.error failure) with
        | error e => exact Or.inl ⟨e, rfl, rfl⟩
        | ok read => exact Or.inr ⟨read, read, rfl, rfl, rfl, rfl⟩
    | read pages fewer => exact Or.inr ⟨_, _, rfl, rfl, pages, rfl⟩

theorem requiredPages_takes : Takes requiredPages := by
  obtain ⟨hcounts, htakes⟩ := optionalPages_takes
  constructor
  · intro x read h
    cases x with
    | ok pages => exact hcounts _ read h
    | error failure =>
        unfold requiredPages at h
        simp only at h
        split at h
        · cases h
        · exact hcounts _ read h
  · intro x y h
    cases h with
    | failed failure =>
        unfold requiredPages
        simp only
        split
        · exact Or.inl ⟨_, rfl, rfl⟩
        · exact htakes _ _ (.failed failure)
    | read pages fewer => exact htakes _ _ (.read pages fewer)

section

variable {wire : Wire} {past : Api wire → String → Prop} {api : Api wire} {secret : List UInt8}

theorem Abreast.mergeActions {c d : Collector} {s t : Syncing} (h : Abreast wire past c s d t)
    (output : ActionMapperOutput) :
    Abreast wire past (c.mergeActions output) s (d.mergeActions output) t where
  twins := h.twins
  same := by rw [(mergeActions_view c output).1, (mergeActions_view d output).1, h.same]
  left := (mergeActions_view c output).2.trans h.left
  left' := (mergeActions_view d output).2.trans h.left'

theorem Abreast.mergeRepository {c d : Collector} {s t : Syncing} (h : Abreast wire past c s d t)
    (output : RepositoryMapperOutput) :
    Abreast wire past (c.mergeRepository output) s (d.mergeRepository output) t where
  twins := h.twins
  same := by rw [(mergeRepository_view c output).1, (mergeRepository_view d output).1, h.same]
  left := (mergeRepository_view c output).2.trans h.left
  left' := (mergeRepository_view d output).2.trans h.left'

theorem Abreast.keepRoutes {c d : Collector} {s t : Syncing} (h : Abreast wire past c s d t)
    (routes : List RepositoryRouteContext) :
    Abreast wire past c { s with connector := { s.connector with routeCache := routes } } d
      { t with connector := { t.connector with routeCache := routes } } where
  twins := ⟨h.twins.within, h.twins.kept, rfl, h.twins.fewer⟩
  same := h.same
  left := h.left
  left' := h.left'

theorem Abreast.unspent {c d : Collector} {s t : Syncing} (h : Abreast wire past c s d t)
    (hmore : c.remainingRequests ≠ 0) : d.remainingRequests ≠ 0 := by
  have hfewer := h.twins.fewer
  have hleft := h.left
  have hleft' := h.left'
  omega

theorem fetchCached_heldUp (endpoint : GitHubEndpoint) (maxPages remaining : Nat) :
    (fetchCached wire api.transport secret endpoint maxPages remaining).Leads
      (fun s t => HeldUp s → HeldUp t) := by
  intro s hheld
  unfold fetchCached
  split
  · exact hheld
  simp only
  split
  · exact hheld
  · rcases hheld with hleft | ⟨list, hmem, hend⟩
    · exact Or.inl hleft
    · exact Or.inr ⟨list, List.mem_append_left _ hmem, hend⟩

theorem leaveOff_heldUp (c : Collector) :
    (leaveOff c).Leads (fun s t => HeldUp s → HeldUp t) := fun _ _ => Or.inl rfl

/-- One fetch of each, and what is made of it. -/
theorem fetched_alike {γ δ : Type} {J : γ → Syncing → δ → Syncing → Prop}
    (hpast : ∀ authorization, authorizationHeader secret = .ok authorization →
      past api authorization ∧ Whole wire past api authorization)
    {c d : Collector} {s t : Syncing} (h : Abreast wire past c s d t)
    (hspare : c.remainingRequests ≠ 0)
    {take : Except GitHubPaginationFailure GitHubPages → Except ConnectorFailure Read}
    (htake : Takes take) (endpoint : GitHubEndpoint) (maxPages : Nat)
    {f : Read → Sending γ} {g : Read → Sending δ}
    (hstays : ∀ read, (f read).Leads (fun s u => HeldUp s → HeldUp u))
    (hnext : ∀ read read' s t, Reread read read' →
      Abreast wire past (c.addSummary read.requestSummary) s (d.addSummary read'.requestSummary) t →
      Attempt.Alike HeldUp J (f read s) (g read' t)) :
    Attempt.Alike HeldUp J
      (((fetchCached wire api.transport secret endpoint maxPages c.remainingRequests).result >>=
        fun fetched => Attempt.ofExcept (take fetched) >>= f) s)
      (((fetchCached wire api.transport secret endpoint maxPages d.remainingRequests).result >>=
        fun fetched => Attempt.ofExcept (take fetched) >>= g) t) := by
  have hfewer := h.twins.fewer
  have hfetched := fetchCached_alike hpast h.twins hspare
    (by rw [h.left, h.left']; omega : c.remainingRequests ≤ d.remainingRequests) endpoint maxPages
  have hsent := @fetchCached_counted wire api secret endpoint maxPages c.remainingRequests s
  have hsent' := @fetchCached_counted wire api secret endpoint maxPages d.remainingRequests t
  rw [Attempt.bind_apply, Attempt.bind_apply]
  unfold Attempt.result
  simp only
  generalize fetchCached wire api.transport secret endpoint maxPages c.remainingRequests s = p
    at hfetched hsent ⊢
  generalize fetchCached wire api.transport secret endpoint maxPages d.remainingRequests t = q
    at hfetched hsent' ⊢
  obtain ⟨x, s'⟩ := p
  obtain ⟨y, t'⟩ := q
  simp only at hfetched hsent hsent' ⊢
  rcases hfetched with hheld | ⟨hsame, htwins⟩
  · apply Attempt.Alike.spoilt
    exact Attempt.Leads.bind (fun _ _ _ h₁ h₂ h => h₂ (h₁ h)) (.ofExcept (fun _ h => h) _) hstays s'
      hheld
  · rcases htake.2 x y hsame with ⟨failure, hx, hy⟩ | ⟨read, read', hx, hy, hread⟩
    · rw [hx, hy]
      exact .error failure s' t'
    · rw [hx, hy]
      refine hnext read read' s' t' hread ⟨htwins, h.same, ?_, ?_⟩
      · show c.remainingRequests - read.requestSummary.requestCount = _
        rw [htake.1 x read hx, h.left, hsent]
        omega
      · show d.remainingRequests - read'.requestSummary.requestCount = _
        rw [htake.1 y read' hy, h.left', hsent']
        omega

theorem heldUp_refl (s : Syncing) : HeldUp s → HeldUp s := fun h => h

theorem heldUp_trans (s t u : Syncing) (h₁ : HeldUp s → HeldUp t) (h₂ : HeldUp t → HeldUp u) :
    HeldUp s → HeldUp u := fun h => h₂ (h₁ h)

theorem keepRoutes_heldUp (routes : List RepositoryRouteContext) :
    (keepRoutes routes).Leads (fun s t => HeldUp s → HeldUp t) := fun _ h => h

/-- The same output, with the same collected. -/
def BothOutput (wire : Wire) (past : Api wire → String → Prop)
    (made : RepositoryMapperOutput × Collector) (s : Syncing)
    (made' : RepositoryMapperOutput × Collector) (t : Syncing) : Prop :=
  made.1 = made'.1 ∧ Abreast wire past made.2 s made'.2 t

theorem Abreast.observedAt {c d : Collector} {s t : Syncing} (h : Abreast wire past c s d t) :
    c.observedAt = d.observedAt :=
  have hsame : c.view.observedAt = d.view.observedAt := congrArg Collector.observedAt h.same
  hsame

variable (hpast : ∀ authorization, authorizationHeader secret = .ok authorization →
    past api authorization ∧ Whole wire past api authorization)

include hpast

theorem collectRepositories_alike (request : SyncRequest) {c d : Collector} {s t : Syncing}
    (h : Abreast wire past c s d t) (hspare : c.remainingRequests ≠ 0) :
    Attempt.Alike HeldUp (BothOutput wire past)
      (collectRepositories wire api.transport secret request c s)
      (collectRepositories wire api.transport secret request d t) := by
  unfold collectRepositories
  refine .ofExcept_bind fun endpoint _ => ?_
  refine fetched_alike hpast h hspare requiredPages_takes endpoint 20 (fun read => ?_)
    fun read read' s t hread h => ?_
  · refine .bind heldUp_trans (.ofExcept heldUp_refl _) fun selected => ?_
    refine .bind heldUp_trans (.ofExcept heldUp_refl _) fun repositories => ?_
    exact .bind heldUp_trans (.ofExcept heldUp_refl _) fun output => .pure heldUp_refl _
  · rw [← hread.pages, ← hread.failure, ← h.observedAt]
    refine .ofExcept_bind fun selected _ => ?_
    refine .ofExcept_bind fun repositories _ => ?_
    exact .ofExcept_bind fun output _ => .ok ⟨rfl, h⟩

theorem collectTargetedRepositories_alike (request : SyncRequest)
    (routes : List RepositoryRouteContext) :
    ∀ (output : RepositoryMapperOutput) {c d : Collector} {s t : Syncing},
      Abreast wire past c s d t →
      Attempt.Alike HeldUp (BothOutput wire past)
        (collectTargetedRepositories wire api.transport secret request routes output c s)
        (collectTargetedRepositories wire api.transport secret request routes output d t) := by
  induction routes with
  | nil => exact fun output _ _ _ _ h => .ok ⟨rfl, h⟩
  | cons route routes ih =>
      intro output c d s t h
      by_cases hzero : c.remainingRequests = 0
      · unfold collectTargetedRepositories
        rw [if_pos hzero]
        exact .spoilt (Or.inl rfl)
      · have hzero' : d.remainingRequests ≠ 0 := h.unspent hzero
        unfold collectTargetedRepositories
        rw [if_neg hzero, if_neg hzero']
        refine .ofExcept_bind fun endpoint _ => ?_
        refine fetched_alike hpast h hzero requiredPages_takes endpoint 1 (fun read => ?_)
          fun read read' s t hread h => ?_
        · refine .bind heldUp_trans (.ofExcept heldUp_refl _) fun repositories => ?_
          refine .bind heldUp_trans (.ofExcept heldUp_refl _) fun mapped => ?_
          exact collectTargetedRepositories_leads heldUp_refl heldUp_trans fetchCached_heldUp
            leaveOff_heldUp request routes _ _
        · rw [← hread.pages, ← hread.failure, ← h.observedAt]
          refine .ofExcept_bind fun repositories _ => ?_
          exact .ofExcept_bind fun mapped _ => ih _ h

theorem collectByMode_alike (request : SyncRequest) {c d : Collector} {s t : Syncing}
    (h : Abreast wire past c s d t) (hspare : c.remainingRequests ≠ 0) :
    Attempt.Alike HeldUp (BothOutput wire past)
      (collectByMode wire api.transport secret request c s)
      (collectByMode wire api.transport secret request d t) := by
  unfold collectByMode
  cases request.mode with
  | full => exact collectRepositories_alike hpast request h hspare
  | targeted =>
      have hroutes : targetedRoutes t.connector request = targetedRoutes s.connector request := by
        unfold targetedRoutes
        rw [h.twins.routes]
      simp only
      rw [hroutes]
      cases targetedRoutes s.connector request with
      | error failure => exact .error failure s t
      | ok routes => exact collectTargetedRepositories_alike hpast request routes _ h
  | incremental => exact .error _ s t

theorem collectWorkflows_alike (route : RepositoryRouteContext) {c d : Collector} {s t : Syncing}
    (h : Abreast wire past c s d t) (hspare : c.remainingRequests ≠ 0) :
    Attempt.Alike HeldUp (Abreast wire past) (collectWorkflows wire api.transport secret route c s)
      (collectWorkflows wire api.transport secret route d t) := by
  unfold collectWorkflows
  refine .ofExcept_bind fun endpoint _ => ?_
  refine fetched_alike hpast h hspare optionalPages_takes endpoint 2 (fun read => ?_)
    fun read read' s t hread h => ?_
  · refine .bind heldUp_trans (.ofExcept heldUp_refl _) fun lists => ?_
    exact .bind heldUp_trans (.ofExcept heldUp_refl _) fun output => .pure heldUp_refl _
  · rw [← hread.pages, ← hread.failure]
    refine .ofExcept_bind fun lists _ => ?_
    exact .ofExcept_bind fun output _ => .ok (h.mergeActions output)

theorem collectRuns_alike (route : RepositoryRouteContext) {c d : Collector} {s t : Syncing}
    (h : Abreast wire past c s d t) (hspare : c.remainingRequests ≠ 0) :
    Attempt.Alike HeldUp (Abreast wire past) (collectRuns wire api.transport secret route c s)
      (collectRuns wire api.transport secret route d t) := by
  unfold collectRuns
  refine .ofExcept_bind fun endpoint _ => ?_
  refine fetched_alike hpast h hspare optionalPages_takes endpoint 1 (fun read => ?_)
    fun read read' s t hread h => ?_
  · refine .bind heldUp_trans (.ofExcept heldUp_refl _) fun lists => ?_
    exact .bind heldUp_trans (.ofExcept heldUp_refl _) fun output => .pure heldUp_refl _
  · rw [← hread.pages, ← hread.failure]
    refine .ofExcept_bind fun lists _ => ?_
    exact .ofExcept_bind fun output _ => .ok (h.mergeActions output)

theorem collectRepositoryChildren_alike (route : RepositoryRouteContext) {c d : Collector}
    {s t : Syncing} (h : Abreast wire past c s d t) (hspare : c.remainingRequests ≠ 0) :
    Attempt.Alike HeldUp (Abreast wire past)
      (collectRepositoryChildren wire api.transport secret route c s)
      (collectRepositoryChildren wire api.transport secret route d t) := by
  unfold collectRepositoryChildren
  refine .bind (collectWorkflows_alike hpast route h hspare) (fun c => ?_) fun c s d t h => ?_
  · split
    · exact leaveOff_heldUp c
    · exact collectRuns_leads heldUp_refl heldUp_trans fetchCached_heldUp route c
  · by_cases hzero : c.remainingRequests = 0
    · rw [if_pos hzero]
      exact .spoilt (Or.inl rfl)
    · rw [if_neg hzero, if_neg (h.unspent hzero)]
      exact collectRuns_alike hpast route h hzero

theorem collectChildren_alike (routes : List RepositoryRouteContext) :
    ∀ {c d : Collector} {s t : Syncing}, Abreast wire past c s d t →
      Attempt.Alike HeldUp (Abreast wire past) (collectChildren wire api.transport secret routes c s)
        (collectChildren wire api.transport secret routes d t) := by
  induction routes with
  | nil => exact fun h => .ok h
  | cons route routes ih =>
      intro c d s t h
      unfold collectChildren
      by_cases hzero : c.remainingRequests = 0
      · rw [if_pos hzero]
        exact .spoilt (Or.inl rfl)
      · rw [if_neg hzero, if_neg (h.unspent hzero)]
        exact .bind (collectRepositoryChildren_alike hpast route h hzero)
          (collectChildren_leads heldUp_refl heldUp_trans fetchCached_heldUp leaveOff_heldUp routes)
          fun _ _ _ _ h => ih h

theorem collect_alike (now : Nat) (request : SyncRequest) {s t : Syncing}
    (h : Twins wire past s t) (hs : s.requests = 0) (ht : t.requests = 0) :
    Attempt.Alike HeldUp (Abreast wire past) (collect wire api.transport secret now request s)
      (collect wire api.transport secret now request t) := by
  have hstart : Abreast wire past { scope := request.scope, observedAt := observedAtOf now } s
      { scope := request.scope, observedAt := observedAtOf now } t :=
    ⟨h, rfl, by rw [hs]; rfl, by rw [ht]; rfl⟩
  have hspare : maxRequestsPerBatch ≠ 0 := by decide
  unfold collect
  refine .bind (collectByMode_alike hpast request hstart hspare) (fun made => ?_)
    fun made s made' t h => ?_
  · obtain ⟨output, c⟩ := made
    dsimp only
    split
    · refine .bind heldUp_trans (keepRoutes_heldUp _) fun _ => ?_
      exact collectChildren_leads heldUp_refl heldUp_trans fetchCached_heldUp leaveOff_heldUp _ _
    · exact collectChildren_leads heldUp_refl heldUp_trans fetchCached_heldUp leaveOff_heldUp _ _
  · obtain ⟨output, c⟩ := made
    obtain ⟨output', d⟩ := made'
    obtain ⟨rfl, h⟩ : output = output' ∧ Abreast wire past c s d t := h
    have hmerged := h.mergeRepository output
    dsimp only
    split
    · exact collectChildren_alike hpast output.routes (hmerged.keepRoutes output.routes)
    · exact collectChildren_alike hpast output.routes hmerged

end

/-! ## §6  The sync -/

/-- An outcome, whatever it took. -/
def SyncOutcome.unpriced : SyncOutcome → SyncOutcome
  | .complete batch => .complete { batch with providerRequestSummary := {} }
  | .partial_ batch failure => .partial_ { batch with providerRequestSummary := {} } failure

theorem validateFor_unpriced (outcome : SyncOutcome) (request : SyncRequest) :
    (SyncOutcome.unpriced outcome).validateFor request = outcome.validateFor request := by
  cases outcome with
  | complete batch => rfl
  | partial_ batch failure => rfl

theorem outcome_view (c : Collector) (request : SyncRequest) :
    c.view.outcome request = SyncOutcome.unpriced (c.outcome request) := by
  obtain ⟨scope, observedAt, resources, relations, warnings, summary, primaryFailure, left⟩ := c
  cases primaryFailure with
  | none => rfl
  | some failure => rfl

theorem finish_view (c : Collector) (request : SyncRequest) :
    c.view.finish request = (c.finish request).map SyncOutcome.unpriced := by
  have hvalid := validateFor_unpriced (c.outcome request) request
  unfold Collector.finish
  rw [outcome_view]
  show (rejectDuplicateObservations (sortResources c.resources) (sortRelations c.relations) >>= _) = _
  cases rejectDuplicateObservations (sortResources c.resources) (sortRelations c.relations) with
  | error failure => rfl
  | ok u =>
      simp only [bind, Except.bind]
      rw [hvalid]
      cases (c.outcome request).validateFor request with
      | error e => rfl
      | ok u => rfl

/-- The same outcome, with no more requests. -/
def BothOutcome (outcome : SyncOutcome) (s : Syncing) (outcome' : SyncOutcome) (t : Syncing) : Prop :=
  SyncOutcome.unpriced outcome = SyncOutcome.unpriced outcome' ∧ t.requests ≤ s.requests

theorem sync_alike {wire : Wire} {past : Api wire → String → Prop} {api : Api wire}
    {secret : List UInt8}
    (hpast : ∀ authorization, authorizationHeader secret = .ok authorization →
      past api authorization ∧ Whole wire past api authorization)
    (now : Nat) (request : SyncRequest) {s t : Syncing} (h : Twins wire past s t)
    (hs : s.requests = 0) (ht : t.requests = 0) :
    Attempt.Alike HeldUp BothOutcome (sync wire api.transport now request (some secret) s)
      (sync wire api.transport now request (some secret) t) := by
  unfold sync
  cases validateConnectionInput request.connection with
  | cons issue issues => exact .error _ s t
  | nil =>
      refine .bind (collect_alike hpast now request h hs ht)
        (fun c => .ofExcept heldUp_refl _) fun c s d t h => ?_
      have hfinish : (c.finish request).map SyncOutcome.unpriced =
          (d.finish request).map SyncOutcome.unpriced := by
        rw [← finish_view, ← finish_view, h.same]
      unfold Attempt.ofExcept
      cases hc : c.finish request with
      | error failure =>
          rw [hc] at hfinish
          cases hd : d.finish request with
          | error failure' =>
              rw [hd] at hfinish
              cases hfinish
              exact .error failure s t
          | ok outcome =>
              rw [hd] at hfinish
              cases hfinish
      | ok outcome =>
          rw [hc] at hfinish
          cases hd : d.finish request with
          | error failure' =>
              rw [hd] at hfinish
              cases hfinish
          | ok outcome' =>
              rw [hd] at hfinish
              exact .ok ⟨Except.ok.inj hfinish, h.twins.fewer⟩

/-- A sync, and the API it meets. -/
structure SyncCall (wire : Wire) where
  api : Api wire
  now : Nat
  request : SyncRequest
  secret : Option (List UInt8)

namespace SyncCall

variable {wire : Wire}

def run (wire : Wire) (call : SyncCall wire) (connector : GitHubConnector) :
    Except ConnectorFailure SyncOutcome × Syncing :=
  sync wire call.api.transport call.now call.request call.secret { connector := connector }

/-- The credential a call sends. -/
def Sends (call : SyncCall wire) (authorization : String) : Prop :=
  ∃ secret, call.secret = some secret ∧ authorizationHeader secret = .ok authorization

/-- The connector after a history of calls. -/
def after (wire : Wire) (history : List (SyncCall wire)) : GitHubConnector :=
  history.foldl (fun connector call => (call.run wire connector).2.connector) .new

/-- The APIs a history has met, with the credentials it sent them. -/
def Met (history : List (SyncCall wire)) (api : Api wire) (authorization : String) : Prop :=
  ∃ call ∈ history, call.api = api ∧ call.Sends authorization

end SyncCall

/-- The connector with no pages kept. -/
def GitHubConnector.uncached (connector : GitHubConnector) : GitHubConnector :=
  { connector with pageCache := KeyedTable.empty }

section

variable {wire : Wire} {past : Api wire → String → Prop}

theorem SyncCall.run_kept (call : SyncCall wire)
    (hmet : ∀ authorization, call.Sends authorization → past call.api authorization)
    (connector : GitHubConnector) (hkept : Kept wire past connector) :
    Kept wire past (call.run wire connector).2.connector := by
  unfold SyncCall.run
  cases hsecret : call.secret with
  | none =>
      unfold sync
      cases validateConnectionInput call.request.connection with
      | nil => exact hkept
      | cons issue issues => exact hkept
  | some secret =>
      have hleads : (sync wire call.api.transport call.now call.request (some secret)).Leads
          (fun s t => Kept wire past s.connector → Kept wire past t.connector) := by
        have hleave : ∀ c, (leaveOff c).Leads
            (fun s t => Kept wire past s.connector → Kept wire past t.connector) := fun _ _ h => h
        have hroutes : ∀ routes, (keepRoutes routes).Leads
            (fun s t => Kept wire past s.connector → Kept wire past t.connector) := fun _ _ h => h
        refine sync_leads (fun _ h => h) (fun _ _ _ h₁ h₂ h => h₂ (h₁ h)) ?_ hleave hroutes _ _
        intro endpoint maxPages remaining s
        exact fetchCached_kept (fun authorization hauth => hmet authorization ⟨secret, hsecret, hauth⟩)
          endpoint maxPages remaining s
      exact hleads { connector := connector } hkept

theorem SyncCall.after_kept (history : List (SyncCall wire)) :
    Kept wire (SyncCall.Met history) (SyncCall.after wire history) := by
  have hruns : ∀ (calls : List (SyncCall wire)) (connector : GitHubConnector), calls ⊆ history →
      Kept wire (SyncCall.Met history) connector →
      Kept wire (SyncCall.Met history)
        (calls.foldl (fun connector call => (call.run wire connector).2.connector) connector) := by
    intro calls
    induction calls with
    | nil => exact fun _ _ h => h
    | cons call calls ih =>
        intro connector hsub hkept
        refine ih _ (fun c hc => hsub (List.mem_cons_of_mem _ hc)) ?_
        refine call.run_kept (fun authorization hsends => ?_) connector hkept
        exact ⟨call, hsub List.mem_cons_self, rfl, hsends⟩
  refine hruns history .new (fun _ h => h) fun key entry hentry => ?_
  cases hentry

theorem Kept.mono {past past' : Api wire → String → Prop} {connector : GitHubConnector}
    (h : Kept wire past connector)
    (hle : ∀ api authorization, past api authorization → past' api authorization) :
    Kept wire past' connector := by
  intro key entry hentry
  obtain ⟨api, authorization, hpast, hlists⟩ := h key entry hentry
  exact ⟨api, authorization, hle _ _ hpast, hlists⟩

/-- What a call is given itself needs no promise. -/
theorem SyncCall.whole_met {history : List (SyncCall wire)} {call : SyncCall wire}
    {authorization : String}
    (hsends : call.Sends authorization)
    (hwhole : Whole wire (SyncCall.Met history) call.api authorization) :
    Whole wire (SyncCall.Met (call :: history)) call.api authorization := by
  intro api' authorization' hmet url pages etag hlists response answer hsuccess htag
  obtain ⟨call', hcall, rfl, hsends'⟩ := hmet
  rcases List.mem_cons.mp hcall with rfl | hcall
  · obtain ⟨secret, hsecret, hauth⟩ := hsends
    obtain ⟨secret', hsecret', hauth'⟩ := hsends'
    cases hsecret.symm.trans hsecret'
    cases hauth.symm.trans hauth'
    exact hlists
  · exact hwhole call'.api authorization' ⟨call', hcall, rfl, hsends'⟩ url pages etag hlists response
      answer hsuccess htag

/-- After any history of syncs, if the lists that were given out and whose first page is unchanged
are unchanged, a sync ends as it would with no pages kept, with no more requests; so long as that
one stays within its budgets. -/
theorem sync_transparent {history : List (SyncCall wire)} {call : SyncCall wire}
    (hwhole : ∀ authorization, call.Sends authorization →
      Whole wire (SyncCall.Met history) call.api authorization)
    (hfree : ¬ HeldUp (call.run wire (SyncCall.after wire history).uncached).2) :
    (call.run wire (SyncCall.after wire history)).1.map SyncOutcome.unpriced =
        (call.run wire (SyncCall.after wire history).uncached).1.map SyncOutcome.unpriced ∧
      ((call.run wire (SyncCall.after wire history).uncached).1.isOk = true →
        (call.run wire (SyncCall.after wire history)).2.requests ≤
          (call.run wire (SyncCall.after wire history).uncached).2.requests) := by
  have hkept : Kept wire (SyncCall.Met (call :: history)) (SyncCall.after wire history) := by
    refine (SyncCall.after_kept history).mono ?_
    rintro api authorization ⟨met, hmem, hmet⟩
    exact ⟨met, List.mem_cons_of_mem _ hmem, hmet⟩
  generalize SyncCall.after wire history = connector at hfree hkept ⊢
  have hboth : Attempt.Alike HeldUp BothOutcome (call.run wire connector.uncached)
      (call.run wire connector) := by
    unfold SyncCall.run
    cases hsecret : call.secret with
    | none =>
        unfold sync
        cases validateConnectionInput call.request.connection with
        | nil => exact .error _ _ _
        | cons issue issues => exact .error _ _ _
    | some secret =>
        have htwins : Twins wire (SyncCall.Met (call :: history)) { connector := connector.uncached }
            { connector := connector } := by
          refine ⟨fun key entry hentry => ?_, hkept, rfl, Nat.le_refl _⟩
          cases hentry
        refine sync_alike (fun authorization hauth => ?_) call.now call.request htwins rfl rfl
        have hsends : call.Sends authorization := ⟨secret, hsecret, hauth⟩
        exact ⟨⟨call, List.mem_cons_self, rfl, hsends⟩,
          SyncCall.whole_met hsends (hwhole authorization hsends)⟩
  generalize call.run wire connector.uncached = fresh at hfree hboth ⊢
  generalize call.run wire connector = warm at hboth ⊢
  cases hboth with
  | spoilt hheld => exact absurd hheld hfree
  | ok h => exact ⟨congrArg Except.ok h.1.symm, fun _ => h.2⟩
  | error failure s t => exact ⟨rfl, nofun⟩

end

namespace TwoPages

open Fixture OneRun

def first : String := workflowsUrl

def second : String := "https://api.github.com/repositories/1/actions/workflows?page=2"

/-- A page with one of two workflows. -/
def page (id : Nat) : List WorkflowDto := [{ workflow with id := id }]

/-- It reads the pages with the workflows 7, 8 and 9. -/
def wire : Wire :=
  { apiWire with
    repositories := fun body =>
      if body = repositoriesText [repository] then some [repository] else none
    workflowList := fun body =>
      ([7, 8, 9].find? fun id => body = workflowsText 2 (page id)).map fun id => ⟨page id⟩
    runList := fun body => if body = runsText [] then some ⟨[]⟩ else none }

/-- The first page of the workflows stays as it is; the second one lists this one. -/
def respond (listed : Nat) (url : String) : GitHubTransportResponse :=
  if url = first then
    { status := 200
      headers :=
        { untagged with
          etag := some "\"first\""
          link := some ("<" ++ second ++ ">; rel=\"next\"") }
      body := workflowsText 2 (page 7)
      elapsedMs := 1 }
  else if url = second then
    { status := 200, headers := untagged, body := workflowsText 2 (page listed), elapsedMs := 1 }
  else if url = repositoriesUrl then
    { status := 200, headers := untagged, body := repositoriesText [repository], elapsedMs := 1 }
  else { status := 200, headers := untagged, body := runsText [], elapsedMs := 1 }

theorem respond_modified (listed : Nat) (url : String) : (respond listed url).status ≠ 304 := by
  unfold respond
  split
  · exact nofun
  split
  · exact nofun
  split
  · exact nofun
  · exact nofun

theorem respond_tagged (listed : Nat) (url etag : String)
    (h : (respond listed url).headers.etag = some etag) : wire.isHeaderText etag = true := by
  unfold respond at h
  split at h
  · cases h
    decide
  split at h
  · cases h
  split at h
  · cases h
  · cases h

def api (listed : Nat) : Api wire where
  respond _ url := .ok (respond listed url)
  now := 0
  modified _ url _ h := Except.ok.inj h ▸ respond_modified listed url
  tagged _ url _ etag h := Except.ok.inj h ▸ respond_tagged listed url etag

def call (listed : Nat) : SyncCall wire where
  api := api listed
  now := 0
  request := request
  secret := some [120]

/-- The requests of a sync that is complete, and what it observes. -/
def observed : Except ConnectorFailure SyncOutcome × Syncing → Option (Nat × List String)
  | (.ok (.complete batch), s) =>
      some (s.requests, batch.resources.map fun resource => resource.externalId.val)
  | _ => none

def warm (listed : Nat) : Except ConnectorFailure SyncOutcome × Syncing :=
  (call listed).run wire (SyncCall.after wire [call 8])

def fresh (listed : Nat) : Except ConnectorFailure SyncOutcome × Syncing :=
  (call listed).run wire (SyncCall.after wire [call 8]).uncached

theorem fresh_free : ¬ HeldUp (fresh 8).2 := by decide +kernel

theorem observed_warm : observed (warm 8) =
    some (3, ["github-repository:1", "github-workflow:7", "github-workflow:8"]) := by
  decide +kernel

end TwoPages

open TwoPages in
/-- A sync made twice: the second one takes the workflows from the first. -/
theorem sync_transparent_twice :
    (warm 8).1.map SyncOutcome.unpriced = (fresh 8).1.map SyncOutcome.unpriced ∧
      observed (warm 8) =
        some (3, ["github-repository:1", "github-workflow:7", "github-workflow:8"]) := by
  have hwhole : ∀ authorization, (call 8).Sends authorization →
      Whole wire (SyncCall.Met [call 8]) (call 8).api authorization := by
    intro authorization hsends
    refine SyncCall.whole_met hsends ?_
    rintro _ _ ⟨_, hmem, _⟩
    cases hmem
  exact ⟨(sync_transparent hwhole fresh_free).1, observed_warm⟩

open TwoPages in
/-- A workflow that is replaced on the second page stays the old one: the sync is complete, and not
what it would be with no pages kept. -/
theorem second_page_hidden :
    observed (warm 9) =
        some (3, ["github-repository:1", "github-workflow:7", "github-workflow:8"]) ∧
      observed (fresh 9) =
        some (4, ["github-repository:1", "github-workflow:7", "github-workflow:9"]) := by
  decide +kernel

end GitHub

end NextInfra
