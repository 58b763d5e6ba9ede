import NextInfra.Cloudflare.Mapper

/-!
# The Cloudflare connector

A sync reads the accounts and the zones, which must succeed, then the records of
each zone and the tunnels and workers of each account. A child list that fails is
recorded under its zone or account, unless the failure is one of the credential:
then it leaves no entry at all. The entries are a hash map, so a second list under
the same id replaces the first, and they are merged in no particular order.
-/

namespace NextInfra

namespace Cloudflare

/-! ## §1  Failures -/

def failure (error : ClientError) : ConnectorFailure where
  code := error.code
  message := "Cloudflare transport request failed"
  retryable :=
    error.code == .rateLimited || error.code == .networkUnreachable ||
      error.code == .providerUnavailable
  retryAfterMs := error.retryAfterMs

def invalidResponse : ConnectorFailure where
  code := .invalidResponse
  message := "Cloudflare response does not match the allowlisted DTO contract"
  retryable := false
  retryAfterMs := none

def isChildModuleFatal (failure : ConnectorFailure) : Bool :=
  failure.code == .authenticationFailed || failure.code == .credentialUnavailable

def statusKey : ErrorCode → String
  | .authenticationFailed => "401"
  | .permissionDenied => "403"
  | .rateLimited => "429"
  | .networkUnreachable => "5xx"
  | .providerUnavailable => "5xx"
  | .partialPagination => "5xx"
  | .invalidResponse => "5xx"
  | .schemaIncompatible => "5xx"
  | .invalidDomainValue => "5xx"
  | .credentialUnavailable => "5xx"
  | _ => "unknown"

def coverageReason : ErrorCode → CoverageGapReason
  | .permissionDenied => .permissionDenied
  | .rateLimited => .rateLimited
  | .providerUnavailable => .providerUnavailable
  | .networkUnreachable => .providerUnavailable
  | .schemaIncompatible => .schemaIncompatible
  | .invalidResponse => .schemaIncompatible
  | _ => .paginationIncomplete

structure ValidationIssue where
  code : ErrorCode
  message : String

def validateConnection (connection : ConnectionInput) : List ValidationIssue :=
  (if connection.connectorType ≠ .cloudflare then
      [⟨.invalidDomainValue, "Cloudflare connection uses a different connector type"⟩]
    else []) ++
  (if connection.configSchemaVersion ≠ .one then
      [⟨.schemaIncompatible, "Cloudflare connection config schema is unsupported"⟩]
    else []) ++
  if connection.config ≠ .object [] then
    [⟨.invalidDomainValue, "Cloudflare connection config must be an empty object"⟩]
  else []

def permanentFailure (code : ErrorCode) (message : String) : ConnectorFailure :=
  { code := code, message := message, retryable := false, retryAfterMs := none }

/-! ## §2  Lists -/

/-- What came of one list: its path, the number of its first request, its pages. -/
structure ListFetch where
  path : String
  number : Nat
  pages : Except ClientError (List Body)

/-- `fetch`: the items of the pages. -/
def ListFetch.items {α : Type} (decode : Body → Option (List α)) (fetch : ListFetch) :
    Except ConnectorFailure (List α) :=
  match fetch.pages with
  | .error e => .error (failure e)
  | .ok pages =>
      match pages.mapM decode with
      | none => .error invalidResponse
      | some items => .ok items.flatten

/-- `fetch_optional`: no entry for a failure of the credential. -/
def ListFetch.optional {α : Type} (decode : Body → Option (List α)) (fetch : ListFetch) :
    Option (List α × Option ConnectorFailure) :=
  match fetch.items decode with
  | .ok items => some (items, none)
  | .error failure => if isChildModuleFatal failure then none else some ([], some failure)

/-- The map of one child module: for each id of the loop, in order, the items of its
list, each with the id, and its failure. -/
def childResults {α β : Type} (decode : Body → Option (List α)) (withId : String → α → β)
    (children : List (String × ListFetch)) :
    OrderedMap String (List β × Option ConnectorFailure) :=
  .ofEntries <| children.filterMap fun (id, fetch) =>
    (fetch.optional decode).map fun (items, failure) => (id, items.map (withId id), failure)

section

variable (wire : Wire) (transport : Transport) (secret : List UInt8)

def fetchList (path : String) (number : Nat) : ListFetch × Nat :=
  let (pages, next) := fetchPages wire transport path secret number
  ({ path := path, number := number, pages := pages }, next)

/-- The lists of a loop, one after the other, each with the id it is for. -/
def fetchLists (path : String → String) : List String → Nat → List (String × ListFetch) × Nat
  | [], number => ([], number)
  | id :: ids, number =>
      let (fetch, next) := fetchList wire transport secret (path id) number
      let (rest, last) := fetchLists path ids next
      ((id, fetch) :: rest, last)

end

def accountsPath : String := "/client/v4/accounts"

def zonesPath : String := "/client/v4/zones"

def recordsPath (zoneId : String) : String := "/client/v4/zones/" ++ zoneId ++ "/dns_records"

def tunnelsPath (accountId : String) : String :=
  "/client/v4/accounts/" ++ accountId ++ "/cfd_tunnel"

def workersPath (accountId : String) : String :=
  "/client/v4/accounts/" ++ accountId ++ "/workers/scripts"

/-! ## §3  The collector -/

/-- The order a hash map is walked in. -/
structure HashOrder where
  visit : {α : Type} → List (String × α) → List (String × α)
  perm : ∀ {α : Type} (entries : List (String × α)), (visit entries).Perm entries

/-- The orders the maps of a sync are walked in. -/
structure HashOrders where
  records : HashOrder
  tunnels : HashOrder
  workers : HashOrder

structure Collector where
  accounts : List AccountDto := []
  zones : List ZoneDto := []
  records : List DnsRecordDto := []
  tunnels : List TunnelWithAccount := []
  workers : List WorkerWithAccount := []
  warnings : List ObservationWarning := []
  statusCounts : OrderedMap String Nat := KeyedTable.empty
  requestCount : Nat := 0
  childFailures : List ConnectorFailure := []

def bump (counts : OrderedMap String Nat) (key : String) : OrderedMap String Nat :=
  OrderedMap.insert counts key (((OrderedMap.lookup counts key).getD 0) + 1)

/-- One entry of a child module, its items aside. -/
def Collector.note (message : String) (c : Collector) (failure : Option ConnectorFailure) :
    Collector :=
  match failure with
  | some f =>
      { c with
        requestCount := saturatingAdd 64 c.requestCount 1
        statusCounts := bump c.statusCounts (statusKey f.code)
        childFailures := c.childFailures ++ [f]
        warnings := c.warnings ++ [{ code := f.code, message := message }] }
  | none =>
      { c with
        requestCount := saturatingAdd 64 c.requestCount 1
        statusCounts := bump c.statusCounts "2xx" }

/-- A merge of a child module: each entry is noted and its items are taken. -/
def Collector.merge {β : Type} (order : HashOrder) (message : String → String)
    (take : Collector → List β → Collector) (c : Collector)
    (results : OrderedMap String (List β × Option ConnectorFailure)) : Collector :=
  (order.visit results.rows).foldl (fun c (id, items, failure) =>
    take (c.note (message id) failure) items) c

def Collector.mergeZoneRecords (order : HashOrder) : Collector →
    OrderedMap String (List DnsRecordDto × Option ConnectorFailure) → Collector :=
  Collector.merge order
    (fun zoneId => "Cloudflare module dns_records for zone " ++ zoneId ++ " is partial")
    fun c items => { c with records := c.records ++ items }

def Collector.mergeTunnels (order : HashOrder) : Collector →
    OrderedMap String (List TunnelWithAccount × Option ConnectorFailure) → Collector :=
  Collector.merge order
    (fun accountId => "Cloudflare module tunnels for account " ++ accountId ++ " is partial")
    fun c items => { c with tunnels := c.tunnels ++ items }

def Collector.mergeWorkers (order : HashOrder) : Collector →
    OrderedMap String (List WorkerWithAccount × Option ConnectorFailure) → Collector :=
  Collector.merge order
    (fun accountId => "Cloudflare module workers for account " ++ accountId ++ " is partial")
    fun c items => { c with workers := c.workers ++ items }

section

variable {β γ : Type} {order : HashOrder} {message : String → String}
  {take : Collector → List β → Collector}

/-- A field no note and no item touches is left alone by a merge. -/
theorem merge_other (get : Collector → γ) (hnote : ∀ m c f, get (Collector.note m c f) = get c)
    (htake : ∀ c items, get (take c items) = get c) (c : Collector)
    (results : OrderedMap String (List β × Option ConnectorFailure)) :
    get (c.merge order message take results) = get c := by
  unfold Collector.merge
  induction order.visit results.rows generalizing c with
  | nil => rfl
  | cons row rows ih => rw [List.foldl_cons, ih, htake, hnote]

/-- The items of a merge are those of its entries. -/
theorem merge_items (get : Collector → List β)
    (hnote : ∀ m c f, get (Collector.note m c f) = get c)
    (htake : ∀ c items, get (take c items) = get c ++ items) (c : Collector)
    (results : OrderedMap String (List β × Option ConnectorFailure)) (item : β) :
    item ∈ get (c.merge order message take results) ↔
      item ∈ get c ∨ ∃ row ∈ results.rows, item ∈ row.2.1 := by
  have hrows : ∀ rows : List (String × List β × Option ConnectorFailure), ∀ c : Collector,
      item ∈ get (rows.foldl (fun c (id, items, failure) =>
        take (c.note (message id) failure) items) c) ↔
        item ∈ get c ∨ ∃ row ∈ rows, item ∈ row.2.1 := by
    intro rows
    induction rows with
    | nil => simp
    | cons row rows ih =>
        intro c
        rw [List.foldl_cons, ih, htake, hnote, List.mem_append, List.exists_mem_cons_iff, or_assoc]
  have h := hrows (order.visit results.rows) c
  simp only [(order.perm results.rows).mem_iff] at h
  exact h

/-- The failures of a merge are those of its entries. -/
theorem merge_failures (htake : ∀ c items, (take c items).childFailures = c.childFailures)
    (c : Collector) (results : OrderedMap String (List β × Option ConnectorFailure))
    (failure : ConnectorFailure) :
    failure ∈ (c.merge order message take results).childFailures ↔
      failure ∈ c.childFailures ∨ ∃ row ∈ results.rows, row.2.2 = some failure := by
  have hnote : ∀ m c f, failure ∈ (Collector.note m c f).childFailures ↔
      failure ∈ c.childFailures ∨ f = some failure := by
    intro m c f
    cases f with
    | none => simp [Collector.note]
    | some f => simp [Collector.note, eq_comm]
  have hrows : ∀ rows : List (String × List β × Option ConnectorFailure), ∀ c : Collector,
      failure ∈ (rows.foldl (fun c (id, items, failure) =>
        take (c.note (message id) failure) items) c).childFailures ↔
        failure ∈ c.childFailures ∨ ∃ row ∈ rows, row.2.2 = some failure := by
    intro rows
    induction rows with
    | nil => simp
    | cons row rows ih =>
        intro c
        rw [List.foldl_cons, ih, htake, hnote, List.exists_mem_cons_iff, or_assoc]
  have h := hrows (order.visit results.rows) c
  simp only [(order.perm results.rows).mem_iff] at h
  exact h

theorem note_keeps (m : String) (c : Collector) (f : Option ConnectorFailure) :
    (c.note m f).accounts = c.accounts ∧ (c.note m f).zones = c.zones ∧
      (c.note m f).records = c.records ∧ (c.note m f).tunnels = c.tunnels ∧
      (c.note m f).workers = c.workers := by
  cases f with
  | none => exact ⟨rfl, rfl, rfl, rfl, rfl⟩
  | some f => exact ⟨rfl, rfl, rfl, rfl, rfl⟩

end

/-- The outcome: partial with the first failure recorded. -/
def Collector.outcome (c : Collector) (scope : Scope) (mapped : CloudflareMapperOutput) :
    SyncOutcome :=
  let batch (coverage : SyncCoverage) : ObservationBatch :=
    { resources := mapped.resources
      relations := mapped.relations
      coverage := coverage
      nextCursor := none
      warnings := c.warnings
      redactionReport := {}
      providerRequestSummary :=
        { requestCount := c.requestCount, elapsedMs := 0, statusClassCounts := c.statusCounts } }
  match c.childFailures.head? with
  | some failure =>
      .partial_ (batch (.partial_ (some scope) (coverageReason failure.code))) failure
  | none => .complete (batch (.authoritativeFull scope))

def Collector.finish (c : Collector) (ctx : Context) (request : SyncRequest) :
    Except ConnectorFailure SyncOutcome :=
  match mapResources ctx c.accounts c.zones c.records c.tunnels c.workers with
  | .error _ => .error invalidResponse
  | .ok mapped =>
      let outcome := c.outcome ctx.scope mapped
      match outcome.validateFor request with
      | .error _ => .error invalidResponse
      | .ok () => .ok outcome

/-! ## §4  The sync -/

/-- Every list a sync reads once its roots were. -/
structure Lists where
  accounts : List AccountDto
  zones : List ZoneDto
  accountList : ListFetch
  zoneList : ListFetch
  records : List (String × ListFetch)
  tunnels : List (String × ListFetch)
  workers : List (String × ListFetch)

section

variable (wire : Wire) (transport : Transport)

/-- The requests of a sync: the two roots, then the children of what they list. -/
def readLists (secret : List UInt8) : Except ConnectorFailure Lists := do
  let (accountList, next) := fetchList wire transport secret accountsPath 0
  let accounts ← accountList.items wire.accounts
  let (zoneList, next) := fetchList wire transport secret zonesPath next
  let zones ← zoneList.items wire.zones
  let (records, next) := fetchLists wire transport secret recordsPath (zones.map ZoneDto.id) next
  let (tunnels, next) :=
    fetchLists wire transport secret tunnelsPath (accounts.map AccountDto.id) next
  let (workers, _) :=
    fetchLists wire transport secret workersPath (accounts.map AccountDto.id) next
  .ok
    { accounts := accounts
      zones := zones
      accountList := accountList
      zoneList := zoneList
      records := records
      tunnels := tunnels
      workers := workers }

def zoneRecords (lists : Lists) : OrderedMap String (List DnsRecordDto × Option ConnectorFailure) :=
  childResults wire.records (fun _ record => record) lists.records

def accountTunnels (lists : Lists) :
    OrderedMap String (List TunnelWithAccount × Option ConnectorFailure) :=
  childResults wire.tunnels (fun id tunnel => ⟨tunnel, id⟩) lists.tunnels

def accountWorkers (lists : Lists) :
    OrderedMap String (List WorkerWithAccount × Option ConnectorFailure) :=
  childResults wire.workers (fun id worker => ⟨worker, id⟩) lists.workers

/-- The collector after the three merges, each map in its own order. -/
def collect (orders : HashOrders) (lists : Lists) : Collector :=
  let c : Collector := { accounts := lists.accounts, zones := lists.zones }
  let c := c.mergeZoneRecords orders.records (zoneRecords wire lists)
  let c := c.mergeTunnels orders.tunnels (accountTunnels wire lists)
  c.mergeWorkers orders.workers (accountWorkers wire lists)

/-- The observations of one sync are stamped with the epoch. -/
def contextOf (request : SyncRequest) : Context where
  scope := request.scope
  observedAt := ⟨0, Nat.zero_le _⟩

/-- `CloudflareConnector::sync`. -/
def sync (orders : HashOrders) (request : SyncRequest) (secret : Option (List UInt8)) :
    Except ConnectorFailure SyncOutcome :=
  match validateConnection request.connection with
  | issue :: _ => .error (permanentFailure issue.code issue.message)
  | [] =>
      match secret with
      | none =>
          .error (permanentFailure .credentialUnavailable "Cloudflare credential is unavailable")
      | some secret =>
          if request.mode ≠ .full then
            .error (permanentFailure .invalidDomainValue
              "Cloudflare supports full sync only in this release")
          else do
            let lists ← readLists wire transport secret
            (collect wire orders lists).finish (contextOf request) request

end

end Cloudflare

end NextInfra
