import NextInfra.Cloud.Account

/-!
# The Aliyun connector

The requests and the reading of answers that the shared loops are filled in with. The
signature of a request, its nonce and its time decide nothing here and are left out.
-/

namespace NextInfra

namespace Aliyun

open Cloud

/-! ## §1  Requests -/

def modulePageSize (module : String) : Nat :=
  if module ∈ ["aliyun.network.vpc", "aliyun.network.vswitch", "aliyun.network.security_group"] then
    50
  else 100

def moduleOrigin (module : String) : String :=
  if module ∈ ["aliyun.compute.ecs", "aliyun.ecs.public_ip"] then "https://ecs.aliyuncs.com"
  else if module ∈ ["aliyun.network.vpc", "aliyun.network.vswitch"] then "https://vpc.aliyuncs.com"
  else if module = "aliyun.edge.slb" then "https://slb.aliyuncs.com"
  else if module = "aliyun.edge.dns" then "https://dns.aliyuncs.com"
  else "https://ecs.aliyuncs.com"

structure SignedRequest where
  origin : String
  action : String
  version : String
  region : String
  accessKey : String
  pageNumber : Nat
  pageSize : Nat
  extra : List (String × String)

/-- `SignedRequest::build`. -/
def SignedRequest.build (origin action version region accessKey : String) (pageNumber pageSize : Nat)
    (extra : List (String × String)) : Option SignedRequest :=
  if action = "" ∨ version = "" ∨ region = "" ∨ accessKey = "" then none
  else if pageNumber = 0 ∨ pageSize = 0 ∨ 100 < pageSize then none
  else some ⟨origin, action, version, region, accessKey, pageNumber, pageSize, extra⟩

/-! ## §2  Answers -/

def idKeys : List String :=
  ["id", "InstanceId", "VpcId", "VSwitchId", "SecurityGroupId", "LoadBalancerId", "RecordId",
    "AllocationId"]

/-- The deserializer of a resource, on the fields of an object. -/
def readResource (fields : List (String × Value)) : Cloud.ResourceDto :=
  let field (key : String) : Option String := (Value.fieldOf key fields).bind Value.asStr
  { id := (idKeys.findSome? field).getD ""
    name := field "name"
    region := field "region"
    status := field "status"
    parentId := (field "parent_id").or (field "VpcId") }

structure PageEnvelope where
  totalCount : Nat
  pageNumber : Nat
  pageSize : Nat
  items : List Cloud.ResourceDto

def u64At (value : Value) (key : String) : Option Nat := (value.get key).bind Value.asU64

/-- The array of items: `Items`, or the first array of the first object. -/
def itemsArray (value : Value) : Option (List Value) :=
  match (value.get "Items").bind Value.asArray with
  | some items => some items
  | none => (value.asObject.bind Value.firstObject).bind Value.firstArray

/-- Items that do not all read as resources are no items. -/
def envelopeOf (value : Value) : PageEnvelope where
  totalCount := (u64At value "TotalCount").getD 0
  pageNumber := (u64At value "PageNumber").getD 1 % 2 ^ 32
  pageSize := (u64At value "PageSize").getD 0 % 2 ^ 32
  items :=
    ((itemsArray value).bind fun items => items.mapM fun item => item.asObject.map readResource).getD
      []

def domainName (item : Value) : Option String := (item.get "DomainName").bind Value.asStr

/-- The domains of an answer and their total. -/
def domainsOf (value : Value) : List String × Nat :=
  ((((value.asObject.bind Value.firstObject).bind Value.firstArray).getD []).filterMap domainName,
    (u64At value "TotalCount").getD 0)

/-! ## §3  The lists -/

def dnsModule : String := "aliyun.edge.dns"

theorem instance_named : IsNamespaced "aliyun.ecs.instance".toList := by decide
theorem vpc_named : IsNamespaced "aliyun.vpc.vpc".toList := by decide
theorem vswitch_named : IsNamespaced "aliyun.vpc.vswitch".toList := by decide
theorem securityGroup_named : IsNamespaced "aliyun.vpc.security_group".toList := by decide
theorem loadBalancer_named : IsNamespaced "aliyun.slb.load_balancer".toList := by decide
theorem record_named : IsNamespaced "aliyun.dns.record".toList := by decide
theorem publicIp_named : IsNamespaced "aliyun.ecs.public_ip".toList := by decide
theorem contains_named : IsNamespaced "aliyun.contains".toList := by decide
theorem assigned_named : IsNamespaced "aliyun.assigned".toList := by decide

def kind (name : String) (h : IsNamespaced name.toList := by decide +kernel) : ResourceKind :=
  ⟨name, h⟩

def modules : List Module :=
  [⟨"aliyun.compute.ecs", kind "aliyun.ecs.instance", "DescribeInstances", "2014-05-26"⟩,
    ⟨"aliyun.network.vpc", kind "aliyun.vpc.vpc", "DescribeVpcs", "2016-04-28"⟩,
    ⟨"aliyun.network.vswitch", kind "aliyun.vpc.vswitch", "DescribeVSwitches", "2016-04-28"⟩,
    ⟨"aliyun.network.security_group", kind "aliyun.vpc.security_group", "DescribeSecurityGroups",
      "2014-05-26"⟩,
    ⟨"aliyun.edge.slb", kind "aliyun.slb.load_balancer", "DescribeLoadBalancers", "2014-05-15"⟩,
    ⟨dnsModule, kind "aliyun.dns.record", "DescribeDomainRecords", "2015-01-09"⟩,
    ⟨"aliyun.edge.public_ip", kind "aliyun.ecs.public_ip", "DescribeEipAddresses", "2014-05-26"⟩]

/-- A request of the region, for a page counted from 0. -/
def request (session : Session) (module action version : String) (page : Nat)
    (extra : List (String × String)) : Option SignedRequest :=
  SignedRequest.build (moduleOrigin module) action version session.region session.key (page + 1)
    (modulePageSize module) extra

def unsendable : ConnectorFailure := failure .invalidDomainValue "Aliyun request scope is invalid"

def invalidResponse (message : String) : ConnectorFailure := failure .invalidResponse message

section

variable (fromSlice : Body → Option Value)

/-- `fetch_module`, up to its loop. -/
def moduleList (session : Session) (m : Module) : Cloud.Listing SignedRequest Cloud.ResourceDto where
  module := m.module
  build := fun _ page => request session m.module m.action m.version page []
  unsendable := unsendable
  read := fun page body =>
    match fromSlice body with
    | none => .error (invalidResponse "Aliyun module response is invalid")
    | some value =>
        let envelope := envelopeOf value
        if envelope.pageSize = 0 then .error (invalidResponse "Aliyun page size is invalid")
        else if envelope.pageNumber ≠ page + 1 then
          .error (invalidResponse "Aliyun page number is invalid")
        else .ok (envelope.items, envelope.totalCount)

/-- The first request of `fetch_dns`. -/
def domainList (session : Session) : Cloud.Listing SignedRequest String where
  module := dnsModule
  build := fun _ page => request session dnsModule "DescribeDomains" "2015-01-09" page []
  unsendable := unsendable
  read := fun _ body =>
    match fromSlice body with
    | none => .error (invalidResponse "Aliyun DNS domains response is invalid")
    | some value => .ok (domainsOf value)

/-- The second request of `fetch_dns`. -/
def recordList (session : Session) (domain : String) : Cloud.Listing SignedRequest Cloud.ResourceDto where
  module := dnsModule
  build := fun _ page =>
    request session dnsModule "DescribeDomainRecords" "2015-01-09" page [("DomainName", domain)]
  unsendable := unsendable
  read := fun page body =>
    match fromSlice body with
    | none => .error (invalidResponse "Aliyun DNS records response is invalid")
    | some value =>
        let envelope := envelopeOf value
        if envelope.pageSize = 0 ∨ envelope.pageNumber ≠ page + 1 then
          .error (invalidResponse "Aliyun DNS pagination is invalid")
        else .ok (envelope.items, envelope.totalCount)

def relationKind (name : String) (h : IsNamespaced name.toList := by decide +kernel) :
    RelationKind :=
  ⟨name, h⟩

def parentOf (k : ResourceKind) : Option Parent :=
  if k ∈ [kind "aliyun.vpc.vswitch", kind "aliyun.vpc.security_group"] then
    some ⟨kind "aliyun.vpc.vpc", relationKind "aliyun.contains"⟩
  else if k = kind "aliyun.ecs.public_ip" then
    some ⟨kind "aliyun.ecs.instance", relationKind "aliyun.assigned"⟩
  else none

theorem dnsKind_noParent : parentOf (kind "aliyun.dns.record") = none := by decide +kernel

def mapper : Mapper where
  invalidId := "Aliyun resource id is invalid"
  regionKey := ⟨"aliyun.region", by decide +kernel⟩
  parentOf := parentOf
  evidence := "aliyun"

/-- `AliyunConnector`. -/
def provider : Cloud.Provider SignedRequest where
  connectorType := .aliyun
  keyField := "access_key_id"
  regionPrefix := "aliyun:"
  modules := modules
  dns := dnsModule
  dnsKind := kind "aliyun.dns.record"
  mapper := mapper
  modulePageSize := modulePageSize
  moduleList := moduleList fromSlice
  domainList := domainList fromSlice
  recordList := recordList fromSlice
  limited := true
  stopsWhenEmpty := false
  typeMismatch := failure .invalidDomainValue "Aliyun connector type mismatch"
  credentialUnavailable := failure .credentialUnavailable "Aliyun credential is unavailable"
  keyMissing := failure .invalidDomainValue "Aliyun connection config requires access_key_id"
  invalidOutcome := invalidResponse "Aliyun outcome is invalid"
  moduleRefused := invalidResponse "Aliyun resource response is invalid"
  moduleExhausted := failure .partialPagination "Aliyun pagination exceeded its bounded budget"
  recordRefused := invalidResponse "Aliyun DNS record mapping failed"
  recordExhausted := failure .partialPagination "Aliyun DNS records exceeded its bounded budget"
  returnsWhenEmpty := fun _ => true
  dns_listed := by decide +kernel
  kinds_apart := by decide +kernel
  sizes_fit := by decide +kernel

/-- `AliyunConnector::sync`. -/
def sync (transport : Transport SignedRequest) (request : SyncRequest)
    (secret : Option (List UInt8)) : Ending :=
  (provider fromSlice).sync transport maxPagesPerModule request secret

/-- The hundred pages of a domain are all the turns its loop takes. -/
theorem sync_returns (transport : Transport SignedRequest) (request : SyncRequest)
    (secret : Option (List UInt8)) : sync fromSlice transport request secret ≠ .running :=
  sync_ends rfl maxPagesPerModule request secret

end

/-! ## §4  The account -/

/-- The answer is a page of a list: its numbers, and the items in the one array of its one
object. -/
structure Listed (value : Value) (items : List Value) (total page size : Nat) : Prop where
  total : u64At value "TotalCount" = some total
  page : u64At value "PageNumber" = some page
  size : u64At value "PageSize" = some size
  nested : value.get "Items" = none
  items : ∃ fields inner, value = .object fields ∧
    (∃ field ∈ fields, field.2.asObject = some inner) ∧
    (∀ field ∈ fields, ∀ object, field.2.asObject = some object → object = inner) ∧
    (∃ field ∈ inner, field.2.asArray = some items) ∧
    ∀ field ∈ inner, ∀ array, field.2.asArray = some array → array = items

/-- The domain a request names. -/
def SignedRequest.domain (request : SignedRequest) : Option String :=
  (request.extra.find? fun p => decide (p.1 = "DomainName")).map Prod.snd

def SignedRequest.listed (request : SignedRequest) (account : Account domainName) : List Item :=
  account.listed "DescribeDomains" "DescribeDomainRecords" request.action request.domain

/-- Every answer is the requested window of a list of the account. -/
def Answers (account : Account domainName) (fromSlice : Body → Option Value)
    (transport : Transport SignedRequest) : Prop :=
  ∀ number request module body, transport number request module = .ok body →
    ∃ value, fromSlice body = some value ∧
      Listed value
        ((window request.pageSize (request.pageNumber - 1) (request.listed account)).map Item.value)
        (request.listed account).length request.pageNumber request.pageSize

section

variable {account : Account domainName} {fromSlice : Body → Option Value}
  {transport : Transport SignedRequest}

theorem build_eq {origin action version region accessKey : String} {pageNumber pageSize : Nat}
    {extra : List (String × String)} {r : SignedRequest}
    (h : SignedRequest.build origin action version region accessKey pageNumber pageSize extra =
      some r) : r = ⟨origin, action, version, region, accessKey, pageNumber, pageSize, extra⟩ := by
  unfold SignedRequest.build at h
  split at h
  · cases h
  split at h
  · cases h
  exact (Option.some.inj h).symm

theorem Listed.firstArray {value : Value} {items : List Value} {total page size : Nat}
    (h : Listed value items total page size) :
    (value.asObject.bind Value.firstObject).bind Value.firstArray = some items := by
  obtain ⟨fields, inner, rfl, hobject, hobjects, harray, harrays⟩ := h.items
  show (Value.firstObject fields).bind _ = _
  unfold Value.firstObject
  rw [findSome?_unique hobject hobjects]
  exact findSome?_unique harray harrays

/-- A page of a list reads as its items and the length of the list. -/
theorem Listed.envelope {value : Value} {items : List Item} {total page size : Nat}
    (h : Listed value (items.map Item.value) total page size) :
    (envelopeOf value).items = items.map (fun item => readResource item.fields) ∧
      (envelopeOf value).totalCount = total := by
  unfold envelopeOf itemsArray
  rw [h.total, h.nested]
  simp only [Option.bind_none, h.firstArray, Option.bind_some, mapM_items, Option.getD_some,
    and_self]

theorem Listed.domains {value : Value} {entries : List (DomainEntry domainName)}
    {total page size : Nat}
    (h : Listed value ((entries.map DomainEntry.item).map Item.value) total page size) :
    domainsOf value = (entries.map DomainEntry.name, total) := by
  unfold domainsOf
  rw [h.firstArray, h.total, Option.getD_some, Option.getD_some, filterMap_domains]

/-- An answer to a request of the connector is the window of its page. -/
theorem answer_listed (h : Answers account fromSlice transport) {session : Session}
    {module action version : String} {page : Nat} {extra : List (String × String)}
    {r : SignedRequest} (hbuild : request session module action version page extra = some r)
    {number : Nat} {module' : String} {body : Body}
    (hanswer : transport number r module' = .ok body) :
    ∃ value total number', fromSlice body = some value ∧ total = (r.listed account).length ∧
      Listed value ((window (modulePageSize module) page (r.listed account)).map Item.value) total
        number' (modulePageSize module) := by
  obtain ⟨value, hvalue, hlisted⟩ := h number r module' body hanswer
  refine ⟨value, _, r.pageNumber, hvalue, rfl, ?_⟩
  have hr := build_eq hbuild
  have hsize : r.pageSize = modulePageSize module := by rw [hr]
  have hpage : r.pageNumber - 1 = page := by rw [hr]; rfl
  rw [hsize, hpage] at hlisted
  exact hlisted

/-- The modules that are not walked ask for a list of their own. -/
theorem modules_actions : ∀ m ∈ modules, m.module ≠ dnsModule →
    m.action ≠ "DescribeDomains" ∧ m.action ≠ "DescribeDomainRecords" := by
  decide +kernel

/-- On an account's answers every list of the connector is served. -/
theorem serves (h : Answers account fromSlice transport) (session : Session) :
    (provider fromSlice).Serves transport session (account.holdings readResource) := by
  refine ⟨?_, ?_, ?_⟩
  · intro m hm hdns number page found total next hpage hread
    obtain ⟨r, n, body, hbuild, hanswer, hbody⟩ := page_ok hread
    obtain ⟨value, _, _, hvalue, rfl, hlisted⟩ := answer_listed h hbuild hanswer
    have hlist : r.listed account = account.items m.action := by
      obtain ⟨h1, h2⟩ := modules_actions m hm hdns
      rw [build_eq hbuild]
      unfold SignedRequest.listed Account.listed
      rw [if_neg h1, if_neg h2]
    obtain ⟨hitems, htotal⟩ := hlisted.envelope
    change (moduleList fromSlice session m).read page body = _ at hbody
    unfold moduleList at hbody
    simp only [hvalue] at hbody
    split at hbody
    · cases hbody
    split at hbody
    · cases hbody
    cases hbody
    rw [hitems, htotal, hlist, map_window]
    exact ⟨rfl, (List.length_map _).symm⟩
  · intro number page found total next hpage hread
    obtain ⟨r, n, body, hbuild, hanswer, hbody⟩ := page_ok hread
    obtain ⟨value, _, _, hvalue, rfl, hlisted⟩ := answer_listed h hbuild hanswer
    have hlist : r.listed account = account.domains.map DomainEntry.item := by
      rw [build_eq hbuild]
      rfl
    rw [hlist, ← map_window] at hlisted
    change (domainList fromSlice session).read page body = _ at hbody
    unfold domainList at hbody
    simp only [hvalue, hlisted.domains] at hbody
    cases hbody
    rw [map_window, List.length_map]
    exact ⟨rfl, (List.length_map _).symm⟩
  · intro domain _ number page found total next hpage hread
    obtain ⟨r, n, body, hbuild, hanswer, hbody⟩ := page_ok hread
    obtain ⟨value, _, _, hvalue, rfl, hlisted⟩ := answer_listed h hbuild hanswer
    have hlist : r.listed account = account.records domain := by
      rw [build_eq hbuild]
      rfl
    obtain ⟨hitems, htotal⟩ := hlisted.envelope
    change (recordList fromSlice session domain).read page body = _ at hbody
    unfold recordList at hbody
    simp only [hvalue] at hbody
    split at hbody
    · cases hbody
    cases hbody
    rw [hitems, htotal, hlist, map_window]
    exact ⟨rfl, (List.length_map _).symm⟩

end

end Aliyun

end NextInfra
