import NextInfra.Cloud.Account
import NextInfra.Cloud.Dates

/-!
# The Tencent connector

The requests and the reading of answers that the shared loops are filled in with. Of the
TC3 signature its checks are kept, of the secret and of the date, and its bytes are left
out; the clock and the text of a floating-point number are parameters.
-/

namespace NextInfra

namespace Tencent

open Cloud

/-! ## §1  Requests -/

def vpcModules : List String :=
  ["tencent.network.vpc", "tencent.network.subnet", "tencent.network.security_group",
    "tencent.edge.public_ip"]

def moduleService (module : String) : String :=
  if module = "tencent.compute.cvm" then "cvm"
  else if module ∈ vpcModules then "vpc"
  else if module = "tencent.edge.clb" then "clb"
  else if module = "tencent.edge.dns" then "dnspod"
  else "cvm"

def moduleHost (module : String) : String := moduleService module ++ ".tencentcloudapi.com"

def moduleOrigin (module : String) : String := "https://" ++ moduleHost module

/-- `tc3_authorization` has what it signs with. The key of an HMAC may have any length. -/
def tc3Signs (secret : List UInt8) (secretId service host action region date : String) : Bool :=
  if secretId = "" ∨ service = "" ∨ host = "" ∨ action = "" ∨ region = "" ∨
      date.utf8ByteSize ≠ 10 then
    false
  else (String.fromUTF8? ⟨secret.toArray⟩).isSome

structure SignedRequest where
  origin : String
  host : String
  service : String
  action : String
  version : String
  region : String
  secretId : String
  timestamp : Nat
  limit : Nat
  offset : Nat
  extra : List (String × String)

/-- `SignedRequest::build`. -/
def SignedRequest.build (origin host service action version region secretId : String)
    (secretKey : List UInt8) (timestamp limit offset : Nat) (extra : List (String × String)) :
    Option SignedRequest :=
  if action = "" ∨ version = "" ∨ region = "" ∨ secretId = "" ∨ host = "" ∨ service = "" then none
  else if limit = 0 ∨ 100 < limit then none
  else if tc3Signs secretKey secretId service host action region (formatUtcDate timestamp) then
    some ⟨origin, host, service, action, version, region, secretId, timestamp, limit, offset, extra⟩
  else none

/-! ## §2  Answers -/

def idKeys : List String :=
  ["id", "InstanceId", "SubnetId", "SecurityGroupId", "LoadBalancerId", "VpcId", "RecordId",
    "AddressId"]

section

variable (floatText : UInt64 → String)

/-- `Number::to_string`. -/
def numberText : JsonNumber → String
  | .int i => toString i
  | .float bits => floatText bits

def idText : Value → Option String
  | .string s => some s
  | .number n => some (numberText floatText n)
  | _ => none

/-- The deserializer of a resource, on the fields of an object. -/
def readResource (fields : List (String × Value)) : Cloud.ResourceDto :=
  let field (key : String) : Option String := (Value.fieldOf key fields).bind Value.asStr
  { id :=
      (idKeys.findSome? fun key => (Value.fieldOf key fields).bind (idText floatText)).getD ""
    name := field "name"
    region := field "region"
    status := field "status"
    parentId :=
      (((field "parent_id").or (field "VpcId")).or (field "SubnetId")).or (field "InstanceId") }

def u64At (value : Value) (key : String) : Option Nat := (value.get key).bind Value.asU64

/-- The `Response` wrapper, where it is an object. -/
def responseOf (value : Value) : Option (List (String × Value)) :=
  (value.get "Response").bind Value.asObject

/-- Items that do not all read as resources are no items. -/
def readItems (items : List Value) : List Cloud.ResourceDto :=
  (items.mapM fun item => (Value.asObject item).map (readResource floatText)).getD []

/-- `parse_page_envelope`, past the parser: the items and their total. -/
def envelopeOf (value : Value) : Option (List Cloud.ResourceDto × Nat) :=
  let total :=
    (((responseOf value).bind fun fields => (Value.fieldOf "TotalCount" fields).bind Value.asU64).or
      (u64At value "TotalCount")).getD 0
  let items :=
    ((((responseOf value).bind Value.firstArray).or ((value.get "Items").bind Value.asArray)).map
      (readItems floatText)).getD []
  if 0 < total ∧ items.isEmpty = true then none else some (items, total)

end

def domainName (item : Value) : Option String :=
  let text (key : String) : Option String := (item.get key).bind Value.asStr
  ((text "Name").or (text "Domain")).or (text "DomainName")

/-- The domains of an answer and their total. -/
def domainsOf (value : Value) : List String × Nat :=
  ((((responseOf value).bind Value.firstArray).getD []).filterMap domainName,
    ((responseOf value).bind fun fields =>
      (Value.fieldOf "TotalCount" fields).bind Value.asU64).getD 0)

/-! ## §3  The lists -/

def dnsModule : String := "tencent.edge.dns"

theorem instance_named : IsNamespaced "tencent.cvm.instance".toList := by decide
theorem vpc_named : IsNamespaced "tencent.vpc.vpc".toList := by decide
theorem subnet_named : IsNamespaced "tencent.vpc.subnet".toList := by decide
theorem securityGroup_named : IsNamespaced "tencent.vpc.security_group".toList := by decide
theorem loadBalancer_named : IsNamespaced "tencent.clb.load_balancer".toList := by decide
theorem record_named : IsNamespaced "tencent.dns.record".toList := by decide
theorem publicIp_named : IsNamespaced "tencent.cvm.public_ip".toList := by decide
theorem contains_named : IsNamespaced "tencent.contains".toList := by decide
theorem assigned_named : IsNamespaced "tencent.assigned".toList := by decide

def kind (name : String) (h : IsNamespaced name.toList := by decide +kernel) : ResourceKind :=
  ⟨name, h⟩

def modules : List Module :=
  [⟨"tencent.compute.cvm", kind "tencent.cvm.instance", "DescribeInstances", "2017-03-12"⟩,
    ⟨"tencent.network.vpc", kind "tencent.vpc.vpc", "DescribeVpcs", "2017-03-12"⟩,
    ⟨"tencent.network.subnet", kind "tencent.vpc.subnet", "DescribeSubnets", "2017-03-12"⟩,
    ⟨"tencent.network.security_group", kind "tencent.vpc.security_group", "DescribeSecurityGroups",
      "2017-03-12"⟩,
    ⟨"tencent.edge.clb", kind "tencent.clb.load_balancer", "DescribeLoadBalancers", "2018-03-17"⟩,
    ⟨dnsModule, kind "tencent.dns.record", "DescribeRecordList", "2021-03-23"⟩,
    ⟨"tencent.edge.public_ip", kind "tencent.cvm.public_ip", "DescribeAddresses", "2017-03-12"⟩]

/-- The offset of a page, by `saturating_add` of `u32`. -/
def offsetOf (page : Nat) : Nat := min (pageSize * page) (2 ^ 32 - 1)

/-- A request of the region at a time, for a page counted from 0. -/
def request (session : Session) (module action version : String) (timestamp page : Nat)
    (extra : List (String × String)) : Option SignedRequest :=
  SignedRequest.build (moduleOrigin module) (moduleHost module) (moduleService module) action version
    session.region session.key session.secret timestamp pageSize (offsetOf page) extra

def unsendable : ConnectorFailure := failure .invalidDomainValue "Tencent request scope is invalid"

def invalidResponse (message : String) : ConnectorFailure := failure .invalidResponse message

section

-- the text of numbers, the JSON parser, and the clock at the request of a number
variable (floatText : UInt64 → String) (fromSlice : Body → Option Value) (nowUnixSecs : Nat → Nat)

/-- `parse_page_envelope` with the message of its caller. -/
def readPage (message : String) (body : Body) :
    Except ConnectorFailure (List Cloud.ResourceDto × Nat) :=
  match (fromSlice body).bind (envelopeOf floatText) with
  | none => .error (invalidResponse message)
  | some envelope => .ok envelope

/-- `fetch_module`, up to its loop. -/
def moduleList (session : Session) (m : Module) : Cloud.Listing SignedRequest Cloud.ResourceDto where
  module := m.module
  build := fun number page =>
    request session m.module m.action m.version (nowUnixSecs number) page []
  unsendable := unsendable
  read := fun _ => readPage floatText fromSlice "Tencent module response is invalid"

/-- The first request of `fetch_dns`. -/
def domainList (session : Session) : Cloud.Listing SignedRequest String where
  module := dnsModule
  build := fun number page =>
    request session dnsModule "DescribeDomainList" "2021-03-23" (nowUnixSecs number) page []
  unsendable := unsendable
  read := fun _ body =>
    match fromSlice body with
    | none => .error (invalidResponse "Tencent DNS domains response is invalid")
    | some value => .ok (domainsOf value)

/-- The second request of `fetch_dns`. -/
def recordList (session : Session) (domain : String) : Cloud.Listing SignedRequest Cloud.ResourceDto where
  module := dnsModule
  build := fun number page =>
    request session dnsModule "DescribeRecordList" "2021-03-23" (nowUnixSecs number) page
      [("Domain", domain)]
  unsendable := unsendable
  read := fun _ => readPage floatText fromSlice "Tencent DNS records response is invalid"

def relationKind (name : String) (h : IsNamespaced name.toList := by decide +kernel) :
    RelationKind :=
  ⟨name, h⟩

def parentOf (k : ResourceKind) : Option Parent :=
  if k ∈ [kind "tencent.vpc.subnet", kind "tencent.vpc.security_group"] then
    some ⟨kind "tencent.vpc.vpc", relationKind "tencent.contains"⟩
  else if k = kind "tencent.cvm.public_ip" then
    some ⟨kind "tencent.cvm.instance", relationKind "tencent.assigned"⟩
  else none

theorem dnsKind_noParent : parentOf (kind "tencent.dns.record") = none := by decide +kernel

def mapper : Mapper where
  invalidId := "Tencent resource id is invalid"
  regionKey := ⟨"tencent.region", by decide +kernel⟩
  parentOf := parentOf
  evidence := "tencent"

/-- `TencentConnector`. -/
def provider : Cloud.Provider SignedRequest where
  connectorType := .tencent
  keyField := "secret_id"
  regionPrefix := "tencent:"
  modules := modules
  dns := dnsModule
  dnsKind := kind "tencent.dns.record"
  mapper := mapper
  modulePageSize := fun _ => pageSize
  moduleList := moduleList floatText fromSlice nowUnixSecs
  domainList := domainList fromSlice nowUnixSecs
  recordList := recordList floatText fromSlice nowUnixSecs
  limited := false
  stopsWhenEmpty := true
  typeMismatch := failure .invalidDomainValue "Tencent connector type mismatch"
  credentialUnavailable := failure .credentialUnavailable "Tencent credential is unavailable"
  keyMissing := failure .invalidDomainValue "Tencent connection config requires secret_id"
  invalidOutcome := invalidResponse "Tencent outcome is invalid"
  moduleRefused := invalidResponse "Tencent resource response is invalid"
  moduleExhausted := failure .partialPagination "Tencent pagination exceeded its bounded budget"
  recordRefused := invalidResponse "Tencent DNS record mapping failed"
  recordExhausted := failure .partialPagination "Tencent DNS records exceeded its bounded budget"
  returnsWhenEmpty := fun code => code == .authenticationFailed || code == .credentialUnavailable
  dns_listed := by decide +kernel
  kinds_apart := by decide +kernel
  sizes_fit := by decide +kernel

/-- `TencentConnector::sync`, watched for a number of turns of each domain's loop, which
has no page limit. -/
def sync (transport : Transport SignedRequest) (turns : Nat) (request : SyncRequest)
    (secret : Option (List UInt8)) : Ending :=
  (provider floatText fromSlice nowUnixSecs).sync transport turns request secret

end

/-! ## §4  The account -/

/-- The answer is a page of a list: the total, and the items in the one array of its
`Response`. -/
structure Listed (value : Value) (items : List Value) (total : Nat) : Prop where
  response : ∃ fields, value.get "Response" = some (.object fields) ∧
    (Value.fieldOf "TotalCount" fields).bind Value.asU64 = some total ∧
    (∃ field ∈ fields, field.2.asArray = some items) ∧
    ∀ field ∈ fields, ∀ array, field.2.asArray = some array → array = items

/-- The domain a request names. -/
def SignedRequest.domain (request : SignedRequest) : Option String :=
  (request.extra.find? fun p => decide (p.1 = "Domain")).map Prod.snd

def SignedRequest.listed (request : SignedRequest) (account : Account domainName) : List Item :=
  account.listed "DescribeDomainList" "DescribeRecordList" request.action request.domain

/-- Every answer is the requested window of a list of the account. -/
def Answers (account : Account domainName) (fromSlice : Body → Option Value)
    (transport : Transport SignedRequest) : Prop :=
  ∀ number request module body, transport number request module = .ok body →
    ∃ value, fromSlice body = some value ∧
      Listed value
        ((((request.listed account).drop request.offset).take request.limit).map Item.value)
        (request.listed account).length

section

variable {account : Account domainName} {floatText : UInt64 → String}
  {fromSlice : Body → Option Value} {nowUnixSecs : Nat → Nat} {transport : Transport SignedRequest}

theorem build_eq {origin host service action version region secretId : String}
    {secretKey : List UInt8} {timestamp limit offset : Nat} {extra : List (String × String)}
    {r : SignedRequest}
    (h : SignedRequest.build origin host service action version region secretId secretKey timestamp
      limit offset extra = some r) :
    r = ⟨origin, host, service, action, version, region, secretId, timestamp, limit, offset,
      extra⟩ := by
  unfold SignedRequest.build at h
  split at h
  · cases h
  split at h
  · cases h
  split at h
  · exact (Option.some.inj h).symm
  · cases h

/-- A page of a list that is read reads as its items and the length of the list. -/
theorem Listed.envelope {value : Value} {items : List Item} {total : Nat}
    (h : Listed value (items.map Item.value) total) {result : List Cloud.ResourceDto × Nat}
    (hread : envelopeOf floatText value = some result) :
    result = (items.map (fun item => readResource floatText item.fields), total) := by
  obtain ⟨fields, hresponse, htotal, harray, harrays⟩ := h.response
  have hfirst : Value.firstArray fields = some (items.map Item.value) :=
    findSome?_unique harray harrays
  have hobject : responseOf value = some fields := by
    unfold responseOf
    rw [hresponse]
    rfl
  unfold envelopeOf at hread
  simp only [hobject, Option.bind_some, htotal, hfirst, Option.some_or, Option.map_some,
    Option.getD_some, readItems, mapM_items] at hread
  split at hread
  · cases hread
  · exact (Option.some.inj hread).symm

theorem Listed.domains {value : Value} {entries : List (DomainEntry domainName)} {total : Nat}
    (h : Listed value ((entries.map DomainEntry.item).map Item.value) total) :
    domainsOf value = (entries.map DomainEntry.name, total) := by
  obtain ⟨fields, hresponse, htotal, harray, harrays⟩ := h.response
  have hfirst : Value.firstArray fields = some ((entries.map DomainEntry.item).map Item.value) :=
    findSome?_unique harray harrays
  have hobject : responseOf value = some fields := by
    unfold responseOf
    rw [hresponse]
    rfl
  unfold domainsOf
  simp only [hobject, Option.bind_some, htotal, hfirst, Option.getD_some, filterMap_domains]

/-- An answer to a request of the connector is the window of its page. -/
theorem answer_listed (h : Answers account fromSlice transport) {session : Session}
    {module action version : String} {timestamp page : Nat} {extra : List (String × String)}
    {r : SignedRequest}
    (hbuild : request session module action version timestamp page extra = some r)
    (hfew : page < maxPagesPerModule) {number : Nat} {module' : String} {body : Body}
    (hanswer : transport number r module' = .ok body) :
    ∃ value, fromSlice body = some value ∧
      Listed value ((window pageSize page (r.listed account)).map Item.value)
        (r.listed account).length := by
  obtain ⟨value, hvalue, hlisted⟩ := h number r module' body hanswer
  refine ⟨value, hvalue, ?_⟩
  have hr := build_eq hbuild
  have hlimit : r.limit = pageSize := by rw [hr]
  have hoffset : r.offset = pageSize * page := by
    rw [hr]
    show min (pageSize * page) (2 ^ 32 - 1) = pageSize * page
    unfold maxPagesPerModule at hfew
    unfold pageSize
    omega
  rw [hlimit, hoffset] at hlisted
  exact hlisted

/-- The modules that are not walked ask for a list of their own. -/
theorem modules_actions : ∀ m ∈ modules, m.module ≠ dnsModule →
    m.action ≠ "DescribeDomainList" ∧ m.action ≠ "DescribeRecordList" := by
  decide +kernel

theorem readPage_ok {message : String} {body : Body} {value : Value} (hvalue : fromSlice body = some value)
    {items : List Item} {total : Nat} (h : Listed value (items.map Item.value) total)
    {result : List Cloud.ResourceDto × Nat} (hread : readPage floatText fromSlice message body = .ok result) :
    result = (items.map (fun item => readResource floatText item.fields), total) := by
  unfold readPage at hread
  rw [hvalue, Option.bind_some] at hread
  split at hread
  · cases hread
  rename_i envelope henvelope
  cases hread
  exact h.envelope henvelope

/-- On an account's answers every list of the connector is served. -/
theorem serves (h : Answers account fromSlice transport) (session : Session) :
    (provider floatText fromSlice nowUnixSecs).Serves transport session
      (account.holdings (readResource floatText)) := by
  refine ⟨?_, ?_, ?_⟩
  · intro m hm hdns number page found total next hfew hread
    obtain ⟨r, n, body, hbuild, hanswer, hbody⟩ := page_ok hread
    obtain ⟨value, hvalue, hlisted⟩ := answer_listed h hbuild hfew hanswer
    have hlist : r.listed account = account.items m.action := by
      obtain ⟨h1, h2⟩ := modules_actions m hm hdns
      rw [build_eq hbuild]
      unfold SignedRequest.listed Account.listed
      rw [if_neg h1, if_neg h2]
    obtain ⟨rfl, rfl⟩ := Prod.mk.injEq _ _ _ _ ▸ readPage_ok hvalue hlisted hbody
    rw [hlist, map_window]
    exact ⟨rfl, (List.length_map _).symm⟩
  · intro number page found total next hfew hread
    obtain ⟨r, n, body, hbuild, hanswer, hbody⟩ := page_ok hread
    obtain ⟨value, hvalue, hlisted⟩ := answer_listed h hbuild hfew hanswer
    have hlist : r.listed account = account.domains.map DomainEntry.item := by
      rw [build_eq hbuild]
      rfl
    rw [hlist, ← map_window] at hlisted
    change (domainList fromSlice nowUnixSecs session).read page body = _ at hbody
    unfold domainList at hbody
    simp only [hvalue, hlisted.domains] at hbody
    cases hbody
    rw [map_window, List.length_map]
    exact ⟨rfl, (List.length_map _).symm⟩
  · intro domain _ number page found total next hfew hread
    obtain ⟨r, n, body, hbuild, hanswer, hbody⟩ := page_ok hread
    obtain ⟨value, hvalue, hlisted⟩ := answer_listed h hbuild hfew hanswer
    have hlist : r.listed account = account.records domain := by
      rw [build_eq hbuild]
      rfl
    obtain ⟨rfl, rfl⟩ := Prod.mk.injEq _ _ _ _ ▸ readPage_ok hvalue hlisted hbody
    rw [hlist, map_window]
    exact ⟨rfl, (List.length_map _).symm⟩

end

end Tencent

end NextInfra
