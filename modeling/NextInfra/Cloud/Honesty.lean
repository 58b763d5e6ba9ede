import NextInfra.Aliyun.Connector
import NextInfra.Cloud.Served
import NextInfra.Tencent.Connector

/-!
# Honest coverage of the two cloud connectors

Both connectors are the shared sync at their own lists, so both are honest under the
same condition: what the DNS walk leaves out in silence must be observed all the same.
§3 is an account of twenty-one domains.
-/

namespace NextInfra

/-! ## §1  The connectors -/

namespace Aliyun

/-- An outcome that covers the scope has observed every item of the account. -/
def CoverageHonest (account : Cloud.Account domainName) (fromSlice : Body → Option Value)
    (transport : Cloud.Transport SignedRequest) (request : SyncRequest)
    (secret : Option (List UInt8)) : Prop :=
  ∀ outcome scope, sync fromSlice transport request secret = .returned (.ok outcome) →
    outcome.batch.coverage = .authoritativeFull scope →
    ∃ session, (provider fromSlice).Admitted request secret session ∧
      (provider fromSlice).Observes session (account.holdings readResource) outcome.batch.resources

end Aliyun

namespace Tencent

/-- An outcome that covers the scope has observed every item of the account. -/
def CoverageHonest (account : Cloud.Account domainName) (floatText : UInt64 → String)
    (fromSlice : Body → Option Value) (nowUnixSecs : Nat → Nat)
    (transport : Cloud.Transport SignedRequest) (request : SyncRequest)
    (secret : Option (List UInt8)) : Prop :=
  ∀ turns outcome scope,
    sync floatText fromSlice nowUnixSecs transport turns request secret = .returned (.ok outcome) →
    outcome.batch.coverage = .authoritativeFull scope →
    ∃ session, (provider floatText fromSlice nowUnixSecs).Admitted request secret session ∧
      (provider floatText fromSlice nowUnixSecs).Observes session
        (account.holdings (readResource floatText)) outcome.batch.resources

end Tencent

namespace Cloud

/-! ## §2  A small account -/

theorem asU64_ofNat {n : Nat} (h : n < 2 ^ 64) : (Value.ofNat n).asU64 = some n := by
  unfold Value.ofNat Value.asU64
  simp only
  rw [if_pos ⟨by omega, by omega⟩, Int.toNat_natCast]

namespace SmallFixture

open Tencent

/-- An answer with one array, of one object with one field or of none. -/
structure Page where
  set : String
  field : Option (String × String)
deriving DecidableEq

def Page.items (page : Page) : List Item :=
  page.field.toList.map fun field => ⟨[(field.1, .string field.2)]⟩

/-- `{"Response":{"VpcSet":[],"TotalCount":0}}`, say. -/
def Page.body (page : Page) : Body :=
  let items := page.field.toList.map fun field =>
    "\x7b\"" ++ field.1 ++ "\":\"" ++ field.2 ++ "\"\x7d"
  ("\x7b\"Response\":\x7b\"" ++ page.set ++ "\":[" ++ ",".intercalate items ++
    "],\"TotalCount\":" ++ toString items.length ++ "\x7d\x7d").toUTF8.data.toList

def Page.value (page : Page) : Value :=
  .object [("Response", .object
    [(page.set, .array (page.items.map Item.value)), ("TotalCount", .ofNat page.items.length)])]

/-- An instance, a domain and its record; there is nothing else. -/
def pageOf (action : String) (domain : Option String) : Page :=
  if action = "DescribeDomainList" then ⟨"DomainList", some ("Name", "example.com")⟩
  else if action = "DescribeRecordList" then
    if domain = some "example.com" then ⟨"RecordList", some ("RecordId", "1")⟩
    else ⟨"RecordList", none⟩
  else if action = "DescribeInstances" then ⟨"InstanceSet", some ("InstanceId", "ins-1")⟩
  else ⟨"Items", none⟩

def pages : List Page :=
  [⟨"DomainList", some ("Name", "example.com")⟩, ⟨"RecordList", some ("RecordId", "1")⟩,
    ⟨"RecordList", none⟩, ⟨"InstanceSet", some ("InstanceId", "ins-1")⟩, ⟨"Items", none⟩]

def account : Account domainName where
  items := fun action => (pageOf action none).items
  domains := [{ item := ⟨[("Name", .string "example.com")]⟩, name := "example.com", named := rfl }]
  records := fun domain => (pageOf "DescribeRecordList" (some domain)).items

/-- `serde_json::from_slice` on these answers. -/
def fromSlice (b : Body) : Option Value :=
  (pages.find? fun page => decide (page.body = b)).map Page.value

/-- First pages are answered. -/
def transport : Transport SignedRequest := fun _ request _ =>
  if request.offset = 0 ∧ request.limit = 100 then
    .ok (pageOf request.action request.domain).body
  else .error (failure .networkUnreachable "unreachable")

def request : SyncRequest where
  syncRunId := ⟨"r", trimmed_r⟩
  connection :=
    { connectionId := ⟨"c", trimmed_c⟩
      connectorType := .tencent
      config := .mkObject [("secret_id", .string "id")]
      configSchemaVersion := .one }
  mode := .full
  scope := ⟨"tencent:cn", by decide⟩
  cursor := none
  targetedResources := []

theorem pageOf_mem (action : String) (domain : Option String) : pageOf action domain ∈ pages := by
  unfold pageOf
  split
  · decide
  split
  · split <;> decide
  split <;> decide

/-- The answers are told apart by their bytes, and hold at most one item. -/
theorem pages_fit : ∀ page ∈ pages, fromSlice page.body = some page.value ∧
    page.set ≠ "TotalCount" ∧ page.items.length ≤ 1 := by
  decide +kernel

/-- What an action lists is what it is answered with. -/
theorem listed_eq (request : SignedRequest) :
    request.listed account = (pageOf request.action request.domain).items := by
  unfold SignedRequest.listed Account.listed
  by_cases hdomains : request.action = "DescribeDomainList"
  · rw [if_pos hdomains, hdomains]
    rfl
  rw [if_neg hdomains]
  by_cases hrecords : request.action = "DescribeRecordList"
  · rw [if_pos hrecords, hrecords]
    cases request.domain <;> rfl
  · rw [if_neg hrecords]
    show (pageOf request.action none).items = _
    unfold pageOf
    rw [if_neg hdomains, if_neg hdomains, if_neg hrecords, if_neg hrecords]

theorem transport_answers : Answers account fromSlice transport := by
  intro number request module body hanswer
  unfold transport at hanswer
  split at hanswer
  · rename_i hfirst
    cases hanswer
    obtain ⟨hslice, hset, hfew⟩ := pages_fit _ (pageOf_mem request.action request.domain)
    refine ⟨_, hslice, ?_⟩
    rw [hfirst.1, hfirst.2, listed_eq, List.drop_zero, List.take_of_length_le (by omega)]
    refine ⟨_, rfl, ?_, ⟨_, List.mem_cons_self, rfl⟩, ?_⟩
    · have htotal : Value.fieldOf "TotalCount"
          [((pageOf request.action request.domain).set,
              .array ((pageOf request.action request.domain).items.map Item.value)),
            ("TotalCount", .ofNat (pageOf request.action request.domain).items.length)] =
          some (.ofNat (pageOf request.action request.domain).items.length) := by
        unfold Value.fieldOf
        rw [List.find?_cons_of_neg (by simpa using hset)]
        rfl
      rw [htotal, Option.bind_some]
      exact asU64_ofNat (by omega)
    · intro field hfield array harray
      rcases List.mem_cons.mp hfield with rfl | hfield
      · exact (Option.some.inj harray).symm
      · obtain rfl := List.mem_singleton.mp hfield
        cases harray
  · cases hanswer

end SmallFixture

/-! ## §3  Twenty-one domains -/

namespace Fixture

open Aliyun

def body (text : String) : Body := text.toUTF8.data.toList

def names : List String := (List.range 21).map fun n => "d" ++ toString n

def entry (name : String) : DomainEntry domainName where
  item := ⟨[("DomainName", .string name)]⟩
  name := name
  named := rfl

def record : Item := ⟨[("RecordId", .string "r")]⟩

/-- The last domain has a record; there is nothing else. -/
def account : Account domainName where
  items := fun _ => []
  domains := names.map entry
  records := fun domain => if domain = "d20" then [record] else []

/-- The text of a first page. -/
def pageText (total size : Nat) (wrapper inner items : String) : String :=
  "\x7b\"PageNumber\":1,\"PageSize\":" ++ toString size ++ ",\"TotalCount\":" ++ toString total ++
    ",\"" ++ wrapper ++ "\":\x7b\"" ++ inner ++ "\":[" ++ items ++ "]\x7d\x7d"

def pageValue (total size : Nat) (wrapper inner : String) (items : List Value) : Value :=
  .mkObject
    [("PageNumber", .ofNat 1), ("PageSize", .ofNat size), ("TotalCount", .ofNat total),
      (wrapper, .object [(inner, .array items)])]

/-- What the provider answers to the first page of an action. -/
structure Answer where
  action : String
  total : Nat
  size : Nat
  wrapper : String
  inner : String
  text : String
  items : List Value

def Answer.body (a : Answer) : Body := Fixture.body (pageText a.total a.size a.wrapper a.inner a.text)

def Answer.value (a : Answer) : Value := pageValue a.total a.size a.wrapper a.inner a.items

def answers : List Answer :=
  [⟨"DescribeInstances", 0, 100, "Instances", "Instance", "", []⟩,
    ⟨"DescribeVpcs", 0, 50, "Vpcs", "Vpc", "", []⟩,
    ⟨"DescribeVSwitches", 0, 50, "VSwitches", "VSwitch", "", []⟩,
    ⟨"DescribeSecurityGroups", 0, 50, "SecurityGroups", "SecurityGroup", "", []⟩,
    ⟨"DescribeLoadBalancers", 0, 100, "LoadBalancers", "LoadBalancer", "", []⟩,
    ⟨"DescribeEipAddresses", 0, 100, "EipAddresses", "EipAddress", "", []⟩,
    ⟨"DescribeDomainRecords", 0, 100, "DomainRecords", "Record", "", []⟩,
    ⟨"DescribeDomains", 21, 100, "Domains", "Domain",
      ",".intercalate (names.map fun name => "\x7b\"DomainName\":\"" ++ name ++ "\"\x7d"),
      names.map fun name => .object [("DomainName", .string name)]⟩]

/-- `serde_json::from_slice` on these answers. -/
def fromSlice (b : Body) : Option Value :=
  (answers.find? fun a => decide (a.body = b)).map Answer.value

def unreachable : ConnectorFailure := failure .networkUnreachable "unreachable"

/-- First pages are answered; the records of the last domain are not. -/
def transport : Transport SignedRequest := fun _ request _ =>
  if request.pageNumber = 1 ∧ request.domain ≠ some "d20" then
    match answers.find? fun a => decide (a.action = request.action ∧ a.size = request.pageSize) with
    | some a => .ok a.body
    | none => .error unreachable
  else .error unreachable

def request : SyncRequest where
  syncRunId := ⟨"r", trimmed_r⟩
  connection :=
    { connectionId := ⟨"c", trimmed_c⟩
      connectorType := .aliyun
      config := .mkObject [("access_key_id", .string "key")]
      configSchemaVersion := .one }
  mode := .full
  scope := ⟨"aliyun:cn", by decide⟩
  cursor := none
  targetedResources := []

def token : List UInt8 := [0x74]

def session : Session :=
  ⟨⟨"aliyun:cn", by decide⟩, regionOf "aliyun:" ⟨"aliyun:cn", by decide⟩, "key", token⟩

theorem pageValue_listed {total size : Nat} {wrapper inner : String} {items : List Value}
    (hwrapper : wrapper ∉ ["PageNumber", "PageSize", "TotalCount", "Items"])
    (htotal : total < 2 ^ 64) (hsize : size < 2 ^ 64) :
    Listed (pageValue total size wrapper inner items) items total 1 size := by
  simp only [List.mem_cons, List.not_mem_nil, or_false, not_or] at hwrapper
  obtain ⟨h1, h2, h3, h4⟩ := hwrapper
  have hget : ∀ key, (pageValue total size wrapper inner items).get key =
      if key = wrapper then some (.object [(inner, .array items)])
      else if key = "TotalCount" then some (.ofNat total)
      else if key = "PageSize" then some (.ofNat size)
      else if key = "PageNumber" then some (.ofNat 1) else none := by
    intro key
    show Value.fieldOf key (Value.setField _ _ _) = _
    rw [Value.fieldOf_setField, Value.fieldOf_setField, Value.fieldOf_setField,
      Value.fieldOf_setField]
    rfl
  refine ⟨?_, ?_, ?_, ?_, _, [(inner, .array items)], rfl, ⟨_, Value.mem_setField.1, rfl⟩, ?_,
    ⟨_, List.mem_singleton.mpr rfl, rfl⟩, ?_⟩
  · unfold u64At
    rw [hget, if_neg (fun h => h3 h.symm), if_pos rfl, Option.bind_some]
    exact asU64_ofNat htotal
  · unfold u64At
    rw [hget, if_neg (fun h => h1 h.symm), if_neg (by decide), if_neg (by decide), if_pos rfl,
      Option.bind_some]
    exact asU64_ofNat (by omega)
  · unfold u64At
    rw [hget, if_neg (fun h => h2 h.symm), if_neg (by decide), if_pos rfl, Option.bind_some]
    exact asU64_ofNat hsize
  · rw [hget, if_neg (fun h => h4 h.symm), if_neg (by decide), if_neg (by decide),
      if_neg (by decide)]
  · intro field hfield object hobject
    rcases Value.mem_setField.2 field hfield with rfl | hfield
    · exact (Option.some.inj hobject).symm
    rcases Value.mem_setField.2 field hfield with rfl | hfield
    · cases hobject
    rcases Value.mem_setField.2 field hfield with rfl | hfield
    · cases hobject
    rcases Value.mem_setField.2 field hfield with rfl | hfield
    · cases hobject
    · cases hfield
  · intro field hfield array harray
    obtain rfl := List.mem_singleton.mp hfield
    exact (Option.some.inj harray).symm

/-- The answers are told apart by their bytes. -/
theorem fromSlice_body : ∀ a ∈ answers, fromSlice a.body = some a.value := by
  decide +kernel

/-- Each answer is a page of the account. -/
theorem answers_fit : ∀ a ∈ answers, a.total < 2 ^ 64 ∧ a.size < 2 ^ 64 ∧
    a.wrapper ∉ ["PageNumber", "PageSize", "TotalCount", "Items"] ∧
    (a.action = "DescribeDomains" → a.total = 21 ∧ a.size = 100 ∧
      a.items = names.map fun name => .object [("DomainName", .string name)]) ∧
    (a.action ≠ "DescribeDomains" → a.total = 0 ∧ a.items = []) := by
  decide +kernel

theorem transport_answers : Answers account fromSlice transport := by
  intro number request module body hanswer
  unfold transport at hanswer
  split at hanswer
  · rename_i hfirst
    obtain ⟨hpage, hdomain⟩ := hfirst
    split at hanswer
    · rename_i a hfind
      cases hanswer
      have hmem := List.mem_of_find?_eq_some hfind
      obtain ⟨haction, hsize⟩ : a.action = request.action ∧ a.size = request.pageSize := by
        simpa using List.find?_some hfind
      obtain ⟨htotal, hbound, hwrapper, hdomains, hothers⟩ := answers_fit a hmem
      refine ⟨a.value, fromSlice_body a hmem, ?_⟩
      rw [hpage, ← hsize]
      have hwindow : (window a.size 0 (request.listed account)).map Item.value = a.items ∧
          (request.listed account).length = a.total := by
        unfold SignedRequest.listed Account.listed
        rw [← haction]
        by_cases hlist : a.action = "DescribeDomains"
        · obtain ⟨h1, h2, h3⟩ := hdomains hlist
          rw [if_pos hlist, h1, h2, h3]
          exact ⟨rfl, rfl⟩
        · obtain ⟨h1, h2⟩ := hothers hlist
          rw [if_neg hlist, h1, h2]
          have hempty : (if a.action = "DescribeDomainRecords" then
              (request.domain.map account.records).getD [] else account.items a.action) = [] := by
            split
            · cases hd : request.domain with
              | none => rfl
              | some d => exact if_neg fun heq => hdomain (by rw [hd, heq])
            · rfl
          rw [hempty]
          simp [window]
      show Listed a.value ((window a.size 0 (request.listed account)).map Item.value) _ 1 a.size
      rw [hwindow.1, hwindow.2]
      exact pageValue_listed hwrapper htotal hbound
    · cases hanswer
  · cases hanswer

/-- The modules are read without a failure, and nothing is found. -/
theorem fetchAll_nothing :
    ((provider fromSlice).fetchAll transport session maxPagesPerModule modules 0 ⟨[], none⟩).map
      (fun result => result.1.error.isNone && result.1.resources.isEmpty) = some true := by
  decide +kernel

end Fixture

/-! ## §4  When coverage is honest -/

/-- On the answers of an account, a connector is honest exactly when each admitted sync for which
all of the account is read, and its parents can be named, leaves no record out. -/
theorem cloud_coverage_iff (request : SyncRequest) (secret : Option (List UInt8)) :
    (∀ account fromSlice transport,
      Aliyun.Answers account fromSlice transport →
        (Aliyun.CoverageHonest account fromSlice transport request secret ↔
          (Aliyun.provider fromSlice).NothingSilent transport
            (account.holdings Aliyun.readResource) request secret)) ∧
    ∀ account floatText fromSlice nowUnixSecs transport,
      Tencent.Answers account fromSlice transport →
        (Tencent.CoverageHonest account floatText fromSlice nowUnixSecs transport request secret ↔
          (Tencent.provider floatText fromSlice nowUnixSecs).NothingSilent transport
            (account.holdings (Tencent.readResource floatText)) request secret) := by
  constructor
  · intro account fromSlice transport hanswers
    have hevidence : StartsVisible "aliyun" := ⟨'a', _, rfl, by decide⟩
    have hserves : ∀ session, (Aliyun.provider fromSlice).Admitted request secret session →
        (Aliyun.provider fromSlice).Serves transport session
          (account.holdings Aliyun.readResource) :=
      fun session _ => Aliyun.serves hanswers session
    constructor
    · exact nothingSilent_of_coverageHonest hevidence Aliyun.dnsKind_noParent hserves le_rfl
    · intro h
      exact coverageHonest_of_nothingSilent hevidence Aliyun.dnsKind_noParent hserves h _
  · intro account floatText fromSlice nowUnixSecs transport hanswers
    have hevidence : StartsVisible "tencent" := ⟨'t', _, rfl, by decide⟩
    have hserves : ∀ session,
        (Tencent.provider floatText fromSlice nowUnixSecs).Admitted request secret session →
          (Tencent.provider floatText fromSlice nowUnixSecs).Serves transport session
            (account.holdings (Tencent.readResource floatText)) :=
      fun session _ => Tencent.serves hanswers session
    constructor
    · intro h
      exact nothingSilent_of_coverageHonest hevidence Tencent.dnsKind_noParent hserves le_rfl
        (h maxPagesPerModule)
    · exact coverageHonest_of_nothingSilent hevidence Tencent.dnsKind_noParent hserves

open Cloud.Fixture in
theorem cloud_coverage_fixtures :
    (Aliyun.CoverageHonest account fromSlice transport request (some token) ↔
      (Aliyun.provider fromSlice).NothingSilent transport (account.holdings Aliyun.readResource)
        request (some token)) ∧
    (Tencent.CoverageHonest SmallFixture.account (fun _ => "") SmallFixture.fromSlice (fun _ => 0)
        SmallFixture.transport SmallFixture.request (some token) ↔
      (Tencent.provider (fun _ => "") SmallFixture.fromSlice fun _ => 0).NothingSilent
        SmallFixture.transport
        (SmallFixture.account.holdings (Tencent.readResource fun _ => "")) SmallFixture.request
        (some token)) :=
  ⟨(cloud_coverage_iff request (some token)).1 account fromSlice transport transport_answers,
    (cloud_coverage_iff SmallFixture.request (some token)).2 SmallFixture.account (fun _ => "")
      SmallFixture.fromSlice (fun _ => 0) SmallFixture.transport SmallFixture.transport_answers⟩

open Cloud.Fixture Aliyun in
/-- The record of the twenty-first domain is never read for, and the outcome covers the
scope. -/
theorem twenty_first_domain_left_out :
    Aliyun.Answers account fromSlice transport ∧
      ¬Aliyun.CoverageHonest account fromSlice transport request (some token) := by
  refine ⟨transport_answers, ?_⟩
  intro h
  have hserves : (provider fromSlice).Serves transport session (account.holdings readResource) :=
    serves transport_answers session
  have hsilent : (provider fromSlice).NothingSilent transport (account.holdings readResource)
      request (some token) :=
    nothingSilent_of_coverageHonest ⟨'a', _, rfl, by decide⟩ dnsKind_noParent
      (fun session _ => serves transport_answers session) le_rfl h
  have hnothing := fetchAll_nothing
  obtain ⟨⟨gathered, next⟩, hfetch, hempty⟩ := Option.map_eq_some_iff.mp hnothing
  obtain ⟨hnone, hresources⟩ := (Bool.and_eq_true _ _).mp hempty
  have herror : gathered.error = none := Option.isNone_iff_eq_none.mp hnone
  have hadmitted : (provider fromSlice).Admitted request (some token) session :=
    ⟨rfl, rfl, token, "key", rfl, by decide +kernel, rfl⟩
  have hread := fetchAll_read hserves (fun m hm => hm) hfetch herror
  have hnamed : (provider fromSlice).ParentsNamed (account.holdings readResource) := by
    rw [← parentsUnpadded_iff hserves dnsKind_noParent hfetch herror,
      List.isEmpty_iff.mp hresources]
    exact fun r hr => by cases hr
  have hleft := hsilent session hadmitted hread hnamed
  have hnames : "d20" ∈ (account.holdings readResource).domains := by decide +kernel
  have htaken : (account.holdings readResource).recordsTaken.isEmpty = true := by decide +kernel
  obtain ⟨taken, hmem, _⟩ := hleft "d20" hnames (readResource record.fields)
    (List.mem_map_of_mem (List.mem_singleton.mpr rfl))
  rw [List.isEmpty_iff.mp htaken] at hmem
  cases hmem

end Cloud

end NextInfra
