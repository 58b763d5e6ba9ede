import NextInfra.Cloud.Mapper

/-!
# The loops of the two cloud connectors

A module is read page by page until as many resources are there as its total says. The
DNS records are read domain by domain, but into one list, and each domain's total is
compared with the length of that list. What differs between the connectors is data:
the requests, the reading of a page, the failures.
-/

namespace NextInfra

namespace Cloud

/-! ## §1  One request -/

/-- The answer to the request of a number, for a module. -/
abbrev Transport (ρ : Type) := Nat → ρ → String → Except ConnectorFailure Body

def failure (code : ErrorCode) (message : String) : ConnectorFailure :=
  { code := code, message := message, retryable := false, retryAfterMs := none }

def maxRetries : Nat := 2

section

variable {ρ : Type} (transport : Transport ρ)

/-- `retry_list` with `left` retries left: the answer, and the number of the next request. Each
try builds its request anew. -/
def retryFrom (unsendable : ConnectorFailure) (module : String) (build : Nat → Option ρ) :
    (left number : Nat) → Except ConnectorFailure Body × Nat
  | left, number =>
      match build number with
      | none => (.error unsendable, number)
      | some request =>
          match transport number request module with
          | .ok body => (.ok body, number + 1)
          | .error f =>
              if f.code = .rateLimited ∧ f.retryable = true then
                match left with
                | 0 => (.error f, number + 1)
                | left + 1 => retryFrom unsendable module build left (number + 1)
              else (.error f, number + 1)

def retryList (unsendable : ConnectorFailure) (module : String) (build : Nat → Option ρ)
    (number : Nat) : Except ConnectorFailure Body × Nat :=
  retryFrom transport unsendable module build maxRetries number

/-! ## §2  One module -/

def maxPagesPerModule : Nat := 100

def maxResourcesPerModule : Nat := 10000

structure ModuleFetch where
  resources : List ResourceObservation
  failure : Option ConnectorFailure

/-- A list the connector reads: the request of a number for each page, from 0, and what it
makes of the answer, the items and their total. -/
structure Listing (ρ ι : Type) where
  module : String
  build : (number page : Nat) → Option ρ
  unsendable : ConnectorFailure
  read : Nat → Body → Except ConnectorFailure (List ι × Nat)

/-- The page of a list at its index. -/
def Listing.page {ρ ι : Type} (list : Listing ρ ι) (transport : Transport ρ) (number page : Nat) :
    Except ConnectorFailure (List ι × Nat) × Nat :=
  let (answer, next) :=
    retryList transport list.unsendable list.module (fun number => list.build number page) number
  (answer.bind (list.read page), next)

/-- What a connector observes of the items of a list and how it fails. -/
structure Observing where
  observe : ResourceDto → Except String ResourceObservation
  refused : ConnectorFailure
  exhausted : ConnectorFailure
  stopsWhenEmpty : Bool

/-- The loop of `fetch_module` with `left` of its pages left. -/
def fetchModuleFrom (list : Listing ρ ResourceDto) (obs : Observing) :
    (left number page : Nat) → List ResourceObservation → ModuleFetch × Nat
  | 0, number, _, resources => (⟨resources, some obs.exhausted⟩, number)
  | left + 1, number, page, resources =>
      if maxResourcesPerModule ≤ resources.length then (⟨resources, some obs.exhausted⟩, number)
      else
        match list.page transport number page with
        | (.error f, next) => (⟨resources, some f⟩, next)
        | (.ok (items, total), next) =>
            match items.mapM obs.observe with
            | .error _ => (⟨resources, some obs.refused⟩, next)
            | .ok observations =>
                let resources := resources ++ observations
                if total ≤ resources.length ∨ (obs.stopsWhenEmpty = true ∧ items.isEmpty = true) then
                  (⟨resources, none⟩, next)
                else fetchModuleFrom list obs left next (page + 1) resources

def fetchModule (list : Listing ρ ResourceDto) (obs : Observing) (number : Nat) :
    ModuleFetch × Nat :=
  fetchModuleFrom transport list obs maxPagesPerModule number 0 []

/-! ## §3  The domains -/

def maxDnsDomains : Nat := 20

/-- The first loop of `fetch_dns` with `left` of its pages left. -/
def listDomainsFrom (list : Listing ρ String) :
    (left number page : Nat) → List String → Except ConnectorFailure (List String) × Nat
  | 0, number, _, domains => (.ok domains, number)
  | left + 1, number, page, domains =>
      if maxDnsDomains ≤ domains.length then (.ok domains, number)
      else
        match list.page transport number page with
        | (.error f, next) => (.error f, next)
        | (.ok (found, total), next) =>
            let domains := domains ++ found
            if total ≤ domains.length ∨ found.isEmpty = true then (.ok domains, next)
            else listDomainsFrom list left next (page + 1) domains

/-- The `for` loop over the items of a page: it ends at the first item it cannot map. -/
def pushAll (obs : Observing) : ModuleFetch → List ResourceDto → ModuleFetch
  | fetch, [] => fetch
  | fetch, item :: items =>
      match obs.observe item with
      | .ok observation => pushAll obs ⟨fetch.resources ++ [observation], fetch.failure⟩ items
      | .error _ => ⟨fetch.resources, some obs.refused⟩

/-- The second loop of `fetch_dns`, on the records of one domain, with `left` turns left.
Out of turns, it has met its page limit where it has one, and else it goes on: `none`. -/
def readRecordsFrom (list : Listing ρ ResourceDto) (obs : Observing) (limited : Bool) :
    (left number page : Nat) → ModuleFetch → Option (ModuleFetch × Nat)
  | 0, number, _, fetch =>
      if limited then some (⟨fetch.resources, some obs.exhausted⟩, number) else none
  | left + 1, number, page, fetch =>
      if maxResourcesPerModule ≤ fetch.resources.length then
        some (⟨fetch.resources, some obs.exhausted⟩, number)
      else
        match list.page transport number page with
        | (.error f, next) => some (⟨fetch.resources, some f⟩, next)
        | (.ok (items, total), next) =>
            let fetch := pushAll obs fetch items
            if total ≤ fetch.resources.length ∨ items.isEmpty = true then some (fetch, next)
            else readRecordsFrom list obs limited left next (page + 1) fetch

/-- The `for` loop over the domains. -/
def readDomains (listOf : String → Listing ρ ResourceDto) (obs : Observing) (limited : Bool)
    (turns : Nat) : List String → (number : Nat) → ModuleFetch → Option (ModuleFetch × Nat)
  | [], number, fetch => some (fetch, number)
  | domain :: domains, number, fetch =>
      if maxResourcesPerModule ≤ fetch.resources.length then
        some (⟨fetch.resources, some obs.exhausted⟩, number)
      else do
        let (fetch, next) ← readRecordsFrom transport (listOf domain) obs limited turns number 0 fetch
        readDomains listOf obs limited turns domains next fetch

def fetchDns (domainList : Listing ρ String) (recordList : String → Listing ρ ResourceDto)
    (obs : Observing) (limited : Bool) (turns number : Nat) : Option (ModuleFetch × Nat) :=
  match listDomainsFrom transport domainList maxPagesPerModule number 0 [] with
  | (.error f, next) => some (⟨[], some f⟩, next)
  | (.ok domains, next) =>
      readDomains transport recordList obs limited turns (domains.take maxDnsDomains) next ⟨[], none⟩

end

end Cloud

end NextInfra
