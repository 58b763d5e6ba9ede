import NextInfra.Cloud.Coverage

/-!
# The account a cloud provider lists

An account is a JSON object for each item of its lists. `Answers` says that every answer
a transport gives is the requested window of one of them.
-/

namespace NextInfra

namespace Cloud

/-! ## §1  Items -/

/-- An item of a list, a JSON object. -/
structure Item where
  fields : List (String × Value)

def Item.value (item : Item) : Value := .object item.fields

/-- An entry of the list of domains: an object its connector reads a name from. -/
structure DomainEntry (nameOf : Value → Option String) where
  item : Item
  name : String
  named : nameOf item.value = some name

/-- One list for each action, one of domains, and one of records for each domain. -/
structure Account (nameOf : Value → Option String) where
  items : String → List Item
  domains : List (DomainEntry nameOf)
  records : String → List Item

section

variable {nameOf : Value → Option String}

/-- The window of a list at a page, counted from 0. -/
def window {ι : Type} (size page : Nat) (list : List ι) : List ι := (list.drop (size * page)).take size

theorem map_window {ι κ : Type} (f : ι → κ) (size page : Nat) (list : List ι) :
    (window size page list).map f = window size page (list.map f) := by
  unfold window
  rw [List.map_take, List.map_drop]

/-- The list an action asks for. -/
def Account.listed (account : Account nameOf) (domainsAction recordsAction action : String)
    (domain : Option String) : List Item :=
  if action = domainsAction then account.domains.map DomainEntry.item
  else if action = recordsAction then (domain.map account.records).getD []
  else account.items action

/-- The lists of the account, each item as its connector reads it. -/
def Account.holdings (account : Account nameOf) (read : List (String × Value) → ResourceDto) :
    Holdings where
  items := fun m => (account.items m.action).map fun item => read item.fields
  domains := account.domains.map DomainEntry.name
  records := fun domain => (account.records domain).map fun item => read item.fields

/-! ## §2  Reading a window -/

/-- Objects are read one by one. -/
theorem mapM_items (read : List (String × Value) → ResourceDto) (items : List Item) :
    (items.map Item.value).mapM (fun value => value.asObject.map read) =
      some (items.map fun item => read item.fields) := by
  induction items with
  | nil => rfl
  | cons item items ih =>
      rw [List.map_cons, List.mapM_cons, ih]
      rfl

theorem filterMap_domains (entries : List (DomainEntry nameOf)) :
    ((entries.map DomainEntry.item).map Item.value).filterMap nameOf =
      entries.map DomainEntry.name := by
  induction entries with
  | nil => rfl
  | cons entry entries ih =>
      rw [List.map_cons, List.map_cons, List.filterMap_cons_some entry.named, ih, List.map_cons]

/-- The one object among the fields is the first. -/
theorem findSome?_unique {α β : Type} {f : α → Option β} {l : List α} {b : β}
    (hsome : ∃ a ∈ l, f a = some b) (honly : ∀ a ∈ l, ∀ c, f a = some c → c = b) :
    l.findSome? f = some b := by
  induction l with
  | nil => simp at hsome
  | cons a l ih =>
      rw [List.findSome?_cons]
      cases ha : f a with
      | some c => exact congrArg some (honly a List.mem_cons_self c ha)
      | none =>
          refine ih ?_ fun x hx => honly x (List.mem_cons_of_mem _ hx)
          obtain ⟨x, hx, hfx⟩ := hsome
          rcases List.mem_cons.mp hx with rfl | hx
          · rw [ha] at hfx
            cases hfx
          · exact ⟨x, hx, hfx⟩

end

section

variable {ρ ι : Type} {transport : Transport ρ}

theorem retryFrom_ok {unsendable : ConnectorFailure} {module : String} {build : Nat → Option ρ}
    {left number next : Nat} {body : Body}
    (h : retryFrom transport unsendable module build left number = (.ok body, next)) :
    ∃ sent n, build n = some sent ∧ transport n sent module = .ok body := by
  induction left generalizing number with
  | zero =>
      unfold retryFrom at h
      split at h
      · cases h
      rename_i sent hbuild
      split at h
      · rename_i hanswer
        cases h
        exact ⟨sent, number, hbuild, hanswer⟩
      · split at h
        · cases h
        · cases h
  | succ left ih =>
      unfold retryFrom at h
      split at h
      · cases h
      rename_i sent hbuild
      split at h
      · rename_i hanswer
        cases h
        exact ⟨sent, number, hbuild, hanswer⟩
      · split at h
        · exact ih h
        · cases h

/-- A page that is read comes from an answer to its request. -/
theorem page_ok {list : Listing ρ ι} {number page next : Nat} {result : List ι × Nat}
    (h : list.page transport number page = (.ok result, next)) :
    ∃ request n body, list.build n page = some request ∧
      transport n request list.module = .ok body ∧ list.read page body = .ok result := by
  unfold Listing.page retryList at h
  rcases hretry : retryFrom transport list.unsendable list.module
    (fun number => list.build number page) maxRetries number with ⟨f | body, following⟩
  · simp only [hretry] at h
    cases h
  · simp only [hretry] at h
    obtain ⟨hread, _⟩ := Prod.mk.injEq _ _ _ _ ▸ h
    obtain ⟨request, n, hbuild, hanswer⟩ := retryFrom_ok hretry
    exact ⟨request, n, body, hbuild, hanswer, hread⟩

end

end Cloud

end NextInfra
