import Mathlib.Order.Bounds.Basic
import NextInfra.Cloud.Sync
import NextInfra.Lib.Entries

/-!
# What a provider answers

The pages of a list are asked for one after the other. §1 says what comes of a page and §2
where a walk over the pages ends, by the answers of the provider alone. §3 says so of the
lists of a sync, and §4 that its loops walk just that.
-/

namespace NextInfra

namespace Cloud

/-! ## §1  One page -/

namespace Listing

variable {ρ ι : Type} (list : Listing ρ ι) (transport : Transport ρ)

/-- The provider turns the request of a number away for now. -/
def turnedAway (number page : Nat) : Bool :=
  match list.build number page with
  | none => false
  | some request =>
      match transport number request list.module with
      | .ok _ => false
      | .error f => decide (f.code = .rateLimited) && f.retryable

/-- The request that settles a page: the first, or the one after one or two that are turned
away. -/
def settledAt (number page : Nat) : Nat :=
  if list.turnedAway transport number page then
    if list.turnedAway transport (number + 1) page then number + 2 else number + 1
  else number

/-- What is said to the request of a number. One that cannot be built is refused unsent. -/
def said (number page : Nat) : Except ConnectorFailure Body :=
  match list.build number page with
  | none => .error list.unsendable
  | some request => transport number request list.module

/-- What comes of a page: its items and their total. -/
def answer (number page : Nat) : Except ConnectorFailure (List ι × Nat) :=
  (list.said transport (list.settledAt transport number page) page).bind (list.read page)

/-- The request after those of a page. -/
def afterPage (number page : Nat) : Nat :=
  let settled := list.settledAt transport number page
  if (list.build settled page).isSome then settled + 1 else settled

/-- The request a page starts at where those before it are asked for in turn. -/
def startOf (number : Nat) : (page : Nat) → Nat
  | 0 => number
  | page + 1 => list.afterPage transport (startOf number page) page

def answerAt (number page : Nat) : Except ConnectorFailure (List ι × Nat) :=
  list.answer transport (list.startOf transport number page) page

def itemsAt (number page : Nat) : List ι :=
  match list.answerAt transport number page with
  | .ok (items, _) => items
  | .error _ => []

variable {list transport}

theorem turnedAway_eq_true_iff {number page : Nat} :
    list.turnedAway transport number page = true ↔
      ∃ request f, list.build number page = some request ∧
        transport number request list.module = .error f ∧ f.code = .rateLimited ∧
        f.retryable = true := by
  unfold turnedAway
  cases list.build number page with
  | none => simp
  | some request =>
      cases hsaid : transport number request list.module with
      | ok body => simp [hsaid]
      | error f => simp [hsaid]

/-- A try that is not turned away settles the page, and so does the last. -/
theorem retryFrom_settles {left number page : Nat}
    (h : list.turnedAway transport number page = false ∨ left = 0) :
    retryFrom transport list.unsendable list.module (fun number => list.build number page) left
        number =
      (list.said transport number page,
        if (list.build number page).isSome then number + 1 else number) := by
  unfold retryFrom said
  cases hbuild : list.build number page with
  | none => rfl
  | some request =>
      dsimp only
      cases hsaid : transport number request list.module with
      | ok body => rfl
      | error f =>
          dsimp only
          split
          · rename_i haway
            have hturned : list.turnedAway transport number page = true :=
              turnedAway_eq_true_iff.mpr ⟨request, f, hbuild, hsaid, haway⟩
            rcases h with h | rfl
            · rw [hturned] at h
              cases h
            · rfl
          · rfl

theorem retryFrom_again {left number page : Nat}
    (h : list.turnedAway transport number page = true) :
    retryFrom transport list.unsendable list.module (fun number => list.build number page)
        (left + 1) number =
      retryFrom transport list.unsendable list.module (fun number => list.build number page) left
        (number + 1) := by
  obtain ⟨request, f, hbuild, hsaid, haway⟩ := turnedAway_eq_true_iff.mp h
  rw [retryFrom]
  simp only [hbuild, hsaid]
  rw [if_pos haway]

/-- A page is asked for as long as it is turned away, three times at most. -/
theorem page_eq (number page : Nat) :
    list.page transport number page =
      (list.answer transport number page, list.afterPage transport number page) := by
  have hretry : retryList transport list.unsendable list.module
      (fun number => list.build number page) number =
        (list.said transport (list.settledAt transport number page) page,
          list.afterPage transport number page) := by
    unfold retryList maxRetries afterPage settledAt
    cases hfirst : list.turnedAway transport number page with
    | false => exact retryFrom_settles (.inl hfirst)
    | true =>
        rw [retryFrom_again hfirst]
        cases hsecond : list.turnedAway transport (number + 1) page with
        | false => exact retryFrom_settles (.inl hsecond)
        | true =>
            rw [retryFrom_again hsecond]
            exact retryFrom_settles (.inr rfl)
  unfold Listing.page
  rw [hretry]
  rfl

theorem settledAt_le (number page : Nat) :
    list.settledAt transport number page ≤ number + maxRetries := by
  unfold settledAt maxRetries
  split
  · split <;> omega
  · omega

/-- The requests of a page are one and its retries. -/
theorem afterPage_le (number page : Nat) :
    list.afterPage transport number page ≤ number + (1 + maxRetries) := by
  have hsettled := @settledAt_le ρ ι list transport number page
  unfold afterPage
  dsimp only
  split <;> omega

theorem startOf_le (number pages : Nat) :
    list.startOf transport number pages ≤ number + pages * (1 + maxRetries) := by
  induction pages with
  | zero => exact Nat.le_add_right _ _
  | succ pages ih =>
      have hpage := @afterPage_le ρ ι list transport (list.startOf transport number pages) pages
      rw [Nat.succ_mul]
      unfold startOf
      omega

end Listing

/-! ## §2  A walk -/

/-- A walk over the pages of a list: what is kept of a page, which pages it does not go past,
how much is enough and how many pages it may take. It begins at a request, with what was
kept before. -/
structure Walk (ρ ι κ : Type) where
  transport : Transport ρ
  list : Listing ρ ι
  keeps : List ι → List κ
  keeps_nil : keeps [] = []
  final : List ι → Prop
  enough : Nat
  limit : Option Nat
  number : Nat
  before : List κ

namespace Walk

variable {ρ ι κ : Type} (w : Walk ρ ι κ)

def startOf (page : Nat) : Nat := w.list.startOf w.transport w.number page

def answerAt (page : Nat) : Except ConnectorFailure (List ι × Nat) :=
  w.list.answerAt w.transport w.number page

/-- What is kept of the pages before one. -/
def kept : (page : Nat) → List κ
  | 0 => w.before
  | page + 1 => kept page ++ w.keeps (w.list.itemsAt w.transport w.number page)

/-- The walk does not go past a page: it cannot be read, or is final, or announces no more
than is there after it. -/
def LastPage (page : Nat) : Prop :=
  ∀ items total, w.answerAt page = .ok (items, total) →
    w.final items ∨ total ≤ (w.kept (page + 1)).length

/-- So many pages end the walk: what is kept of them is enough, or there may be no more, or the
last of them is one it does not go past. -/
def Ends (pages : Nat) : Prop :=
  w.enough ≤ (w.kept pages).length ∨ w.limit = some pages ∨
    ∃ page, pages = page + 1 ∧ w.LastPage page

/-- The walk is over after so many pages. -/
def Over (pages : Nat) : Prop := IsLeast {pages | w.Ends pages} pages

/-- The walk goes on past every page before this one. -/
def Reaches (page : Nat) : Prop :=
  ∀ earlier < page, ¬w.enough ≤ (w.kept earlier).length ∧ w.limit ≠ some earlier ∧
    ¬w.LastPage earlier

variable {w}

theorem Over.unique {pages pages' : Nat} (h : w.Over pages) (h' : w.Over pages') : pages = pages' :=
  IsLeast.unique h h'

/-- A walk with a limit on its pages keeps it. -/
theorem Over.startOf_le {pages limit : Nat} (h : w.Over pages) (hlimit : w.limit = some limit) :
    w.startOf pages ≤ w.number + limit * (1 + maxRetries) := by
  have hpages : pages ≤ limit := h.2 (.inr (.inl hlimit))
  refine (Listing.startOf_le w.number pages).trans ?_
  exact Nat.add_le_add_left (Nat.mul_le_mul_right _ hpages) _

theorem reaches_zero : w.Reaches 0 := fun _ h => absurd h (Nat.not_lt_zero _)

theorem Reaches.not_ends {page earlier : Nat} (h : w.Reaches page) (hearlier : earlier < page) :
    ¬w.Ends earlier := by
  rintro (henough | hlimit | ⟨last, rfl, hlast⟩)
  · exact (h earlier hearlier).1 henough
  · exact (h earlier hearlier).2.1 hlimit
  · exact (h last (by omega)).2.2 hlast

theorem Reaches.over_here {page : Nat} (h : w.Reaches page)
    (hend : w.enough ≤ (w.kept page).length ∨ w.limit = some page) : w.Over page := by
  refine ⟨hend.imp_right .inl, fun earlier hearlier => ?_⟩
  by_contra hlt
  exact h.not_ends (Nat.lt_of_not_le hlt) hearlier

theorem Reaches.over_next {page : Nat} (h : w.Reaches page)
    (hroom : ¬w.enough ≤ (w.kept page).length) (hlimit : w.limit ≠ some page)
    (hlast : w.LastPage page) : w.Over (page + 1) := by
  refine ⟨.inr (.inr ⟨page, rfl, hlast⟩), fun earlier hearlier => ?_⟩
  by_contra hlt
  rcases Nat.lt_or_eq_of_le (show earlier ≤ page by omega) with hbefore | rfl
  · exact h.not_ends hbefore hearlier
  · rcases hearlier with henough | hend | ⟨last, rfl, hlast'⟩
    · exact hroom henough
    · exact hlimit hend
    · exact (h last (Nat.lt_succ_self last)).2.2 hlast'

theorem Reaches.next {page : Nat} (h : w.Reaches page)
    (hroom : ¬w.enough ≤ (w.kept page).length) (hlimit : w.limit ≠ some page)
    (hgoes : ¬w.LastPage page) : w.Reaches (page + 1) := by
  intro earlier hearlier
  rcases Nat.lt_succ_iff_lt_or_eq.mp hearlier with hbefore | rfl
  · exact h earlier hbefore
  · exact ⟨hroom, hlimit, hgoes⟩

/-- A page that cannot be read is the last, and nothing is kept of it. -/
theorem lastPage_of_error {page : Nat} {f : ConnectorFailure} (h : w.answerAt page = .error f) :
    w.LastPage page ∧ w.kept (page + 1) = w.kept page := by
  refine ⟨fun items total hok => ?_, ?_⟩
  · cases h.symm.trans hok
  · have hitems : w.list.itemsAt w.transport w.number page = [] := by
      unfold Listing.itemsAt
      rw [show w.list.answerAt w.transport w.number page = _ from h]
    rw [kept, hitems, w.keeps_nil, List.append_nil]

theorem kept_of_ok {page : Nat} {items : List ι} {total : Nat}
    (h : w.answerAt page = .ok (items, total)) :
    w.kept (page + 1) = w.kept page ++ w.keeps items := by
  have hitems : w.list.itemsAt w.transport w.number page = items := by
    unfold Listing.itemsAt
    rw [show w.list.answerAt w.transport w.number page = _ from h]
  rw [kept, hitems]

theorem mem_kept_iff {pages : Nat} {kept : κ} :
    kept ∈ w.kept pages ↔ kept ∈ w.before ∨
      ∃ page < pages, ∃ items total,
        w.answerAt page = .ok (items, total) ∧ kept ∈ w.keeps items := by
  induction pages with
  | zero => exact ⟨.inl, fun h => h.resolve_right fun ⟨page, hlt, _⟩ => absurd hlt (by omega)⟩
  | succ pages ih =>
      have hlater : (∃ page < pages + 1, ∃ items total, w.answerAt page = .ok (items, total) ∧
          kept ∈ w.keeps items) ↔
            (∃ page < pages, ∃ items total, w.answerAt page = .ok (items, total) ∧
              kept ∈ w.keeps items) ∨
            ∃ items total, w.answerAt pages = .ok (items, total) ∧ kept ∈ w.keeps items := by
        constructor
        · rintro ⟨page, hlt, hpage⟩
          rcases Nat.lt_succ_iff_lt_or_eq.mp hlt with hbefore | rfl
          · exact .inl ⟨page, hbefore, hpage⟩
          · exact .inr hpage
        · rintro (⟨page, hlt, hpage⟩ | hpage)
          · exact ⟨page, by omega, hpage⟩
          · exact ⟨pages, Nat.lt_succ_self pages, hpage⟩
      rw [hlater, ← or_assoc, ← ih]
      cases hanswer : w.answerAt pages with
      | error f =>
          rw [(lastPage_of_error hanswer).2]
          simp
      | ok answer =>
          obtain ⟨items, total⟩ := answer
          rw [kept_of_ok hanswer, List.mem_append]
          simp

theorem lastPage_iff {page : Nat} {items : List ι} {total : Nat}
    (h : w.answerAt page = .ok (items, total)) :
    w.LastPage page ↔ w.final items ∨ total ≤ (w.kept page ++ w.keeps items).length := by
  rw [← kept_of_ok h]
  constructor
  · intro hlast
    exact hlast items total h
  · intro hend items' total' h'
    cases h.symm.trans h'
    exact hend

/-- The pages a walk goes past have been read. -/
theorem Reaches.read {page : Nat} (h : w.Reaches page) :
    ∀ earlier < page, ∃ found, w.answerAt earlier = .ok found := by
  intro earlier hearlier
  cases hanswer : w.answerAt earlier with
  | error f => exact absurd (lastPage_of_error hanswer).1 (h earlier hearlier).2.2
  | ok found => exact ⟨found, rfl⟩

/-- What comes of a page when the walk asks for it. -/
theorem page_eq (page : Nat) :
    w.list.page w.transport (w.startOf page) page = (w.answerAt page, w.startOf (page + 1)) :=
  Listing.page_eq _ _

end Walk

/-! ## §3  The walks of a sync -/

/-- The observations of the items, where none of them is refused. -/
def Observing.allOf (obs : Observing) (items : List ResourceDto) : List ResourceObservation :=
  match items.mapM obs.observe with
  | .ok observations => observations
  | .error _ => []

/-- The observations of the items up to the first that is refused. -/
def Observing.upToRefused (obs : Observing) : List ResourceDto → List ResourceObservation
  | [] => []
  | item :: items =>
      match obs.observe item with
      | .ok observation => observation :: obs.upToRefused items
      | .error _ => []

theorem Observing.mem_allOf_iff {obs : Observing} {items : List ResourceDto}
    {r : ResourceObservation} :
    r ∈ obs.allOf items ↔
      (∀ item ∈ items, ∃ r, obs.observe item = .ok r) ∧
        ∃ item ∈ items, obs.observe item = .ok r := by
  unfold Observing.allOf
  cases hobs : items.mapM obs.observe with
  | error e =>
      refine iff_of_false (List.not_mem_nil) ?_
      rintro ⟨hall, _⟩
      obtain ⟨observations, hok⟩ := Fallible.mapM_ok_of_forall hall
      cases hobs.symm.trans hok
  | ok observations =>
      constructor
      · intro hr
        refine ⟨fun item hitem => ?_, Fallible.argument_of_mapM hobs hr⟩
        obtain ⟨r', _, hr'⟩ := Fallible.result_of_mapM hobs hitem
        exact ⟨r', hr'⟩
      · rintro ⟨_, item, hitem, hr⟩
        obtain ⟨r', hr', hsame⟩ := Fallible.result_of_mapM hobs hitem
        cases hr.symm.trans hsame
        exact hr'

theorem Observing.observed_of_upToRefused {obs : Observing} {items : List ResourceDto}
    {r : ResourceObservation} (h : r ∈ obs.upToRefused items) :
    ∃ item, obs.observe item = .ok r := by
  induction items with
  | nil => cases h
  | cons item items ih =>
      unfold Observing.upToRefused at h
      cases hobs : obs.observe item with
      | error e =>
          rw [hobs] at h
          cases h
      | ok observation =>
          rw [hobs] at h
          rcases List.mem_cons.mp h with rfl | h
          · exact ⟨item, hobs⟩
          · exact ih h

section

variable {ρ : Type} (transport : Transport ρ)

/-- A module ends with a page it cannot observe, too, and some with an empty one. -/
def moduleWalk (list : Listing ρ ResourceDto) (obs : Observing) (number : Nat) :
    Walk ρ ResourceDto ResourceObservation where
  transport := transport
  list := list
  keeps := obs.allOf
  keeps_nil := rfl
  final := fun items =>
    (∃ item ∈ items, ∀ r, obs.observe item ≠ .ok r) ∨ (obs.stopsWhenEmpty = true ∧ items = [])
  enough := maxResourcesPerModule
  limit := some maxPagesPerModule
  number := number
  before := []

def domainWalk (list : Listing ρ String) (number : Nat) : Walk ρ String String where
  transport := transport
  list := list
  keeps := id
  keeps_nil := rfl
  final := fun found => found = []
  enough := maxDnsDomains
  limit := some maxPagesPerModule
  number := number
  before := []

/-- The records of a domain are kept with those of the domains before it. -/
def recordWalk (list : Listing ρ ResourceDto) (obs : Observing) (limited : Bool) (number : Nat)
    (before : List ResourceObservation) : Walk ρ ResourceDto ResourceObservation where
  transport := transport
  list := list
  keeps := obs.upToRefused
  keeps_nil := rfl
  final := fun items => items = []
  enough := maxResourcesPerModule
  limit := if limited then some maxPagesPerModule else none
  number := number
  before := before

/-- The walks over domains, one after the other: how many are walked, and the last request and
the records at their end. -/
inductive RecordWalks (listOf : String → Listing ρ ResourceDto) (obs : Observing) (limited : Bool) :
    List String → (number : Nat) → List ResourceObservation →
      (walked last : Nat) → List ResourceObservation → Prop
  | done {number : Nat} {before : List ResourceObservation} :
      RecordWalks listOf obs limited [] number before 0 number before
  | enough {domain : String} {domains : List String} {number : Nat}
      {before : List ResourceObservation} (h : maxResourcesPerModule ≤ before.length) :
      RecordWalks listOf obs limited (domain :: domains) number before 0 number before
  | walk {domain : String} {domains : List String} {number pages walked last : Nat}
      {before resources : List ResourceObservation} (hroom : ¬maxResourcesPerModule ≤ before.length)
      (hover : (recordWalk transport (listOf domain) obs limited number before).Over pages)
      (hrest : RecordWalks listOf obs limited domains
        ((recordWalk transport (listOf domain) obs limited number before).startOf pages)
        ((recordWalk transport (listOf domain) obs limited number before).kept pages)
        walked last resources) :
      RecordWalks listOf obs limited (domain :: domains) number before (walked + 1) last resources

/-- The walk over the list of domains, and then over those of its first twenty where it could be
read. -/
inductive DnsWalks (domainList : Listing ρ String) (recordList : String → Listing ρ ResourceDto)
    (obs : Observing) (limited : Bool) (number : Nat) :
    (walked last : Nat) → List ResourceObservation → Prop
  | unlisted {page : Nat} {f : ConnectorFailure}
      (hover : (domainWalk transport domainList number).Over (page + 1))
      (hfails : (domainWalk transport domainList number).answerAt page = .error f) :
      DnsWalks domainList recordList obs limited number 1
        ((domainWalk transport domainList number).startOf (page + 1)) []
  | listed {pages walked last : Nat} {resources : List ResourceObservation}
      (hover : (domainWalk transport domainList number).Over pages)
      (hread : ∀ page < pages, ∃ found, (domainWalk transport domainList number).answerAt page =
        .ok found)
      (hrest : RecordWalks transport recordList obs limited
        (((domainWalk transport domainList number).kept pages).take maxDnsDomains)
        ((domainWalk transport domainList number).startOf pages) [] walked last resources) :
      DnsWalks domainList recordList obs limited number (walked + 1) last resources

end

end Cloud

end NextInfra
