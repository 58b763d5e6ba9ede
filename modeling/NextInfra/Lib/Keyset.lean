import Mathlib.Data.List.Pairwise
import Mathlib.Data.List.Basic

/-!
# Keyset paging

A listing is handed out page by page. Each request names the last row it has
seen by a cursor; the answer holds at most `limit` of the rows that come after
it, and a cursor for the next request when rows remain. Whether rows remain is
found out by fetching one row too many.

Nothing here knows how rows are selected or how a cursor is spelled: a pager is
any function that cuts the rows after the cursor it is given. Following such a
pager from the start hands out the whole listing.
-/

namespace Keyset

variable {γ ρ ε : Type}

/-! ## §1  Pages -/

/-- One answer of a pager. -/
structure Page (γ ρ : Type) where
  items : List ρ
  nextAfter : Option γ
deriving DecidableEq

/-- The page cut from the rows a request fetched: a row beyond the limit is
dropped, and shows that the last row kept is not the last one. -/
def trim (cursor : ρ → γ) (limit : Nat) (fetched : List ρ) : Page γ ρ :=
  if limit < fetched.length then
    { items := fetched.dropLast, nextAfter := fetched.dropLast.getLast?.map cursor }
  else { items := fetched, nextAfter := none }

/-- The page of a listing: one row more than the limit is fetched, then trimmed. -/
def cut (cursor : ρ → γ) (limit : Nat) (rows : List ρ) : Page γ ρ :=
  trim cursor limit (rows.take (limit + 1))

variable {cursor : ρ → γ} {limit : Nat}

/-- Rows that fit are the last page. -/
theorem cut_of_fits {rows : List ρ} (h : rows.length ≤ limit) :
    cut cursor limit rows = { items := rows, nextAfter := none } := by
  have htake : rows.take (limit + 1) = rows := List.take_of_length_le (by omega)
  unfold cut trim
  rw [htake, if_neg (by omega)]

variable (cursor) in
/-- Rows that do not fit leave a full page that ends in its cursor's row. -/
theorem cut_of_exceeds {rows : List ρ} (h : limit < rows.length) (hlimit : 0 < limit) :
    ∃ init last rest, rows = init ++ last :: rest ∧ (init ++ [last]).length = limit ∧
      rest ≠ [] ∧
      cut cursor limit rows = { items := init ++ [last], nextAfter := some (cursor last) } := by
  have hfetched : (rows.take (limit + 1)).length = limit + 1 := by
    rw [List.length_take]
    omega
  have hkept : (rows.take (limit + 1)).dropLast = rows.take limit := by
    rw [List.dropLast_eq_take, hfetched, List.take_take]
    congr 1
    omega
  have hlength : (rows.take limit).length = limit := by
    rw [List.length_take]
    omega
  obtain ⟨init, last, hlast⟩ : ∃ init last, rows.take limit = init ++ [last] := by
    have hne : rows.take limit ≠ [] := by
      intro hnil
      rw [hnil, List.length_nil] at hlength
      omega
    exact ⟨_, _, (List.dropLast_append_getLast hne).symm⟩
  refine ⟨init, last, rows.drop limit, ?_, ?_, ?_, ?_⟩
  · conv_lhs => rw [← List.take_append_drop limit rows, hlast]
    simp
  · rw [← hlast, hlength]
  · intro hnil
    have := congrArg List.length hnil
    rw [List.length_drop, List.length_nil] at this
    omega
  · unfold cut trim
    rw [if_pos (by omega), hkept, hlast]
    simp

/-- A page holds the first rows up to the limit, whatever the limit. -/
theorem items_cut (rows : List ρ) : (cut cursor limit rows).items = rows.take limit := by
  by_cases hlong : limit < (rows.take (limit + 1)).length
  · have hfetched : (rows.take (limit + 1)).length = limit + 1 := by
      rw [List.length_take] at hlong ⊢
      omega
    unfold cut trim
    rw [if_pos hlong]
    show (rows.take (limit + 1)).dropLast = rows.take limit
    rw [List.dropLast_eq_take, hfetched, List.take_take]
    congr 1
    omega
  · have hfits : rows.length ≤ limit := by
      rw [List.length_take] at hlong
      omega
    rw [cut_of_fits hfits, List.take_of_length_le hfits]

/-! ## §2  Following a pager -/

/-- Requests that follow the cursors handed out until none is. -/
inductive Follows (fetch : Option γ → Except ε (Page γ ρ)) : Option γ → List (List ρ) → Prop
  | last {after : Option γ} {page : Page γ ρ} :
      fetch after = .ok page → page.nextAfter = none → Follows fetch after [page.items]
  | next {after : Option γ} {page : Page γ ρ} {c : γ} {pages : List (List ρ)} :
      fetch after = .ok page → page.nextAfter = some c → Follows fetch (some c) pages →
        Follows fetch after (page.items :: pages)

variable {fetch : Option γ → Except ε (Page γ ρ)}

/-- The first request of a run is answered. -/
theorem Follows.answered {after : Option γ} {pages : List (List ρ)}
    (h : Follows fetch after pages) : ∃ page, fetch after = .ok page := by
  cases h with
  | last hfetch _ => exact ⟨_, hfetch⟩
  | next hfetch _ _ => exact ⟨_, hfetch⟩

/-! ## §3  Pagers that cut a listing -/

/-- `fetch` cuts `rows`: from their start, and after any row it is given the
cursor of. -/
structure Serves (fetch : Option γ → Except ε (Page γ ρ)) (before : ρ → ρ → Bool)
    (cursor : ρ → γ) (limit : Nat) (rows : List ρ) : Prop where
  start : fetch none = .ok (cut cursor limit rows)
  resume : ∀ r ∈ rows, fetch (some (cursor r)) = .ok (cut cursor limit (rows.filter (before r)))

variable {before : ρ → ρ → Bool}

/-- The rows after a row of an ordered listing are those that stand behind it. -/
theorem filter_after (hasymm : ∀ a b, before a b = true → before b a = false)
    {init rest : List ρ} {r : ρ}
    (hordered : (init ++ r :: rest).Pairwise (fun a b => before a b = true)) :
    (init ++ r :: rest).filter (before r) = rest := by
  obtain ⟨_, hrest, hcross⟩ := List.pairwise_append.mp hordered
  have hinit : init.filter (before r) = [] := by
    rw [List.filter_eq_nil_iff]
    intro a ha
    rw [hasymm a r (hcross a ha r List.mem_cons_self)]
    exact Bool.false_ne_true
  have hself : before r r = false := by
    cases hr : before r r with
    | false => rfl
    | true => exact absurd (hasymm r r hr) (by simp [hr])
  have hkeep : rest.filter (before r) = rest := by
    rw [List.filter_eq_self]
    exact fun a ha => (List.pairwise_cons.mp hrest).1 a ha
  rw [List.filter_append, hinit, List.nil_append, List.filter_cons, hself, hkeep]
  simp

section Exhaustion

variable {rows : List ρ} (hserves : Serves fetch before cursor limit rows)
  (hordered : rows.Pairwise (fun a b => before a b = true))
  (hasymm : ∀ a b, before a b = true → before b a = false) (hlimit : 0 < limit)

include hserves hordered hasymm hlimit

/-- From a request that is answered with the end of the listing, the run hands
out exactly that end. The induction is on the rows that remain: a full page
takes at least one of them. -/
theorem Serves.follows_rest (n : Nat) : ∀ (init rest : List ρ) (after : Option γ),
    rows = init ++ rest → rest.length = n → fetch after = .ok (cut cursor limit rest) →
      ∃ pages, Follows fetch after pages ∧ pages.flatten = rest ∧
        ∀ page ∈ pages, page.length ≤ limit := by
  induction n using Nat.strongRecOn with
  | _ n ih =>
      intro init rest after hrows hn hfetch
      by_cases hexceeds : limit < rest.length
      · obtain ⟨kept, last, rest', hrest, hlength, _, hcut⟩ :=
          cut_of_exceeds cursor hexceeds hlimit
        have hwhole : rows = (init ++ kept) ++ last :: rest' := by
          rw [hrows, hrest, List.append_assoc]
        have hlast : last ∈ rows := by
          rw [hwhole]
          simp
        have hafter : rows.filter (before last) = rest' := by
          rw [hwhole] at hordered ⊢
          exact filter_after hasymm hordered
        have hresume := hserves.resume last hlast
        rw [hafter] at hresume
        have hshorter : rest'.length < n := by
          rw [← hn, hrest, List.length_append, List.length_cons]
          omega
        obtain ⟨pages, hfollows, hflat, hsize⟩ := ih rest'.length hshorter
          (init ++ kept ++ [last]) rest' (some (cursor last)) (by rw [hwhole]; simp) rfl hresume
        rw [hcut] at hfetch
        refine ⟨(kept ++ [last]) :: pages, .next hfetch rfl hfollows, ?_, ?_⟩
        · rw [List.flatten_cons, hflat, hrest]
          simp
        · intro page hpage
          rcases List.mem_cons.mp hpage with rfl | hpage'
          · omega
          · exact hsize page hpage'
      · rw [cut_of_fits (by omega)] at hfetch
        refine ⟨[rest], .last hfetch rfl, by simp, ?_⟩
        intro page hpage
        rw [List.mem_singleton.mp hpage]
        omega

/-- Following a pager from the start hands out the whole listing. -/
theorem Serves.follows : ∃ pages, Follows fetch none pages ∧ pages.flatten = rows ∧
    ∀ page ∈ pages, page.length ≤ limit :=
  hserves.follows_rest hordered hasymm hlimit rows.length [] rows none rfl rfl hserves.start

end Exhaustion

/-! ## §4  What a run is to hand out -/

/-- The pages hold the wanted rows and no others, in order, each once, and no
page is over the limit. -/
structure Enumerates (before : ρ → ρ → Prop) (wanted : ρ → Prop) (limit : Nat)
    (pages : List (List ρ)) : Prop where
  ordered : pages.flatten.Pairwise before
  once : pages.flatten.Nodup
  complete : ∀ r, r ∈ pages.flatten ↔ wanted r
  bounded : ∀ page ∈ pages, page.length ≤ limit

/-- Following the cursors from the first page ends, and hands out the wanted
rows in order. -/
def Exhausts (fetch : Option γ → Except ε (Page γ ρ)) (before : ρ → ρ → Prop)
    (wanted : ρ → Prop) (limit : Nat) : Prop :=
  ∃ pages, Follows fetch none pages ∧ Enumerates before wanted limit pages

/-- A pager that cuts an ordered listing of the wanted rows exhausts them. -/
theorem Serves.exhausts {rows : List ρ} {wanted : ρ → Prop}
    (hserves : Serves fetch before cursor limit rows)
    (hordered : rows.Pairwise (fun a b => before a b = true))
    (hasymm : ∀ a b, before a b = true → before b a = false) (hlimit : 0 < limit)
    (hwanted : ∀ r, r ∈ rows ↔ wanted r) :
    Exhausts fetch (fun a b => before a b = true) wanted limit := by
  obtain ⟨pages, hfollows, hflat, hsize⟩ := hserves.follows hordered hasymm hlimit
  refine ⟨pages, hfollows, ?_, ?_, ?_, hsize⟩
  · rw [hflat]
    exact hordered
  · rw [hflat]
    apply hordered.imp
    rintro a b hab rfl
    have := hasymm a a hab
    rw [hab] at this
    cases this
  · rw [hflat]
    exact hwanted

/-- A pager that refuses its first request exhausts nothing. -/
theorem not_exhausts_of_refused {e : ε} {before : ρ → ρ → Prop} {wanted : ρ → Prop}
    (h : fetch none = .error e) : ¬ Exhausts fetch before wanted limit := by
  rintro ⟨pages, hfollows, _⟩
  obtain ⟨page, hpage⟩ := hfollows.answered
  rw [h] at hpage
  cases hpage

end Keyset
