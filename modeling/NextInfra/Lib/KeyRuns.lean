import Mathlib.Data.List.Chain
import Mathlib.Data.List.Infix
import Mathlib.Tactic.Common

/-!
# Runs of equal keys

A list is cut into runs as it is read: an item joins the last run when it has its key, and
opens a run of its own otherwise. The runs laid end to end are the list (`flatten_runs`).

Nothing keeps a key from having two runs. It has one, for every key, exactly when the items of
each key stand together in the list (`pairwise_apart_iff`), which an ordered list shows by what
comes between them (`together_iff_between`); the run of a key then holds all items of the list
that have it (`run_eq_filter`).
-/

namespace KeyRuns

variable {α κ : Type} (key : α → κ)

/-- No item of the one has the key of an item of the other. -/
def Apart (r s : List α) : Prop := ∀ a ∈ r, ∀ b ∈ s, key a ≠ key b

/-- Runs have one key each, and no two neighbours have the same one. -/
structure IsRuns (runs : List (List α)) : Prop where
  nonempty : ∀ run ∈ runs, run ≠ []
  constant : ∀ run ∈ runs, ∀ a ∈ run, ∀ b ∈ run, key a = key b
  apart : runs.IsChain (Apart key)

variable {key}

theorem Apart.symm {r s : List α} (h : Apart key r s) : Apart key s r :=
  fun b hb a ha heq => h a ha b hb heq.symm

theorem IsRuns.tail {run : List α} {rest : List (List α)} (h : IsRuns key (run :: rest)) :
    IsRuns key rest :=
  ⟨fun r hr => h.nonempty r (List.mem_cons_of_mem _ hr),
    fun r hr => h.constant r (List.mem_cons_of_mem _ hr), h.apart.tail⟩

/-- The keys the runs start with show whether one has two of them. -/
theorem nodup_heads_iff {runs : List (List α)} (h : IsRuns key runs) :
    (runs.map fun run => run.head?.map key).Nodup ↔ runs.Pairwise (Apart key) := by
  unfold List.Nodup
  rw [List.pairwise_map]
  refine List.Pairwise.iff_of_mem fun {r s} hr hs => ?_
  obtain ⟨a, r, rfl⟩ := List.exists_cons_of_ne_nil (h.nonempty _ hr)
  obtain ⟨b, s, rfl⟩ := List.exists_cons_of_ne_nil (h.nonempty _ hs)
  simp only [List.head?_cons, Option.map_some, ne_eq, Option.some.injEq]
  constructor
  · intro hne c hc d hd heq
    have hca := h.constant _ hr c hc a List.mem_cons_self
    have hdb := h.constant _ hs d hd b List.mem_cons_self
    exact hne (by rw [← hca, ← hdb, heq])
  · exact fun hapart => hapart a List.mem_cons_self b List.mem_cons_self

variable [DecidableEq κ]

variable (key) in
/-- An item joins the last run or opens one. The runs are kept last first. -/
def push (runs : List (List α)) (a : α) : List (List α) :=
  match runs with
  | [] => [[a]]
  | run :: rest =>
      if run.head?.map key = some (key a) then (run ++ [a]) :: rest else [a] :: run :: rest

variable (key) in
/-- The runs of a list. -/
def runs (items : List α) : List (List α) := (items.foldl (push key) []).reverse

variable (key) in
/-- The items of a key stand next to each other. -/
def Together (items : List α) : Prop :=
  ∀ k, items.filter (fun a => decide (key a = k)) <:+: items

/-! ## §1  Reading the list -/

theorem push_isRuns {runs : List (List α)} (h : IsRuns key runs) (a : α) :
    IsRuns key (push key runs a) := by
  cases runs with
  | nil => exact ⟨by simp [push], by simp [push], by simp [push]⟩
  | cons run rest =>
      obtain ⟨first, tail, rfl⟩ := List.exists_cons_of_ne_nil (h.nonempty run List.mem_cons_self)
      have hconstant := h.constant _ List.mem_cons_self
      unfold push
      dsimp only
      by_cases hkey : key first = key a
      · rw [if_pos (by simp [hkey])]
        have hjoined : ∀ b ∈ first :: tail ++ [a], key b = key first := by
          intro b hb
          rcases List.mem_append.mp hb with hb | hb
          · exact hconstant b hb first List.mem_cons_self
          · rw [List.mem_singleton.mp hb, hkey]
        refine ⟨?_, ?_, ?_⟩
        · intro r hr
          rcases List.mem_cons.mp hr with rfl | hr
          · simp
          · exact h.nonempty r (List.mem_cons_of_mem _ hr)
        · intro r hr
          rcases List.mem_cons.mp hr with rfl | hr
          · exact fun b hb c hc => (hjoined b hb).trans (hjoined c hc).symm
          · exact h.constant r (List.mem_cons_of_mem _ hr)
        · have hchain := h.apart
          rw [List.isChain_cons] at hchain ⊢
          refine ⟨fun s hs b hb c hc => ?_, hchain.2⟩
          rw [hjoined b hb]
          exact hchain.1 s hs first List.mem_cons_self c hc
      · rw [if_neg (by simpa using hkey)]
        refine ⟨?_, ?_, ?_⟩
        · intro r hr
          rcases List.mem_cons.mp hr with rfl | hr
          · simp
          · exact h.nonempty r hr
        · intro r hr
          rcases List.mem_cons.mp hr with rfl | hr
          · simp
          · exact h.constant r hr
        · rw [List.isChain_cons_cons]
          refine ⟨fun b hb c hc heq => hkey ?_, h.apart⟩
          rw [List.mem_singleton.mp hb] at heq
          rw [heq, hconstant c hc first List.mem_cons_self]

theorem foldl_push_isRuns (items : List α) : IsRuns key (items.foldl (push key) []) := by
  induction items using List.reverseRecOn with
  | nil => exact ⟨by simp, by simp, by simp⟩
  | append_singleton items a ih =>
      rw [List.foldl_append]
      exact push_isRuns ih a

theorem isRuns_runs (items : List α) : IsRuns key (runs key items) := by
  have h : IsRuns key (items.foldl (push key) []) := foldl_push_isRuns items
  unfold runs
  refine ⟨fun run hrun => h.nonempty run (List.mem_reverse.mp hrun),
    fun run hrun => h.constant run (List.mem_reverse.mp hrun), ?_⟩
  rw [List.isChain_reverse]
  exact h.apart.imp fun _ _ hapart => hapart.symm

/-- The runs laid end to end are the list. -/
theorem flatten_runs (items : List α) : (runs key items).flatten = items := by
  unfold runs
  induction items using List.reverseRecOn with
  | nil => rfl
  | append_singleton items a ih =>
      rw [List.foldl_append, List.foldl_cons, List.foldl_nil]
      generalize items.foldl (push key) [] = before at ih ⊢
      unfold push
      split
      · rw [← ih]
        rfl
      · rename_i run rest
        rw [List.reverse_cons, List.flatten_append] at ih
        split
        · rw [List.reverse_cons, List.flatten_append, ← ih]
          simp
        · rw [List.reverse_cons, List.reverse_cons, List.flatten_append, List.flatten_append, ← ih]
          simp

/-! ## §2  One run for each key -/

/-- Where no key has two runs, the run of a key is all there is of it. -/
theorem filter_eq_run {runs : List (List α)} (h : IsRuns key runs)
    (hapart : runs.Pairwise (Apart key)) {run : List α} (hrun : run ∈ runs) {a : α} (ha : a ∈ run) :
    runs.flatten.filter (fun b => decide (key b = key a)) = run := by
  induction runs with
  | nil => cases hrun
  | cons r rest ih =>
      obtain ⟨hfirst, hrest⟩ := List.pairwise_cons.mp hapart
      rw [List.flatten_cons, List.filter_append]
      rcases List.mem_cons.mp hrun with rfl | hrun
      · have hall : run.filter (fun b => decide (key b = key a)) = run :=
          List.filter_eq_self.mpr fun b hb =>
            decide_eq_true (h.constant run List.mem_cons_self b hb a ha)
        have hnone : rest.flatten.filter (fun b => decide (key b = key a)) = [] := by
          rw [List.filter_eq_nil_iff]
          intro b hb
          obtain ⟨s, hs, hb⟩ := List.mem_flatten.mp hb
          simpa using fun heq => hfirst s hs a ha b hb heq.symm
        rw [hall, hnone, List.append_nil]
      · have hnone : r.filter (fun b => decide (key b = key a)) = [] := by
          rw [List.filter_eq_nil_iff]
          intro b hb
          simpa using hfirst run hrun b hb a ha
        rw [hnone, List.nil_append]
        exact ih h.tail hrest hrun

/-- The first run has all items of its key, where they stand together: behind another key there
are none left. -/
theorem Together.first {run : List α} {rest : List (List α)} (h : IsRuns key (run :: rest))
    (htogether : Together key (run ++ rest.flatten)) {a : α} (ha : a ∈ run) :
    ∀ b ∈ rest.flatten, key b ≠ key a := by
  have hall : run.filter (fun b => decide (key b = key a)) = run :=
    List.filter_eq_self.mpr fun b hb =>
      decide_eq_true (h.constant run List.mem_cons_self b hb a ha)
  intro b hb heq
  obtain ⟨before, after, hsplit⟩ := htogether (key a)
  have hcount := congrArg (fun items => (items.filter fun c => decide (key c = key a)).length) hsplit
  rw [List.filter_append, hall] at hsplit
  simp only [List.filter_append, List.filter_filter, Bool.and_self, List.length_append] at hcount
  have hbefore : before.filter (fun c => decide (key c = key a)) = [] :=
    List.length_eq_zero_iff.mp (by omega)
  cases before with
  | cons c before =>
      obtain ⟨first, tail, rfl⟩ := List.exists_cons_of_ne_nil (h.nonempty run List.mem_cons_self)
      have hc : c = first := (List.cons.inj hsplit).1
      have hkey := h.constant _ List.mem_cons_self first List.mem_cons_self a ha
      rw [hc, List.filter_cons, if_pos (decide_eq_true hkey)] at hbefore
      cases hbefore
  | nil =>
      rw [List.nil_append, List.append_assoc] at hsplit
      have hrest := List.append_cancel_left hsplit
      have hmem : b ∈ rest.flatten.filter fun c => decide (key c = key a) :=
        List.mem_filter.mpr ⟨hb, decide_eq_true heq⟩
      obtain ⟨c, found, hfound⟩ := List.exists_cons_of_ne_nil (List.ne_nil_of_mem hmem)
      have hc : key c = key a := by
        have := (List.mem_filter.mp (hfound ▸ List.mem_cons_self : c ∈ _)).2
        simpa using this
      cases rest with
      | nil => cases hb
      | cons next rest =>
          obtain ⟨first, tail, rfl⟩ := List.exists_cons_of_ne_nil
            (h.nonempty next (List.mem_cons_of_mem _ List.mem_cons_self))
          have hneighbours := (List.isChain_cons_cons.mp h.apart).1
          rw [hfound] at hrest
          have heq : c = first := (List.cons.inj hrest).1
          exact hneighbours a ha first List.mem_cons_self (heq ▸ hc).symm

/-- No key has two runs exactly when the items of each key stand together. -/
theorem pairwise_apart_iff {runs : List (List α)} (h : IsRuns key runs) :
    runs.Pairwise (Apart key) ↔ Together key runs.flatten := by
  constructor
  · intro hapart k
    by_cases hany : ∃ a ∈ runs.flatten, key a = k
    · obtain ⟨a, ha, rfl⟩ := hany
      obtain ⟨run, hrun, ha⟩ := List.mem_flatten.mp ha
      rw [filter_eq_run h hapart hrun ha]
      obtain ⟨before, after, rfl⟩ := List.append_of_mem hrun
      exact ⟨before.flatten, after.flatten, by simp⟩
    · have hnone : runs.flatten.filter (fun a => decide (key a = k)) = [] := by
        rw [List.filter_eq_nil_iff]
        intro a ha
        simpa using fun heq => hany ⟨a, ha, heq⟩
      rw [hnone]
      exact List.nil_infix
  · intro htogether
    induction runs with
    | nil => exact List.Pairwise.nil
    | cons run rest ih =>
        rw [List.flatten_cons] at htogether
        have hfirst : ∀ a ∈ run, ∀ b ∈ rest.flatten, key b ≠ key a := fun a ha =>
          Together.first h htogether ha
        refine List.pairwise_cons.mpr ⟨fun s hs a ha b hb heq =>
          hfirst a ha b (List.mem_flatten.mpr ⟨s, hs, hb⟩) heq.symm, ih h.tail fun k => ?_⟩
        by_cases hk : ∃ a ∈ run, key a = k
        · obtain ⟨a, ha, rfl⟩ := hk
          have hnone : rest.flatten.filter (fun b => decide (key b = key a)) = [] := by
            rw [List.filter_eq_nil_iff]
            intro b hb
            simpa using hfirst a ha b hb
          rw [hnone]
          exact List.nil_infix
        · have hnone : run.filter (fun a => decide (key a = k)) = [] := by
            rw [List.filter_eq_nil_iff]
            intro a ha
            simpa using fun heq => hk ⟨a, ha, heq⟩
          obtain ⟨before, after, hsplit⟩ := htogether k
          rw [List.filter_append, hnone, List.nil_append, List.append_assoc] at hsplit
          rcases List.append_eq_append_iff.mp hsplit with ⟨mid, hrun, hrest⟩ | ⟨mid, hbefore, hrest⟩
          · cases mid with
            | nil => exact ⟨[], after, by simpa using hrest⟩
            | cons c mid =>
                cases hfound : rest.flatten.filter fun a => decide (key a = k) with
                | nil => exact List.nil_infix
                | cons d found =>
                    rw [hfound] at hrest
                    have hd : d ∈ rest.flatten.filter fun a => decide (key a = k) :=
                      hfound ▸ List.mem_cons_self
                    have hc : d = c := (List.cons.inj hrest).1
                    refine absurd ⟨c, ?_, ?_⟩ hk
                    · rw [hrun]
                      simp
                    · simpa [hc] using (List.mem_filter.mp hd).2
          · exact ⟨mid, after, by rw [List.append_assoc]; exact hrest.symm⟩

/-- The run of a key has all items of the list with the key, where these stand together. -/
theorem run_eq_filter {items : List α} (h : Together key items) {run : List α}
    (hrun : run ∈ runs key items) {a : α} (ha : a ∈ run) :
    run = items.filter fun b => decide (key b = key a) := by
  have hapart : (runs key items).Pairwise (Apart key) :=
    (pairwise_apart_iff (isRuns_runs items)).mpr (by rwa [flatten_runs])
  rw [← filter_eq_run (isRuns_runs items) hapart hrun ha, flatten_runs]

theorem exists_run_of_mem {items : List α} {a : α} (ha : a ∈ items) :
    ∃ run ∈ runs key items, a ∈ run := by
  rw [← @flatten_runs α κ key _ items] at ha
  exact List.mem_flatten.mp ha

theorem mem_of_mem_run {items run : List α} (hrun : run ∈ runs key items) {a : α} (ha : a ∈ run) :
    a ∈ items := by
  rw [← @flatten_runs α κ key _ items]
  exact List.mem_flatten.mpr ⟨run, hrun, ha⟩

/-- In an ordered list the items of a key stand together where nothing with another key comes
between two of them. -/
theorem together_iff_between {items : List α} {before : α → α → Prop}
    (hordered : items.Pairwise before) (hasymm : ∀ a b, before a b → ¬ before b a) :
    Together key items ↔ ∀ a ∈ items, ∀ b ∈ items, ∀ c ∈ items, before a b → before b c →
      key a = key c → key b = key a := by
  constructor
  · intro h a ha b hb c hc hab hbc hac
    obtain ⟨front, back, hsplit⟩ := h (key a)
    have hfound : ∀ d ∈ items, key d = key a →
        d ∈ items.filter fun b => decide (key b = key a) := fun d hd hkey =>
      List.mem_filter.mpr ⟨hd, decide_eq_true hkey⟩
    have hblocks := hsplit ▸ hordered
    rw [List.pairwise_append] at hblocks
    obtain ⟨hfront, _, hback⟩ := hblocks
    rw [← hsplit, List.mem_append, List.mem_append] at hb
    rcases hb with (hb | hb) | hb
    · have hba := (List.pairwise_append.mp hfront).2.2 b hb a (hfound a ha rfl)
      exact absurd hba (hasymm a b hab)
    · simpa using (List.mem_filter.mp hb).2
    · have hcb := hback c (List.mem_append_right front (hfound c hc hac.symm)) b hb
      exact absurd hcb (hasymm b c hbc)
  · intro h k
    induction items with
    | nil => exact List.nil_infix
    | cons a rest ih =>
        obtain ⟨hfirst, hrest⟩ := List.pairwise_cons.mp hordered
        by_cases hkey : key a = k
        · -- behind the first item with another key there is none of this one
          have hafter : (rest.dropWhile fun b => decide (key b = k)).filter
              (fun b => decide (key b = k)) = [] := by
            cases hdrop : rest.dropWhile fun b => decide (key b = k) with
            | nil => rfl
            | cons b more =>
                have hsuffix : b :: more <:+ rest := hdrop ▸ List.dropWhile_suffix _
                have hmem : ∀ c ∈ b :: more, c ∈ rest := fun c hc => hsuffix.subset hc
                have hb : key b ≠ k := by
                  have hsome : rest.dropWhile (fun b => decide (key b = k)) ≠ [] := by simp [hdrop]
                  simpa [hdrop] using List.head_dropWhile_not _ hsome
                have hlater := (List.pairwise_cons.mp (hrest.sublist hsuffix.sublist)).1
                rw [List.filter_eq_nil_iff]
                intro c hc
                rw [decide_eq_true_eq]
                rcases List.mem_cons.mp hc with rfl | hc'
                · exact hb
                · intro hck
                  refine hb (hkey ▸ h a List.mem_cons_self b ?_ c ?_ ?_ (hlater c hc') ?_)
                  · exact List.mem_cons_of_mem _ (hmem b List.mem_cons_self)
                  · exact List.mem_cons_of_mem _ (hmem c hc)
                  · exact hfirst b (hmem b List.mem_cons_self)
                  · rw [hkey, hck]
          have hfilter : rest.filter (fun b => decide (key b = k)) =
              rest.takeWhile fun b => decide (key b = k) := by
            conv_lhs => rw [← List.takeWhile_append_dropWhile (p := fun b => decide (key b = k))
              (l := rest)]
            rw [List.filter_append, hafter, List.append_nil]
            exact List.filter_eq_self.mpr fun b hb => List.all_eq_true.mp List.all_takeWhile b hb
          rw [List.filter_cons, if_pos (decide_eq_true hkey), hfilter]
          exact (List.prefix_cons_inj a).mpr (List.takeWhile_prefix _) |>.isInfix
        · rw [List.filter_cons, if_neg (by simpa using hkey)]
          exact (ih hrest fun a ha b hb c hc => h a (List.mem_cons_of_mem _ ha) b
            (List.mem_cons_of_mem _ hb) c (List.mem_cons_of_mem _ hc)).trans
            (List.suffix_cons a rest).isInfix

end KeyRuns
