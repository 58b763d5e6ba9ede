import Mathlib.Data.List.Forall2
import Mathlib.Data.List.Induction
import Mathlib.Data.List.Perm.Basic
import NextInfra.Lib.KeyedTable

/-!
# Entries and fallible lists

Two ways a list of answers is gathered: into a map, where the last entry of a key
wins (`mem_ofEntries_iff`), and through a function that may fail, where the first
failure is the answer (`mapM_ok_iff`).
-/

namespace OrderedMap

variable {κ α : Type} [LinearOrder κ]

/-- Insert the entries one after the other. -/
def ofEntries (entries : List (κ × α)) : OrderedMap κ α :=
  entries.foldl (fun m p => insert m p.1 p.2) KeyedTable.empty

theorem ofEntries_concat (entries : List (κ × α)) (p : κ × α) :
    ofEntries (entries ++ [p]) = insert (ofEntries entries) p.1 p.2 := by
  unfold ofEntries
  rw [List.foldl_append]
  rfl

/-- What is left under a key is its last entry. -/
theorem mem_ofEntries_iff {entries : List (κ × α)} {p : κ × α} :
    p ∈ (ofEntries entries).rows ↔
      ∃ before after, entries = before ++ p :: after ∧ ∀ q ∈ after, q.1 ≠ p.1 := by
  induction entries using List.reverseRecOn with
  | nil => simp [ofEntries, KeyedTable.empty]
  | append_singleton entries e ih =>
      rw [ofEntries_concat]
      unfold insert
      rw [KeyedTable.mem_put, ih]
      constructor
      · rintro (rfl | ⟨⟨before, after, rfl, hafter⟩, hne⟩)
        · exact ⟨entries, [], rfl, by simp⟩
        · refine ⟨before, after ++ [e], by simp, ?_⟩
          intro q hq
          rcases List.mem_append.mp hq with hq | hq
          · exact hafter q hq
          · rw [List.mem_singleton.mp hq]
            exact fun h => hne h.symm
      · rintro ⟨before, after, heq, hafter⟩
        rcases List.eq_nil_or_concat after with rfl | ⟨after', last, rfl⟩
        · left
          have hlast := List.append_inj_right' heq rfl
          exact (List.singleton_inj.mp hlast).symm
        · right
          rw [List.concat_eq_append, ← List.cons_append, ← List.append_assoc] at heq
          have hlast : e = last := List.singleton_inj.mp (List.append_inj_right' heq rfl)
          subst hlast
          refine ⟨⟨before, after', List.append_cancel_right heq, ?_⟩, ?_⟩
          · exact fun q hq => hafter q (by simp [hq])
          · exact fun h => hafter e (by simp) h.symm

/-- A key has something under it where some entry has the key. -/
theorem isSome_lookup_ofEntries {entries : List (κ × α)} {k : κ} :
    (lookup (ofEntries entries) k).isSome = true ↔ ∃ p ∈ entries, p.1 = k := by
  induction entries using List.reverseRecOn with
  | nil => simp [ofEntries]
  | append_singleton entries e ih =>
      rw [ofEntries_concat, lookup_insert]
      by_cases hk : k = e.1
      · rw [if_pos hk]
        exact iff_of_true rfl ⟨e, by simp, hk.symm⟩
      · rw [if_neg hk, ih]
        constructor
        · rintro ⟨p, hp, hpk⟩
          exact ⟨p, List.mem_append_left _ hp, hpk⟩
        · rintro ⟨p, hp, hpk⟩
          rcases List.mem_append.mp hp with hp | hp
          · exact ⟨p, hp, hpk⟩
          · rw [List.mem_singleton.mp hp] at hpk
            exact absurd hpk.symm hk

/-- Entries that may be left out: what is left under a key is the last entry kept. -/
theorem mem_ofEntries_filterMap_iff {β : Type} {keep : κ × β → Option α} {entries : List (κ × β)}
    {k : κ} {a : α} :
    (k, a) ∈ (ofEntries (entries.filterMap fun e => (keep e).map fun a => (e.1, a))).rows ↔
      ∃ before b after, entries = before ++ (k, b) :: after ∧ keep (k, b) = some a ∧
        ∀ e ∈ after, e.1 = k → keep e = none := by
  rw [mem_ofEntries_iff]
  constructor
  · rintro ⟨keptBefore, keptAfter, heq, hlast⟩
    obtain ⟨before, rest, rfl, _, hrest⟩ := List.filterMap_eq_append_iff.mp heq
    obtain ⟨skipped, ⟨key, b⟩, after, rfl, hskipped, he, hafter⟩ :=
      List.filterMap_eq_cons_iff.mp hrest
    obtain ⟨a', ha', heq'⟩ := Option.map_eq_some_iff.mp he
    cases heq'
    refine ⟨before ++ skipped, b, after, by simp, ha', ?_⟩
    intro e hmem hkey
    cases hk : keep e with
    | none => rfl
    | some a' =>
        have hin : (e.1, a') ∈ keptAfter := by
          rw [← hafter]
          exact List.mem_filterMap.mpr ⟨e, hmem, by rw [hk]; rfl⟩
        exact absurd hkey (hlast _ hin)
  · rintro ⟨before, b, after, rfl, hb, hlast⟩
    refine ⟨before.filterMap (fun e => (keep e).map fun a => (e.1, a)),
      after.filterMap (fun e => (keep e).map fun a => (e.1, a)), ?_, ?_⟩
    · rw [List.filterMap_append, List.filterMap_cons_some (b := (k, a)) (by simp [hb])]
    · intro q hq hkey
      obtain ⟨e, hmem, he⟩ := List.mem_filterMap.mp hq
      obtain ⟨a', ha', rfl⟩ := Option.map_eq_some_iff.mp he
      rw [hlast e hmem hkey] at ha'
      cases ha'

end OrderedMap

namespace Fallible

variable {ε α β : Type} {f : α → Except ε β}

/-- A list of calls succeeds with the list of their results. -/
theorem mapM_ok_iff {as : List α} {bs : List β} :
    as.mapM f = .ok bs ↔ List.Forall₂ (fun a b => f a = .ok b) as bs := by
  induction as generalizing bs with
  | nil =>
      rw [List.mapM_nil, List.forall₂_nil_left_iff]
      exact ⟨fun h => (Except.ok.inj h).symm, fun h => by rw [h]; rfl⟩
  | cons a as ih =>
      rw [List.mapM_cons, List.forall₂_cons_left_iff]
      cases hf : f a with
      | error e =>
          constructor
          · intro h
            cases h
          · rintro ⟨b, _, hb, _⟩
            cases hb
      | ok b =>
          show (as.mapM f >>= _) = _ ↔ _
          cases hrest : as.mapM f with
          | error e =>
              constructor
              · intro h
                cases h
              · rintro ⟨_, bs', _, hbs', _⟩
                rw [ih.mpr hbs'] at hrest
                cases hrest
          | ok rest =>
              constructor
              · intro h
                cases h
                exact ⟨b, rest, rfl, ih.mp hrest, rfl⟩
              · rintro ⟨b', bs', hb, hbs', rfl⟩
                cases hb
                rw [ih.mpr hbs'] at hrest
                cases hrest
                rfl

/-- What is on the left of a pairing has a partner on the right. -/
theorem forall₂_result {R : α → β → Prop} {as : List α} {bs : List β} (h : List.Forall₂ R as bs)
    {a : α} (ha : a ∈ as) : ∃ b ∈ bs, R a b := by
  induction h with
  | nil => cases ha
  | cons hab _ ih =>
      rcases List.mem_cons.mp ha with rfl | ha
      · exact ⟨_, List.mem_cons_self, hab⟩
      · obtain ⟨b, hb, hr⟩ := ih ha
        exact ⟨b, List.mem_cons_of_mem _ hb, hr⟩

/-- Each argument's result is in the list. -/
theorem result_of_mapM {as : List α} {bs : List β} (h : as.mapM f = .ok bs) {a : α} (ha : a ∈ as) :
    ∃ b ∈ bs, f a = .ok b :=
  forall₂_result (mapM_ok_iff.mp h) ha

/-- Each result in the list is some argument's. -/
theorem argument_of_mapM {as : List α} {bs : List β} (h : as.mapM f = .ok bs) {b : β}
    (hb : b ∈ bs) : ∃ a ∈ as, f a = .ok b :=
  forall₂_result (mapM_ok_iff.mp h).flip hb

/-- Calls on a permuted list succeed with the permuted results. -/
theorem mapM_perm {as as' : List α} {bs : List β} (hperm : as.Perm as') (h : as.mapM f = .ok bs) :
    ∃ bs', as'.mapM f = .ok bs' ∧ bs.Perm bs' := by
  obtain ⟨bs', hall, hbs⟩ := List.perm_comp_forall₂ hperm.symm (mapM_ok_iff.mp h)
  exact ⟨bs', mapM_ok_iff.mpr hall, hbs.symm⟩

/-- Counting the results is counting the arguments. -/
theorem countP_of_mapM {as : List α} {bs : List β} (h : as.mapM f = .ok bs) {p : β → Bool}
    {q : α → Bool} (hpq : ∀ a ∈ as, ∀ b, f a = .ok b → q a = p b) : bs.countP p = as.countP q := by
  have hall := mapM_ok_iff.mp h
  clear h
  induction hall with
  | nil => rfl
  | cons hab _ ih =>
      rw [List.countP_cons, List.countP_cons, hpq _ List.mem_cons_self _ hab,
        ih fun a ha => hpq a (List.mem_cons_of_mem _ ha)]

theorem mapM_append {as as' : List α} {bs bs' : List β} (h : as.mapM f = .ok bs)
    (h' : as'.mapM f = .ok bs') : (as ++ as').mapM f = .ok (bs ++ bs') :=
  mapM_ok_iff.mpr (List.rel_append (mapM_ok_iff.mp h) (mapM_ok_iff.mp h'))

theorem mapM_length {as : List α} {bs : List β} (h : as.mapM f = .ok bs) :
    as.length = bs.length :=
  (mapM_ok_iff.mp h).length_eq

/-- What each result shares with its argument, the lists share. -/
theorem map_of_mapM {γ : Type} {as : List α} {bs : List β} (h : as.mapM f = .ok bs) {g : β → γ}
    {k : α → γ} (hshared : ∀ a b, f a = .ok b → g b = k a) : bs.map g = as.map k := by
  have hall := mapM_ok_iff.mp h
  clear h
  induction hall with
  | nil => rfl
  | cons hab _ ih => rw [List.map_cons, List.map_cons, hshared _ _ hab, ih]

theorem mapM_ok_of_forall {as : List α} (h : ∀ a ∈ as, ∃ b, f a = .ok b) :
    ∃ bs, as.mapM f = .ok bs := by
  induction as with
  | nil => exact ⟨[], rfl⟩
  | cons a as ih =>
      obtain ⟨b, hb⟩ := h a List.mem_cons_self
      obtain ⟨bs, hbs⟩ := ih fun x hx => h x (List.mem_cons_of_mem _ hx)
      exact ⟨b :: bs, mapM_ok_iff.mpr (.cons hb (mapM_ok_iff.mp hbs))⟩

/-- The results of the calls that succeed. -/
def results (f : α → Except ε β) (as : List α) : List β := as.filterMap fun a => (f a).toOption

theorem mem_results_iff {as : List α} {b : β} : b ∈ results f as ↔ ∃ a ∈ as, f a = .ok b := by
  unfold results
  rw [List.mem_filterMap]
  refine exists_congr fun a => and_congr_right fun _ => ?_
  cases f a with
  | error e => exact iff_of_false (fun h => by cases h) (fun h => by cases h)
  | ok b' => exact ⟨fun h => congrArg Except.ok (Option.some.inj h), fun h => by cases h; rfl⟩

theorem results_append (as as' : List α) :
    results f (as ++ as') = results f as ++ results f as' :=
  List.filterMap_append

theorem results_flatMap {γ : Type} (g : γ → List α) (l : List γ) :
    results f (l.flatMap g) = l.flatMap fun c => results f (g c) := by
  induction l with
  | nil => rfl
  | cons c l ih => rw [List.flatMap_cons, results_append, ih, List.flatMap_cons]

/-- Calls that all succeed leave all their results. -/
theorem eq_results_of_mapM {as : List α} {bs : List β} (h : as.mapM f = .ok bs) :
    bs = results f as := by
  have hall := mapM_ok_iff.mp h
  clear h
  induction hall with
  | nil => rfl
  | cons hab _ ih =>
      have hone : ∀ as, results f (_ :: as) = _ :: results f as := fun as =>
        List.filterMap_cons_some (congrArg Except.toOption hab)
      rw [hone, ← ih]

/-- Calls that all succeed with results of one sort. -/
theorem mapM_ok_and_iff {as : List α} {P : β → Prop} :
    (∃ bs, as.mapM f = .ok bs ∧ ∀ b ∈ bs, P b) ↔ ∀ a ∈ as, ∃ b, f a = .ok b ∧ P b := by
  constructor
  · rintro ⟨bs, hbs, hall⟩ a ha
    obtain ⟨b, hb, hf⟩ := result_of_mapM hbs ha
    exact ⟨b, hf, hall b hb⟩
  · intro h
    obtain ⟨bs, hbs⟩ := mapM_ok_of_forall fun a ha => (h a ha).imp fun _ hb => hb.1
    refine ⟨bs, hbs, ?_⟩
    intro b hb
    obtain ⟨a, ha, hf⟩ := argument_of_mapM hbs hb
    obtain ⟨b', hf', hP⟩ := h a ha
    cases hf.symm.trans hf'
    exact hP

theorem mapM_some_iff {f : α → Option β} {as : List α} {bs : List β} :
    as.mapM f = some bs ↔ List.Forall₂ (fun a b => f a = some b) as bs := by
  induction as generalizing bs with
  | nil => simp [eq_comm]
  | cons a as ih =>
      rw [List.mapM_cons, List.forall₂_cons_left_iff]
      simp only [Option.bind_eq_bind, Option.bind_eq_some_iff, Option.pure_def, Option.some.injEq]
      constructor
      · rintro ⟨b, hb, rest, hrest, rfl⟩
        exact ⟨b, rest, hb, ih.mp hrest, rfl⟩
      · rintro ⟨b, rest, hb, hrest, rfl⟩
        exact ⟨b, hb, rest, ih.mpr hrest, rfl⟩

theorem mapM_some_of_forall {f : α → Option β} {as : List α}
    (h : ∀ a ∈ as, ∃ b, f a = some b) : ∃ bs, as.mapM f = some bs := by
  induction as with
  | nil => exact ⟨[], rfl⟩
  | cons a as ih =>
      obtain ⟨b, hb⟩ := h a List.mem_cons_self
      obtain ⟨bs, hbs⟩ := ih fun x hx => h x (List.mem_cons_of_mem _ hx)
      exact ⟨b :: bs, mapM_some_iff.mpr (.cons hb (mapM_some_iff.mp hbs))⟩

/-- Calls that all have a result of some sort. -/
theorem mapM_some_pairs {f : α → Option β} {P : α → β → Prop} {as : List α}
    (h : ∀ a ∈ as, ∃ b, f a = some b ∧ P a b) :
    ∃ bs, as.mapM f = some bs ∧ List.Forall₂ P as bs := by
  obtain ⟨bs, hbs⟩ := mapM_some_of_forall fun a ha => (h a ha).imp fun _ hb => hb.1
  refine ⟨bs, hbs, ?_⟩
  have hall := mapM_some_iff.mp hbs
  clear hbs
  induction hall with
  | nil => exact List.Forall₂.nil
  | cons hab _ ih =>
      obtain ⟨b, hb, hP⟩ := h _ List.mem_cons_self
      cases hab.symm.trans hb
      exact List.Forall₂.cons hP (ih fun a ha => h a (List.mem_cons_of_mem _ ha))

theorem mapM_mono {f g : α → Option β} {as : List α} {bs : List β}
    (hfg : ∀ a b, f a = some b → g a = some b) (h : as.mapM f = some bs) : as.mapM g = some bs :=
  mapM_some_iff.mpr ((mapM_some_iff.mp h).imp fun a b => hfg a b)

/-- A list of calls has a result where each call has one. -/
theorem mapM_isSome_iff {f : α → Option β} {as : List α} :
    (as.mapM f).isSome = true ↔ ∀ a ∈ as, (f a).isSome = true := by
  constructor
  · intro h a ha
    obtain ⟨bs, hbs⟩ := Option.isSome_iff_exists.mp h
    obtain ⟨b, _, hb⟩ := forall₂_result (mapM_some_iff.mp hbs) ha
    exact Option.isSome_iff_exists.mpr ⟨b, hb⟩
  · intro h
    obtain ⟨bs, hbs⟩ := mapM_some_of_forall fun a ha => Option.isSome_iff_exists.mp (h a ha)
    exact Option.isSome_iff_exists.mpr ⟨bs, hbs⟩

end Fallible
