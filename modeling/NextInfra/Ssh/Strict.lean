import NextInfra.Ssh.Coverage

/-!
# Discovery and strict parsing

The two service parsers run one loop in two modes. Discovery lists what it can read;
strict parsing is for a chosen list of ids and fails where discovery skips. `RowParser`
has what the loop needs of a parser. §2 reads off both runs, §3 compares them: an id that
discovery has listed can be parsed strictly exactly when no other row has it.
-/

namespace NextInfra

namespace Ssh

open Text

/-! ## §1  The rows of a parser -/

structure RowParser (ρ σ : Type) where
  /-- Reading a row in discovery. -/
  read : List Char → RowStep (ServiceId × ρ)
  finish : ServiceId → ρ → Option σ
  key : σ → ServiceId
  /-- The word of a row that the allowlist is asked about. -/
  idText : List Char → Option (List Char)
  idText_of_keep : ∀ {line id fields}, read line = .keep (id, fields) →
    idText line = some id.val.toList
  idText_of_skip : ∀ {line}, read line = .skip → idText line = none
  key_of_finish : ∀ {line id fields service}, read line = .keep (id, fields) →
    finish id fields = some service → key service = id

namespace RowParser

variable {ρ σ : Type} (parser : RowParser ρ σ)

/-- The row stands for the service. -/
def Reads (line : List Char) (service : σ) : Prop :=
  ∃ fields, parser.read line = .keep (parser.key service, fields) ∧
    parser.finish (parser.key service) fields = some service

def allows (ids : List ServiceId) (line : List Char) : Bool :=
  (parser.idText line).any (isAllowed (some ids))

/-- Reading a row when the allowlist is `ids`. -/
def strictRead (ids : List ServiceId) (line : List Char) : RowStep (ServiceId × ρ) :=
  if parser.allows ids line then parser.read line else .skip

def discover (lines : List (List Char)) : Except ServiceParseErrorKind (List σ) :=
  parseServiceRows true parser.read parser.finish 0 [] [] lines

def parseStrict (ids : List ServiceId) (lines : List (List Char)) :
    Except ServiceParseErrorKind (List σ) :=
  parseServiceRows false (parser.strictRead ids) parser.finish 0 [] [] lines

variable {parser}

theorem Reads.idText {line : List Char} {service : σ} (h : parser.Reads line service) :
    parser.idText line = some (parser.key service).val.toList := by
  obtain ⟨fields, hread, -⟩ := h
  exact parser.idText_of_keep hread

theorem Reads.unique {line : List Char} {service other : σ} (h : parser.Reads line service)
    (hother : parser.Reads line other) : service = other := by
  obtain ⟨fields, hread, hfinish⟩ := h
  obtain ⟨fields', hread', hfinish'⟩ := hother
  rw [hread] at hread'
  simp only [RowStep.keep.injEq, Prod.mk.injEq] at hread'
  obtain ⟨hkey, rfl⟩ := hread'
  rw [hkey, hfinish'] at hfinish
  exact (Option.some.inj hfinish).symm

theorem isAllowed_some_iff {ids : List ServiceId} {id : ServiceId} :
    isAllowed (some ids) id.val.toList = true ↔ id ∈ ids := by
  unfold isAllowed
  rw [List.any_eq_true]
  constructor
  · rintro ⟨allowed, hmem, htext⟩
    have hval : allowed.val = id.val := String.toList_inj.mp (of_decide_eq_true htext)
    rwa [← ServiceId.ext_val hval]
  · intro hmem
    exact ⟨id, hmem, decide_eq_true rfl⟩

theorem allows_of_idText {ids : List ServiceId} {line : List Char} {id : ServiceId}
    (h : parser.idText line = some id.val.toList) : parser.allows ids line = true ↔ id ∈ ids := by
  unfold allows
  rw [h]
  exact isAllowed_some_iff

/-! ## §2  Either mode -/

/-- Discovery lists rows it can read, and no more than the cap. -/
theorem discover_reads {row : Nat} {seen : List ServiceId} {services out : List σ}
    {lines : List (List Char)}
    (h : parseServiceRows true parser.read parser.finish row seen services lines = .ok out)
    (hcap : services.length ≤ maxServiceOutputs) :
    out.length ≤ maxServiceOutputs ∧
      ∀ service ∈ out, service ∈ services ∨ ∃ line ∈ lines, parser.Reads line service := by
  induction lines generalizing row seen services with
  | nil =>
      cases h
      exact ⟨hcap, fun service hs => .inl hs⟩
  | cons line rest ih =>
      have hlater : ∀ {now : List σ}, (∀ s ∈ now, s ∈ services ∨ parser.Reads line s) →
          (out.length ≤ maxServiceOutputs ∧
            ∀ s ∈ out, s ∈ now ∨ ∃ line ∈ rest, parser.Reads line s) →
          out.length ≤ maxServiceOutputs ∧
            ∀ s ∈ out, s ∈ services ∨ ∃ l ∈ line :: rest, parser.Reads l s := by
        rintro now hnow ⟨hlength, hout⟩
        refine ⟨hlength, fun s hs => ?_⟩
        rcases hout s hs with hs | ⟨l, hl, hread⟩
        · rcases hnow s hs with hs | hread
          · exact .inl hs
          · exact .inr ⟨line, List.mem_cons_self, hread⟩
        · exact .inr ⟨l, List.mem_cons_of_mem _ hl, hread⟩
      unfold parseServiceRows at h
      split at h
      · cases h
      cases hread : parser.read line with
      | skip =>
          simp only [hread] at h
          exact hlater (fun s hs => .inl hs) (ih h hcap)
      | reject kind =>
          simp only [hread, if_true] at h
          exact hlater (fun s hs => .inl hs) (ih h hcap)
      | keep kept =>
          obtain ⟨id, fields⟩ := kept
          simp only [hread, if_true] at h
          split at h
          · exact hlater (fun s hs => .inl hs) (ih h hcap)
          cases hfinish : parser.finish id fields with
          | none =>
              simp only [hfinish] at h
              exact hlater (fun s hs => .inl hs) (ih h hcap)
          | some service =>
              simp only [hfinish] at h
              split at h
              · cases h
                exact ⟨hcap, fun s hs => .inl hs⟩
              split at h
              · cases h
              rename_i hroom
              refine hlater ?_ (ih h ?_)
              · intro s hs
                rcases List.mem_append.mp hs with hs | hs
                · exact .inl hs
                · have hkey := parser.key_of_finish hread hfinish
                  rw [List.mem_singleton.mp hs]
                  exact .inr ⟨fields, by rw [hkey]; exact hread, by rw [hkey]; exact hfinish⟩
              · rw [List.length_append, List.length_singleton]
                omega

/-- Strict parsing does not see the rows it was not asked for. -/
theorem parseStrict_filter {ids : List ServiceId} {row row' : Nat} {seen : List ServiceId}
    {services : List σ} {lines : List (List Char)} (hrow : row + lines.length ≤ maxServiceRows)
    (hrow' : row' + (lines.filter (parser.allows ids)).length ≤ maxServiceRows) :
    parseServiceRows false (parser.strictRead ids) parser.finish row seen services lines =
      parseServiceRows false parser.read parser.finish row' seen services
        (lines.filter (parser.allows ids)) := by
  induction lines generalizing row row' seen services with
  | nil => rfl
  | cons line rest ih =>
      rw [List.length_cons] at hrow
      by_cases hallowed : parser.allows ids line = true
      · have hread : parser.strictRead ids line = parser.read line := if_pos hallowed
        rw [List.filter_cons_of_pos hallowed] at hrow' ⊢
        rw [List.length_cons] at hrow'
        have hrest : ∀ seen services,
            parseServiceRows false (parser.strictRead ids) parser.finish (row + 1) seen services
              rest = parseServiceRows false parser.read parser.finish (row' + 1) seen services
                (rest.filter (parser.allows ids)) := fun seen services =>
          ih (by omega) (by omega)
        conv_lhs => rw [parseServiceRows, if_neg (show ¬ maxServiceRows ≤ row by omega)]
        conv_rhs => rw [parseServiceRows, if_neg (show ¬ maxServiceRows ≤ row' by omega)]
        simp only [hread, hrest]
      · have hread : parser.strictRead ids line = .skip := if_neg hallowed
        rw [List.filter_cons_of_neg hallowed] at hrow' ⊢
        rw [parseServiceRows, if_neg (by omega), hread]
        exact ih (by omega) hrow'

/-- Strict parsing goes through all rows, so there are no more than the cap. -/
theorem length_le_of_strict {read : List Char → RowStep (ServiceId × ρ)} {row : Nat}
    {seen : List ServiceId} {services out : List σ} {lines : List (List Char)}
    (h : parseServiceRows false read parser.finish row seen services lines = .ok out) :
    lines = [] ∨ row + lines.length ≤ maxServiceRows := by
  induction lines generalizing row seen services with
  | nil => exact .inl rfl
  | cons line rest ih =>
      right
      have hlater : rest = [] ∨ row + 1 + rest.length ≤ maxServiceRows := by
        unfold parseServiceRows at h
        split at h
        · cases h
        split at h
        · exact ih h
        · cases h
        · split at h
          · cases h
          split at h
          · cases h
          · simp only [Bool.false_and, Bool.false_eq_true, if_false] at h
            split at h
            · cases h
            · exact ih h
      have hfirst : ¬ maxServiceRows ≤ row := by
        intro hover
        rw [parseServiceRows, if_pos hover] at h
        cases h
      rw [List.length_cons]
      rcases hlater with rfl | hlater
      · rw [List.length_nil]
        omega
      · omega

/-- A turn of the loop without allowance for a bad row. -/
theorem parseRows_cons_iff {row : Nat} {seen : List ServiceId} {services out : List σ}
    {line : List Char} {rest : List (List Char)} (hid : parser.idText line ≠ none)
    (hrow : row < maxServiceRows) :
    parseServiceRows false parser.read parser.finish row seen services (line :: rest) = .ok out ↔
      ∃ service, parser.Reads line service ∧ parser.key service ∉ seen ∧
        services.length < maxServiceOutputs ∧
        parseServiceRows false parser.read parser.finish (row + 1) (parser.key service :: seen)
          (services ++ [service]) rest = .ok out := by
  rw [parseServiceRows, if_neg (Nat.not_le.mpr hrow)]
  constructor
  · intro h
    cases hread : parser.read line with
    | skip => exact absurd (parser.idText_of_skip hread) hid
    | reject kind =>
        simp only [hread] at h
        cases h
    | keep kept =>
        obtain ⟨id, fields⟩ := kept
        simp only [hread] at h
        split at h
        · cases h
        rename_i hnew
        cases hfinish : parser.finish id fields with
        | none =>
            simp only [hfinish] at h
            cases h
        | some service =>
            have hkey := parser.key_of_finish hread hfinish
            subst hkey
            simp only [hfinish, Bool.false_and, Bool.false_eq_true, if_false] at h
            split at h
            · cases h
            exact ⟨service, ⟨fields, hread, hfinish⟩, hnew, by omega, h⟩
  · rintro ⟨service, ⟨fields, hread, hfinish⟩, hnew, hroom, hrest⟩
    simp only [hread, if_neg hnew, hfinish, Bool.false_and, Bool.false_eq_true, if_false]
    rw [if_neg (by omega)]
    exact hrest

/-- Strict parsing succeeds exactly on rows that can all be read, with an id each. -/
theorem parseRows_ok_iff {row : Nat} {seen : List ServiceId} {services out : List σ}
    {lines : List (List Char)} (hid : ∀ line ∈ lines, parser.idText line ≠ none)
    (hrow : row + lines.length ≤ maxServiceRows) :
    parseServiceRows false parser.read parser.finish row seen services lines = .ok out ↔
      ∃ more, out = services ++ more ∧ List.Forall₂ parser.Reads lines more ∧
        (more.map parser.key).Nodup ∧ (∀ service ∈ more, parser.key service ∉ seen) ∧
        (more ≠ [] → services.length + more.length ≤ maxServiceOutputs) := by
  induction lines generalizing row seen services with
  | nil =>
      constructor
      · intro h
        cases h
        exact ⟨[], (List.append_nil _).symm, .nil, List.nodup_nil, List.forall_mem_nil _,
          fun h => absurd rfl h⟩
      · rintro ⟨more, rfl, hreads, -⟩
        cases hreads
        rw [List.append_nil]
        rfl
  | cons line rest ih =>
      rw [List.length_cons] at hrow
      obtain ⟨hline, hrest⟩ := List.forall_mem_cons.mp hid
      rw [parseRows_cons_iff hline (by omega)]
      constructor
      · rintro ⟨service, hread, hnew, hroom, hout⟩
        obtain ⟨more, rfl, hreads, hnodup, hlater, hcap⟩ := (ih hrest (by omega)).mp hout
        refine ⟨service :: more, List.append_assoc _ _ _, .cons hread hreads, ?_, ?_, ?_⟩
        · rw [List.map_cons, List.nodup_cons]
          refine ⟨fun hmem => ?_, hnodup⟩
          obtain ⟨other, hother, hkey⟩ := List.mem_map.mp hmem
          exact hlater other hother (hkey ▸ List.mem_cons_self)
        · rw [List.forall_mem_cons]
          exact ⟨hnew, fun other hother hseen => hlater other hother (List.mem_cons_of_mem _ hseen)⟩
        · intro _
          rw [List.length_append, List.length_singleton] at hcap
          rw [List.length_cons]
          by_cases hmore : more = []
          · rw [hmore, List.length_nil]
            omega
          · have hbound := hcap hmore
            omega
      · rintro ⟨more, rfl, hreads, hnodup, hnew, hcap⟩
        cases hreads with
        | @cons _ service _ more hread hreads =>
            rw [List.map_cons, List.nodup_cons] at hnodup
            obtain ⟨hfirst, hlater⟩ := List.forall_mem_cons.mp hnew
            have hbound := hcap (List.cons_ne_nil _ _)
            rw [List.length_cons] at hbound
            refine ⟨service, hread, hfirst, by omega, (ih hrest (by omega)).mpr ?_⟩
            refine ⟨more, ?_, hreads, hnodup.2, ?_, ?_⟩
            · rw [List.append_assoc]
              rfl
            · intro other hother hmem
              rcases List.mem_cons.mp hmem with heq | hmem
              · exact hnodup.1 (heq ▸ List.mem_map_of_mem hother)
              · exact hlater other hother hmem
            · intro _
              rw [List.length_append, List.length_singleton]
              omega

/-! ## §3  Discovery against strict parsing -/

/-- The id stands on exactly one row. -/
def StandsOnce (parser : RowParser ρ σ) (lines : List (List Char)) (id : ServiceId) : Prop :=
  lines.countP (fun line => decide (parser.idText line = some id.val.toList)) = 1

section

variable {ids : List ServiceId} {lines : List (List Char)}

/-- The rows with an allowed id, counted there or among all. -/
theorem countP_filter_allows {id : ServiceId} (hid : id ∈ ids) :
    (lines.filter (parser.allows ids)).countP
        (fun line => decide (parser.idText line = some id.val.toList)) =
      lines.countP fun line => decide (parser.idText line = some id.val.toList) := by
  rw [List.countP_filter]
  apply List.countP_congr
  intro line _
  constructor
  · intro h
    exact (Bool.and_eq_true_iff.mp h).1
  · intro h
    exact Bool.and_eq_true_iff.mpr ⟨h, (allows_of_idText (of_decide_eq_true h)).mpr hid⟩

theorem idText_ne_none {line : List Char} (h : parser.allows ids line = true) :
    parser.idText line ≠ none := by
  intro hnone
  unfold allows at h
  rw [hnone] at h
  cases h

/-- An allowed row has an allowed id. -/
theorem exists_of_allows {line : List Char} (h : parser.allows ids line = true) :
    ∃ id ∈ ids, parser.idText line = some id.val.toList := by
  unfold allows at h
  cases htext : parser.idText line with
  | none =>
      rw [htext] at h
      cases h
  | some text =>
      rw [htext] at h
      obtain ⟨id, hid, heq⟩ := List.any_eq_true.mp h
      exact ⟨id, hid, by rw [of_decide_eq_true heq]⟩

/-- Rows that are read and the services they stand for have the same ids. -/
theorem map_idText {services : List σ} (h : List.Forall₂ parser.Reads lines services) :
    lines.map parser.idText = services.map fun service => some (parser.key service).val.toList := by
  induction h with
  | nil => rfl
  | cons hread _ ih => rw [List.map_cons, List.map_cons, hread.idText, ih]

theorem nodup_keys_iff {services : List σ} (h : List.Forall₂ parser.Reads lines services) :
    (services.map parser.key).Nodup ↔ (lines.map parser.idText).Nodup := by
  have hinj : Function.Injective fun id : ServiceId => some id.val.toList := by
    intro a b hab
    exact ServiceId.ext_val (String.toList_inj.mp (Option.some.inj hab))
  rw [map_idText h, ← List.nodup_map_iff hinj, List.map_map]
  rfl

/-- The allowed rows differ in their ids when each allowed id is on at most one row. -/
theorem nodup_allowed_iff :
    ((lines.filter (parser.allows ids)).map parser.idText).Nodup ↔
      ∀ id ∈ ids, lines.countP (fun line => decide (parser.idText line = some id.val.toList)) ≤ 1 := by
  have hcount : ∀ text, ((lines.filter (parser.allows ids)).map parser.idText).count text =
      (lines.filter (parser.allows ids)).countP fun line => decide (parser.idText line = text) := by
    intro text
    rw [List.count_eq_countP, List.countP_map]
    apply List.countP_congr
    intro line _
    simp
  rw [List.nodup_iff_count_le_one]
  constructor
  · intro h id hid
    rw [← countP_filter_allows hid, ← hcount]
    exact h _
  · intro h text
    by_cases hmem : text ∈ (lines.filter (parser.allows ids)).map parser.idText
    · obtain ⟨line, hline, rfl⟩ := List.mem_map.mp hmem
      obtain ⟨id, hid, htext⟩ := exists_of_allows (List.mem_filter.mp hline).2
      rw [hcount, htext, countP_filter_allows hid]
      exact h id hid
    · rw [List.count_eq_zero.mpr hmem]
      exact Nat.zero_le 1

theorem parseStrict_ok_iff {kept : List σ} (hrows : lines.length ≤ maxServiceRows) :
    parser.parseStrict ids lines = .ok kept ↔
      List.Forall₂ parser.Reads (lines.filter (parser.allows ids)) kept ∧
        (kept.map parser.key).Nodup ∧ (kept ≠ [] → kept.length ≤ maxServiceOutputs) := by
  have hfewer : (lines.filter (parser.allows ids)).length ≤ lines.length :=
    List.length_filter_le _ _
  have hnamed : ∀ line ∈ lines.filter (parser.allows ids), parser.idText line ≠ none :=
    fun line hline => idText_ne_none (List.mem_filter.mp hline).2
  have hsame := @parseStrict_filter _ _ parser ids 0 0 [] [] lines (by omega) (by omega)
  unfold parseStrict
  rw [hsame, parseRows_ok_iff hnamed (by omega)]
  constructor
  · rintro ⟨more, rfl, hreads, hnodup, -, hcap⟩
    rw [List.length_nil, Nat.zero_add] at hcap
    exact ⟨hreads, hnodup, hcap⟩
  · rintro ⟨hreads, hnodup, hcap⟩
    refine ⟨kept, rfl, hreads, hnodup, fun _ _ => List.not_mem_nil, ?_⟩
    rw [List.length_nil, Nat.zero_add]
    exact hcap

theorem exists_service {services : List σ} (h : List.Forall₂ parser.Reads lines services)
    {line : List Char} (hline : line ∈ lines) : ∃ service ∈ services, parser.Reads line service := by
  induction h with
  | nil => cases hline
  | cons hread _ ih =>
      rcases List.mem_cons.mp hline with rfl | hline
      · exact ⟨_, List.mem_cons_self, hread⟩
      · obtain ⟨service, hservice, hread⟩ := ih hline
        exact ⟨service, List.mem_cons_of_mem _ hservice, hread⟩

theorem exists_line {services : List σ} (h : List.Forall₂ parser.Reads lines services)
    {service : σ} (hservice : service ∈ services) : ∃ line ∈ lines, parser.Reads line service := by
  induction h with
  | nil => cases hservice
  | cons hread _ ih =>
      rcases List.mem_cons.mp hservice with rfl | hservice
      · exact ⟨_, List.mem_cons_self, hread⟩
      · obtain ⟨line, hline, hread⟩ := ih hservice
        exact ⟨line, List.mem_cons_of_mem _ hline, hread⟩

theorem exists_forall₂ {P : σ → Prop}
    (h : ∀ line ∈ lines, ∃ service, parser.Reads line service ∧ P service) :
    ∃ services, List.Forall₂ parser.Reads lines services ∧ ∀ service ∈ services, P service := by
  induction lines with
  | nil => exact ⟨[], .nil, List.forall_mem_nil _⟩
  | cons line rest ih =>
      obtain ⟨hline, hrest⟩ := List.forall_mem_cons.mp h
      obtain ⟨service, hread, hP⟩ := hline
      obtain ⟨services, hreads, hall⟩ := ih hrest
      exact ⟨service :: services, .cons hread hreads, List.forall_mem_cons.mpr ⟨hP, hall⟩⟩

variable {out : List σ}

theorem discover_keys (hdisc : parser.discover lines = .ok out) :
    (out.map parser.key).Nodup :=
  parseServiceRows_ids parser.key (fun _ _ _ _ hread => parser.key_of_finish hread) hdisc
    List.nodup_nil (List.forall_mem_nil _)

/-- Each discovered service stands on a row. -/
theorem exists_row (hdisc : parser.discover lines = .ok out) {service : σ} (hs : service ∈ out) :
    ∃ line ∈ lines, parser.Reads line service := by
  rcases (discover_reads hdisc (Nat.zero_le _)).2 service hs with hnone | hline
  · cases hnone
  · exact hline

/-- What strict parsing returns for discovered ids are the discovered services. -/
theorem parseStrict_perm (hdisc : parser.discover lines = .ok out)
    (hids : ∀ id ∈ ids, id ∈ out.map parser.key) (hrows : lines.length ≤ maxServiceRows)
    {kept : List σ} (hkept : parser.parseStrict ids lines = .ok kept) :
    kept.Perm (out.filter fun service => decide (parser.key service ∈ ids)) := by
  obtain ⟨hreads, hnodup, -⟩ := (parseStrict_ok_iff hrows).mp hkept
  have hone := (nodup_keys_iff hreads).mp hnodup
  have hallowed : ∀ {line service}, line ∈ lines → parser.Reads line service →
      parser.key service ∈ ids → line ∈ lines.filter (parser.allows ids) :=
    fun hline hread hid => List.mem_filter.mpr ⟨hline, (allows_of_idText hread.idText).mpr hid⟩
  refine (List.perm_ext_iff_of_nodup hnodup.of_map ?_).mpr fun service => ?_
  · exact (discover_keys hdisc).of_map.filter _
  rw [List.mem_filter, decide_eq_true_eq]
  constructor
  · intro hservice
    obtain ⟨line, hline, hread⟩ := exists_line hreads hservice
    have hid := (allows_of_idText hread.idText).mp (List.mem_filter.mp hline).2
    obtain ⟨other, hother, hkey⟩ := List.mem_map.mp (hids _ hid)
    obtain ⟨line', hline', hread'⟩ := exists_row hdisc hother
    have hsame : line = line' := by
      apply List.inj_on_of_nodup_map hone hline (hallowed hline' hread' (hkey ▸ hid))
      rw [hread.idText, hread'.idText, hkey]
    subst hsame
    rw [hread.unique hread']
    exact ⟨hother, hkey ▸ hid⟩
  · rintro ⟨hservice, hid⟩
    obtain ⟨line, hline, hread⟩ := exists_row hdisc hservice
    obtain ⟨other, hother, hread'⟩ := exists_service hreads (hallowed hline hread hid)
    rw [hread.unique hread']
    exact hother

/-- Strict parsing succeeds for discovered ids when each of them stands on one row. -/
theorem parseStrict_succeeds_iff (hdisc : parser.discover lines = .ok out)
    (hids : ∀ id ∈ ids, id ∈ out.map parser.key) (hrows : lines.length ≤ maxServiceRows) :
    (∃ kept, parser.parseStrict ids lines = .ok kept) ↔ ∀ id ∈ ids, parser.StandsOnce lines id := by
  have hsome : ∀ id ∈ ids,
      1 ≤ lines.countP fun line => decide (parser.idText line = some id.val.toList) := by
    intro id hid
    obtain ⟨service, hservice, rfl⟩ := List.mem_map.mp (hids id hid)
    obtain ⟨line, hline, hread⟩ := exists_row hdisc hservice
    exact List.countP_pos_iff.mpr ⟨line, hline, decide_eq_true hread.idText⟩
  have hatMost : (∀ id ∈ ids, parser.StandsOnce lines id) ↔
      ((lines.filter (parser.allows ids)).map parser.idText).Nodup := by
    rw [nodup_allowed_iff]
    constructor
    · intro h id hid
      exact Nat.le_of_eq (h id hid)
    · intro h id hid
      exact Nat.le_antisymm (h id hid) (hsome id hid)
  rw [hatMost]
  constructor
  · rintro ⟨kept, hkept⟩
    obtain ⟨hreads, hnodup, -⟩ := (parseStrict_ok_iff hrows).mp hkept
    exact (nodup_keys_iff hreads).mp hnodup
  · intro hone
    have hevery : ∀ line ∈ lines.filter (parser.allows ids),
        ∃ service, parser.Reads line service ∧ service ∈ out := by
      intro line hline
      obtain ⟨id, hid, htext⟩ := exists_of_allows (List.mem_filter.mp hline).2
      obtain ⟨service, hservice, rfl⟩ := List.mem_map.mp (hids id hid)
      obtain ⟨line', hline', hread⟩ := exists_row hdisc hservice
      have hmem : line' ∈ lines.filter (parser.allows ids) :=
        List.mem_filter.mpr ⟨hline', (allows_of_idText hread.idText).mpr hid⟩
      rw [List.inj_on_of_nodup_map hone hline hmem (htext.trans hread.idText.symm)]
      exact ⟨service, hread, hservice⟩
    obtain ⟨kept, hreads, hfound⟩ := exists_forall₂ hevery
    have hnodup := (nodup_keys_iff hreads).mpr hone
    refine ⟨kept, (parseStrict_ok_iff hrows).mpr ⟨hreads, hnodup, fun _ => ?_⟩⟩
    have hcap := (discover_reads hdisc (Nat.zero_le _)).1
    exact ((List.subperm_of_subset hnodup.of_map hfound).length_le).trans hcap

/-- `sort_by` of the services. -/
def sortServices (parser : RowParser ρ σ) (services : List σ) : List σ :=
  services.insertionSort fun a b => (parser.key a).val ≤ (parser.key b).val

theorem sortServices_perm (services : List σ) : (parser.sortServices services).Perm services :=
  List.perm_insertionSort _ _

theorem pairwise_sortServices (services : List σ) :
    (parser.sortServices services).Pairwise fun a b => (parser.key a).val ≤ (parser.key b).val := by
  have htotal : Std.Total fun a b : σ => (parser.key a).val ≤ (parser.key b).val :=
    ⟨fun _ _ => le_total _ _⟩
  have htrans : IsTrans σ fun a b => (parser.key a).val ≤ (parser.key b).val :=
    ⟨fun _ _ _ => le_trans⟩
  exact List.pairwise_insertionSort _ _

/-- Choosing before the sort and behind it is the same where the ids differ. -/
theorem sortServices_filter {p : σ → Bool} {kept : List σ} (hnodup : (out.map parser.key).Nodup)
    (hperm : kept.Perm (out.filter p)) :
    parser.sortServices kept = (parser.sortServices out).filter p := by
  have hsame : ((parser.sortServices out).filter p).Perm (out.filter p) :=
    (sortServices_perm out).filter p
  refine List.Perm.eq_of_pairwise ?_ (pairwise_sortServices kept)
    ((pairwise_sortServices out).sublist List.filter_sublist)
    ((sortServices_perm kept).trans (hperm.trans hsame.symm))
  intro a b ha hb hab hba
  have haout : a ∈ out :=
    List.mem_of_mem_filter (hperm.mem_iff.mp ((sortServices_perm kept).mem_iff.mp ha))
  have hbout : b ∈ out := List.mem_of_mem_filter (hsame.mem_iff.mp hb)
  exact List.inj_on_of_nodup_map hnodup haout hbout (ServiceId.ext_val (le_antisymm hab hba))

theorem strict_iff (hdisc : parser.discover lines = .ok out)
    (hids : ∀ id ∈ ids, id ∈ (parser.sortServices out).map parser.key) :
    (parser.parseStrict ids lines).map parser.sortServices =
        .ok ((parser.sortServices out).filter fun service => decide (parser.key service ∈ ids)) ↔
      lines.length ≤ maxServiceRows ∧ ∀ id ∈ ids, parser.StandsOnce lines id := by
  have hfound : ∀ id ∈ ids, id ∈ out.map parser.key := fun id hid =>
    ((sortServices_perm out).map parser.key).mem_iff.mp (hids id hid)
  constructor
  · intro h
    obtain ⟨kept, hkept, -⟩ := map_ok h
    have hrows : lines.length ≤ maxServiceRows := by
      rcases length_le_of_strict hkept with rfl | hrows
      · exact Nat.zero_le _
      · rwa [Nat.zero_add] at hrows
    exact ⟨hrows, (parseStrict_succeeds_iff hdisc hfound hrows).mp ⟨kept, hkept⟩⟩
  · rintro ⟨hrows, honce⟩
    obtain ⟨kept, hkept⟩ := (parseStrict_succeeds_iff hdisc hfound hrows).mpr honce
    rw [hkept, ← sortServices_filter (discover_keys hdisc)
      (parseStrict_perm hdisc hfound hrows hkept)]
    rfl

/-- Rows without an allowed id do not matter. -/
theorem parseStrict_congr {others : List (List Char)} (hrows : lines.length ≤ maxServiceRows)
    (hothers : others.length ≤ maxServiceRows)
    (h : lines.filter (parser.allows ids) = others.filter (parser.allows ids)) :
    parser.parseStrict ids lines = parser.parseStrict ids others := by
  have hfewer : (lines.filter (parser.allows ids)).length ≤ lines.length :=
    List.length_filter_le _ _
  unfold parseStrict
  rw [@parseStrict_filter _ _ parser ids 0 0 [] [] lines (by omega) (by omega),
    @parseStrict_filter _ _ parser ids 0 0 [] [] others (by omega) (by rw [← h]; omega), h]

end

end RowParser

/-! ## §4  The two parsers -/

/-- A row with a first word, and the allowlist lets it through. -/
theorem readSystemdRow_allowed {allowlist : Option (List ServiceId)} {line unit : List Char}
    (hunit : (splitAsciiWhitespace line).head? = some unit)
    (hallowed : isAllowed allowlist unit = true) :
    readSystemdRow allowlist line = readSystemdRow none line := by
  unfold readSystemdRow
  cases hfields : splitAsciiWhitespace line with
  | nil => rfl
  | cons first fields =>
      rw [hfields] at hunit
      cases hunit
      simp only
      rw [hallowed]
      rfl

theorem readSystemdRow_refused {allowlist : Option (List ServiceId)} {line unit : List Char}
    (hunit : (splitAsciiWhitespace line).head? = some unit)
    (hrefused : isAllowed allowlist unit = false) : readSystemdRow allowlist line = .skip := by
  unfold readSystemdRow
  cases hfields : splitAsciiWhitespace line with
  | nil => rfl
  | cons first fields =>
      rw [hfields] at hunit
      cases hunit
      exact if_pos hrefused

theorem readSystemdRow_nothing {allowlist : Option (List ServiceId)} {line : List Char}
    (hunit : (splitAsciiWhitespace line).head? = none) :
    readSystemdRow allowlist line = .skip := by
  unfold readSystemdRow
  rw [List.head?_eq_none_iff.mp hunit]

theorem readLaunchdRow_allowed {allowlist : Option (List ServiceId)} {line label : List Char}
    (hlabel : (splitAsciiWhitespace line).getLast? = some label)
    (hallowed : isAllowed allowlist label = true) :
    readLaunchdRow allowlist line = readLaunchdRow none line := by
  unfold readLaunchdRow
  rw [hlabel]
  simp only
  rw [hallowed]
  rfl

theorem readLaunchdRow_refused {allowlist : Option (List ServiceId)} {line label : List Char}
    (hlabel : (splitAsciiWhitespace line).getLast? = some label)
    (hrefused : isAllowed allowlist label = false) : readLaunchdRow allowlist line = .skip := by
  unfold readLaunchdRow
  rw [hlabel]
  exact if_pos hrefused

theorem readLaunchdRow_nothing {allowlist : Option (List ServiceId)} {line : List Char}
    (hlabel : (splitAsciiWhitespace line).getLast? = none) :
    readLaunchdRow allowlist line = .skip := by
  unfold readLaunchdRow
  rw [hlabel]

def systemdParser : RowParser SystemdService SystemdService where
  read := readSystemdRow none
  finish _ service := some service
  key := SystemdService.unit
  idText line := (splitAsciiWhitespace line).head?
  idText_of_keep := by
    intro line id service h
    unfold readSystemdRow at h
    split at h
    · cases h
    rename_i hfields
    split at h
    · cases h
    split at h
    · split at h
      · simp only at h
        split at h
        · cases h
          rw [hfields, List.head?_cons, String.toList_ofList]
        · cases h
      · cases h
    · cases h
  idText_of_skip := by
    intro line h
    unfold readSystemdRow at h
    split at h
    · rename_i hfields
      rw [hfields]
      rfl
    split at h
    · rename_i hrefused
      cases hrefused
    split at h
    · split at h
      · simp only at h
        split at h <;> cases h
      · cases h
    · cases h
  key_of_finish := by
    rintro line id fields service hread ⟨⟩
    exact readSystemdRow_unit hread

def launchdParser : RowParser (List Char × List Char) LaunchdService where
  read := readLaunchdRow none
  finish := finishLaunchdRow
  key := LaunchdService.serviceLabel
  idText line := (splitAsciiWhitespace line).getLast?
  idText_of_keep := by
    intro line id fields h
    unfold readLaunchdRow at h
    split at h
    · cases h
    rename_i label hlabel
    split at h
    · cases h
    split at h
    · split at h
      · cases h
        rw [hlabel, String.toList_ofList]
      · cases h
    · cases h
  idText_of_skip := by
    intro line h
    unfold readLaunchdRow at h
    split at h
    · assumption
    split at h
    · rename_i hrefused
      cases hrefused
    split at h
    · split at h <;> cases h
    · cases h
  key_of_finish _ hfinish := finishLaunchdRow_label hfinish

theorem readSystemdRow_some (ids : List ServiceId) :
    readSystemdRow (some ids) = systemdParser.strictRead ids := by
  funext line
  unfold RowParser.strictRead RowParser.allows
  show _ = if ((splitAsciiWhitespace line).head?.any (isAllowed (some ids))) = true then
    readSystemdRow none line else .skip
  cases hunit : (splitAsciiWhitespace line).head? with
  | none => exact readSystemdRow_nothing hunit
  | some unit =>
      rw [Option.any_some]
      by_cases hallowed : isAllowed (some ids) unit = true
      · rw [if_pos hallowed, readSystemdRow_allowed hunit hallowed]
      · rw [if_neg hallowed, readSystemdRow_refused hunit (Bool.eq_false_iff.mpr hallowed)]

theorem readLaunchdRow_some (ids : List ServiceId) :
    readLaunchdRow (some ids) = launchdParser.strictRead ids := by
  funext line
  unfold RowParser.strictRead RowParser.allows
  show _ = if ((splitAsciiWhitespace line).getLast?.any (isAllowed (some ids))) = true then
    readLaunchdRow none line else .skip
  cases hlabel : (splitAsciiWhitespace line).getLast? with
  | none => exact readLaunchdRow_nothing hlabel
  | some label =>
      rw [Option.any_some]
      by_cases hallowed : isAllowed (some ids) label = true
      · rw [if_pos hallowed, readLaunchdRow_allowed hlabel hallowed]
      · rw [if_neg hallowed, readLaunchdRow_refused hlabel (Bool.eq_false_iff.mpr hallowed)]

/-- The rows that `parse_systemd_services` goes through. -/
def systemdRows (input : List UInt8) : Option (List (List Char)) :=
  match serviceText input with
  | .error _ => none
  | .ok text => some ((lines text).filter fun line => !isBlank line)

/-- The rows that `parse_launchd_services` goes through, behind the header. -/
def launchdRows (input : List UInt8) : Option (List (List Char)) :=
  match serviceText input with
  | .error _ => none
  | .ok text =>
      match (lines text).filter fun line => !isBlank line with
      | [] => none
      | header :: rows =>
          if (splitAsciiWhitespace header).map String.ofList ≠ ["PID", "Status", "Label"] then none
          else some rows

section

variable {input : List UInt8} {rows : List (List Char)}

theorem parseSystemdServices_none (h : systemdRows input = some rows) :
    parseSystemdServices input none =
      (systemdParser.discover rows).map systemdParser.sortServices := by
  unfold systemdRows at h
  unfold parseSystemdServices
  split at h
  · cases h
  rename_i text htext
  cases h
  rw [htext]
  show systemdParser.discover _ >>= _ = _
  cases systemdParser.discover _ <;> rfl

theorem parseSystemdServices_some (h : systemdRows input = some rows) (ids : List ServiceId) :
    parseSystemdServices input (some ids) =
      (systemdParser.parseStrict ids rows).map systemdParser.sortServices := by
  unfold systemdRows at h
  unfold parseSystemdServices
  split at h
  · cases h
  rename_i text htext
  cases h
  rw [htext, readSystemdRow_some]
  show systemdParser.parseStrict ids _ >>= _ = _
  cases systemdParser.parseStrict ids _ <;> rfl

theorem parseLaunchdServices_rows (h : launchdRows input = some rows)
    (allowlist : Option (List ServiceId)) :
    parseLaunchdServices input allowlist =
      (parseServiceRows allowlist.isNone (readLaunchdRow allowlist) finishLaunchdRow 0 [] []
        rows).map launchdParser.sortServices := by
  unfold launchdRows at h
  unfold parseLaunchdServices
  split at h
  · cases h
  rename_i text htext
  rw [htext]
  show (match (lines text).filter fun line => !isBlank line with
    | [] => _
    | header :: rows => _) = _
  split at h
  · cases h
  rename_i hlines
  split at h
  · cases h
  rename_i hheader
  cases h
  rw [if_neg hheader]
  cases parseServiceRows allowlist.isNone (readLaunchdRow allowlist) finishLaunchdRow 0 [] [] rows
    <;> rfl

theorem parseLaunchdServices_none (h : launchdRows input = some rows) :
    parseLaunchdServices input none =
      (launchdParser.discover rows).map launchdParser.sortServices :=
  parseLaunchdServices_rows h none

theorem parseLaunchdServices_some (h : launchdRows input = some rows) (ids : List ServiceId) :
    parseLaunchdServices input (some ids) =
      (launchdParser.parseStrict ids rows).map launchdParser.sortServices := by
  rw [parseLaunchdServices_rows h, readLaunchdRow_some]
  rfl

end

/-- Strict parsing returns the discovered services of an allowlist of discovered ids exactly
when the rows are within the cap and each of the ids stands on one of them, and within the
cap no row without an allowed id is of account. -/
theorem strict_agrees_with_discovery :
    (∀ (input : List UInt8) (ids : List ServiceId) (rows : List (List Char))
        (discovered : List SystemdService),
      systemdRows input = some rows → parseSystemdServices input none = .ok discovered →
      (∀ id ∈ ids, id ∈ discovered.map SystemdService.unit) →
        (parseSystemdServices input (some ids) =
            .ok (discovered.filter fun service => decide (service.unit ∈ ids)) ↔
          rows.length ≤ maxServiceRows ∧ ∀ id ∈ ids, systemdParser.StandsOnce rows id)) ∧
    (∀ (input : List UInt8) (ids : List ServiceId) (rows : List (List Char))
        (discovered : List LaunchdService),
      launchdRows input = some rows → parseLaunchdServices input none = .ok discovered →
      (∀ id ∈ ids, id ∈ discovered.map LaunchdService.serviceLabel) →
        (parseLaunchdServices input (some ids) =
            .ok (discovered.filter fun service => decide (service.serviceLabel ∈ ids)) ↔
          rows.length ≤ maxServiceRows ∧ ∀ id ∈ ids, launchdParser.StandsOnce rows id)) ∧
    (∀ (input input' : List UInt8) (ids : List ServiceId) (rows rows' : List (List Char)),
      systemdRows input = some rows → systemdRows input' = some rows' →
      rows.length ≤ maxServiceRows → rows'.length ≤ maxServiceRows →
      rows.filter (systemdParser.allows ids) = rows'.filter (systemdParser.allows ids) →
        parseSystemdServices input (some ids) = parseSystemdServices input' (some ids)) ∧
    ∀ (input input' : List UInt8) (ids : List ServiceId) (rows rows' : List (List Char)),
      launchdRows input = some rows → launchdRows input' = some rows' →
      rows.length ≤ maxServiceRows → rows'.length ≤ maxServiceRows →
      rows.filter (launchdParser.allows ids) = rows'.filter (launchdParser.allows ids) →
        parseLaunchdServices input (some ids) = parseLaunchdServices input' (some ids) := by
  refine ⟨?_, ?_, ?_, ?_⟩
  · intro input ids rows discovered hinput hdiscovered hids
    rw [parseSystemdServices_none hinput] at hdiscovered
    rw [parseSystemdServices_some hinput]
    obtain ⟨out, hdisc, rfl⟩ := map_ok hdiscovered
    exact RowParser.strict_iff hdisc hids
  · intro input ids rows discovered hinput hdiscovered hids
    rw [parseLaunchdServices_none hinput] at hdiscovered
    rw [parseLaunchdServices_some hinput]
    obtain ⟨out, hdisc, rfl⟩ := map_ok hdiscovered
    exact RowParser.strict_iff hdisc hids
  · intro input input' ids rows rows' hinput hinput' hrows hrows' hsame
    rw [parseSystemdServices_some hinput, parseSystemdServices_some hinput',
      RowParser.parseStrict_congr hrows hrows' hsame]
  · intro input input' ids rows rows' hinput hinput' hrows hrows' hsame
    rw [parseLaunchdServices_some hinput, parseLaunchdServices_some hinput',
      RowParser.parseStrict_congr hrows hrows' hsame]

/-! A service on one row, on one row among others, and on two rows. -/

def app : ServiceId := ⟨"app.service", by decide +kernel⟩

def agent : ServiceId := ⟨"com.app", by decide +kernel⟩

def appOnce : List UInt8 := "app.service loaded active running\n".toUTF8.data.toList

def appAmongOthers : List UInt8 :=
  "db.service ? ? ?\napp.service loaded active running\n".toUTF8.data.toList

def appTwice : List UInt8 :=
  "app.service loaded active running\napp.service loaded inactive dead\n".toUTF8.data.toList

def agentOnce : List UInt8 := "PID Status Label\n77 0 com.app\n".toUTF8.data.toList

theorem strict_agrees_with_discovery_app :
    (∃ discovered, parseSystemdServices appOnce none = .ok discovered ∧
      parseSystemdServices appOnce (some [app]) =
        .ok (discovered.filter fun service => decide (service.unit ∈ [app]))) ∧
    (∃ discovered, parseLaunchdServices agentOnce none = .ok discovered ∧
      parseLaunchdServices agentOnce (some [agent]) =
        .ok (discovered.filter fun service => decide (service.serviceLabel ∈ [agent]))) ∧
    parseSystemdServices appOnce (some [app]) = parseSystemdServices appAmongOthers (some [app]) := by
  obtain ⟨hsystemd, hlaunchd, hothers, -⟩ := strict_agrees_with_discovery
  have honce : systemdRows appOnce = some ["app.service loaded active running".toList] := by
    decide +kernel
  have hamong : systemdRows appAmongOthers =
      some ["db.service ? ? ?".toList, "app.service loaded active running".toList] := by
    decide +kernel
  have hagent : launchdRows agentOnce = some ["77 0 com.app".toList] := by decide +kernel
  have happ : (parseSystemdServices appOnce none).map (·.map SystemdService.unit) = .ok [app] := by
    decide +kernel
  have hlabel : (parseLaunchdServices agentOnce none).map (·.map LaunchdService.serviceLabel) =
      .ok [agent] := by
    decide +kernel
  refine ⟨?_, ?_, ?_⟩
  · obtain ⟨discovered, hdiscovered, hunits⟩ := map_ok happ
    refine ⟨discovered, hdiscovered, (hsystemd _ _ _ _ honce hdiscovered ?_).mpr ?_⟩
    · rw [hunits]
      exact fun _ h => h
    · refine ⟨by decide, List.forall_mem_singleton.mpr ?_⟩
      unfold RowParser.StandsOnce
      decide +kernel
  · obtain ⟨discovered, hdiscovered, hlabels⟩ := map_ok hlabel
    refine ⟨discovered, hdiscovered, (hlaunchd _ _ _ _ hagent hdiscovered ?_).mpr ?_⟩
    · rw [hlabels]
      exact fun _ h => h
    · refine ⟨by decide, List.forall_mem_singleton.mpr ?_⟩
      unfold RowParser.StandsOnce
      decide +kernel
  · exact hothers _ _ _ _ _ honce hamong (by decide) (by decide) (by decide)

/-- Discovery lists a service from the first of its rows; strict parsing fails on the second. -/
theorem appTwice_fails :
    ∃ discovered, parseSystemdServices appTwice none = .ok discovered ∧
      discovered.map SystemdService.unit = [app] ∧
      parseSystemdServices appTwice (some [app]) = .error .duplicate := by
  have happ : (parseSystemdServices appTwice none).map (·.map SystemdService.unit) = .ok [app] := by
    decide
  have hstrict : (parseSystemdServices appTwice (some [app])).map List.length =
      .error .duplicate := by
    decide +kernel
  obtain ⟨discovered, hdiscovered, hunits⟩ := map_ok happ
  refine ⟨discovered, hdiscovered, hunits, ?_⟩
  cases h : parseSystemdServices appTwice (some [app]) with
  | error kind =>
      rw [h] at hstrict
      cases hstrict
      rfl
  | ok services =>
      rw [h] at hstrict
      cases hstrict

end Ssh

end NextInfra
