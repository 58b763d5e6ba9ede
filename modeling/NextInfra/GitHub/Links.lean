import NextInfra.GitHub.Client
import NextInfra.Lib.Separated

/-!
# Reading a `Link` header

A `Link` header lists entries: a URL in angle brackets, then parameters with quoted values.
`next_url` cuts the header at its commas and each piece at its semicolons, wherever these
stand. A piece announces a next page when one of its fields is the parameter `rel="next"`,
and its first field is taken for the target.

What a header announces is therefore decided by its *leads*, the first fields of the pieces
that announce a page (`nextUrl_eq`). Well-formed entries announce one page for each `next`
entry (`leads_text`), so that none is overlooked; the lead of an entry is its target only as
long as no separator stands in front of the parameter (`lead_reads_iff`).
-/

namespace NextInfra

namespace GitHub

/-! ## §1  Leads -/

/-- The parameter of a next page. -/
def relNext : List Char := "rel=\"next\"".toList

/-- The fields of a piece, trimmed. -/
def fieldsOf (piece : List Char) : List (List Char) := (piece.splitOn ';').map trim

/-- A field behind the first one is the parameter of a next page. -/
def Announces (piece : List Char) : Prop := relNext ∈ (fieldsOf piece).tail

instance (piece : List Char) : Decidable (Announces piece) :=
  inferInstanceAs (Decidable (relNext ∈ (fieldsOf piece).tail))

/-- What is taken for the target of a piece. -/
def lead (piece : List Char) : List Char := (fieldsOf piece).headD []

/-- The targets of the pieces that announce a page. -/
def leads (text : List Char) : List (List Char) :=
  ((text.splitOn ',').filter fun piece => decide (Announces piece)).map lead

/-- Blanks around a piece are no part of its fields. -/
theorem fieldsOf_append_left {before : List Char} (h : ∀ c ∈ before, isWhitespace c = true)
    (piece : List Char) : fieldsOf (before ++ piece) = fieldsOf piece := by
  have hfree : ';' ∉ before := fun hmem => absurd (h _ hmem) (by decide)
  obtain ⟨first, rest, hpiece⟩ := List.exists_cons_of_ne_nil (List.splitOn_ne_nil ';' piece)
  have hbefore : before.splitOn ';' = [] ++ [before] := List.splitOn_eq_singleton hfree
  unfold fieldsOf
  rw [Separated.splitOn_append hbefore hpiece, hpiece]
  show trim (before ++ first) :: rest.map trim = trim first :: rest.map trim
  rw [trim_append_left h]

theorem fieldsOf_append_right {after : List Char} (h : ∀ c ∈ after, isWhitespace c = true)
    (piece : List Char) : fieldsOf (piece ++ after) = fieldsOf piece := by
  have hfree : ';' ∉ after := fun hmem => absurd (h _ hmem) (by decide)
  have hlast := (List.dropLast_append_getLast (List.splitOn_ne_nil ';' piece)).symm
  have hafter : after.splitOn ';' = [after] := List.splitOn_eq_singleton hfree
  unfold fieldsOf
  rw [Separated.splitOn_append hlast hafter]
  conv_rhs => rw [hlast]
  rw [List.map_append, List.map_append, List.map_singleton, List.map_singleton,
    trim_append_right h]

theorem fieldsOf_trim (piece : List Char) : fieldsOf (trim piece) = fieldsOf piece := by
  obtain ⟨before, after, hpiece, hbefore, hafter⟩ := trim_spec piece
  conv_rhs => rw [hpiece, fieldsOf_append_left hbefore, fieldsOf_append_right hafter]

theorem fieldsOf_semicolon (front back : List Char) :
    fieldsOf (front ++ ';' :: back) = fieldsOf front ++ fieldsOf back := by
  unfold fieldsOf
  rw [List.splitOn_append_cons_self, List.map_append]

theorem fieldsOf_ne_nil (piece : List Char) : fieldsOf piece ≠ [] := by
  unfold fieldsOf
  rw [Ne, List.map_eq_nil_iff]
  exact List.splitOn_ne_nil ';' piece

theorem leads_comma (front back : List Char) :
    leads (front ++ ',' :: back) = leads front ++ leads back := by
  unfold leads
  rw [List.splitOn_append_cons_self, List.filter_append, List.map_append]

/-- A blank in front is no part of a lead. -/
theorem leads_blank (text : List Char) : leads (' ' :: text) = leads text := by
  have hblank : ∀ c ∈ [' '], isWhitespace c = true := List.forall_mem_singleton.mpr (by decide)
  obtain ⟨first, rest, htext⟩ := List.exists_cons_of_ne_nil (List.splitOn_ne_nil ',' text)
  have hpieces : (' ' :: text).splitOn ',' = (' ' :: first) :: rest :=
    @Separated.splitOn_append _ _ _ [' '] text [' '] first [] rest rfl htext
  have hfields : fieldsOf (' ' :: first) = fieldsOf first := fieldsOf_append_left hblank first
  have hannounces : Announces (' ' :: first) ↔ Announces first := by
    unfold Announces
    rw [hfields]
  have hlead : lead (' ' :: first) = lead first := by
    unfold lead
    rw [hfields]
  unfold leads
  rw [hpieces, htext, List.filter_cons, List.filter_cons]
  simp only [hannounces]
  split
  · rw [List.map_cons, List.map_cons, hlead]
  · rfl

section

variable (wire : Wire)

/-- A target is read: it is bracketed, it is a URL, and it is one of the API. -/
def readTarget (target : List Char) : Except ConnectorFailure Url :=
  match linkTarget target with
  | none => .error (invalidResponse "GitHub Link header is malformed")
  | some raw =>
      match wire.parse raw with
      | none => .error (invalidResponse "GitHub next link is not a valid URL")
      | some url => (validateApiUrl wire url).map fun _ => url

def readTargets : List (List Char) → Option Url → Except ConnectorFailure (Option Url)
  | [], next => .ok next
  | target :: rest, next => do
      match ← readTarget wire target, next with
      | _, some _ => .error (invalidResponse "GitHub Link header contains multiple next targets")
      | url, none => readTargets rest (some url)

theorem linkTarget_trim (target : List Char) : linkTarget (trim target) = linkTarget target := by
  unfold linkTarget
  rw [trim_trim]

theorem nextOfEntry_eq (piece : List Char) :
    nextOfEntry wire piece =
      if Announces piece then (readTarget wire (lead piece)).map some else .ok none := by
  obtain ⟨target, parts, hcut⟩ := List.exists_cons_of_ne_nil (List.splitOn_ne_nil ';' (trim piece))
  have hfields : fieldsOf piece = trim target :: parts.map trim := by
    rw [← fieldsOf_trim]
    unfold fieldsOf
    rw [hcut, List.map_cons]
  have hlead : lead piece = trim target := by
    unfold lead
    rw [hfields, List.headD_cons]
  have hany : parts.any (fun part => trim part == "rel=\"next\"".toList) = true ↔
      Announces piece := by
    unfold Announces
    rw [hfields, List.tail_cons, List.any_eq_true, List.mem_map]
    simp only [beq_iff_eq]
    rfl
  unfold nextOfEntry
  rw [hcut, hlead]
  simp only [hany]
  split
  · unfold readTarget
    rw [linkTarget_trim]
    cases linkTarget target with
    | none => rfl
    | some raw =>
        cases hparse : wire.parse raw with
        | none => simp [hparse, Except.map]
        | some url =>
            simp only [hparse]
            cases validateApiUrl wire url <;> rfl
  · rfl

theorem nextOfEntries_eq (pieces : List (List Char)) (next : Option Url) :
    nextOfEntries wire pieces next =
      readTargets wire ((pieces.filter fun piece => decide (Announces piece)).map lead) next := by
  induction pieces generalizing next with
  | nil => rfl
  | cons piece pieces ih =>
      unfold nextOfEntries
      rw [nextOfEntry_eq, List.filter_cons]
      by_cases hannounces : Announces piece
      · rw [if_pos hannounces, if_pos (decide_eq_true hannounces), List.map_cons]
        unfold readTargets
        cases readTarget wire (lead piece) with
        | error failure => rfl
        | ok url =>
            cases next with
            | none => exact ih (some url)
            | some _ => rfl
      · rw [if_neg hannounces, if_neg (by simp [hannounces])]
        cases next with
        | none => exact ih none
        | some url => exact ih (some url)

/-- A header announces what its leads do. -/
theorem nextUrl_eq (link : String) : nextUrl wire link = readTargets wire (leads link.toList) none :=
  nextOfEntries_eq wire _ none

theorem readTargets_ok {targets : List (List Char)} {next result : Option Url}
    (h : readTargets wire targets next = .ok result) :
    targets = [] ∧ next = result ∨
      ∃ target url, targets = [target] ∧ next = none ∧ readTarget wire target = .ok url ∧
        result = some url := by
  cases targets with
  | nil => exact .inl ⟨rfl, Except.ok.inj h⟩
  | cons target rest =>
      unfold readTargets at h
      obtain ⟨url, hurl, h⟩ := bind_ok h
      cases next with
      | some _ => cases h
      | none =>
          cases rest with
          | nil => exact .inr ⟨target, url, rfl, rfl, hurl, (Except.ok.inj h).symm⟩
          | cons second rest =>
              unfold readTargets at h
              obtain ⟨_, _, h⟩ := bind_ok h
              cases h

/-- No next page is read exactly where no piece announces one. -/
theorem nextUrl_none_iff (link : String) :
    nextUrl wire link = .ok none ↔ leads link.toList = [] := by
  rw [nextUrl_eq]
  constructor
  · intro h
    rcases readTargets_ok wire h with ⟨hnil, _⟩ | ⟨_, _, _, _, _, hsome⟩
    · exact hnil
    · cases hsome
  · intro h
    rw [h]
    rfl

end

/-! ## §2  Texts that announce nothing -/

/-- No field of the text is the parameter of a next page. -/
def NextFree (text : List Char) : Prop := ∀ piece ∈ text.splitOn ',', relNext ∉ fieldsOf piece

/-- What stands behind the last comma. -/
def lastPiece (text : List Char) : List Char := (text.splitOn ',').getLastD []

theorem not_announces {piece : List Char} (h : relNext ∉ fieldsOf piece) : ¬ Announces piece :=
  fun hmem => h (List.mem_of_mem_tail hmem)

theorem NextFree.leads {text : List Char} (h : NextFree text) : leads text = [] := by
  unfold GitHub.leads
  rw [List.map_eq_nil_iff, List.filter_eq_nil_iff]
  intro piece hpiece
  simpa using not_announces (h piece hpiece)

/-- A semicolon between two texts stands within one piece. -/
theorem splitOn_semicolon (front : List Char) {back first : List Char} {rest : List (List Char)}
    (hback : back.splitOn ',' = first :: rest) :
    (front ++ ';' :: back).splitOn ',' =
      (front.splitOn ',').dropLast ++ (lastPiece front ++ ';' :: first) :: rest := by
  have hne := List.splitOn_ne_nil ',' front
  have hfront : front.splitOn ',' = (front.splitOn ',').dropLast ++ [lastPiece front] := by
    unfold lastPiece
    rw [List.getLastD_eq_getLast?, List.getLast?_eq_some_getLast hne, Option.getD_some]
    exact (List.dropLast_append_getLast hne).symm
  have hsemicolon : (';' :: back).splitOn ',' = (';' :: first) :: rest :=
    @Separated.splitOn_append _ _ _ [';'] back [';'] first [] rest rfl hback
  exact Separated.splitOn_append hfront hsemicolon

theorem lastPiece_mem (text : List Char) : lastPiece text ∈ text.splitOn ',' := by
  have hne := List.splitOn_ne_nil ',' text
  unfold lastPiece
  rw [List.getLastD_eq_getLast?, List.getLast?_eq_some_getLast hne, Option.getD_some]
  exact List.getLast_mem hne

theorem NextFree.semicolon {front back : List Char} (hfront : NextFree front)
    (hback : NextFree back) :
    NextFree (front ++ ';' :: back) := by
  obtain ⟨first, rest, hpieces⟩ := List.exists_cons_of_ne_nil (List.splitOn_ne_nil ',' back)
  have hmem : ∀ piece ∈ first :: rest, relNext ∉ fieldsOf piece := fun piece hpiece =>
    hback piece (hpieces ▸ hpiece)
  intro piece hpiece
  rw [splitOn_semicolon front hpieces, List.mem_append, List.mem_cons] at hpiece
  rcases hpiece with hpiece | rfl | hpiece
  · exact hfront piece (List.dropLast_subset _ hpiece)
  · rw [fieldsOf_semicolon, List.mem_append, not_or]
    exact ⟨hfront _ (lastPiece_mem front), hmem first List.mem_cons_self⟩
  · exact hmem piece (List.mem_cons_of_mem _ hpiece)

theorem NextFree.comma {front back : List Char} (hfront : NextFree front) (hback : NextFree back) :
    NextFree (front ++ ',' :: back) := by
  intro piece hpiece
  rw [List.splitOn_append_cons_self, List.mem_append] at hpiece
  rcases hpiece with hpiece | hpiece
  · exact hfront piece hpiece
  · exact hback piece hpiece

/-- The parameter has two quotes, so that a text with less of them does not hold it. -/
theorem nextFree_of_count {text : List Char} (h : text.count '"' < 2) : NextFree text := by
  intro piece hpiece hmem
  unfold fieldsOf at hmem
  obtain ⟨field, hfield, htrim⟩ := List.mem_map.mp hmem
  have hcount : (trim field).count '"' = 2 := by
    rw [htrim]
    decide
  have htrimmed : (trim field).Sublist field := by
    obtain ⟨before, after, hspec, _⟩ := trim_spec field
    conv_rhs => rw [hspec]
    exact (List.sublist_append_left _ _).trans (List.sublist_append_right _ _)
  have hsub := (htrimmed.trans (Separated.sublist_of_mem_splitOn hfield)).trans
    (Separated.sublist_of_mem_splitOn hpiece)
  have hle := hsub.count_le '"'
  omega

/-- A text that announces nothing, with the parameter behind it, announces what its last piece
starts with. -/
theorem leads_next {front back first : List Char} {rest : List (List Char)}
    (hfront : NextFree front) (hback : back.splitOn ',' = first :: rest) (hfirst : relNext ∈ fieldsOf first)
    (hrest : ∀ piece ∈ rest, relNext ∉ fieldsOf piece) :
    leads (front ++ ';' :: back) = [lead (lastPiece front)] := by
  obtain ⟨field, fields, hfields⟩ := List.exists_cons_of_ne_nil (fieldsOf_ne_nil (lastPiece front))
  have hannounces : Announces (lastPiece front ++ ';' :: first) := by
    unfold Announces
    rw [fieldsOf_semicolon, hfields, List.cons_append, List.tail_cons]
    exact List.mem_append_right _ hfirst
  have hlead : lead (lastPiece front ++ ';' :: first) = lead (lastPiece front) := by
    unfold lead
    rw [fieldsOf_semicolon, hfields]
    rfl
  have hbefore : (front.splitOn ',').dropLast.filter (fun piece => decide (Announces piece)) = [] := by
    rw [List.filter_eq_nil_iff]
    intro piece hpiece
    simpa using not_announces (hfront piece (List.dropLast_subset _ hpiece))
  have hafter : rest.filter (fun piece => decide (Announces piece)) = [] := by
    rw [List.filter_eq_nil_iff]
    intro piece hpiece
    simpa using not_announces (hrest piece hpiece)
  unfold leads
  rw [splitOn_semicolon front hback, List.filter_append, hbefore, List.filter_cons,
    if_pos (decide_eq_true hannounces), hafter, List.nil_append, List.map_singleton, hlead]

/-! ## §3  Entries -/

/-- A parameter of a link: a token and a quoted value. -/
structure LinkParam where
  name : List Char
  value : List Char
  name_token : ∀ c ∈ name, c ≠ '"' ∧ c ≠ '=' ∧ c ≠ ',' ∧ c ≠ ';' ∧ isWhitespace c = false
  value_quoted : '"' ∉ value

namespace LinkParam

def text (p : LinkParam) : List Char := p.name ++ '=' :: '"' :: (p.value ++ ['"'])

def IsNext (p : LinkParam) : Prop := p.name = "rel".toList ∧ p.value = "next".toList

instance (p : LinkParam) : Decidable p.IsNext :=
  inferInstanceAs (Decidable (_ ∧ _))

theorem text_next {p : LinkParam} (h : p.IsNext) : p.text = relNext := by
  unfold text
  rw [h.1, h.2]
  rfl

/-- A text before the first `=` is determined by the whole. -/
theorem text_eq_iff {p : LinkParam} : p.text = relNext ↔ p.IsNext := by
  constructor
  · intro h
    have hname : '=' ∉ p.name := fun hmem => (p.name_token _ hmem).2.1 rfl
    have hcut : p.text.splitOn '=' = ['r', 'e', 'l'] :: ("\"next\"".toList).splitOn '=' := by
      rw [h]
      decide
    unfold text at hcut h
    rw [List.splitOn_append_cons_self_of_not_mem hname] at hcut
    have hrel : p.name = "rel".toList := (List.cons.inj hcut).1
    rw [hrel] at h
    have hvalue : p.value ++ ['"'] = "next".toList ++ ['"'] :=
      (List.cons.inj (@List.append_cancel_left _ "rel=".toList _ _ h)).2
    exact ⟨hrel, List.append_cancel_right hvalue⟩
  · exact text_next

theorem trim_text (p : LinkParam) : trim (' ' :: p.text) = p.text := by
  have hblank : ∀ c ∈ [' '], isWhitespace c = true := List.forall_mem_singleton.mpr (by decide)
  have hself : trim p.text = p.text := by
    unfold text
    cases hname : p.name with
    | nil =>
        exact @trim_of_ends '=' '"' ('"' :: p.value) (by decide) (by decide)
    | cons c name =>
        have hc : isWhitespace c = false := (p.name_token c (hname ▸ List.mem_cons_self)).2.2.2.2
        have hends := @trim_of_ends c '"' (name ++ '=' :: '"' :: p.value) hc (by decide)
        simpa using hends
  rw [show ' ' :: p.text = [' '] ++ p.text from rfl, trim_append_left hblank, hself]

theorem count_name (p : LinkParam) : p.name.count '"' = 0 :=
  List.count_eq_zero.mpr fun hmem => (p.name_token _ hmem).1 rfl

/-- The field of a parameter is that of a next page only where the parameter is. A separator within
the value leaves one quote on each side. -/
theorem nextFree_text {p : LinkParam} (h : ¬ p.IsNext) : NextFree (' ' :: p.text) := by
  have hcut : ∀ {sep : Char} {front back : List Char}, p.value = front ++ sep :: back →
      ' ' :: p.text = (' ' :: (p.name ++ '=' :: '"' :: front)) ++ sep :: (back ++ ['"']) ∧
        NextFree (' ' :: (p.name ++ '=' :: '"' :: front)) ∧ NextFree (back ++ ['"']) := by
    intro sep front back hvalue
    have hfree := p.value_quoted
    rw [hvalue, List.mem_append, List.mem_cons, not_or, not_or] at hfree
    refine ⟨by simp [text, hvalue], nextFree_of_count ?_, nextFree_of_count ?_⟩
    · simp [p.count_name, List.count_eq_zero.mpr hfree.1]
    · simp [List.count_eq_zero.mpr hfree.2.2]
  by_cases hcomma : ',' ∈ p.value
  · obtain ⟨front, back, hvalue⟩ := List.append_of_mem hcomma
    obtain ⟨htext, hfront, hback⟩ := hcut hvalue
    rw [htext]
    exact hfront.comma hback
  · by_cases hsemicolon : ';' ∈ p.value
    · obtain ⟨front, back, hvalue⟩ := List.append_of_mem hsemicolon
      obtain ⟨htext, hfront, hback⟩ := hcut hvalue
      rw [htext]
      exact hfront.semicolon hback
    · have hfree : ∀ {sep : Char}, (sep = ',' ∨ sep = ';') → sep ∉ p.value →
          sep ∉ ' ' :: p.text := by
        intro sep hsep hvalue
        have hname : sep ∉ p.name := fun hmem => by
          have := p.name_token _ hmem
          rcases hsep with rfl | rfl <;> simp at this
        rcases hsep with rfl | rfl <;> simp [text, hname, hvalue]
      intro piece hpiece
      rw [List.splitOn_eq_singleton (hfree (.inl rfl) hcomma), List.mem_singleton] at hpiece
      subst hpiece
      unfold fieldsOf
      rw [List.splitOn_eq_singleton (hfree (.inr rfl) hsemicolon), List.map_singleton, p.trim_text,
        List.mem_singleton]
      exact fun heq => h (text_eq_iff.mp heq.symm)

end LinkParam

/-- What stands behind the target. -/
def paramsText (params : List LinkParam) : List Char :=
  params.flatMap fun p => ';' :: ' ' :: p.text

/-- An entry of a `Link` header: a URL in angle brackets and its parameters. -/
structure LinkEntry where
  target : List Char
  params : List LinkParam
  target_bracketed : ∀ c ∈ target, c ≠ '<' ∧ c ≠ '>' ∧ c ≠ '"'
  rel_once : (params.map LinkParam.name).count "rel".toList ≤ 1

namespace LinkEntry

def text (e : LinkEntry) : List Char := '<' :: (e.target ++ '>' :: paramsText e.params)

/-- The entry names the next page. -/
def IsNext (e : LinkEntry) : Prop := ∃ p ∈ e.params, p.IsNext

/-- The parameters in front of the one of a next page. -/
def before (e : LinkEntry) : List LinkParam := e.params.takeWhile fun p => decide ¬ p.IsNext

/-- The text of an entry up to the parameter of a next page. -/
def opening (e : LinkEntry) : List Char := '<' :: (e.target ++ '>' :: paramsText e.before)

end LinkEntry

theorem NextFree.params {text : List Char} {params : List LinkParam} (htext : NextFree text)
    (h : ∀ p ∈ params, ¬ p.IsNext) : NextFree (text ++ paramsText params) := by
  induction params generalizing text with
  | nil =>
      unfold paramsText
      rw [List.flatMap_nil, List.append_nil]
      exact htext
  | cons p params ih =>
      have hp := htext.semicolon (LinkParam.nextFree_text (h p List.mem_cons_self))
      have hrest := ih hp fun q hq => h q (List.mem_cons_of_mem _ hq)
      unfold paramsText at hrest ⊢
      rw [List.flatMap_cons]
      simpa using hrest

theorem LinkEntry.nextFree_target (e : LinkEntry) : NextFree ('<' :: (e.target ++ ['>'])) := by
  have hcount : e.target.count '"' = 0 :=
    List.count_eq_zero.mpr fun hmem => (e.target_bracketed _ hmem).2.2 rfl
  refine nextFree_of_count ?_
  simp [hcount]

/-- An entry that does not name the next page announces none. -/
theorem LinkEntry.leads_of_not_next {e : LinkEntry} (h : ¬ e.IsNext) : leads e.text = [] := by
  have hparams : ∀ p ∈ e.params, ¬ p.IsNext := fun p hp hnext => h ⟨p, hp, hnext⟩
  have hfree := e.nextFree_target.params hparams
  refine NextFree.leads ?_
  unfold text
  simpa using hfree

theorem LinkEntry.opening_nextFree (e : LinkEntry) : NextFree e.opening := by
  have hbefore : ∀ p ∈ e.before, ¬ p.IsNext := by
    intro p hp
    unfold before at hp
    simpa using List.mem_takeWhile_imp hp
  have hfree := e.nextFree_target.params hbefore
  unfold opening
  simpa using hfree

/-- Only one parameter of an entry names a relation. -/
theorem LinkEntry.params_next {e : LinkEntry} (h : e.IsNext) :
    ∃ p after, e.params = e.before ++ p :: after ∧ p.IsNext ∧ ∀ q ∈ after, ¬ q.IsNext := by
  obtain ⟨p, hp, hnext⟩ := h
  have hsplit : e.params = e.before ++ e.params.dropWhile fun p => decide ¬ p.IsNext :=
    List.takeWhile_append_dropWhile.symm
  cases hdrop : e.params.dropWhile fun p => decide ¬ p.IsNext with
  | nil =>
      have hall := List.dropWhile_eq_nil_iff.mp hdrop p hp
      exact absurd hnext (of_decide_eq_true hall)
  | cons q after =>
      rw [hdrop] at hsplit
      have hq : q.IsNext := by
        have hhead := List.head?_dropWhile_not (fun p : LinkParam => decide ¬ p.IsNext) e.params
        rw [hdrop] at hhead
        simpa using hhead
      refine ⟨q, after, hsplit, hq, fun r hr hrnext => ?_⟩
      have honce := e.rel_once
      rw [hsplit, List.map_append, List.map_cons, List.count_append, List.count_cons, hq.1] at honce
      have hpositive : 0 < (after.map LinkParam.name).count "rel".toList :=
        List.count_pos_iff.mpr (List.mem_map.mpr ⟨r, hr, hrnext.1⟩)
      rw [if_pos (beq_self_eq_true _)] at honce
      omega

/-- An entry that names the next page announces what its last piece starts with. -/
theorem LinkEntry.leads_of_next {e : LinkEntry} (h : e.IsNext) :
    leads e.text = [lead (lastPiece e.opening)] := by
  obtain ⟨p, after, hparams, hp, hafter⟩ := LinkEntry.params_next h
  have htext : e.text = e.opening ++ ';' :: (' ' :: relNext ++ paramsText after) := by
    unfold text opening
    rw [hparams]
    unfold paramsText
    rw [List.flatMap_append, List.flatMap_cons, LinkParam.text_next hp]
    simp
  have hblank : ∀ c ∈ [' '], isWhitespace c = true := List.forall_mem_singleton.mpr (by decide)
  have hfield : fieldsOf (' ' :: relNext) = [relNext] := by decide
  have hfree : (' ' :: relNext).splitOn ',' = [' ' :: relNext] := by decide
  rw [htext]
  cases after with
  | nil =>
      have hnil : ' ' :: relNext ++ paramsText [] = ' ' :: relNext := by
        unfold paramsText
        rw [List.flatMap_nil, List.append_nil]
      rw [hnil]
      exact leads_next e.opening_nextFree hfree (by rw [hfield]; exact List.mem_singleton_self _)
        (fun _ hmem => absurd hmem List.not_mem_nil)
  | cons q after =>
      have hrest : NextFree (' ' :: q.text ++ paramsText after) :=
        (LinkParam.nextFree_text (hafter q List.mem_cons_self)).params
          fun r hr => hafter r (List.mem_cons_of_mem _ hr)
      have hcons : ' ' :: relNext ++ paramsText (q :: after) =
          ' ' :: relNext ++ ';' :: (' ' :: q.text ++ paramsText after) := by
        unfold paramsText
        rw [List.flatMap_cons]
        simp
      obtain ⟨first, rest, hpieces⟩ :=
        List.exists_cons_of_ne_nil (List.splitOn_ne_nil ',' (' ' :: q.text ++ paramsText after))
      have hback := splitOn_semicolon (' ' :: relNext) hpieces
      rw [hfree] at hback
      rw [hcons]
      refine leads_next e.opening_nextFree hback ?_ fun piece hpiece =>
        hrest piece (hpieces ▸ List.mem_cons_of_mem _ hpiece)
      rw [fieldsOf_semicolon]
      exact List.mem_append_left _ (by decide)

/-! ## §4  Headers -/

def linkHeader (entries : List LinkEntry) : String :=
  String.ofList ([',', ' '].intercalate (entries.map LinkEntry.text))

/-- A header announces what its entries do. -/
theorem leads_header (entries : List LinkEntry) :
    leads (linkHeader entries).toList = entries.flatMap fun e => leads e.text := by
  unfold linkHeader
  rw [String.toList_ofList]
  induction entries with
  | nil => decide
  | cons e entries ih =>
      cases entries with
      | nil => simp
      | cons e' entries =>
          rw [List.map_cons, List.map_cons, List.intercalate_cons_cons, ← List.map_cons,
            List.flatMap_cons, ← ih]
          show leads (e.text ++ [',', ' '] ++ _) = _
          rw [List.append_assoc]
          show leads (e.text ++ ',' :: ' ' :: [',', ' '].intercalate _) = _
          rw [leads_comma, leads_blank]

/-! ## §5  What a lead reads as -/

theorem lastPiece_of_not_mem {text : List Char} (h : ',' ∉ text) : lastPiece text = text := by
  unfold lastPiece
  rw [List.splitOn_eq_singleton h]
  rfl

theorem lastPiece_comma (front : List Char) {back : List Char} (h : ',' ∉ back) :
    lastPiece (front ++ ',' :: back) = back := by
  unfold lastPiece
  rw [Separated.splitOn_last h, List.getLastD_concat]

theorem lead_of_not_mem {text : List Char} (h : ';' ∉ text) : lead text = trim text := by
  unfold lead fieldsOf
  rw [List.splitOn_eq_singleton h]
  rfl

theorem lead_semicolon (front back : List Char) : lead (front ++ ';' :: back) = lead front := by
  obtain ⟨field, fields, hfields⟩ := List.exists_cons_of_ne_nil (fieldsOf_ne_nil front)
  unfold lead
  rw [fieldsOf_semicolon, hfields]
  rfl

/-- Parameters are no part of a lead. -/
theorem lead_params (text : List Char) (params : List LinkParam) :
    lead (text ++ paramsText params) = lead text := by
  cases params with
  | nil =>
      unfold paramsText
      rw [List.flatMap_nil, List.append_nil]
  | cons p params => exact lead_semicolon text _

theorem not_mem_paramsText {params : List LinkParam} (h : ∀ p ∈ params, ',' ∉ p.value) :
    ',' ∉ paramsText params := by
  intro hmem
  unfold paramsText at hmem
  obtain ⟨p, hp, hmem⟩ := List.mem_flatMap.mp hmem
  have hname : ',' ∉ p.name := fun hin => (p.name_token _ hin).2.2.1 rfl
  simp [LinkParam.text, hname, h p hp] at hmem

theorem lead_subset (text : List Char) : lead text ⊆ text := by
  intro c hc
  obtain ⟨field, fields, hfields⟩ := List.exists_cons_of_ne_nil (List.splitOn_ne_nil ';' text)
  have hlead : lead text = trim field := by
    unfold lead fieldsOf
    rw [hfields]
    rfl
  obtain ⟨before, after, hspec, _⟩ := trim_spec field
  have hfield : c ∈ field := by
    rw [hspec]
    exact List.mem_append_right _ (List.mem_append_left _ (hlead ▸ hc))
  exact (Separated.sublist_of_mem_splitOn (hfields ▸ List.mem_cons_self)).subset hfield

theorem linkTarget_some {target : List Char} {raw : String} (h : linkTarget target = some raw) :
    trim target = '<' :: (raw.toList ++ ['>']) := by
  unfold linkTarget at h
  split at h
  · rename_i rest htrim
    obtain ⟨inner, hinner, hraw⟩ := Option.map_eq_some_iff.mp h
    subst hraw
    unfold Text.stripSuffix at hinner
    split at hinner
    · rename_i hlast
      obtain rfl := Option.some.inj hinner
      rw [htrim, String.toList_ofList, List.dropLast_append_getLast? _ hlast]
    · cases hinner
  · cases h

theorem linkTarget_bracketed (target : List Char) :
    linkTarget ('<' :: (target ++ ['>'])) = some (String.ofList target) := by
  have htrim : trim ('<' :: (target ++ ['>'])) = '<' :: (target ++ ['>']) :=
    @trim_of_ends '<' '>' target (by decide) (by decide)
  unfold linkTarget
  rw [htrim]
  simp [Text.stripSuffix]

/-- A text that is read as a target has both brackets. -/
theorem linkTarget_none {text : List Char} (h : '<' ∉ text ∨ '>' ∉ text) :
    linkTarget (lead text) = none := by
  cases htarget : linkTarget (lead text) with
  | none => rfl
  | some raw =>
      have htrim := linkTarget_some htarget
      obtain ⟨before, after, hspec, _⟩ := trim_spec (lead text)
      have hmem : ∀ c ∈ '<' :: (raw.toList ++ ['>']), c ∈ text := by
        intro c hc
        refine lead_subset text ?_
        rw [hspec, htrim]
        exact List.mem_append_right _ (List.mem_append_left _ hc)
      rcases h with h | h
      · exact absurd (hmem '<' (by simp)) h
      · exact absurd (hmem '>' (by simp)) h

theorem linkTarget_quote (text : List Char) : linkTarget (text ++ ['"']) = none := by
  cases htarget : linkTarget (text ++ ['"']) with
  | none => rfl
  | some raw =>
      have htrim := linkTarget_some htarget
      obtain ⟨before, after, hspec, _, hafter⟩ := trim_spec (text ++ ['"'])
      rw [htrim] at hspec
      rcases List.eq_nil_or_concat after with rfl | ⟨init, c, rfl⟩
      · have hends : text ++ ['"'] = (before ++ '<' :: raw.toList) ++ ['>'] := by simpa using hspec
        cases List.append_inj_right' hends rfl
      · have hends : text ++ ['"'] = (before ++ '<' :: (raw.toList ++ '>' :: init)) ++ [c] := by
          simpa using hspec
        cases List.append_inj_right' hends rfl
        exact absurd (hafter '"' (by simp)) (by decide)

namespace LinkEntry

/-- No separator stands where the reader would cut. -/
def Plain (e : LinkEntry) : Prop :=
  ',' ∉ e.target ∧ ';' ∉ e.target ∧ ∀ p ∈ e.before, ',' ∉ p.value

/-- What stands behind the last comma in the parameters in front, up to a semicolon, is the same
URL in brackets. -/
def Copied (wire : Wire) (e : LinkEntry) : Prop :=
  ∃ front p back skipped copy rest, e.before = front ++ p :: back ∧ (∀ q ∈ back, ',' ∉ q.value) ∧
    p.value = skipped ++ ',' :: (copy ++ ';' :: rest) ∧ ',' ∉ copy ++ ';' :: rest ∧ ';' ∉ copy ∧
    (linkTarget copy).bind wire.parse = wire.parse (String.ofList e.target)

theorem opening_comma {e : LinkEntry} {front back : List LinkParam} {p : LinkParam}
    {skipped tail : List Char} (hbefore : e.before = front ++ p :: back)
    (hvalue : p.value = skipped ++ ',' :: tail) (htail : ',' ∉ tail)
    (hback : ∀ q ∈ back, ',' ∉ q.value) : lead (lastPiece e.opening) = lead (tail ++ ['"']) := by
  have hopening : e.opening =
      '<' :: (e.target ++ '>' :: (paramsText front ++ ';' :: ' ' ::
        (p.name ++ '=' :: '"' :: skipped))) ++ ',' :: (tail ++ ['"'] ++ paramsText back) := by
    unfold opening
    rw [hbefore]
    unfold paramsText LinkParam.text
    rw [List.flatMap_append, List.flatMap_cons, hvalue]
    simp
  have hfree : ',' ∉ tail ++ ['"'] ++ paramsText back := by
    simp [htail, not_mem_paramsText hback]
  rw [hopening, lastPiece_comma _ hfree, lead_params]

theorem linkTarget_of_plain {e : LinkEntry} (h : e.Plain) :
    linkTarget (lead (lastPiece e.opening)) = some (String.ofList e.target) := by
  obtain ⟨hcomma, hsemicolon, hvalues⟩ := h
  have hopening : e.opening = '<' :: (e.target ++ ['>']) ++ paramsText e.before := by
    unfold opening
    simp
  have hfree : ',' ∉ e.opening := by
    rw [hopening]
    simp [hcomma, not_mem_paramsText hvalues]
  rw [lastPiece_of_not_mem hfree, hopening, lead_params,
    lead_of_not_mem (by simp [hsemicolon]), linkTarget_trim, linkTarget_bracketed]

/-- A lead is read as the target exactly where nothing cuts the entry in front of the parameter, or
the same URL stands behind the cut. -/
theorem lead_reads_iff {wire : Wire} {e : LinkEntry} {url : Url}
    (hurl : wire.parse (String.ofList e.target) = some url) :
    (linkTarget (lead (lastPiece e.opening))).bind wire.parse = some url ↔
      e.Plain ∨ e.Copied wire := by
  have hbracket : '<' ∉ e.target ∧ '>' ∉ e.target :=
    ⟨fun hmem => (e.target_bracketed _ hmem).1 rfl, fun hmem => (e.target_bracketed _ hmem).2.1 rfl⟩
  constructor
  · intro h
    by_cases hvalues : ∀ p ∈ e.before, ',' ∉ p.value
    · have hparams := not_mem_paramsText hvalues
      left
      by_cases hcomma : ',' ∈ e.target
      · obtain ⟨skipped, _, tail, htarget, rfl, htail⟩ :=
          @Separated.exists_last _ (· = ',') _ ⟨',', hcomma, rfl⟩
        have hfree : ',' ∉ tail ++ ['>'] ++ paramsText e.before := by
          have : ',' ∉ tail := fun hmem => htail _ hmem rfl
          simp [this, hparams]
        have hopening : e.opening =
            '<' :: skipped ++ ',' :: (tail ++ ['>'] ++ paramsText e.before) := by
          unfold opening
          rw [htarget]
          simp
        have hopen : '<' ∉ tail ++ ['>'] := by
          rw [htarget] at hbracket
          simp at hbracket
          simp [hbracket]
        rw [hopening, lastPiece_comma _ hfree, lead_params, linkTarget_none (.inl hopen)] at h
        cases h
      · refine ⟨hcomma, fun hsemicolon => ?_, hvalues⟩
        obtain ⟨front, back, htarget⟩ := List.append_of_mem hsemicolon
        have hopening : e.opening =
            '<' :: front ++ ';' :: (back ++ '>' :: paramsText e.before) := by
          unfold opening
          rw [htarget]
          simp
        have hfree : ',' ∉ e.opening := by
          unfold opening
          simp [hcomma, hparams]
        have hclose : '>' ∉ '<' :: front := by
          rw [htarget] at hbracket
          simp at hbracket
          simp [hbracket]
        rw [lastPiece_of_not_mem hfree, hopening, lead_semicolon, linkTarget_none (.inr hclose)] at h
        cases h
    · right
      obtain ⟨front, p, back, hbefore, hp, hback⟩ :=
        @Separated.exists_last _ (fun p : LinkParam => ',' ∈ p.value) _ (by simpa using hvalues)
      obtain ⟨skipped, _, tail, hvalue, rfl, htail⟩ :=
        @Separated.exists_last _ (· = ',') _ ⟨',', hp, rfl⟩
      have hfree : ',' ∉ tail := fun hmem => htail _ hmem rfl
      rw [opening_comma hbefore hvalue hfree hback] at h
      by_cases hsemicolon : ';' ∈ tail
      · obtain ⟨copy, rest, rfl, hcopy⟩ := List.eq_append_cons_of_mem hsemicolon
        refine ⟨front, p, back, skipped, copy, rest, hbefore, hback, hvalue, hfree, hcopy, ?_⟩
        rw [List.append_assoc, List.cons_append, lead_semicolon, lead_of_not_mem hcopy,
          linkTarget_trim] at h
        rw [h, hurl]
      · rw [lead_of_not_mem (by simp [hsemicolon]), linkTarget_trim, linkTarget_quote] at h
        cases h
  · rintro (hplain | ⟨front, p, back, skipped, copy, rest, hbefore, hback, hvalue, hfree, hcopy, hsame⟩)
    · rw [linkTarget_of_plain hplain]
      exact hurl
    · rw [opening_comma hbefore hvalue hfree hback, List.append_assoc, List.cons_append,
        lead_semicolon, lead_of_not_mem hcopy, linkTarget_trim, hsame, hurl]

end LinkEntry

/-! ## §6  Every header -/

section

variable (wire : Wire)

/-- One entry names the next page, and it names one of the API. -/
def NamesNext (entries : List LinkEntry) (e : LinkEntry) (url : Url) : Prop :=
  ∃ front back, entries = front ++ e :: back ∧ e.IsNext ∧
    (∀ other ∈ front ++ back, ¬ other.IsNext) ∧
    wire.parse (String.ofList e.target) = some url ∧ validateApiUrl wire url = .ok ()

/-- The next target is no URL, or none of the API. -/
def LinkEntry.Refused (e : LinkEntry) : Prop :=
  ∀ url, wire.parse (String.ofList e.target) = some url → validateApiUrl wire url ≠ .ok ()

/-- What a reader of the header is to return. -/
structure ReadsEntries (entries : List LinkEntry) : Prop where
  none_named : (∀ e ∈ entries, ¬ e.IsNext) → nextUrl wire (linkHeader entries) = .ok none
  one_named : ∀ e url, NamesNext wire entries e url →
    nextUrl wire (linkHeader entries) = .ok (some url)
  refused : ∀ failure, nextUrl wire (linkHeader entries) = .error failure →
    (∃ e ∈ entries, e.IsNext ∧ e.Refused wire) ∨
      ∃ front e middle other back, entries = front ++ e :: (middle ++ other :: back) ∧
        e.IsNext ∧ other.IsNext

variable {wire}

/-- A header without a next entry announces nothing; one with such an entry announces it. -/
theorem leads_header_eq_nil_iff {entries : List LinkEntry} :
    leads (linkHeader entries).toList = [] ↔ ∀ e ∈ entries, ¬ e.IsNext := by
  rw [leads_header, List.flatMap_eq_nil_iff]
  constructor
  · intro h e he hnext
    have hnil := h e he
    rw [LinkEntry.leads_of_next hnext] at hnil
    cases hnil
  · exact fun h e he => LinkEntry.leads_of_not_next (h e he)

theorem leads_header_of_one {front back : List LinkEntry} {e : LinkEntry} (he : e.IsNext)
    (h : ∀ other ∈ front ++ back, ¬ other.IsNext) :
    leads (linkHeader (front ++ e :: back)).toList = [lead (lastPiece e.opening)] := by
  have hnil : ∀ {others : List LinkEntry}, (∀ other ∈ others, ¬ other.IsNext) →
      others.flatMap (fun other => leads other.text) = [] := fun hothers =>
    List.flatMap_eq_nil_iff.mpr fun other hother =>
      LinkEntry.leads_of_not_next (hothers other hother)
  rw [leads_header, List.flatMap_append, List.flatMap_cons, LinkEntry.leads_of_next he,
    hnil fun other hother => h other (List.mem_append_left _ hother),
    hnil fun other hother => h other (List.mem_append_right _ hother)]
  rfl

/-- A target is read as a URL of the API exactly when it is one. -/
theorem readTarget_ok_iff {target : List Char} {url : Url} :
    readTarget wire target = .ok url ↔
      (linkTarget target).bind wire.parse = some url ∧ validateApiUrl wire url = .ok () := by
  unfold readTarget
  cases linkTarget target with
  | none => simp
  | some raw =>
      cases hparse : wire.parse raw with
      | none => simp [hparse]
      | some found =>
          simp only [hparse, Option.bind_some, Option.some.injEq]
          constructor
          · intro h
            obtain ⟨_, hvalid, rfl⟩ := map_ok h
            exact ⟨rfl, hvalid⟩
          · rintro ⟨rfl, hvalid⟩
            rw [hvalid]
            rfl

/-- The one next entry is read exactly when its lead is its target. -/
theorem one_named_iff {entries : List LinkEntry} {e : LinkEntry} {url : Url}
    (h : NamesNext wire entries e url) :
    nextUrl wire (linkHeader entries) = .ok (some url) ↔ e.Plain ∨ e.Copied wire := by
  obtain ⟨front, back, rfl, he, hothers, hurl, hvalid⟩ := h
  rw [← LinkEntry.lead_reads_iff hurl, nextUrl_eq, leads_header_of_one he hothers]
  constructor
  · intro hread
    rcases readTargets_ok wire hread with ⟨hnil, _⟩ | ⟨target, found, htarget, _, hfound, hsome⟩
    · cases hnil
    · cases htarget
      cases hsome
      exact (readTarget_ok_iff.mp hfound).1
  · intro hlead
    unfold readTargets
    rw [readTarget_ok_iff.mpr ⟨hlead, hvalid⟩]
    rfl

/-- `next_url` reads every header of well-formed entries exactly when no comma and no semicolon cuts
a next entry in front of its parameter, or the same URL stands in brackets behind the cut. -/
theorem next_url_reads_iff (wire : Wire) (entries : List LinkEntry) :
    ReadsEntries wire entries ↔
      ∀ e url, NamesNext wire entries e url → e.Plain ∨ e.Copied wire := by
  constructor
  · exact fun h e url hnamed => (one_named_iff hnamed).mp (h.one_named e url hnamed)
  · intro h
    have hnone : (∀ e ∈ entries, ¬ e.IsNext) → nextUrl wire (linkHeader entries) = .ok none :=
      fun hfree => (nextUrl_none_iff wire _).mpr (leads_header_eq_nil_iff.mpr hfree)
    have hone : ∀ e url, NamesNext wire entries e url →
        nextUrl wire (linkHeader entries) = .ok (some url) := fun e url hnamed =>
      (one_named_iff hnamed).mpr (h e url hnamed)
    refine ⟨hnone, hone, fun failure hfailure => ?_⟩
    by_cases hany : ∃ e ∈ entries, e.IsNext
    · obtain ⟨front, e, back, rfl, he, hback⟩ := Separated.exists_last hany
      by_cases hfront : ∃ other ∈ front, other.IsNext
      · obtain ⟨other, hother, hnext⟩ := hfront
        obtain ⟨before, middle, rfl⟩ := List.append_of_mem hother
        exact .inr ⟨before, other, middle, e, back, by simp, hnext, he⟩
      · refine .inl ⟨e, by simp, he, fun url hurl hvalid => ?_⟩
        have hothers : ∀ other ∈ front ++ back, ¬ other.IsNext := by
          intro other hother hnext
          rcases List.mem_append.mp hother with hother | hother
          · exact hfront ⟨other, hother, hnext⟩
          · exact hback other hother hnext
        rw [hone e url ⟨front, back, rfl, he, hothers, hurl, hvalid⟩] at hfailure
        cases hfailure
    · rw [hnone fun e he hnext => hany ⟨e, he, hnext⟩] at hfailure
      cases hfailure

end

/-- A URL of the API, with the keys of its query. -/
def apiUrl (text : String) (queryKeys : List String) : Url where
  text := text
  origin := "https://api.github.com"
  scheme := "https"
  username := ""
  password := none
  port := none
  fragment := none
  queryKeys := queryKeys

/-- The keys behind the question mark. -/
def queryKeysOf (text : String) : List String :=
  match text.toList.splitOn '?' with
  | [_, query] => (query.splitOn '&').map fun pair => String.ofList (pair.takeWhile (· ≠ '='))
  | _ => []

/-- A URL library for plain URLs of the API. -/
def apiWire : Wire where
  apiOrigin := "https://api.github.com"
  parse text :=
    if "https://api.github.com/".toList.isPrefixOf text.toList then
      some (apiUrl text (queryKeysOf text))
    else none
  join path := some (apiUrl ("https://api.github.com" ++ path) [])
  appendPairs url pairs :=
    { url with
      text := url.text ++ "?" ++ "&".intercalate (pairs.map fun pair => pair.1 ++ "=" ++ pair.2)
      queryKeys := url.queryKeys ++ pairs.map Prod.fst }
  isHeaderText text :=
    text.toList.all fun c => (decide (0x20 ≤ c.toNat) && c.toNat != 0x7F) || c == '\t'
  repositories _ := some []
  repository _ := none
  workflowList _ := none
  runList _ := none

/-- The second page of the repositories, as the connector asks for them. -/
def secondPage : LinkEntry where
  target := "https://api.github.com/user/repos?affiliation=owner,collaborator&page=2".toList
  params := [⟨"rel".toList, "next".toList, List.forall_iff_forall_mem.mp (by decide), by decide⟩]
  target_bracketed := List.forall_iff_forall_mem.mp (by decide)
  rel_once := by decide

/-- The commas of the affiliation keep the second page from being read. -/
theorem affiliation_cuts_next :
    NamesNext apiWire [secondPage] secondPage
        (apiUrl "https://api.github.com/user/repos?affiliation=owner,collaborator&page=2"
          ["affiliation", "page"]) ∧
      nextUrl apiWire (linkHeader [secondPage]) =
        .error (invalidResponse "GitHub Link header is malformed") := by
  constructor
  · refine ⟨[], [], rfl, ⟨_, List.mem_singleton_self _, rfl, rfl⟩, by simp, ?_, ?_⟩
    · rfl
    · rfl
  · rfl

end GitHub

end NextInfra
