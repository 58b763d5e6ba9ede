import NextInfra.Lib.Entries
import NextInfra.Lib.Separated
import NextInfra.Ssh.Probes

/-!
# What a table of filesystems reads as

`df -Pk` writes a header and a row for each filesystem, with blanks between the columns.
`parse_filesystems` cuts at blanks, takes the first word for the filesystem and joins the
words behind the capacity with single blanks. §2 has both in terms of the row, §3 finds
that the table comes back exactly when no filesystem has a blank in its name and no mount
has two in a row.
-/

namespace NextInfra

namespace Ssh

open Text

/-! ## §1  Words and digits -/

theorem splitAsciiWhitespace_append {c : Char} (hc : isAsciiWhitespace c = true) (a b : List Char) :
    splitAsciiWhitespace (a ++ c :: b) = splitAsciiWhitespace a ++ splitAsciiWhitespace b := by
  unfold splitAsciiWhitespace
  rw [List.splitOnP_append_cons _ _ hc, List.filter_append]

/-- The blanks between two columns, `extra` more than one. -/
def gap (extra : Nat) : List Char := List.replicate (extra + 1) ' '

theorem splitAsciiWhitespace_gap (a : List Char) (extra : Nat) (b : List Char) :
    splitAsciiWhitespace (a ++ (gap extra ++ b)) =
      splitAsciiWhitespace a ++ splitAsciiWhitespace b := by
  unfold gap
  induction extra generalizing a with
  | zero => exact splitAsciiWhitespace_append rfl a b
  | succ extra ih =>
      rw [List.replicate_succ, List.cons_append]
      have hfirst := splitAsciiWhitespace_append (c := ' ') rfl a (List.replicate (extra + 1) ' ' ++ b)
      rw [hfirst]
      exact congrArg (splitAsciiWhitespace a ++ ·) (ih [])

theorem splitAsciiWhitespace_word {word : List Char} (hne : word ≠ [])
    (h : ∀ c ∈ word, isAsciiWhitespace c = false) : splitAsciiWhitespace word = [word] := by
  unfold splitAsciiWhitespace
  rw [List.splitOnP_eq_singleton h]
  exact List.filter_cons_of_pos (decide_eq_true hne)

/-- In text without control characters only the blank is ASCII whitespace. -/
theorem isAsciiWhitespace_of_printable {c : Char} (h : isControl c = false) :
    isAsciiWhitespace c = (c == ' ') := by
  unfold isAsciiWhitespace
  have hctrl : ∀ d : Char, d.toNat < 0x20 → (c == d) = false := by
    intro d hd
    apply beq_eq_false_iff_ne.mpr
    rintro rfl
    simp only [isControl, Bool.or_eq_false_iff, decide_eq_false_iff_not] at h
    exact h.1 hd
  rw [hctrl '\t' (by decide), hctrl '\n' (by decide), hctrl '\x0C' (by decide),
    hctrl '\r' (by decide)]
  simp only [Bool.or_false]

theorem splitAsciiWhitespace_printable {text : List Char} (h : ∀ c ∈ text, isControl c = false) :
    splitAsciiWhitespace text = Separated.words ' ' text := by
  unfold splitAsciiWhitespace Separated.words
  have hsplit : text.splitOnP isAsciiWhitespace = text.splitOn ' ' := by
    rw [List.splitOn_eq_splitOnP]
    induction text with
    | nil => rfl
    | cons c text ih =>
        rw [List.splitOnP_cons_eq_if_modifyHead, List.splitOnP_cons_eq_if_modifyHead,
          isAsciiWhitespace_of_printable (h c List.mem_cons_self),
          ih fun d hd => h d (List.mem_cons_of_mem _ hd)]
  rw [hsplit]

theorem isDigit_of_mem_toDigits {n : Nat} {c : Char} (h : c ∈ Nat.toDigits 10 n) :
    c.isDigit = true :=
  Nat.isDigit_of_mem_toDigits (by decide) (by decide) h

/-- A number is read back from its digits. -/
theorem digitsValue_toDigits (n : Nat) : digitsValue (Nat.toDigits 10 n) = some n := by
  unfold digitsValue
  rw [if_pos ⟨Nat.toDigits_ne_nil, List.all_eq_true.mpr fun _ => isDigit_of_mem_toDigits⟩,
    ← Nat.ofDigitChars_eq_foldl, Nat.ofDigitChars_ten_toDigits]

theorem parseUnsigned_toDigits {bound n : Nat} (h : n < bound) :
    parseUnsigned bound (Nat.toDigits 10 n) = some n := by
  unfold parseUnsigned
  have hsign : ∀ rest, Nat.toDigits 10 n ≠ '+' :: rest := by
    intro rest heq
    have hplus : ('+').isDigit = true :=
      isDigit_of_mem_toDigits (n := n) (by rw [heq]; exact List.mem_cons_self)
    exact absurd hplus (by decide)
  split
  rename_i rest heq
  · exact absurd heq (hsign rest)
  · show (digitsValue (Nat.toDigits 10 n)).filter _ = _
    rw [digitsValue_toDigits]
    exact Option.filter_some_pos (decide_eq_true h)

theorem isAsciiWhitespace_of_isDigit {c : Char} (h : c.isDigit = true) :
    isAsciiWhitespace c = false := by
  have hne : ∀ d : Char, d.isDigit = false → (c == d) = false := by
    intro d hd
    apply beq_eq_false_iff_ne.mpr
    rintro rfl
    rw [h] at hd
    cases hd
  unfold isAsciiWhitespace
  rw [hne ' ' (by decide), hne '\t' (by decide), hne '\n' (by decide), hne '\x0C' (by decide),
    hne '\r' (by decide)]
  rfl

/-! ## §2  Lines of a table -/

/-- The blanks that a line has behind each column beyond the one. -/
structure Gaps where
  filesystem : Nat
  blocks : Nat
  used : Nat
  available : Nat
  capacity : Nat

def dfLine (gaps : Gaps) (filesystem blocks used available capacity mount : List Char) :
    List Char :=
  filesystem ++ (gap gaps.filesystem ++ (blocks ++ (gap gaps.blocks ++ (used ++ (gap gaps.used ++
    (available ++ (gap gaps.available ++ (capacity ++ (gap gaps.capacity ++ mount)))))))))

def dfHeader (gaps : Gaps) : List Char :=
  dfLine gaps "Filesystem".toList "1024-blocks".toList "Used".toList "Available".toList
    "Capacity".toList "Mounted on".toList

def dfRow (gaps : Gaps) (entry : FilesystemEntry) : List Char :=
  dfLine gaps entry.filesystem.toList (Nat.toDigits 10 entry.blocksKib)
    (Nat.toDigits 10 entry.usedKib) (Nat.toDigits 10 entry.availableKib)
    (Nat.toDigits 10 entry.capacityPercent ++ ['%']) entry.mount.toList

/-- What `df -Pk` prints. -/
def dfText (header : Gaps) (rows : List (Gaps × FilesystemEntry)) : List Char :=
  (dfHeader header :: rows.map fun row => dfRow row.1 row.2).flatMap (· ++ ['\n'])

theorem splitAsciiWhitespace_dfLine (gaps : Gaps)
    (filesystem blocks used available capacity mount : List Char) :
    splitAsciiWhitespace (dfLine gaps filesystem blocks used available capacity mount) =
      splitAsciiWhitespace filesystem ++ (splitAsciiWhitespace blocks ++
        (splitAsciiWhitespace used ++ (splitAsciiWhitespace available ++
          (splitAsciiWhitespace capacity ++ splitAsciiWhitespace mount)))) := by
  unfold dfLine
  simp only [splitAsciiWhitespace_gap]

/-- A name as it stands in a column. -/
structure FieldText (text : List Char) : Prop where
  nonempty : text ≠ []
  printable : ∀ c ∈ text, isControl c = false
  fits : byteLength text ≤ maxFilesystemFieldBytes
  first : text.head? ≠ some ' '
  last : text.getLast? ≠ some ' '

/-- An entry that `df` can print and that is within the limits of a field. -/
structure FilesystemEntry.Printable (entry : FilesystemEntry) : Prop where
  filesystem : FieldText entry.filesystem.toList
  mount : FieldText entry.mount.toList
  noNumber : ∀ word ∈ splitAsciiWhitespace entry.filesystem.toList, word.all Char.isDigit = false
  blocks : entry.blocksKib < 2 ^ 64
  used : entry.usedKib < 2 ^ 64
  available : entry.availableKib < 2 ^ 64
  capacity : entry.capacityPercent ≤ 100

/-- The entry with the words of its mount joined by single blanks. -/
def FilesystemEntry.joined (entry : FilesystemEntry) : FilesystemEntry :=
  { entry with
    mount := String.ofList (Separated.join ' ' (Separated.words ' ' entry.mount.toList)) }

section

variable {entry : FilesystemEntry} (gaps : Gaps)

theorem splitAsciiWhitespace_dfRow (h : entry.Printable) :
    splitAsciiWhitespace (dfRow gaps entry) =
      Separated.words ' ' entry.filesystem.toList ++
        (Nat.toDigits 10 entry.blocksKib :: Nat.toDigits 10 entry.usedKib ::
          Nat.toDigits 10 entry.availableKib :: (Nat.toDigits 10 entry.capacityPercent ++ ['%']) ::
          Separated.words ' ' entry.mount.toList) := by
  have hdigits : ∀ n, splitAsciiWhitespace (Nat.toDigits 10 n) = [Nat.toDigits 10 n] := fun n =>
    splitAsciiWhitespace_word Nat.toDigits_ne_nil fun c hc =>
      isAsciiWhitespace_of_isDigit (isDigit_of_mem_toDigits hc)
  have hcapacity : splitAsciiWhitespace (Nat.toDigits 10 entry.capacityPercent ++ ['%']) =
      [Nat.toDigits 10 entry.capacityPercent ++ ['%']] := by
    apply splitAsciiWhitespace_word
    · simp
    · intro c hc
      rcases List.mem_append.mp hc with hc | hc
      · exact isAsciiWhitespace_of_isDigit (isDigit_of_mem_toDigits hc)
      · rw [List.mem_singleton.mp hc]
        rfl
  unfold dfRow
  rw [splitAsciiWhitespace_dfLine, hdigits, hdigits, hdigits, hcapacity,
    splitAsciiWhitespace_printable h.filesystem.printable,
    splitAsciiWhitespace_printable h.mount.printable]
  rfl

theorem parseField_toDigits {n : Nat} (h : n < 2 ^ 64) :
    parseField (some (Nat.toDigits 10 n)) = .ok n := by
  unfold parseField
  rw [Option.bind_some, digitsValue_toDigits]
  exact if_pos h

theorem byteLength_sublist {a b : List Char} (h : a.Sublist b) : byteLength a ≤ byteLength b := by
  unfold byteLength
  induction h with
  | slnil => exact Nat.le_refl _
  | cons c _ ih =>
      rw [List.map_cons, List.sum_cons]
      omega
  | cons_cons c _ ih =>
      rw [List.map_cons, List.sum_cons, List.map_cons, List.sum_cons]
      omega

theorem FieldText.safeField {text : List Char} (h : FieldText text) {part : List Char}
    (hpart : part.Sublist text) (hne : part ≠ []) :
    Ssh.safeField part = true ∧ byteLength part ≤ maxFilesystemFieldBytes := by
  have hfits : byteLength part ≤ maxFilesystemFieldBytes :=
    (byteLength_sublist hpart).trans h.fits
  refine ⟨?_, hfits⟩
  unfold Ssh.safeField
  rw [decide_eq_true hne, decide_eq_true hfits, Bool.true_and, Bool.true_and, Bool.not_eq_true',
    List.any_eq_false]
  intro c hc
  rw [h.printable c (hpart.subset hc)]
  exact Bool.false_ne_true

theorem FieldText.words_ne_nil {text : List Char} (h : FieldText text) :
    Separated.words ' ' text ≠ [] := by
  obtain ⟨c, rest, htext⟩ := List.exists_cons_of_ne_nil h.nonempty
  apply Separated.words_ne_nil (c := c)
  · rw [htext]
    exact List.mem_cons_self
  · rintro rfl
    exact h.first (by rw [htext]; rfl)

/-- A row whose filesystem has no blank reads as the row with its mount joined. -/
theorem parseFilesystemRow_dfRow (h : entry.Printable) (hfree : ' ' ∉ entry.filesystem.toList) :
    parseFilesystemRow (dfRow gaps entry) = .ok entry.joined := by
  have hwords := Separated.words_of_free h.filesystem.nonempty hfree
  have hmount := Separated.join_words_ne_nil h.mount.words_ne_nil
  obtain ⟨hsafeMount, hfitsMount⟩ :=
    h.mount.safeField (Separated.join_words_sublist _) hmount
  obtain ⟨hsafe, hfits⟩ := h.filesystem.safeField (List.Sublist.refl _) h.filesystem.nonempty
  have hstrip : stripSuffix '%' (Nat.toDigits 10 entry.capacityPercent ++ ['%']) =
      some (Nat.toDigits 10 entry.capacityPercent) := by
    unfold stripSuffix
    rw [List.getLast?_concat, if_pos rfl, List.dropLast_concat]
  have hpercent : entry.capacityPercent < 2 ^ 8 := Nat.lt_of_le_of_lt h.capacity (by decide)
  unfold parseFilesystemRow
  rw [splitAsciiWhitespace_dfRow gaps h, hwords]
  simp only [List.cons_append, List.nil_append, List.getElem?_cons_zero, List.getElem?_cons_succ,
    parseField_toDigits h.blocks, parseField_toDigits h.used, parseField_toDigits h.available,
    List.drop_succ_cons, List.drop_zero]
  show (if [' '].intercalate (Separated.words ' ' entry.mount.toList) = [] ∨ _ then _ else _) = _
  rw [if_neg (by
    rintro (hnil | hlong | hlong | hcontrol | hcontrol)
    · exact hmount hnil
    · exact Nat.not_lt.mpr hfitsMount hlong
    · exact Nat.not_lt.mpr hfits hlong
    · rw [hsafe] at hcontrol
      cases hcontrol
    · exact Bool.false_ne_true (hcontrol.symm.trans hsafeMount))]
  simp only [hstrip, parseUnsigned_toDigits hpercent, if_neg (Nat.not_lt.mpr h.capacity),
    FilesystemEntry.joined, String.ofList_toList]
  rfl

/-- A name with a blank inside has two words. -/
theorem FieldText.two_words {text : List Char} (h : FieldText text) (hblank : ' ' ∈ text) :
    ∃ first second rest, Separated.words ' ' text = first :: second :: rest := by
  obtain ⟨front, back, rfl⟩ := List.append_of_mem hblank
  have hfront : Separated.words ' ' front ≠ [] := by
    cases front with
    | nil => exact absurd rfl h.first
    | cons c front =>
        apply Separated.words_ne_nil List.mem_cons_self
        rintro rfl
        exact h.first rfl
  have hback : Separated.words ' ' back ≠ [] := by
    rcases List.eq_nil_or_concat' back with rfl | ⟨back, c, rfl⟩
    · exact absurd (List.getLast?_concat) h.last
    · apply Separated.words_ne_nil (List.mem_append_right _ (List.mem_singleton.mpr rfl))
      rintro rfl
      apply h.last
      rw [← List.cons_append, ← List.append_assoc]
      exact List.getLast?_concat
  obtain ⟨first, others, hfirst⟩ := List.exists_cons_of_ne_nil hfront
  obtain ⟨second, rest, hsecond⟩ := List.exists_cons_of_ne_nil hback
  rw [Separated.words_append, hfirst, hsecond]
  cases others with
  | nil => exact ⟨first, second, rest, rfl⟩
  | cons other others => exact ⟨first, other, others ++ second :: rest, rfl⟩

/-- A row whose filesystem has a blank fails: its second word is no number. -/
theorem parseFilesystemRow_dfRow_blank (h : entry.Printable)
    (hblank : ' ' ∈ entry.filesystem.toList) :
    parseFilesystemRow (dfRow gaps entry) = .error ⟨filesystemModule, .malformed⟩ := by
  obtain ⟨first, second, rest, hwords⟩ := h.filesystem.two_words hblank
  have hsecond : second.all Char.isDigit = false := by
    apply h.noNumber
    rw [splitAsciiWhitespace_printable h.filesystem.printable, hwords]
    exact List.mem_cons_of_mem _ List.mem_cons_self
  have hfield : parseField (some second) = .error ⟨filesystemModule, .malformed⟩ := by
    unfold parseField digitsValue
    rw [Option.bind_some, if_neg (by
      rintro ⟨_, hdigits⟩
      rw [hsecond] at hdigits
      cases hdigits)]
  unfold parseFilesystemRow
  rw [splitAsciiWhitespace_dfRow gaps h, hwords]
  simp only [List.cons_append, List.getElem?_cons_zero, hfield]
  rfl

end

/-! ## §3  The table -/

/-- Lines that are ended one by one are read back as they are. -/
theorem lines_flatMap {all : List (List Char)}
    (hall : ∀ line ∈ all, '\n' ∉ line ∧ line.getLast? ≠ some '\r') :
    lines (all.flatMap (· ++ ['\n'])) = all := by
  have hsplit : (all.flatMap (· ++ ['\n'])).splitOn '\n' = all ++ [[]] := by
    induction all with
    | nil => rfl
    | cons line rest ih =>
        obtain ⟨hline, hrest⟩ := List.forall_mem_cons.mp hall
        rw [List.flatMap_cons, List.append_assoc, List.singleton_append,
          List.splitOn_append_cons_self, List.splitOn_eq_singleton hline.1, ih hrest]
        rfl
  have hended : all.map (fun line => (stripSuffix '\r' line).getD line) = all := by
    conv_rhs => rw [← List.map_id all]
    apply List.map_congr_left
    intro line hline
    unfold stripSuffix
    rw [if_neg (hall line hline).2]
    rfl
  unfold lines
  simp only [hsplit, List.dropLast_concat, List.getLast?_concat, hended]

theorem trim_ne_nil {text : List Char} {c : Char} (hmem : c ∈ text) (hc : isWhitespace c = false) :
    trim text ≠ [] := by
  intro hnil
  obtain ⟨before, after, htext, hbefore, hafter⟩ := trim_spec text
  rw [hnil, List.nil_append] at htext
  rw [htext] at hmem
  rcases List.mem_append.mp hmem with hmem | hmem
  · rw [hbefore c hmem] at hc
    cases hc
  · rw [hafter c hmem] at hc
    cases hc

theorem parseFilesystemRows_eq {count : Nat} {rows : List (List Char)}
    (h : count + rows.length ≤ maxFilesystemEntries) :
    parseFilesystemRows count rows = rows.mapM parseFilesystemRow := by
  induction rows generalizing count with
  | nil => rfl
  | cons line rest ih =>
      rw [List.length_cons] at h
      rw [parseFilesystemRows, if_neg (by omega), ih (by omega), List.mapM_cons]
      rfl

theorem isControl_of_isDigit {c : Char} (h : c.isDigit = true) : isControl c = false := by
  simp only [Char.isDigit, Bool.and_eq_true, decide_eq_true_eq, UInt32.le_iff_toNat_le] at h
  simp only [isControl, Bool.or_eq_false_iff, Bool.and_eq_false_iff, decide_eq_false_iff_not]
  have hfirst : 48 ≤ c.toNat := h.1
  have hlast : c.toNat ≤ 57 := h.2
  omega

section

variable {P : Char → Prop}

/-- What holds of the columns and the blank holds of the line. -/
theorem forall_mem_dfLine (gaps : Gaps) {filesystem blocks used available capacity mount : List Char}
    (hblank : P ' ') (hfilesystem : ∀ c ∈ filesystem, P c) (hblocks : ∀ c ∈ blocks, P c)
    (hused : ∀ c ∈ used, P c) (havailable : ∀ c ∈ available, P c)
    (hcapacity : ∀ c ∈ capacity, P c) (hmount : ∀ c ∈ mount, P c) :
    ∀ c ∈ dfLine gaps filesystem blocks used available capacity mount, P c := by
  have hgap : ∀ extra, ∀ c ∈ gap extra, P c := by
    intro extra c hc
    rw [List.eq_of_mem_replicate hc]
    exact hblank
  unfold dfLine
  simp only [List.forall_mem_append]
  exact ⟨hfilesystem, hgap _, hblocks, hgap _, hused, hgap _, havailable, hgap _, hcapacity,
    hgap _, hmount⟩

end

theorem dfRow_printable (gaps : Gaps) {entry : FilesystemEntry} (h : entry.Printable) :
    ∀ c ∈ dfRow gaps entry, isControl c = false := by
  have hdigits : ∀ n, ∀ c ∈ Nat.toDigits 10 n, isControl c = false := fun n c hc =>
    isControl_of_isDigit (isDigit_of_mem_toDigits hc)
  unfold dfRow
  refine forall_mem_dfLine gaps (by decide) h.filesystem.printable (hdigits _) (hdigits _)
    (hdigits _) ?_ h.mount.printable
  intro c hc
  rcases List.mem_append.mp hc with hc | hc
  · exact hdigits _ c hc
  · rw [List.mem_singleton.mp hc]
    decide

/-- One pass over a word's letters, instead of one over all characters. -/
theorem forall_of_all {word : List Char} (h : word.all (!isControl ·) = true) :
    ∀ c ∈ word, isControl c = false := by
  simpa using h

theorem dfHeader_printable (gaps : Gaps) : ∀ c ∈ dfHeader gaps, isControl c = false := by
  unfold dfHeader
  refine forall_mem_dfLine gaps (by decide) ?_ ?_ ?_ ?_ ?_ ?_
    <;> exact forall_of_all (by decide)

theorem isPosixDfHeader_dfHeader (gaps : Gaps) : isPosixDfHeader (dfHeader gaps) = true := by
  have hwords : splitAsciiWhitespace (dfHeader gaps) = splitAsciiWhitespace (dfHeader ⟨0, 0, 0, 0, 0⟩) := by
    unfold dfHeader
    rw [splitAsciiWhitespace_dfLine, splitAsciiWhitespace_dfLine]
  unfold isPosixDfHeader
  rw [hwords]
  decide

theorem isBlank_dfHeader (gaps : Gaps) : isBlank (dfHeader gaps) = false := by
  apply decide_eq_false
  apply trim_ne_nil (c := 'F') _ (by decide)
  unfold dfHeader dfLine
  exact List.mem_append_left _ (by decide)

theorem isBlank_dfRow (gaps : Gaps) (entry : FilesystemEntry) :
    isBlank (dfRow gaps entry) = false := by
  apply decide_eq_false
  apply trim_ne_nil (c := '%') _ (by decide)
  unfold dfRow dfLine
  simp

/-- What `parse_filesystems` does with a table whose text passes the checks. -/
theorem parseFilesystems_dfText {input : List UInt8} {header : Gaps}
    {rows : List (Gaps × FilesystemEntry)} (hcap : rows.length ≤ maxFilesystemEntries)
    (hrows : ∀ row ∈ rows, row.2.Printable)
    (htext : commonText input maxFilesystemStdoutBytes filesystemModule = .ok (dfText header rows)) :
    parseFilesystems input =
      (rows.map fun row => dfRow row.1 row.2).mapM parseFilesystemRow >>= fun entries =>
        .ok { entries := entries.insertionSort fun a b => a.key ≤ b.key } := by
  have hended : ∀ line : List Char, (∀ c ∈ line, isControl c = false) →
      '\n' ∉ line ∧ line.getLast? ≠ some '\r' := by
    intro line hline
    refine ⟨fun hmem => ?_, fun hlast => ?_⟩
    · exact absurd (hline _ hmem) (by decide)
    · exact absurd (hline _ (List.mem_of_getLast? hlast)) (by decide)
  have hlines : lines (dfText header rows) =
      dfHeader header :: rows.map fun row => dfRow row.1 row.2 := by
    unfold dfText
    apply lines_flatMap
    rw [List.forall_mem_cons]
    refine ⟨hended _ (dfHeader_printable header), ?_⟩
    intro line hline
    obtain ⟨row, hrow, rfl⟩ := List.mem_map.mp hline
    exact hended _ (dfRow_printable row.1 (hrows row hrow))
  have hkept : (dfHeader header :: rows.map fun row => dfRow row.1 row.2).filter
      (fun line => !isBlank line) = dfHeader header :: rows.map fun row => dfRow row.1 row.2 := by
    apply List.filter_eq_self.mpr
    rw [List.forall_mem_cons, isBlank_dfHeader]
    refine ⟨rfl, ?_⟩
    intro line hline
    obtain ⟨row, -, rfl⟩ := List.mem_map.mp hline
    rw [isBlank_dfRow]
    rfl
  unfold parseFilesystems
  rw [htext]
  dsimp only [bind, Except.bind]
  rw [hlines, hkept]
  dsimp only
  rw [isPosixDfHeader_dfHeader, if_neg (by decide),
    parseFilesystemRows_eq (by rw [Nat.zero_add, List.length_map]; exact hcap)]

/-! ## §4  The round trip -/

theorem FilesystemEntry.key_injective : Function.Injective FilesystemEntry.key := by
  intro a b h
  obtain ⟨_, _, _, _, _, _⟩ := a
  obtain ⟨_, _, _, _, _, _⟩ := b
  simp only [FilesystemEntry.key, toLex_inj, Prod.mk.injEq] at h
  obtain ⟨rfl, rfl, rfl, rfl, rfl, rfl⟩ := h
  rfl

/-- The order of the rows is not seen behind the sort. -/
theorem insertionSort_perm {entries others : List FilesystemEntry} (h : entries.Perm others) :
    (entries.insertionSort fun a b => a.key ≤ b.key) =
      others.insertionSort fun a b => a.key ≤ b.key := by
  have htotal : Std.Total fun a b : FilesystemEntry => a.key ≤ b.key :=
    ⟨fun a b => le_total a.key b.key⟩
  have htrans : IsTrans FilesystemEntry fun a b => a.key ≤ b.key := ⟨fun _ _ _ => le_trans⟩
  refine List.Perm.eq_of_pairwise ?_ (List.pairwise_insertionSort _ _)
    (List.pairwise_insertionSort _ _)
    ((List.perm_insertionSort _ _).trans (h.trans (List.perm_insertionSort _ _).symm))
  intro a b _ _ hab hba
  exact FilesystemEntry.key_injective (le_antisymm hab hba)

/-- No blank in the filesystem, and no two in a row in the mount. -/
def FilesystemEntry.Plain (entry : FilesystemEntry) : Prop :=
  ' ' ∉ entry.filesystem.toList ∧ ¬ [' ', ' '] <:+: entry.mount.toList

section

variable {entry : FilesystemEntry}

theorem joined_eq_iff (h : entry.Printable) :
    entry.joined = entry ↔ ¬ [' ', ' '] <:+: entry.mount.toList := by
  rw [← Separated.nil_mem_splitOn_iff h.mount.first h.mount.last h.mount.nonempty,
    ← Separated.join_words_eq_iff h.mount.nonempty]
  constructor
  · intro heq
    have hmount := congrArg (fun e => e.mount.toList) heq
    rwa [FilesystemEntry.joined, String.toList_ofList] at hmount
  · intro heq
    rw [FilesystemEntry.joined, heq, String.ofList_toList]

theorem joined_sublist (entry : FilesystemEntry) :
    entry.joined.mount.toList.Sublist entry.mount.toList := by
  unfold FilesystemEntry.joined
  rw [String.toList_ofList]
  exact Separated.join_words_sublist _

/-- A mount that changes gets shorter. -/
theorem joined_of_length (h : entry.joined.mount.toList.length = entry.mount.toList.length) :
    entry.joined = entry := by
  have hmount := (joined_sublist entry).eq_of_length h
  unfold FilesystemEntry.joined at hmount ⊢
  rw [String.toList_ofList] at hmount
  rw [hmount, String.ofList_toList]

end

def mounts (entries : List FilesystemEntry) : List Char :=
  entries.flatMap fun entry => entry.mount.toList

theorem length_mounts_joined (entries : List FilesystemEntry) :
    (mounts (entries.map FilesystemEntry.joined)).length ≤ (mounts entries).length := by
  induction entries with
  | nil => exact Nat.le_refl _
  | cons entry rest ih =>
      have hfirst := (joined_sublist entry).length_le
      unfold mounts at ih ⊢
      rw [List.map_cons, List.flatMap_cons, List.flatMap_cons, List.length_append,
        List.length_append]
      omega

theorem joined_of_length_mounts {entries : List FilesystemEntry}
    (h : (mounts (entries.map FilesystemEntry.joined)).length = (mounts entries).length) :
    ∀ entry ∈ entries, entry.joined = entry := by
  induction entries with
  | nil => exact List.forall_mem_nil _
  | cons entry rest ih =>
      have hfirst := (joined_sublist entry).length_le
      have hrest := length_mounts_joined rest
      unfold mounts at h hrest ih
      rw [List.map_cons, List.flatMap_cons, List.flatMap_cons, List.length_append,
        List.length_append] at h
      rw [List.forall_mem_cons]
      exact ⟨joined_of_length (by omega), ih (by omega)⟩

/-- Entries that are the same but for their order once joined were joined before. -/
theorem joined_of_perm {entries : List FilesystemEntry}
    (h : (entries.map FilesystemEntry.joined).Perm entries) :
    ∀ entry ∈ entries, entry.joined = entry :=
  joined_of_length_mounts (h.flatMap_right _).length_eq

/-- Parsing undoes `df` exactly on tables of plain rows. -/
theorem parseFilesystems_undoes_iff {input : List UInt8} {header : Gaps}
    {rows : List (Gaps × FilesystemEntry)} (hcap : rows.length ≤ maxFilesystemEntries)
    (hrows : ∀ row ∈ rows, row.2.Printable)
    (htext : commonText input maxFilesystemStdoutBytes filesystemModule = .ok (dfText header rows)) :
    (∀ entries : List FilesystemEntry, entries.Perm (rows.map Prod.snd) →
      parseFilesystems input =
        .ok { entries := entries.insertionSort fun a b => a.key ≤ b.key }) ↔
      ∀ row ∈ rows, row.2.Plain := by
  rw [parseFilesystems_dfText hcap hrows htext]
  have hread : (∀ row ∈ rows, ' ' ∉ row.2.filesystem.toList) →
      (rows.map fun row => dfRow row.1 row.2).mapM parseFilesystemRow =
        .ok ((rows.map Prod.snd).map FilesystemEntry.joined) := by
    intro hfree
    apply Fallible.mapM_ok_iff.mpr
    rw [List.map_map, List.forall₂_map_left_iff, List.forall₂_map_right_iff, List.forall₂_same]
    intro row hrow
    exact parseFilesystemRow_dfRow row.1 (hrows row hrow) (hfree row hrow)
  constructor
  · intro hundone
    obtain ⟨entries, hentries, hsorted⟩ := bind_ok (hundone _ (List.Perm.refl _))
    have hfree : ∀ row ∈ rows, ' ' ∉ row.2.filesystem.toList := by
      intro row hrow hblank
      obtain ⟨_, -, hok⟩ := Fallible.result_of_mapM hentries (List.mem_map_of_mem hrow)
      rw [parseFilesystemRow_dfRow_blank row.1 (hrows row hrow) hblank] at hok
      cases hok
    rw [hread hfree] at hentries
    cases hentries
    have hperm : ((rows.map Prod.snd).map FilesystemEntry.joined).Perm (rows.map Prod.snd) := by
      have heq := congrArg FilesystemSummary.entries (Except.ok.inj hsorted)
      refine (List.perm_insertionSort (fun a b => a.key ≤ b.key) _).symm.trans ?_
      rw [show List.insertionSort _ _ = _ from heq]
      exact List.perm_insertionSort _ _
    intro row hrow
    refine ⟨hfree row hrow, (joined_eq_iff (hrows row hrow)).mp ?_⟩
    exact joined_of_perm hperm row.2 (List.mem_map_of_mem hrow)
  · intro hplain entries hperm
    have hjoined : (rows.map Prod.snd).map FilesystemEntry.joined = rows.map Prod.snd := by
      rw [List.map_map]
      apply List.map_congr_left
      intro row hrow
      exact (joined_eq_iff (hrows row hrow)).mpr (hplain row hrow).2
    rw [hread fun row hrow => (hplain row hrow).1, hjoined, insertionSort_perm hperm]
    rfl

/-! A disk, and the automounter's table of home directories. -/

def diskGaps : Gaps := ⟨3, 0, 1, 0, 2⟩

def disk : FilesystemEntry := ⟨"/dev/disk3s5", 971350180, 12, 971350168, 1, "/Volumes/My Disk"⟩

def autoHome : FilesystemEntry := ⟨"map auto_home", 0, 0, 0, 100, "/System/Volumes/Data/home"⟩

def dfOutput (entry : FilesystemEntry) : List UInt8 :=
  (String.ofList (dfText diskGaps [(diskGaps, entry)])).toUTF8.data.toList

theorem fieldText_of {text : List Char}
    (h : text ≠ [] ∧ text.all (fun c => !isControl c) = true ∧
      byteLength text ≤ maxFilesystemFieldBytes ∧ text.head? ≠ some ' ' ∧
      text.getLast? ≠ some ' ') : FieldText text := by
  obtain ⟨hne, hprintable, hfits, hfirst, hlast⟩ := h
  refine ⟨hne, fun c hc => ?_, hfits, hfirst, hlast⟩
  have hvisible := List.all_eq_true.mp hprintable c hc
  rwa [Bool.not_eq_true'] at hvisible

theorem disk_printable : disk.Printable where
  filesystem := fieldText_of (by decide +kernel)
  mount := fieldText_of (by decide +kernel)
  noNumber := by decide +kernel
  blocks := by decide
  used := by decide
  available := by decide
  capacity := by decide

theorem autoHome_printable : autoHome.Printable where
  filesystem := fieldText_of (by decide)
  mount := fieldText_of (by decide +kernel)
  noNumber := by decide
  blocks := by decide
  used := by decide
  available := by decide
  capacity := by decide

/-- The checks of `common_text` for a text that is encoded. -/
theorem commonText_toUTF8 {text : List Char} {maxBytes : Nat} {module_ : String}
    (hsize : (String.ofList text).toUTF8.data.toList.length ≤ maxBytes)
    (hsafe : text.any (fun c => isControl c && !(c == '\n' || c == '\r' || c == '\t')) = false)
    (hsentinels : (["bearer ", "authorization:", "cookie:", "token=", "password=", "passwd=",
      "secret=", "-----begin", "private key"].any fun s =>
        contains s.toList (Text.toAsciiLowercase text)) = false) :
    commonText (String.ofList text).toUTF8.data.toList maxBytes module_ = .ok text := by
  have hdecoded : String.fromUTF8? ⟨(String.ofList text).toUTF8.data.toList.toArray⟩ =
      some (String.ofList text) := by
    rw [Array.toArray_toList]
    exact dif_pos (String.ofList text).isValidUTF8
  unfold commonText checkedText
  rw [if_neg (Nat.not_lt.mpr hsize), hdecoded]
  simp only [String.toList_ofList]
  rw [hsafe, if_neg Bool.false_ne_true, hsentinels, if_neg Bool.false_ne_true]

theorem disk_text : commonText (dfOutput disk) maxFilesystemStdoutBytes filesystemModule =
    .ok (dfText diskGaps [(diskGaps, disk)]) :=
  commonText_toUTF8 (by decide +kernel) (by decide +kernel) (by decide +kernel)

theorem autoHome_text : commonText (dfOutput autoHome) maxFilesystemStdoutBytes filesystemModule =
    .ok (dfText diskGaps [(diskGaps, autoHome)]) :=
  commonText_toUTF8 (by decide) (by decide) (by decide +kernel)

theorem parseFilesystems_disk :
    parseFilesystems (dfOutput disk) = .ok { entries := [disk] } := by
  have hundone := (@parseFilesystems_undoes_iff (dfOutput disk) diskGaps [(diskGaps, disk)]
    (by decide) (List.forall_mem_singleton.mpr disk_printable) disk_text).mpr
    (List.forall_mem_singleton.mpr ⟨by decide, by decide +kernel⟩)
  exact hundone [disk] (List.Perm.refl _)

/-- A name of two words, as the automounter's, fails the whole table. -/
theorem parseFilesystems_autoHome :
    autoHome.Printable ∧
      commonText (dfOutput autoHome) maxFilesystemStdoutBytes filesystemModule =
        .ok (dfText diskGaps [(diskGaps, autoHome)]) ∧
      parseFilesystems (dfOutput autoHome) = .error ⟨filesystemModule, .malformed⟩ := by
  refine ⟨autoHome_printable, autoHome_text, ?_⟩
  rw [@parseFilesystems_dfText (dfOutput autoHome) diskGaps [(diskGaps, autoHome)] (by decide)
    (List.forall_mem_singleton.mpr autoHome_printable) autoHome_text, List.map_singleton,
    List.mapM_cons, parseFilesystemRow_dfRow_blank _ autoHome_printable (by decide)]
  rfl

end Ssh

end NextInfra
