import NextInfra.Aliyun.Connector
import NextInfra.Cloud.Dates
import NextInfra.Lib.Base64
import NextInfra.Lib.FormUrlencoded

/-!
# The signed requests of Aliyun

A request carries its parameters in the query of its URL, the signature of the others among
them. The query is written by hand and read by the URL library as form-urlencoded text:
what is read is what was signed and the signature (`request_carries_signed`).
-/

namespace NextInfra

namespace Aliyun

namespace Signing

open FormUrlencoded (bytesOf byteOfChar)

/-! ## §1  The encoders -/

/-- The bytes that `rfc3986_encode` leaves as they are. -/
def isUnreserved (b : UInt8) : Bool :=
  (decide (0x41 ≤ b) && decide (b ≤ 0x5A)) || (decide (0x61 ≤ b) && decide (b ≤ 0x7A)) ||
    (decide (0x30 ≤ b) && decide (b ≤ 0x39)) || b == 0x2D || b == 0x5F || b == 0x2E || b == 0x7E

/-- A digit of `{:X}`. -/
def upperHex (n : Nat) : Char := if n < 10 then Char.ofNat (0x30 + n) else Char.ofNat (0x37 + n)

def encodeByte (b : UInt8) : List Char :=
  if isUnreserved b then [Char.ofNat b.toNat]
  else ['%', upperHex (b.toNat / 16), upperHex (b.toNat % 16)]

def rfc3986Encode (value : String) : String := String.ofList ((bytesOf value).flatMap encodeByte)

def base64Alphabet : List Char :=
  "ABCDEFGHIJKLMNOPQRSTUVWXYZabcdefghijklmnopqrstuvwxyz0123456789+/".toList

theorem and_63_lt (n : Nat) : n &&& 63 < base64Alphabet.length :=
  Nat.lt_of_le_of_lt Nat.and_le_right (by decide)

def base64Char (n : Nat) : Char := base64Alphabet.get ⟨n &&& 63, and_63_lt n⟩

/-- `slice::chunks`. -/
def chunks {α : Type} (size : Nat) (items : List α) : List (List α) :=
  if _h : items = [] ∨ size = 0 then []
  else items.take size :: chunks size (items.drop size)
termination_by items.length
decreasing_by
  rw [List.length_drop]
  have := List.length_pos_iff.mpr (not_or.mp _h).1
  omega

def b64Chunk (chunk : List UInt8) : List Char :=
  let n := (chunk.getD 0 0).toNat <<< 16 ||| (chunk.getD 1 0).toNat <<< 8 ||| (chunk.getD 2 0).toNat
  [base64Char (n >>> 18), base64Char (n >>> 12),
    if 1 < chunk.length then base64Char (n >>> 6) else '=',
    if 2 < chunk.length then base64Char n else '=']

def b64Encode (bytes : List UInt8) : String := String.ofList ((chunks 3 bytes).flatMap b64Chunk)

/-! ## §2  Signing -/

/-- `BTreeMap<String, String>`. -/
abbrev Params := OrderedMap String String

def canonicalQuery (params : Params) : String :=
  "&".intercalate (params.rows.map fun p => rfc3986Encode p.1 ++ "=" ++ rfc3986Encode p.2)

def stringToSign (canonical : String) : String := "GET&%2F&" ++ rfc3986Encode canonical

/-- `HmacSha1::new_from_slice`, and what the digest makes of a message. -/
abbrev HmacSha1 := List UInt8 → Option (List UInt8 → List UInt8)

def signRpcQuery (newFromSlice : HmacSha1) (secretKey : List UInt8) (params : Params) :
    Except String String :=
  match newFromSlice (secretKey ++ [0x26]) with
  | none => .error "invalid Aliyun secret key"
  | some finalize => .ok (b64Encode (finalize (bytesOf (stringToSign (canonicalQuery params)))))

/-! ## §3  Requests -/

def formatUtcIso8601 (unixSecs : Nat) : String :=
  let (year, month, day) := Cloud.civilFromUnixSecs unixSecs
  let rem := unixSecs % 86400
  let hour := rem / 3600
  let minute := rem % 3600 / 60
  let second := rem % 60
  padded 4 year ++ "-" ++ padded 2 month ++ "-" ++ padded 2 day ++ "T" ++ padded 2 hour ++ ":" ++
    padded 2 minute ++ ":" ++ padded 2 second ++ "Z"

/-- What is used of the `url` crate. -/
structure UrlCrate where
  Url : Type
  parse : String → Option Url
  query : Url → Option String
  queryPairs : Url → List (String × String)

variable (crate : UrlCrate)

/-- The parameters of a request; the extra ones are inserted last. -/
def requestParams (action version region accessKey nonce : String)
    (nowUnixSecs pageNumber pageSize : Nat) (extra : List (String × String)) : Params :=
  OrderedMap.ofEntries ([("AccessKeyId", accessKey), ("Action", action), ("Format", "JSON"),
    ("PageNumber", toString pageNumber), ("PageSize", toString pageSize), ("RegionId", region),
    ("SignatureMethod", "HMAC-SHA1"), ("SignatureNonce", nonce), ("SignatureVersion", "1.0"),
    ("Timestamp", formatUtcIso8601 nowUnixSecs), ("Version", version)] ++ extra)

/-- The end of `build`: the parameters are signed, and the signature joins them in the URL. -/
def signedUrl (newFromSlice : HmacSha1) (secretKey : List UInt8) (origin : String)
    (params : Params) : Except String crate.Url := do
  let signature ← signRpcQuery newFromSlice secretKey params
  let params := OrderedMap.insert params "Signature" signature
  match crate.parse (origin ++ "/?" ++ canonicalQuery params) with
  | none => .error "invalid Aliyun request URL"
  | some url => .ok url

structure SignedRequest where
  url : crate.Url
  accessKey : String

def SignedRequest.build (newFromSlice : HmacSha1) (origin action version region accessKey : String)
    (secretKey : List UInt8) (nonce : String) (nowUnixSecs pageNumber pageSize : Nat)
    (extra : List (String × String)) : Except String (SignedRequest crate) :=
  if action = "" ∨ version = "" ∨ region = "" ∨ accessKey = "" ∨ nonce = "" then
    .error "invalid Aliyun request scope"
  else if pageNumber = 0 ∨ pageSize = 0 ∨ 100 < pageSize then
    .error "invalid Aliyun pagination window"
  else do
    let params := requestParams action version region accessKey nonce nowUnixSecs pageNumber
      pageSize extra
    let url ← signedUrl crate newFromSlice secretKey origin params
    return { url := url, accessKey := accessKey }

/-! ## §4  The encoders are the standard ones -/

theorem base64Char_eq : ∀ n < 64, base64Char n = Base64.charOf n := by decide +kernel

theorem base64Char_mod (n : Nat) : base64Char n = Base64.charOf (n % 64) := by
  have hmod : n &&& 63 = n % 64 := Nat.and_two_pow_sub_one_eq_mod n 6
  rw [← base64Char_eq _ (Nat.mod_lt n (by decide))]
  unfold base64Char
  congr 2
  rw [hmod]
  exact (Nat.and_two_pow_sub_one_eq_mod (n % 64) 6).trans (Nat.mod_mod n 64) |>.symm

/-- The three bytes of a chunk side by side. -/
theorem chunk_bits (x : Nat) {y z : Nat} (hy : y < 256) (hz : z < 256) :
    x <<< 16 ||| y <<< 8 ||| z = x * 65536 + y * 256 + z := by
  have hxy : x <<< 16 ||| y <<< 8 = (x * 256 + y) <<< 8 := by
    rw [← Nat.shiftLeft_add_eq_or_of_lt (by rw [Nat.shiftLeft_eq]; omega)]
    simp only [Nat.shiftLeft_eq]
    omega
  rw [hxy, ← Nat.shiftLeft_add_eq_or_of_lt (by omega), Nat.shiftLeft_eq]
  omega

/-- The characters of a chunk, a byte it does not have read as zero. -/
theorem b64Chunk_eq (chunk : List UInt8) :
    b64Chunk chunk =
      let x := (chunk.getD 0 0).toNat
      let y := (chunk.getD 1 0).toNat
      let z := (chunk.getD 2 0).toNat
      [Base64.charOf (x / 4), Base64.charOf (x % 4 * 16 + y / 16),
        if 1 < chunk.length then Base64.charOf (y % 16 * 4 + z / 64) else '=',
        if 2 < chunk.length then Base64.charOf (z % 64) else '='] := by
  have hx := (chunk.getD 0 0).toNat_lt
  have hy := (chunk.getD 1 0).toNat_lt
  have hz := (chunk.getD 2 0).toNat_lt
  unfold b64Chunk
  rw [chunk_bits _ hy hz]
  simp only [base64Char_mod, Nat.shiftRight_eq_div_pow]
  generalize (chunk.getD 0 0).toNat = x at *
  generalize (chunk.getD 1 0).toNat = y at *
  generalize (chunk.getD 2 0).toNat = z at *
  have h₁ : (x * 65536 + y * 256 + z) / 2 ^ 18 % 64 = x / 4 := by omega
  have h₂ : (x * 65536 + y * 256 + z) / 2 ^ 12 % 64 = x % 4 * 16 + y / 16 := by omega
  have h₃ : (x * 65536 + y * 256 + z) / 2 ^ 6 % 64 = y % 16 * 4 + z / 64 := by omega
  have h₄ : (x * 65536 + y * 256 + z) % 64 = z % 64 := by omega
  rw [h₁, h₂, h₃, h₄]

theorem chunks_nil {α : Type} (size : Nat) : chunks size ([] : List α) = [] := by
  rw [chunks, dif_pos (Or.inl rfl)]

theorem chunks_three_cons {α : Type} (item : α) (items : List α) :
    chunks 3 (item :: items) = (item :: items.take 2) :: chunks 3 (items.drop 2) := by
  rw [chunks, dif_neg (by simp)]
  rfl

/-- `b64_encode` is standard Base64, chunk by chunk. -/
theorem toList_b64Encode (bytes : List UInt8) :
    (b64Encode bytes).toList = Base64.encode bytes := by
  unfold b64Encode
  rw [String.toList_ofList]
  induction bytes using Base64.encode.induct with
  | case1 =>
      rw [chunks_nil]
      rfl
  | case2 x =>
      rw [chunks_three_cons, List.flatMap_cons, List.drop_nil, chunks_nil, b64Chunk_eq]
      simp [Base64.encode]
  | case3 x y =>
      rw [chunks_three_cons, List.flatMap_cons, b64Chunk_eq]
      show _ ++ (chunks 3 []).flatMap b64Chunk = _
      rw [chunks_nil]
      simp [Base64.encode]
  | case4 x y z rest ih =>
      rw [chunks_three_cons, List.flatMap_cons, b64Chunk_eq]
      show _ ++ (chunks 3 rest).flatMap b64Chunk = _
      rw [ih, Base64.encode]
      rfl

/-! ## §5  The query -/

/-- The characters of a query that parsing a URL leaves as they are; it leaves more. -/
def staysInQuery (c : Char) : Bool :=
  (decide (c.utf8Size = 1) && isUnreserved (byteOfChar c)) || c == '%' || c == '&' || c == '='

theorem encodeByte_ofNat : ∀ n < 256,
    (encodeByte (UInt8.ofNat n)).all (fun c => decide (c.utf8Size = 1) && staysInQuery c) = true ∧
      (encodeByte (UInt8.ofNat n)).map byteOfChar =
        FormUrlencoded.percentByte isUnreserved (UInt8.ofNat n) := by
  decide +kernel

theorem mem_encodeByte {b : UInt8} {c : Char} (h : c ∈ encodeByte b) :
    c.utf8Size = 1 ∧ staysInQuery c = true := by
  have hall := (encodeByte_ofNat b.toNat b.toNat_lt).1
  rw [UInt8.ofNat_toNat] at hall
  have hc := List.all_eq_true.mp hall c h
  rw [Bool.and_eq_true, decide_eq_true_iff] at hc
  exact hc

theorem staysInQuery_rfc3986Encode {value : String} {c : Char}
    (h : c ∈ (rfc3986Encode value).toList) : staysInQuery c = true := by
  unfold rfc3986Encode at h
  rw [String.toList_ofList] at h
  obtain ⟨b, _, hb⟩ := List.mem_flatMap.mp h
  exact (mem_encodeByte hb).2

/-- `rfc3986_encode` writes percent signs for the bytes that are not unreserved. -/
theorem bytesOf_rfc3986Encode (value : String) :
    bytesOf (rfc3986Encode value) = FormUrlencoded.percentEncode isUnreserved (bytesOf value) := by
  have hbyte : ∀ b : UInt8,
      (encodeByte b).map byteOfChar = FormUrlencoded.percentByte isUnreserved b := by
    intro b
    have h := (encodeByte_ofNat b.toNat b.toNat_lt).2
    rwa [UInt8.ofNat_toNat] at h
  have hascii : ∀ c ∈ (bytesOf value).flatMap encodeByte, c.utf8Size = 1 := by
    intro c hc
    obtain ⟨b, _, hb⟩ := List.mem_flatMap.mp hc
    exact (mem_encodeByte hb).1
  unfold rfc3986Encode FormUrlencoded.percentEncode
  rw [FormUrlencoded.bytesOf_ofList hascii, List.map_flatMap]
  exact congrArg (fun f => List.flatMap f _) (funext hbyte)

/-- What `rfc3986_encode` writes, the reader reads back. -/
theorem writer_rfc3986Encode : FormUrlencoded.Writer fun s => bytesOf (rfc3986Encode s) := by
  have hsigns : ∀ b ∈ ([0x25, 0x26, 0x2B, 0x3D] : List UInt8), isUnreserved b = false := by
    simp only [List.forall_mem_cons]
    exact ⟨rfl, rfl, rfl, rfl, List.forall_mem_nil _⟩
  have hwriter : FormUrlencoded.Writer fun s =>
      FormUrlencoded.percentEncode isUnreserved (bytesOf s) :=
    FormUrlencoded.writer_percentEncode hsigns
  exact (funext bytesOf_rfc3986Encode) ▸ hwriter

theorem rfc3986Encode_injective : Function.Injective rfc3986Encode := by
  intro s t h
  exact writer_rfc3986Encode.injective (congrArg bytesOf h)

/-- The bytes of the canonical query are the written pairs. -/
theorem bytesOf_canonicalQuery (params : Params) :
    bytesOf (canonicalQuery params) =
      Separated.join 0x26 (params.rows.map
        (FormUrlencoded.writePair fun s => bytesOf (rfc3986Encode s))) := by
  have hseparator : bytesOf "&" = [0x26] := by decide
  have hequals : bytesOf "=" = [0x3D] := by decide
  unfold canonicalQuery
  rw [FormUrlencoded.bytesOf_intercalate hseparator, List.map_map]
  refine congrArg (Separated.join 0x26) (List.map_congr_left ?_)
  intro p _
  show bytesOf (_ ++ "=" ++ _) = _
  rw [FormUrlencoded.bytesOf_append, FormUrlencoded.bytesOf_append, hequals, List.append_assoc]
  rfl

/-- Reading the canonical query gives the parameters. -/
theorem parse_canonicalQuery (params : Params) :
    FormUrlencoded.parse (bytesOf (canonicalQuery params)) = some params.rows := by
  rw [bytesOf_canonicalQuery]
  exact FormUrlencoded.parse_join writer_rfc3986Encode params.rows

theorem canonicalQuery_injective : Function.Injective canonicalQuery := by
  intro params params' h
  have hrows : some params.rows = some params'.rows := by
    rw [← parse_canonicalQuery, h, parse_canonicalQuery]
  exact KeyedTable.ext_rows (Option.some.inj hrows)

theorem stringToSign_injective : Function.Injective stringToSign := by
  intro canonical canonical' h
  apply rfc3986Encode_injective
  exact String.append_right_inj _ |>.mp h

/-- The canonical query has no character that a URL would write otherwise. -/
theorem staysInQuery_canonicalQuery {params : Params} {c : Char}
    (h : c ∈ (canonicalQuery params).toList) : staysInQuery c = true := by
  unfold canonicalQuery at h
  rw [String.toList_intercalate] at h
  rcases mem_intercalate h with ⟨part, hpart, hc⟩ | hc
  · rw [List.map_map] at hpart
    obtain ⟨p, _, rfl⟩ := List.mem_map.mp hpart
    simp only [Function.comp_apply, String.toList_append, List.mem_append] at hc
    rcases hc with (hc | hc) | hc
    · exact staysInQuery_rfc3986Encode hc
    · have hequals : c = '=' := by simpa using hc
      subst hequals
      rfl
    · exact staysInQuery_rfc3986Encode hc
  · have hampersand : c = '&' := by simpa using hc
    subst hampersand
    rfl

/-! ## §6  The URL library -/

/-- No query and no fragment begins in the text. -/
def PlainFront (front : String) : Prop := '?' ∉ front.toList ∧ '#' ∉ front.toList

/-- The URL standard, as far as the crate is used: the query stands after the first question
mark, and its pairs are read as form-urlencoded text. -/
structure UrlCrate.Standard : Prop where
  query_of_parse : ∀ front query url, PlainFront front →
    (∀ c ∈ query.toList, staysInQuery c = true) →
      crate.parse (front ++ "?" ++ query) = some url → crate.query url = some query
  pairs_of_query : ∀ url query pairs, crate.query url = some query →
    FormUrlencoded.parse (bytesOf query) = some pairs → crate.queryPairs url = pairs

/-- The pairs read from a URL are the signed parameters and one signature. -/
structure Carries (url : crate.Url) (params : Params) (signature : String) : Prop where
  pairs : crate.queryPairs url = (OrderedMap.insert params "Signature" signature).rows
  signed : (crate.queryPairs url).filter (fun p => decide (p.1 ≠ "Signature")) = params.rows
  one : (crate.queryPairs url).filter (fun p => decide (p.1 = "Signature")) =
    [("Signature", signature)]

theorem rows_insert_others {params : Params} {key value : String}
    (h : OrderedMap.lookup params key = none) :
    (OrderedMap.insert params key value).rows.filter (fun p => decide (p.1 ≠ key)) =
      params.rows := by
  have hremoved : OrderedMap.remove (OrderedMap.insert params key value) key = params := by
    apply OrderedMap.ext_lookup
    intro k
    rw [OrderedMap.lookup_remove, OrderedMap.lookup_insert]
    by_cases hk : k = key
    · rw [if_pos hk, hk, h]
    · rw [if_neg hk, if_neg hk]
  exact congrArg KeyedTable.rows hremoved

theorem rows_insert_key (params : Params) (key value : String) :
    (OrderedMap.insert params key value).rows.filter (fun p => decide (p.1 = key)) =
      [(key, value)] := by
  have hnodup := (OrderedMap.insert params key value).rows_nodup
  have hperm : ((OrderedMap.insert params key value).rows.filter
      fun p => decide (p.1 = key)).Perm [(key, value)] := by
    refine (List.perm_ext_iff_of_nodup (hnodup.filter _) (List.nodup_singleton _)).mpr ?_
    intro p
    unfold OrderedMap.insert
    rw [List.mem_filter, KeyedTable.mem_put, List.mem_singleton, decide_eq_true_iff]
    constructor
    · rintro ⟨rfl | ⟨_, hne⟩, hkey⟩
      · rfl
      · exact absurd hkey hne
    · rintro rfl
      exact ⟨Or.inl rfl, rfl⟩
  exact List.perm_singleton.mp hperm

variable {crate}

/-- A URL that is built carries what was signed. -/
theorem signedUrl_carries (hcrate : crate.Standard) {newFromSlice : HmacSha1}
    {secretKey : List UInt8} {origin : String} (horigin : PlainFront origin) {params : Params}
    (hparams : OrderedMap.lookup params "Signature" = none) {url : crate.Url}
    (h : signedUrl crate newFromSlice secretKey origin params = .ok url) :
    ∃ signature, signRpcQuery newFromSlice secretKey params = .ok signature ∧
      Carries crate url params signature := by
  unfold signedUrl at h
  cases hsign : signRpcQuery newFromSlice secretKey params with
  | error message =>
      rw [hsign] at h
      cases h
  | ok signature =>
      rw [hsign] at h
      simp only [bind, Except.bind] at h
      split at h
      · cases h
      · rename_i url' hparse
        cases h
        have hfront : PlainFront (origin ++ "/") := by
          unfold PlainFront at horigin ⊢
          simp [horigin]
        have hquery : crate.query url =
            some (canonicalQuery (OrderedMap.insert params "Signature" signature)) := by
          refine hcrate.query_of_parse (origin ++ "/") _ _ hfront ?_ ?_
          · exact fun c hc => staysInQuery_canonicalQuery hc
          · have hslash : origin ++ "/" ++ "?" = origin ++ "/?" := String.append_assoc
            rw [hslash]
            exact hparse
        have hpairs := hcrate.pairs_of_query _ _ _ hquery (parse_canonicalQuery _)
        refine ⟨signature, rfl, hpairs, ?_, ?_⟩
        · rw [hpairs, rows_insert_others hparams]
        · rw [hpairs, rows_insert_key]

/-- The origins that requests are sent to. -/
theorem plainFront_moduleOrigin (module : String) : PlainFront (moduleOrigin module) := by
  unfold moduleOrigin PlainFront
  split
  · decide +kernel
  split
  · decide
  split
  · decide +kernel
  split
  · decide
  · decide

/-- What `build` checks before it signs, and the URL it returns. -/
theorem SignedRequest.build_ok_iff {newFromSlice : HmacSha1}
    {origin action version region accessKey : String} {secretKey : List UInt8} {nonce : String}
    {nowUnixSecs pageNumber pageSize : Nat} {extra : List (String × String)}
    {request : SignedRequest crate} :
    SignedRequest.build crate newFromSlice origin action version region accessKey secretKey nonce
        nowUnixSecs pageNumber pageSize extra = .ok request ↔
      ¬(action = "" ∨ version = "" ∨ region = "" ∨ accessKey = "" ∨ nonce = "") ∧
        ¬(pageNumber = 0 ∨ pageSize = 0 ∨ 100 < pageSize) ∧
        signedUrl crate newFromSlice secretKey origin (requestParams action version region accessKey
          nonce nowUnixSecs pageNumber pageSize extra) = .ok request.url ∧
        request.accessKey = accessKey := by
  unfold SignedRequest.build
  split
  · rename_i hscope
    exact iff_of_false (fun h => by cases h) (fun h => h.1 hscope)
  split
  · rename_i hwindow
    exact iff_of_false (fun h => by cases h) (fun h => h.2.1 hwindow)
  rename_i hscope hwindow
  rw [and_iff_right hscope, and_iff_right hwindow]
  dsimp only
  cases signedUrl crate newFromSlice secretKey origin (requestParams action version region accessKey
    nonce nowUnixSecs pageNumber pageSize extra) with
  | error message => exact iff_of_false (fun h => by cases h) (fun h => by cases h.1)
  | ok url =>
      constructor
      · intro h
        cases h
        exact ⟨rfl, rfl⟩
      · rintro ⟨hurl, hkey⟩
        cases request
        cases hurl
        cases hkey
        rfl

/-- A request that is signed here is one of those the pages are asked for with. -/
theorem SignedRequest.build_asked {newFromSlice : HmacSha1}
    {origin action version region accessKey : String} {secretKey : List UInt8} {nonce : String}
    {nowUnixSecs pageNumber pageSize : Nat} {extra : List (String × String)}
    {request : SignedRequest crate}
    (h : SignedRequest.build crate newFromSlice origin action version region accessKey secretKey
      nonce nowUnixSecs pageNumber pageSize extra = .ok request) :
    Aliyun.SignedRequest.build origin action version region accessKey pageNumber pageSize extra =
      some ⟨origin, action, version, region, accessKey, pageNumber, pageSize, extra⟩ := by
  obtain ⟨hscope, hwindow, _⟩ := SignedRequest.build_ok_iff.mp h
  unfold Aliyun.SignedRequest.build
  rw [if_neg (by tauto), if_neg hwindow]

/-- Extra parameters without a signature leave the signed ones without it. -/
theorem requestParams_unsigned {action version region accessKey nonce : String}
    {nowUnixSecs pageNumber pageSize : Nat} {extra : List (String × String)}
    (h : ∀ p ∈ extra, p.1 ≠ "Signature") :
    OrderedMap.lookup (requestParams action version region accessKey nonce nowUnixSecs pageNumber
      pageSize extra) "Signature" = none := by
  rw [Option.eq_none_iff_forall_ne_some]
  intro value hlookup
  obtain ⟨before, after, heq, _⟩ :=
    OrderedMap.mem_ofEntries_iff.mp (OrderedMap.lookup_eq_some_iff.mp hlookup)
  have hmem : ("Signature", value) ∈ before ++ ("Signature", value) :: after := by simp
  rw [← heq, List.mem_append] at hmem
  rcases hmem with hmem | hmem
  · simp at hmem
  · exact h _ hmem rfl

/-- A signature is the text of what the digest makes of the string to sign. -/
theorem signRpcQuery_ok {newFromSlice : HmacSha1} {secretKey : List UInt8} {params : Params}
    {signature : String} (h : signRpcQuery newFromSlice secretKey params = .ok signature) :
    ∃ finalize, newFromSlice (secretKey ++ [0x26]) = some finalize ∧
      signature.toList =
        Base64.encode (finalize (bytesOf (stringToSign (canonicalQuery params)))) := by
  unfold signRpcQuery at h
  split at h
  · cases h
  · rename_i finalize hfinalize
    cases h
    exact ⟨finalize, hfinalize, toList_b64Encode _⟩

/-! ## §7  Requests carry what was signed -/

theorem request_carries_signed (hcrate : crate.Standard) :
    (∀ newFromSlice secretKey origin params url, PlainFront origin →
      OrderedMap.lookup params "Signature" = none →
        signedUrl crate newFromSlice secretKey origin params = .ok url →
          ∃ signature, signRpcQuery newFromSlice secretKey params = .ok signature ∧
            Carries crate url params signature) ∧
      (∀ newFromSlice origin action version region accessKey secretKey nonce nowUnixSecs pageNumber
        pageSize extra request, PlainFront origin → (∀ p ∈ extra, p.1 ≠ "Signature") →
          SignedRequest.build crate newFromSlice origin action version region accessKey secretKey
            nonce nowUnixSecs pageNumber pageSize extra = .ok request →
            let params := requestParams action version region accessKey nonce nowUnixSecs
              pageNumber pageSize extra
            ∃ signature, signRpcQuery newFromSlice secretKey params = .ok signature ∧
              Carries crate request.url params signature) ∧
      (∀ params params', canonicalQuery params = canonicalQuery params' → params = params') ∧
      (∀ params params', stringToSign (canonicalQuery params) =
        stringToSign (canonicalQuery params') → params = params') ∧
      (∀ newFromSlice secretKey params signature,
        signRpcQuery newFromSlice secretKey params = .ok signature →
          ∃ finalize, newFromSlice (secretKey ++ [0x26]) = some finalize ∧
            signature.toList =
              Base64.encode (finalize (bytesOf (stringToSign (canonicalQuery params))))) ∧
      ∀ bytes, Base64.decode (b64Encode bytes).toList = some bytes := by
  refine ⟨?_, ?_, ?_, ?_, fun _ _ _ _ => signRpcQuery_ok, ?_⟩
  · intro newFromSlice secretKey origin params url horigin hparams h
    exact signedUrl_carries hcrate horigin hparams h
  · intro newFromSlice origin action version region accessKey secretKey nonce nowUnixSecs pageNumber
      pageSize extra request horigin hextra h
    obtain ⟨_, _, hurl, _⟩ := SignedRequest.build_ok_iff.mp h
    exact signedUrl_carries hcrate horigin (requestParams_unsigned hextra) hurl
  · intro params params' h
    exact canonicalQuery_injective h
  · intro params params' h
    exact canonicalQuery_injective (stringToSign_injective h)
  · intro bytes
    rw [toList_b64Encode]
    exact Base64.decode_encode bytes

/-! ## §8  A URL library -/

/-- What stands after the first question mark, up to the fragment. -/
def queryText (text : String) : String :=
  String.ofList (((text.toList.takeWhile (· != '#')).dropWhile (· != '?')).drop 1)

/-- URLs kept as their texts. -/
def textUrls : UrlCrate where
  Url := String
  parse text := some text
  query text := some (queryText text)
  queryPairs text := (FormUrlencoded.parse (bytesOf (queryText text))).getD []

theorem queryText_append {front query : String} (hfront : PlainFront front)
    (hquery : ∀ c ∈ query.toList, staysInQuery c = true) :
    queryText (front ++ "?" ++ query) = query := by
  have hhash : ∀ c ∈ front.toList ++ '?' :: query.toList, (c != '#') = true := by
    intro c hc
    rw [bne_iff_ne]
    rintro rfl
    rw [List.mem_append, List.mem_cons] at hc
    rcases hc with hc | hc | hc
    · exact hfront.2 hc
    · exact absurd hc (by decide)
    · exact absurd (hquery _ hc) (by decide)
  have hquestion : ∀ c ∈ front.toList, (c != '?') = true := by
    intro c hc
    rw [bne_iff_ne]
    rintro rfl
    exact hfront.1 hc
  have htext : (front ++ "?" ++ query).toList = front.toList ++ '?' :: query.toList := by
    simp
  have hkept := List.takeWhile_eq_self_iff.mpr hhash
  unfold queryText
  rw [htext, hkept, List.dropWhile_append_of_pos hquestion]
  exact String.ofList_toList

theorem textUrls_standard : textUrls.Standard where
  query_of_parse := by
    intro front query url hfront hquery h
    cases h
    exact congrArg some (queryText_append hfront hquery)
  pairs_of_query := by
    intro url query pairs hquery hpairs
    cases hquery
    show (FormUrlencoded.parse _).getD [] = pairs
    rw [hpairs]
    rfl

def describeInstances : Params :=
  requestParams "DescribeInstances" "2014-05-26" "cn-example-1&x" "key" "nonce-1" 1700000000 1 100 []

theorem request_carries_signed_text :
    ∃ url signature,
      signedUrl textUrls (fun _ => some id) [0x73] (moduleOrigin "aliyun.compute.ecs")
          describeInstances = .ok url ∧
        signRpcQuery (fun _ => some id) [0x73] describeInstances = .ok signature ∧
        Carries textUrls url describeInstances signature := by
  obtain ⟨signature, hsignature, hcarries⟩ := (request_carries_signed textUrls_standard).1
    (fun _ => some id) [0x73] (moduleOrigin "aliyun.compute.ecs") describeInstances _
    (plainFront_moduleOrigin _) (requestParams_unsigned (List.forall_mem_nil _)) rfl
  exact ⟨_, signature, rfl, hsignature, hcarries⟩

end Signing

end Aliyun

end NextInfra
