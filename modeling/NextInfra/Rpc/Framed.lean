import NextInfra.Lib.Reads
import NextInfra.Rpc.Message

/-!
# Frames over a stream

`read_frame` takes one frame off a stream, `decode_frame_bytes` takes one apart that has
arrived whole, and the loop of `serve_stream` reads requests until the stream ends. §3
finds that the two decoders agree with the encoder however the stream is split. §4 is
about the end of the stream: the loop knows it by the counts of an `Eof` alone, and an
announced body of four bytes that never starts has the counts of a missing header.
-/

namespace NextInfra

namespace Rpc

open Frames Reads

/-! ## §1  One frame -/

def frameHeaderBytes : Nat := 4

/-- `FramedError`, with what a read of the stream reports. -/
inductive StreamError (ε : Type)
  | io (error : ε)
  | eof (expected actual : Nat)
  | zeroLength
  | oversizedFrame (length : Nat)
  | invalidJson
deriving DecidableEq

def StreamError.ofRead {ε : Type} : Reads.ReadError ε → StreamError ε
  | .failed error => .io error
  | .eof expected actual => .eof expected actual

/-- `u32::from_be_bytes`. -/
def fromBeBytes (header : Bytes) : Nat := header.foldl (fun n byte => n * 2 ^ 8 + byte.toNat) 0

section

variable {ε : Type}

def readFrame (stream : Reads.Stream UInt8 ε) : Except (StreamError ε) Bytes × Reads.Stream UInt8 ε :=
  match readExact frameHeaderBytes [] stream with
  | (.error error, rest) => (.error (.ofRead error), rest)
  | (.ok header, rest) =>
      let length := fromBeBytes header
      if length = 0 then (.error .zeroLength, rest)
      else if maxFrameBytes < length then (.error (.oversizedFrame length), rest)
      else
        match readExact length [] rest with
        | (.error error, rest) => (.error (.ofRead error), rest)
        | (.ok body, rest) => (.ok body, rest)

/-- `read_frame`, again and again. -/
def readFrames : Nat → Reads.Stream UInt8 ε → Except (StreamError ε) (List Bytes) × Reads.Stream UInt8 ε
  | 0, stream => (.ok [], stream)
  | count + 1, stream =>
      match readFrame stream with
      | (.error error, rest) => (.error error, rest)
      | (.ok body, rest) =>
          let (bodies, last) := readFrames count rest
          (bodies.map (body :: ·), last)

end

inductive FrameErrorKind
  | missingHeader (actual : Nat)
  | zeroLength
  | incomplete (expected actual : Nat)
  | trailingBytes (expected actual : Nat)
deriving DecidableEq

inductive FrameError
  | oversizedFrame (length : Nat)
  | invalidFrame (kind : FrameErrorKind)
deriving DecidableEq

def decodeFrameBytes (framed : Bytes) : Except FrameError Bytes :=
  if framed.length < frameHeaderBytes then
    .error (.invalidFrame (.missingHeader framed.length))
  else
    let length := fromBeBytes (framed.take frameHeaderBytes)
    if length = 0 then .error (.invalidFrame .zeroLength)
    else if maxFrameBytes < length then .error (.oversizedFrame length)
    else
      let expected := frameHeaderBytes + length
      if framed.length < expected then .error (.invalidFrame (.incomplete expected framed.length))
      else if expected < framed.length then
        .error (.invalidFrame (.trailingBytes expected framed.length))
      else .ok ((framed.take expected).drop frameHeaderBytes)

/-! ## §2  What a stream of bytes reads as -/

theorem fromBeBytes_header (a b c d : UInt8) : fromBeBytes [a, b, c, d] = lengthOf a b c d := by
  simp only [fromBeBytes, lengthOf, List.foldl_cons, List.foldl_nil]
  omega

/-- The error of a header that is rejected. -/
def rejection (ε : Type) (length : Nat) : StreamError ε :=
  if length = 0 then .zeroLength else .oversizedFrame length

section

variable {ε : Type} {stream : Reads.Stream UInt8 ε}

/-- A frame that is read stood at the front of the stream. -/
theorem readFrame_ok {body : Bytes} {rest : Reads.Stream UInt8 ε} (h : readFrame stream = (.ok body, rest)) :
    items stream = frame body ++ items rest ∧ body ≠ [] ∧ body.length ≤ maxFrameBytes := by
  unfold readFrame at h
  split at h
  · cases h
  rename_i header afterHeader hheader
  obtain ⟨hfour, hitems⟩ := readExact_ok (Nat.zero_le _) hheader
  obtain ⟨a, b, c, d, rfl⟩ : ∃ a b c d, header = [a, b, c, d] := by
    obtain ⟨a, b, c, d, tail, rfl⟩ := exists_header (show ¬ header.length < 4 by
      unfold frameHeaderBytes at hfour
      omega)
    cases tail with
    | nil => exact ⟨a, b, c, d, rfl⟩
    | cons e tail =>
        simp only [List.length_cons, frameHeaderBytes] at hfour
        omega
  simp only [fromBeBytes_header] at h
  split at h
  · cases h
  rename_i hpos
  split at h
  · cases h
  rename_i hfits
  split at h
  · cases h
  rename_i read afterBody hbody
  cases h
  obtain ⟨hlength, hrest⟩ := readExact_ok (Nat.zero_le _) hbody
  refine ⟨?_, ?_, by omega⟩
  · rw [List.nil_append] at hitems hrest
    rw [hitems, hrest, frame, hlength, header_lengthOf, List.append_assoc]
  · rintro rfl
    exact hpos hlength.symm

/-- What `readFrame` makes of the bytes of a stream without a failure. -/
def Reading (stream : Reads.Stream UInt8 ε) : Prop :=
  match Frames.read maxFrameBytes (items stream) with
  | .body body tail =>
      ∃ rest, readFrame stream = (.ok body, rest) ∧ Clean rest ∧ items rest = tail
  | .rejected length tail =>
      ∃ rest, readFrame stream = (.error (rejection ε length), rest) ∧ Clean rest ∧
        items rest = tail
  | .short =>
      ∃ expected actual rest, readFrame stream = (.error (.eof expected actual), rest) ∧
        (expected = 4 ∧ actual = 0 ↔ items stream = [] ∨ items stream = header 4)

theorem readFrame_clean (hclean : Clean stream) : Reading stream := by
  unfold Reading readFrame
  rcases @readExact_clean _ _ _ [] _ hclean (Nat.zero_le frameHeaderBytes) with
    ⟨hfour, afterHeader, hread, hrest, hitems⟩ | ⟨hfew, hread⟩
  · rw [List.length_nil, Nat.zero_add] at hfour
    obtain ⟨a, b, c, d, tail, hbytes⟩ := exists_header (show ¬ (items stream).length < 4 by
      unfold frameHeaderBytes at hfour
      omega)
    have hheader : (items stream).take (frameHeaderBytes - ([] : Bytes).length) = [a, b, c, d] := by
      rw [hbytes]
      rfl
    have htail : items afterHeader = tail := by
      rw [hitems, hbytes]
      rfl
    rw [hread, hheader, hbytes, read_cons]
    simp only [List.nil_append, fromBeBytes_header]
    by_cases hzero : lengthOf a b c d = 0
    · rw [if_pos (.inl hzero), if_pos hzero]
      refine ⟨afterHeader, ?_, hrest, htail⟩
      unfold rejection
      rw [if_pos hzero]
    by_cases hover : maxFrameBytes < lengthOf a b c d
    · rw [if_pos (.inr hover), if_neg hzero, if_pos hover]
      refine ⟨afterHeader, ?_, hrest, htail⟩
      unfold rejection
      rw [if_neg hzero]
    rw [if_neg (by omega), if_neg hzero, if_neg hover]
    rcases @readExact_clean _ _ _ [] _ hrest (Nat.zero_le (lengthOf a b c d)) with
      ⟨hwhole, afterBody, hread, hclean, hitems⟩ | ⟨hfew, hread⟩
    · rw [List.length_nil, Nat.zero_add, htail] at hwhole
      rw [if_neg (by omega), hread]
      rw [List.length_nil, Nat.sub_zero, htail] at hitems
      refine ⟨afterBody, ?_, hclean, hitems⟩
      rw [htail, List.length_nil, Nat.sub_zero, List.nil_append]
    · rw [List.length_nil, Nat.zero_add, htail] at hfew
      rw [if_pos hfew, hread, htail]
      refine ⟨lengthOf a b c d, tail.length, [], by simp [StreamError.ofRead], ?_⟩
      -- the counts of a missing header, for a body of four bytes
      constructor
      · rintro ⟨hlength, hnone⟩
        right
        rw [List.length_eq_zero_iff.mp hnone, ← hlength, header_lengthOf]
      · rintro (hnil | hcut)
        · cases hnil
        · obtain ⟨hfront, rfl⟩ := List.append_inj
            (show [a, b, c, d] ++ tail = header 4 ++ [] from hcut) rfl
          rw [← header_lengthOf a b c d] at hfront
          refine ⟨?_, rfl⟩
          have hheaders := congrArg fromBeBytes (header_lengthOf a b c d ▸ hfront)
          rw [fromBeBytes_header] at hheaders
          exact hheaders
  · rw [List.length_nil, Nat.zero_add] at hfew hread
    rw [read_no_header hfew, hread]
    refine ⟨frameHeaderBytes, (items stream).length, [], rfl, ?_⟩
    constructor
    · rintro ⟨_, hnone⟩
      exact .inl (List.length_eq_zero_iff.mp hnone)
    · rintro (hnil | hcut)
      · exact ⟨rfl, by rw [hnil]; rfl⟩
      · rw [hcut] at hfew
        exact absurd hfew (by decide)

theorem readFrame_frame {body tail : Bytes} (hne : body ≠ []) (hfits : body.length ≤ maxFrameBytes)
    (hclean : Clean stream) (hitems : items stream = frame body ++ tail) :
    ∃ rest, readFrame stream = (.ok body, rest) ∧ Clean rest ∧ items rest = tail := by
  have hreading := readFrame_clean hclean
  unfold Reading at hreading
  rw [(read_body_iff maxFrameBytes_lt).mpr ⟨hitems, hne, hfits⟩] at hreading
  exact hreading

theorem readFrame_rejected {a b c d : UInt8} {tail : Bytes} (hclean : Clean stream)
    (hlength : lengthOf a b c d = 0 ∨ maxFrameBytes < lengthOf a b c d)
    (hitems : items stream = a :: b :: c :: d :: tail) :
    ∃ rest, readFrame stream = (.error (rejection ε (lengthOf a b c d)), rest) ∧
      Clean rest ∧ items rest = tail := by
  have hreading := readFrame_clean hclean
  unfold Reading at hreading
  rw [hitems, read_cons, if_pos hlength] at hreading
  exact hreading

end

/-! ## §3  What was encoded -/

/-- The bytes that `decode_frame_bytes` takes are one frame and nothing else. -/
theorem decodeFrameBytes_ok_iff {framed body : Bytes} :
    decodeFrameBytes framed = .ok body ↔
      framed = frame body ∧ body ≠ [] ∧ body.length ≤ maxFrameBytes := by
  unfold decodeFrameBytes
  by_cases hheader : framed.length < frameHeaderBytes
  · rw [if_pos hheader]
    constructor
    · intro h
      cases h
    · rintro ⟨rfl, _, _⟩
      rw [length_frame] at hheader
      unfold frameHeaderBytes at hheader
      omega
  obtain ⟨a, b, c, d, tail, rfl⟩ := exists_header hheader
  have htake : (a :: b :: c :: d :: tail).take frameHeaderBytes = [a, b, c, d] := rfl
  have hread := @read_body_iff maxFrameBytes maxFrameBytes_lt (a :: b :: c :: d :: tail) body []
  rw [List.append_nil] at hread
  have hlength : (a :: b :: c :: d :: tail).length = frameHeaderBytes + tail.length := by
    simp only [List.length_cons, frameHeaderBytes]
    omega
  rw [if_neg hheader, htake, fromBeBytes_header, ← hread, read_cons, hlength]
  simp only
  by_cases hzero : lengthOf a b c d = 0
  · rw [if_pos hzero, if_pos (.inl hzero)]
    exact ⟨nofun, nofun⟩
  by_cases hover : maxFrameBytes < lengthOf a b c d
  · rw [if_neg hzero, if_pos hover, if_pos (.inr hover)]
    exact ⟨nofun, nofun⟩
  rw [if_neg hzero, if_neg hover, if_neg (not_or.mpr ⟨hzero, hover⟩)]
  simp only [Nat.add_lt_add_iff_left]
  rcases Nat.lt_trichotomy tail.length (lengthOf a b c d) with hshort | hexact | hlong
  · rw [if_pos hshort, if_pos hshort]
    exact ⟨nofun, nofun⟩
  · have hbody : ((a :: b :: c :: d :: tail).take (frameHeaderBytes + lengthOf a b c d)).drop
        frameHeaderBytes = tail.take (lengthOf a b c d) := by
      rw [List.drop_take, Nat.add_sub_cancel_left]
      rfl
    rw [← hexact, if_neg (Nat.lt_irrefl _), if_neg (Nat.lt_irrefl _), if_neg (Nat.lt_irrefl _),
      hexact, hbody, ← hexact, List.take_length, List.drop_length]
    simp
  · rw [if_neg (Nat.lt_asymm hlong), if_pos hlong, if_neg (Nat.lt_asymm hlong)]
    constructor
    · intro h
      cases h
    · intro h
      simp only [Read.body.injEq, List.drop_eq_nil_iff] at h
      omega

section

variable {ε : Type}

/-- The frames of a list of values, read from a stream that holds them. -/
theorem readFrames_encoded {values : List (List Bytes)} {frames : List Bytes} {tail : Bytes}
    {stream : Reads.Stream UInt8 ε} (hframes : values.mapM encodeFrame = .ok frames)
    (hclean : Clean stream) (hitems : items stream = frames.flatten ++ tail) :
    frames.map decodeFrameBytes = values.map (fun pieces => .ok pieces.flatten) ∧
      ∃ rest, readFrames values.length stream = (.ok (values.map List.flatten), rest) ∧
        Clean rest ∧ items rest = tail := by
  induction values generalizing frames stream with
  | nil =>
      cases hframes
      exact ⟨rfl, stream, rfl, hclean, hitems⟩
  | cons pieces values ih =>
      rw [List.mapM_cons] at hframes
      obtain ⟨framed, hframed, hframes⟩ := bind_ok hframes
      obtain ⟨others, hothers, hframes⟩ := bind_ok hframes
      cases hframes
      obtain ⟨rfl, hne, hfits⟩ := encodeFrame_ok_iff.mp hframed
      rw [List.flatten_cons, List.append_assoc] at hitems
      obtain ⟨afterFrame, hread, hafter, hrest⟩ := readFrame_frame hne hfits hclean hitems
      obtain ⟨hagree, last, hreads, hlast, htail⟩ := ih hothers hafter hrest
      refine ⟨?_, last, ?_, hlast, htail⟩
      · rw [List.map_cons, List.map_cons, hagree, decodeFrameBytes_ok_iff.mpr ⟨rfl, hne, hfits⟩]
      · rw [List.length_cons, readFrames, hread]
        simp only [hreads]
        rfl

end

/-! ## §4  The loop of a session -/

/-- What a session does between its reads. -/
structure Turns (Request σ : Type) where
  /-- `reap_finished`, after the requests so far. -/
  reap : List Request → Except σ Unit
  /-- A request is answered, or a worker is started for it. -/
  answer : List Request → Request → Except σ Unit

inductive SessionEnd (ε σ : Type)
  /-- The loop is left and the workers are joined. -/
  | closed
  | frame (error : StreamError ε)
  | fault (error : σ)
deriving DecidableEq

section

variable {ε σ Request : Type}

/-- The loop of `serve_stream`, with the requests that it has taken. -/
def serveRequests (decode : Bytes → Option Request) (turns : Turns Request σ)
    (taken : List Request) (stream : Reads.Stream UInt8 ε) : SessionEnd ε σ :=
  match turns.reap taken with
  | .error error => .fault error
  | .ok () =>
      match _hread : readFrame stream with
      | (.error (.eof 4 0), _) => .closed
      | (.error error, _) => .frame error
      | (.ok body, rest) =>
          match decode body with
          | none => .frame .invalidJson
          | some request =>
              match turns.answer taken request with
              | .error error => .fault error
              | .ok () => serveRequests decode turns (taken ++ [request]) rest
termination_by (items stream).length
decreasing_by
  rw [(readFrame_ok _hread).1, List.length_append, length_frame]
  omega

variable {decode : Bytes → Option Request} {turns : Turns Request σ}

/-- The bytes end on a frame boundary, with every request before it taken. -/
inductive Boundary (decode : Bytes → Option Request) (turns : Turns Request σ) :
    List Request → Bytes → Prop
  | here {taken : List Request} (hreap : turns.reap taken = .ok ()) : Boundary decode turns taken []
  | after {taken : List Request} {body bytes : Bytes} {request : Request}
      (hreap : turns.reap taken = .ok ()) (hne : body ≠ []) (hfits : body.length ≤ maxFrameBytes)
      (hdecode : decode body = some request) (hanswer : turns.answer taken request = .ok ())
      (hrest : Boundary decode turns (taken ++ [request]) bytes) :
      Boundary decode turns taken (frame body ++ bytes)

/-- The bytes end behind the header of a body of four bytes, on a boundary otherwise. -/
def CutAtFour (decode : Bytes → Option Request) (turns : Turns Request σ) (taken : List Request)
    (bytes : Bytes) : Prop :=
  ∃ whole, Boundary decode turns taken whole ∧ bytes = whole ++ header 4

/-- No bytes end both ways. -/
theorem Boundary.not_cutAtFour {taken : List Request} {bytes : Bytes}
    (h : Boundary decode turns taken bytes) : ¬ CutAtFour decode turns taken bytes := by
  rintro ⟨whole, hwhole, rfl⟩
  induction hwhole with
  | here _ =>
      -- four bytes are a header and hold no frame
      generalize hcut : [] ++ header 4 = bytes at h
      cases h with
      | here _ => cases hcut
      | @after _ body bytes _ _ hne _ _ _ _ =>
          have hlength := congrArg List.length hcut
          rw [List.nil_append, List.length_append, length_frame] at hlength
          have hpos := List.length_pos_iff.mpr hne
          have hfour : (header 4).length = 4 := rfl
          omega
  | @after taken body bytes request _ hne hfits hdecode _ _ ih =>
      generalize hcut : frame body ++ bytes ++ header 4 = all at h
      rw [List.append_assoc] at hcut
      cases h with
      | here _ =>
          have hlength := congrArg List.length hcut
          rw [List.length_append, length_frame] at hlength
          simp only [List.length_nil] at hlength
          omega
      | @after _ other rest request' _ hne' hfits' hdecode' _ hrest =>
          obtain ⟨rfl, rfl⟩ := frame_append_inj maxFrameBytes_lt hne hfits hne' hfits' hcut
          rw [hdecode] at hdecode'
          cases hdecode'
          exact ih hrest

/-- A reading that has come to its end leaves the loop by the counts. -/
theorem serveRequests_eof {taken : List Request} {stream rest : Reads.Stream UInt8 ε}
    {expected actual : Nat} (hreap : turns.reap taken = .ok ())
    (hread : readFrame stream = (.error (.eof expected actual), rest)) :
    serveRequests decode turns taken stream = .closed ↔ expected = 4 ∧ actual = 0 := by
  unfold serveRequests
  rw [hreap]
  simp only
  split
  · rename_i heof
    rw [hread] at heof
    cases heof
    simp
  · rename_i hother heof
    rw [hread] at heof
    cases heof
    constructor
    · intro h
      cases h
    · rintro ⟨rfl, rfl⟩
      exact absurd rfl hother
  · rename_i heof
    rw [hread] at heof
    cases heof

theorem Boundary.reap {taken : List Request} {bytes : Bytes}
    (h : Boundary decode turns taken bytes) : turns.reap taken = .ok () := by
  cases h with
  | here hreap => exact hreap
  | after hreap _ _ _ _ _ => exact hreap

theorem Boundary.nil_or_read {taken : List Request} {bytes : Bytes}
    (h : Boundary decode turns taken bytes) :
    bytes = [] ∨ ∃ body tail, Frames.read maxFrameBytes bytes = .body body tail := by
  cases h with
  | here _ => exact .inl rfl
  | after _ hne hfits _ _ _ =>
      exact .inr ⟨_, _, (read_body_iff maxFrameBytes_lt).mpr ⟨rfl, hne, hfits⟩⟩

theorem CutAtFour.header_or_read {taken : List Request} {bytes : Bytes}
    (h : CutAtFour decode turns taken bytes) :
    bytes = header 4 ∨ ∃ body tail, Frames.read maxFrameBytes bytes = .body body tail := by
  obtain ⟨whole, hwhole, rfl⟩ := h
  cases hwhole with
  | here _ => exact .inl rfl
  | @after _ body tail _ _ hne hfits _ _ _ =>
      refine .inr ⟨body, tail ++ header 4, (read_body_iff maxFrameBytes_lt).mpr ⟨?_, hne, hfits⟩⟩
      apply List.append_assoc

section

variable {taken : List Request} {body tail : Bytes}

theorem boundary_frame_iff (hne : body ≠ []) (hfits : body.length ≤ maxFrameBytes) :
    Boundary decode turns taken (frame body ++ tail) ↔
      turns.reap taken = .ok () ∧ ∃ request, decode body = some request ∧
        turns.answer taken request = .ok () ∧ Boundary decode turns (taken ++ [request]) tail := by
  constructor
  · intro h
    generalize hbytes : frame body ++ tail = bytes at h
    cases h with
    | here _ =>
        have hlength := congrArg List.length hbytes
        rw [List.length_append, length_frame, List.length_nil] at hlength
        omega
    | after hreap hne' hfits' hdecode hanswer hrest =>
        obtain ⟨rfl, rfl⟩ := frame_append_inj maxFrameBytes_lt hne hfits hne' hfits' hbytes
        exact ⟨hreap, _, hdecode, hanswer, hrest⟩
  · rintro ⟨hreap, request, hdecode, hanswer, hrest⟩
    exact .after hreap hne hfits hdecode hanswer hrest

theorem cutAtFour_frame_iff (hne : body ≠ []) (hfits : body.length ≤ maxFrameBytes) :
    CutAtFour decode turns taken (frame body ++ tail) ↔
      turns.reap taken = .ok () ∧ ∃ request, decode body = some request ∧
        turns.answer taken request = .ok () ∧ CutAtFour decode turns (taken ++ [request]) tail := by
  constructor
  · rintro ⟨whole, hwhole, hbytes⟩
    rcases hwhole with ⟨_⟩ | ⟨hreap, hne', hfits', hdecode, hanswer, hrest⟩
    · have hlength := congrArg List.length hbytes
      have hpos := List.length_pos_iff.mpr hne
      have hfour : (header 4).length = 4 := rfl
      simp only [List.length_append, length_frame, List.nil_append] at hlength
      omega
    · rw [List.append_assoc] at hbytes
      obtain ⟨rfl, rfl⟩ := frame_append_inj maxFrameBytes_lt hne hfits hne' hfits' hbytes
      exact ⟨hreap, _, hdecode, hanswer, _, hrest, rfl⟩
  · rintro ⟨hreap, request, hdecode, hanswer, whole, hrest, rfl⟩
    refine ⟨_, .after hreap hne hfits hdecode hanswer hrest, ?_⟩
    exact (List.append_assoc _ _ _).symm

end

/-- One turn of the loop that reads a frame. -/
theorem serveRequests_frame {taken : List Request} {body : Bytes}
    {stream rest : Reads.Stream UInt8 ε} (hread : readFrame stream = (.ok body, rest)) :
    serveRequests decode turns taken stream = .closed ↔
      turns.reap taken = .ok () ∧ ∃ request, decode body = some request ∧
        turns.answer taken request = .ok () ∧
        serveRequests decode turns (taken ++ [request]) rest = .closed := by
  rw [serveRequests]
  cases hreap : turns.reap taken with
  | error error => simp
  | ok reaped =>
      simp only
      split
      · rename_i heof
        rw [hread] at heof
        cases heof
      · rename_i heof
        rw [hread] at heof
        cases heof
      · rename_i body' rest' hok
        rw [hread] at hok
        cases hok
        cases hdecode : decode body with
        | none => simp
        | some request => cases hanswer : turns.answer taken request <;> simp [hanswer]

/-- The loop closes at a boundary, and behind a header that announces four bytes. -/
theorem serveRequests_closed_iff {taken : List Request} {stream : Reads.Stream UInt8 ε}
    (hclean : Clean stream) :
    serveRequests decode turns taken stream = .closed ↔
      Boundary decode turns taken (items stream) ∨ CutAtFour decode turns taken (items stream) := by
  induction hlength : (items stream).length using Nat.strong_induction_on
    generalizing taken stream with
  | _ n ih =>
  have hreading := readFrame_clean hclean
  unfold Reading at hreading
  split at hreading
  · rename_i body tail hbody
    obtain ⟨rest, hread, hrest, htail⟩ := hreading
    obtain ⟨hitems, hne, hfits⟩ := (read_body_iff maxFrameBytes_lt).mp hbody
    have hshorter : (items rest).length < n := by
      rw [← hlength, hitems, htail, List.length_append, length_frame]
      omega
    rw [serveRequests_frame hread, hitems, boundary_frame_iff hne hfits,
      cutAtFour_frame_iff hne hfits, ← and_or_left, ← exists_or]
    simp only [← and_or_left, ih _ hshorter hrest rfl, htail]
  · rename_i length tail hrejected
    obtain ⟨rest, hread, -, -⟩ := hreading
    constructor
    · intro h
      rw [serveRequests] at h
      split at h
      · cases h
      split at h
      · rename_i heof
        rw [hread] at heof
        unfold rejection at heof
        split at heof <;> cases heof
      · cases h
      · rename_i hok
        rw [hread] at hok
        cases hok
    · rintro (h | h)
      · rcases h.nil_or_read with hnil | ⟨_, _, hbody⟩
        · rw [hnil] at hrejected
          cases hrejected
        · rw [hbody] at hrejected
          cases hrejected
      · rcases h.header_or_read with hcut | ⟨_, _, hbody⟩
        · have hshort : Frames.read maxFrameBytes (header 4) = .short := by decide
          rw [hcut, hshort] at hrejected
          cases hrejected
        · rw [hbody] at hrejected
          cases hrejected
  · rename_i hshort
    obtain ⟨expected, actual, rest, hread, hcounts⟩ := hreading
    constructor
    · intro h
      have hreap : turns.reap taken = .ok () := by
        rw [serveRequests] at h
        split at h
        · cases h
        · assumption
      rcases hcounts.mp ((serveRequests_eof hreap hread).mp h) with hnil | hcut
      · rw [hnil]
        exact .inl (.here hreap)
      · exact .inr ⟨[], .here hreap, hcut⟩
    · rintro (h | h)
      · apply (serveRequests_eof h.reap hread).mpr
        rcases h.nil_or_read with hnil | ⟨_, _, hbody⟩
        · exact hcounts.mpr (.inl hnil)
        · rw [hbody] at hshort
          cases hshort
      · have hreap : turns.reap taken = .ok () := by
          obtain ⟨whole, hwhole, -⟩ := h
          exact hwhole.reap
        apply (serveRequests_eof hreap hread).mpr
        rcases h.header_or_read with hcut | ⟨_, _, hbody⟩
        · exact hcounts.mpr (.inr hcut)
        · rw [hbody] at hshort
          cases hshort

end

/-- Frames are read as they were written however the stream is split, and a session sees
the end of its stream right unless it is behind the header of a body of four bytes. -/
theorem framed_stream_iff {ε σ Request : Type} {stream : Reads.Stream UInt8 ε}
    (hclean : Clean stream) :
    (∀ (values : List (List Bytes)) (frames : List Bytes) (tail : Bytes),
      values.mapM encodeFrame = .ok frames → items stream = frames.flatten ++ tail →
        frames.map decodeFrameBytes = values.map (fun pieces => .ok pieces.flatten) ∧
          ∃ rest, readFrames values.length stream = (.ok (values.map List.flatten), rest) ∧
            items rest = tail) ∧
    (∀ (a b c d : UInt8) (tail : Bytes), items stream = a :: b :: c :: d :: tail →
      lengthOf a b c d = 0 ∨ maxFrameBytes < lengthOf a b c d →
        ∃ rest, readFrame stream = (.error (rejection ε (lengthOf a b c d)), rest) ∧
          items rest = tail) ∧
    ∀ (decode : Bytes → Option Request) (turns : Turns Request σ) (taken : List Request),
      (serveRequests decode turns taken stream = .closed ↔
        Boundary decode turns taken (items stream)) ↔
      ¬ CutAtFour decode turns taken (items stream) := by
  refine ⟨?_, ?_, ?_⟩
  · intro values frames tail hframes hitems
    obtain ⟨hagree, rest, hreads, -, htail⟩ := readFrames_encoded hframes hclean hitems
    exact ⟨hagree, rest, hreads, htail⟩
  · intro a b c d tail hitems hlength
    obtain ⟨rest, hread, -, htail⟩ := readFrame_rejected hclean hlength hitems
    exact ⟨rest, hread, htail⟩
  · intro decode turns taken
    rw [serveRequests_closed_iff hclean]
    constructor
    · intro hiff hcut
      exact (hiff.mp (.inr hcut)).not_cutAtFour hcut
    · intro hcut
      constructor
      · rintro (hboundary | h)
        · exact hboundary
        · exact absurd h hcut
      · exact .inl

/-! A stream with the frame of an empty object, and one that ends behind the header of a
body of four bytes. Both arrive in two pieces. -/

def objectStream : Reads.Stream UInt8 Unit :=
  [.arrived 0 [0, 0], .interrupted, .arrived 2 [123, 125]]

def cutStream : Reads.Stream UInt8 Unit := [.arrived 0 [0], .interrupted, .arrived 0 [4]]

def idleTurns : Turns Bytes Unit where
  reap _ := .ok ()
  answer _ _ := .ok ()

theorem clean_two_pieces (a b : UInt8) (as bs : Bytes) :
    Clean ([.arrived a as, .interrupted, .arrived b bs] : Reads.Stream UInt8 Unit) := by
  apply clean_cons_iff.mpr ⟨rfl, ?_⟩
  apply clean_cons_iff.mpr ⟨rfl, ?_⟩
  exact clean_cons_iff.mpr ⟨rfl, clean_nil⟩

theorem framed_stream_object :
    (∃ rest, readFrames 1 objectStream = (.ok [[123, 125]], rest) ∧ items rest = []) ∧
    ((serveRequests some idleTurns [] objectStream = .closed ↔
        Boundary some idleTurns [] (items objectStream)) ↔
      ¬ CutAtFour some idleTurns [] (items objectStream)) := by
  have hstream := @framed_stream_iff Unit Unit Bytes _ (clean_two_pieces 0 2 [0, 0] [123, 125])
  refine ⟨?_, hstream.2.2 some idleTurns []⟩
  exact (hstream.1 [[[123], [125]]] [frame [123, 125]] [] rfl rfl).2

/-- The session closes as if the stream had ended between two frames. -/
theorem closed_behind_header :
    ¬ ∀ stream : Reads.Stream UInt8 Unit, Clean stream →
      (serveRequests some idleTurns [] stream = .closed ↔
        Boundary some idleTurns [] (items stream)) := by
  intro h
  have hclean : Clean cutStream := clean_two_pieces 0 0 [0] [4]
  have hcut : CutAtFour some idleTurns [] (items cutStream) := ⟨[], .here rfl, rfl⟩
  have hclosed := (serveRequests_closed_iff hclean).mpr (.inr hcut)
  exact ((h cutStream hclean).mp hclosed).not_cutAtFour hcut

end Rpc

end NextInfra
