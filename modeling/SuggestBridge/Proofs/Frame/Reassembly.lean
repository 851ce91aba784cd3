import SuggestBridge.Frame
import SuggestBridge.Proofs.Result
import Mathlib.Algebra.Group.Nat.Defs
import Mathlib.Tactic.Common

/-!
# Reassembling a stream of frames

A buffer is cut from its front into whole frames and a rest.  `Whole` is a frame as bytes, with
the proof that its header counts its body; `drain_eq_ok_iff` says that draining a buffer gives the
payloads of the whole frames at its front and keeps a rest that is not yet a frame, and
`drain_eq_error_iff` that it fails where whole frames are followed by six bytes that are no header.

Since neither answer changes when more bytes arrive behind it, a stream may be cut anywhere:
`feedAll_eq_feed`.
-/

namespace SuggestBridge.Frame

/-! ## Whole frames -/

/-- A frame as bytes: a header, and a body with as many bytes as the header says. -/
structure Whole where
  head : Bytes
  body : Bytes
  length_head : head.length = headerSize
  readHex_head : readHex head = some body.length

/-- The bytes of a frame. -/
def Whole.bytes (w : Whole) : Bytes := w.head ++ w.body

/-- The payload of a frame. -/
def Whole.payload (w : Whole) : Text := Utf8.decode w.body

/-- The bytes of frames one behind the other. -/
def bytesOf (ws : List Whole) : Bytes := ws.flatMap Whole.bytes

/-! ## The front of a buffer -/

lemma front_of_short {buffer : Bytes} (h : buffer.length < headerSize) :
    front buffer = .incomplete := by
  rw [front, if_pos]
  rwa [List.length_take, Nat.min_eq_right (Nat.le_of_lt h)]

/-- What stands at the front of a buffer that holds a header. -/
lemma front_append {head rest : Bytes} (h : head.length = headerSize) :
    front (head ++ rest) =
      match readHex head with
      | none => .corrupt ⟨head⟩
      | some size =>
        if rest.length < size then .incomplete
        else .complete (Utf8.decode (rest.take size)) (rest.drop size) := by
  have htake : (head ++ rest).take headerSize = head := by rw [← h, List.take_left]
  have hdrop : (head ++ rest).drop headerSize = rest := by rw [← h, List.drop_left]
  simp only [front, htake, h, Nat.lt_irrefl, if_false]
  cases readHex head with
  | none => rfl
  | some size =>
    have hlength : (rest.take size).length < size ↔ rest.length < size := by
      rw [List.length_take]
      omega
    simp only [hdrop, hlength, ← List.drop_drop]

/-- A buffer is shorter than a header, or begins with six bytes. -/
lemma short_or_append (buffer : Bytes) :
    buffer.length < headerSize ∨
      ∃ head rest, buffer = head ++ rest ∧ head.length = headerSize := by
  by_cases h : buffer.length < headerSize
  · exact .inl h
  · refine .inr ⟨buffer.take headerSize, buffer.drop headerSize, ?_, ?_⟩
    · exact (List.take_append_drop headerSize buffer).symm
    · rw [List.length_take]
      omega

lemma front_bytes_append (w : Whole) (rest : Bytes) :
    front (w.bytes ++ rest) = .complete w.payload rest := by
  rw [Whole.bytes, List.append_assoc, front_append w.length_head, w.readHex_head]
  have hlong : ¬(w.body ++ rest).length < w.body.length := by simp
  simp only [if_neg hlong, List.take_left, List.drop_left, Whole.payload]

lemma front_eq_complete_iff {buffer rest : Bytes} {payload : Text} :
    front buffer = .complete payload rest ↔
      ∃ w : Whole, buffer = w.bytes ++ rest ∧ w.payload = payload := by
  constructor
  · intro h
    rcases short_or_append buffer with hshort | ⟨head, tail, rfl, hhead⟩
    · rw [front_of_short hshort] at h
      cases h
    · rw [front_append hhead] at h
      cases hsize : readHex head with
      | none =>
        rw [hsize] at h
        cases h
      | some size =>
        simp only [hsize] at h
        split at h
        · cases h
        · next hlong =>
          cases h
          have hbody : (tail.take size).length = size := by
            rw [List.length_take]
            omega
          refine ⟨⟨head, tail.take size, hhead, by rw [hsize, hbody]⟩, ?_, rfl⟩
          simp [Whole.bytes]
  · rintro ⟨w, rfl, rfl⟩
    exact front_bytes_append w rest

lemma front_eq_corrupt_iff {buffer : Bytes} {e : HeaderError} :
    front buffer = .corrupt e ↔
      ∃ rest, buffer = e.header ++ rest ∧ e.header.length = headerSize ∧
        readHex e.header = none := by
  constructor
  · intro h
    rcases short_or_append buffer with hshort | ⟨head, tail, rfl, hhead⟩
    · rw [front_of_short hshort] at h
      cases h
    · rw [front_append hhead] at h
      cases hsize : readHex head with
      | none =>
        simp only [hsize, Front.corrupt.injEq] at h
        subst h
        exact ⟨tail, rfl, hhead, hsize⟩
      | some size =>
        simp only [hsize] at h
        split at h <;> cases h
  · rintro ⟨rest, rfl, hhead, hnone⟩
    rw [front_append hhead, hnone]

lemma front_append_of_corrupt {buffer more : Bytes} {e : HeaderError}
    (h : front buffer = .corrupt e) : front (buffer ++ more) = .corrupt e := by
  obtain ⟨rest, rfl, hhead, hnone⟩ := front_eq_corrupt_iff.1 h
  exact front_eq_corrupt_iff.2 ⟨rest ++ more, List.append_assoc _ _ _, hhead, hnone⟩

/-! ## Draining a buffer -/

lemma drain_of_incomplete {buffer : Bytes} (h : front buffer = .incomplete) :
    drain buffer = ⟨.ok [], buffer⟩ := by
  rw [drain]
  split <;> simp_all

lemma drain_of_corrupt {buffer : Bytes} {e : HeaderError} (h : front buffer = .corrupt e) :
    drain buffer = ⟨.error e, buffer⟩ := by
  rw [drain]
  split <;> simp_all

lemma drain_bytes_append (w : Whole) (rest : Bytes) :
    drain (w.bytes ++ rest) =
      ⟨(drain rest).payloads.map (w.payload :: ·), (drain rest).buffer⟩ := by
  have hfront := front_bytes_append w rest
  rw [drain]
  split <;> simp_all

/-- Draining takes whole frames from the front one by one. -/
lemma drain_bytesOf_append (ws : List Whole) (rest : Bytes) :
    drain (bytesOf ws ++ rest) =
      ⟨(drain rest).payloads.map (ws.map Whole.payload ++ ·), (drain rest).buffer⟩ := by
  induction ws with
  | nil =>
    cases h : drain rest with
    | mk payloads buffer => cases payloads <;> simp [bytesOf, h, Except.map]
  | cons w ws ih =>
    have hbytes : bytesOf (w :: ws) ++ rest = w.bytes ++ (bytesOf ws ++ rest) := by
      simp [bytesOf]
    rw [hbytes, drain_bytes_append, ih]
    cases (drain rest).payloads <;> rfl

/-- Every buffer is whole frames and a rest that does not begin with one. -/
lemma exists_bytesOf_append (buffer : Bytes) :
    ∃ ws rest, buffer = bytesOf ws ++ rest ∧
      (front rest = .incomplete ∨ ∃ e, front rest = .corrupt e) := by
  induction hn : buffer.length using Nat.strongRecOn generalizing buffer with
  | ind n ih =>
    cases hfront : front buffer with
    | incomplete => exact ⟨[], buffer, rfl, .inl hfront⟩
    | corrupt e => exact ⟨[], buffer, rfl, .inr ⟨e, hfront⟩⟩
    | complete payload rest =>
      have hlt := length_rest_lt hfront
      obtain ⟨w, rfl, -⟩ := front_eq_complete_iff.1 hfront
      obtain ⟨ws, last, rfl, hlast⟩ := ih rest.length (by omega) rest rfl
      exact ⟨w :: ws, last, by simp [bytesOf], hlast⟩

/-- A buffer is drained of the whole frames at its front, and what stays is not yet a frame. -/
lemma drain_eq_ok_iff {buffer rest : Bytes} {payloads : List Text} :
    drain buffer = ⟨.ok payloads, rest⟩ ↔
      ∃ ws, buffer = bytesOf ws ++ rest ∧ ws.map Whole.payload = payloads ∧
        front rest = .incomplete := by
  constructor
  · intro h
    obtain ⟨ws, last, rfl, hlast | ⟨e, hlast⟩⟩ := exists_bytesOf_append buffer
    · rw [drain_bytesOf_append, drain_of_incomplete hlast] at h
      injection h with hpayloads hrest
      cases hrest
      refine ⟨ws, rfl, ?_, hlast⟩
      simpa [Except.map] using hpayloads
    · rw [drain_bytesOf_append, drain_of_corrupt hlast] at h
      injection h with hpayloads _
      cases hpayloads
  · rintro ⟨ws, rfl, rfl, hrest⟩
    rw [drain_bytesOf_append, drain_of_incomplete hrest]
    simp [Except.map]

/-- Draining fails where whole frames are followed by six bytes that are no header, which stay. -/
lemma drain_eq_error_iff {buffer rest : Bytes} {e : HeaderError} :
    drain buffer = ⟨.error e, rest⟩ ↔
      ∃ ws, buffer = bytesOf ws ++ rest ∧ front rest = .corrupt e := by
  constructor
  · intro h
    obtain ⟨ws, last, rfl, hlast | ⟨e', hlast⟩⟩ := exists_bytesOf_append buffer
    · rw [drain_bytesOf_append, drain_of_incomplete hlast] at h
      injection h with hpayloads _
      cases hpayloads
    · rw [drain_bytesOf_append, drain_of_corrupt hlast] at h
      injection h with hpayloads hrest
      cases hpayloads
      cases hrest
      exact ⟨ws, rfl, hlast⟩
  · rintro ⟨ws, rfl, hrest⟩
    rw [drain_bytesOf_append, drain_of_corrupt hrest]
    rfl

/-! ## The payloads at the front of a buffer -/

/-- The payloads of the whole frames at the front of a buffer, whatever stands behind them. -/
def leading (buffer : Bytes) : List Text :=
  match _h : front buffer with
  | .complete payload rest => payload :: leading rest
  | _ => []
termination_by buffer.length
decreasing_by exact length_rest_lt _h

lemma leading_of_front {buffer : Bytes}
    (h : front buffer = .incomplete ∨ ∃ e, front buffer = .corrupt e) : leading buffer = [] := by
  rw [leading]
  split
  · next hfront =>
    rcases h with h | ⟨e, h⟩ <;> rw [h] at hfront <;> cases hfront
  · rfl

lemma leading_bytesOf_append (ws : List Whole) (rest : Bytes) :
    leading (bytesOf ws ++ rest) = ws.map Whole.payload ++ leading rest := by
  induction ws with
  | nil => rfl
  | cons w ws ih =>
    have hfront := front_bytes_append w (bytesOf ws ++ rest)
    rw [bytesOf, List.flatMap_cons, List.append_assoc, leading]
    rw [← bytesOf]
    split
    · next payload rest' h =>
      rw [hfront] at h
      cases h
      rw [ih]
      rfl
    · next h => exact absurd hfront (h _ _)

lemma leading_of_drain {buffer rest : Bytes} {payloads : List Text}
    (h : drain buffer = ⟨.ok payloads, rest⟩) : leading buffer = payloads := by
  obtain ⟨ws, rfl, rfl, hrest⟩ := drain_eq_ok_iff.1 h
  rw [leading_bytesOf_append, leading_of_front (.inl hrest), List.append_nil]

/-- What arrives later only adds payloads. -/
lemma leading_append (buffer more : Bytes) :
    ∃ new, leading (buffer ++ more) = leading buffer ++ new := by
  obtain ⟨ws, rest, rfl, hrest⟩ := exists_bytesOf_append buffer
  refine ⟨leading (rest ++ more), ?_⟩
  rw [List.append_assoc, leading_bytesOf_append, leading_bytesOf_append, leading_of_front hrest,
    List.append_nil]

lemma leading_append_of_drain {buffer rest : Bytes} {payloads : List Text}
    (h : drain buffer = ⟨.ok payloads, rest⟩) (more : Bytes) :
    leading (buffer ++ more) = payloads ++ leading (rest ++ more) := by
  obtain ⟨ws, rfl, rfl, -⟩ := drain_eq_ok_iff.1 h
  rw [List.append_assoc, leading_bytesOf_append]

/-! ## A stream in chunks -/

/-- Adds chunks one after the other, up to the first that shows a corrupt header: all payloads that
became complete, and the bytes that stay. -/
def feedAll (buffer : Bytes) : List Bytes → Fed
  | [] => ⟨.ok [], buffer⟩
  | chunk :: chunks =>
    let fed := feed buffer chunk
    match fed.payloads with
    | .error e => ⟨.error e, fed.buffer⟩
    | .ok payloads =>
      let later := feedAll fed.buffer chunks
      ⟨later.payloads.map (payloads ++ ·), later.buffer⟩

/-- Bytes behind a buffer that drains add to what it gave. -/
lemma drain_append_of_ok {buffer rest : Bytes} {payloads : List Text}
    (h : drain buffer = ⟨.ok payloads, rest⟩) (more : Bytes) :
    drain (buffer ++ more) =
      ⟨(drain (rest ++ more)).payloads.map (payloads ++ ·), (drain (rest ++ more)).buffer⟩ := by
  obtain ⟨ws, rfl, rfl, -⟩ := drain_eq_ok_iff.1 h
  rw [List.append_assoc, drain_bytesOf_append]

/-- No bytes behind a corrupt header mend it. -/
lemma drain_append_of_error {buffer rest : Bytes} {e : HeaderError}
    (h : drain buffer = ⟨.error e, rest⟩) (more : Bytes) :
    drain (buffer ++ more) = ⟨.error e, rest ++ more⟩ := by
  obtain ⟨ws, rfl, hrest⟩ := drain_eq_error_iff.1 h
  exact drain_eq_error_iff.2 ⟨ws, List.append_assoc _ _ _, front_append_of_corrupt hrest⟩

/-- Chunks behind a buffer without a frame give what they give in one piece. -/
lemma feedAll_eq_drain {buffer : Bytes} {chunks : List Bytes} {payloads : List Text}
    (hbuffer : front buffer = .incomplete)
    (h : (drain (buffer ++ chunks.flatten)).payloads = .ok payloads) :
    feedAll buffer chunks = drain (buffer ++ chunks.flatten) := by
  induction chunks generalizing buffer payloads with
  | nil =>
    rw [List.flatten_nil, List.append_nil, drain_of_incomplete hbuffer]
    rfl
  | cons chunk chunks ih =>
    rw [List.flatten_cons, ← List.append_assoc] at h ⊢
    rw [feedAll, feed]
    rcases hfed : drain (buffer ++ chunk) with ⟨e | ps, rest⟩
    · rw [drain_append_of_error hfed] at h
      cases h
    · rw [drain_append_of_ok hfed] at h ⊢
      obtain ⟨qs, hqs, -⟩ := Result.map_eq_ok_iff.1 h
      obtain ⟨-, -, -, hrest⟩ := drain_eq_ok_iff.1 hfed
      simp only [ih hrest hqs]

/-- **A stream may be cut anywhere.**  If a stream shows no corrupt header in one piece, then
however it is cut into chunks, adding them one after the other gives the same payloads and leaves
the same bytes; and after each chunk, the bytes so far are the whole frames whose payloads were
given, in order, followed by the bytes that stay, which hold no whole frame at their front. -/
theorem feedAll_eq_feed (stream : Bytes) (payloads : List Text)
    (hstream : (feed [] stream).payloads = .ok payloads) (chunks : List Bytes)
    (hcut : chunks.flatten = stream) :
    feedAll [] chunks = feed [] stream ∧
      ∀ before after, chunks = before ++ after →
        ∃ ws rest, feedAll [] before = ⟨.ok (ws.map Whole.payload), rest⟩ ∧
          before.flatten = bytesOf ws ++ rest ∧
          ∀ (w : Whole) (tail : Bytes), rest ≠ w.bytes ++ tail := by
  have hempty : front [] = .incomplete := rfl
  subst hcut
  refine ⟨feedAll_eq_drain hempty hstream, ?_⟩
  rintro before after rfl
  rw [feed, List.nil_append, List.flatten_append] at hstream
  rcases hbefore : drain before.flatten with ⟨e | ps, rest⟩
  · rw [drain_append_of_error hbefore] at hstream
    cases hstream
  · have hpayloads : (drain ([] ++ before.flatten)).payloads = .ok ps := by
      rw [List.nil_append, hbefore]
    obtain ⟨ws, hbytes, rfl, hrest⟩ := drain_eq_ok_iff.1 hbefore
    refine ⟨ws, rest, ?_, hbytes, ?_⟩
    · rw [feedAll_eq_drain hempty hpayloads, List.nil_append, hbefore]
    · rintro w tail rfl
      rw [front_bytes_append] at hrest
      cases hrest

/-- A frame of two bytes, one without a body and the beginning of a third, cut inside a header and
behind a body. -/
theorem feedAll_three_chunks :
    (feed [] (hexBytes 6 2 ++ [0x6f, 0x6b] ++ hexBytes 6 0 ++ [0x30])).payloads =
        .ok ["ok", ""] ∧
      [[0x30, 0x30, 0x30], [0x30, 0x30, 0x32, 0x6f, 0x6b], [],
          hexBytes 6 0 ++ [0x30]].flatten =
        hexBytes 6 2 ++ [0x6f, 0x6b] ++ hexBytes 6 0 ++ [0x30] ∧
      feedAll [] [[0x30, 0x30, 0x30], [0x30, 0x30, 0x32, 0x6f, 0x6b], [],
          hexBytes 6 0 ++ [0x30]] =
        feed [] (hexBytes 6 2 ++ [0x6f, 0x6b] ++ hexBytes 6 0 ++ [0x30]) := by
  let two : Whole := ⟨hexBytes 6 2, [0x6f, 0x6b], by decide, by decide⟩
  let none : Whole := ⟨hexBytes 6 0, [], by decide, by decide⟩
  have hfed : feed [] (bytesOf [two, none] ++ [0x30]) =
      ⟨.ok ["ok", ""], [0x30]⟩ :=
    drain_eq_ok_iff.2 ⟨[two, none], rfl, by decide, by decide⟩
  have hstream : (feed [] (bytesOf [two, none] ++ [0x30])).payloads = .ok ["ok", ""] := by
    rw [hfed]
  exact ⟨hstream, by decide, (feedAll_eq_feed _ _ hstream _ (by decide)).1⟩

end SuggestBridge.Frame
