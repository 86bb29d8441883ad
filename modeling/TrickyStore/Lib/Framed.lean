import Mathlib.Data.List.Basic
import Mathlib.Tactic.Common

/-!
# Streams of frames

A frame is a header of a fixed length and a payload whose length the header tells.  A stream may end in the
middle of a frame.  What can be read of it is its longest prefix of whole frames.
-/

namespace Lib

structure FrameFormat (β : Type*) where
  headerLength : ℕ
  payloadLength : List β → ℕ
  headerLength_pos : 0 < headerLength

/-- A whole frame. -/
@[ext]
structure Frame {β : Type*} (f : FrameFormat β) where
  header : List β
  payload : List β
  length_header : header.length = f.headerLength
  length_payload : payload.length = f.payloadLength header

variable {β : Type*} {f : FrameFormat β}

namespace Frame

def encoded (frame : Frame f) : List β := frame.header ++ frame.payload

theorem length_encoded (frame : Frame f) :
    frame.encoded.length = f.headerLength + f.payloadLength frame.header := by
  rw [encoded, List.length_append, frame.length_header, frame.length_payload]

/-- A stream starts with one frame at most. -/
theorem eq_of_append {a b : Frame f} {rest rest' : List β} (h : a.encoded ++ rest = b.encoded ++ rest') :
    a = b ∧ rest = rest' := by
  simp only [encoded, List.append_assoc] at h
  obtain ⟨hheader, htail⟩ := List.append_inj h (by rw [a.length_header, b.length_header])
  have hlength : a.payload.length = b.payload.length := by
    rw [a.length_payload, b.length_payload, hheader]
  obtain ⟨hpayload, hrest⟩ := List.append_inj htail hlength
  exact ⟨Frame.ext hheader hpayload, hrest⟩

/-- A stream starts with a frame when it is long enough for its header and for what this tells. -/
theorem exists_prefix {stream : List β}
    (h : f.headerLength + f.payloadLength (stream.take f.headerLength) ≤ stream.length) :
    ∃ (frame : Frame f) (rest : List β), stream = frame.encoded ++ rest := by
  refine ⟨⟨stream.take f.headerLength,
    (stream.drop f.headerLength).take (f.payloadLength (stream.take f.headerLength)), ?_, ?_⟩,
    (stream.drop f.headerLength).drop (f.payloadLength (stream.take f.headerLength)), ?_⟩
  · rw [List.length_take]
    omega
  · rw [List.length_take, List.length_drop]
    omega
  · rw [encoded, List.append_assoc, List.take_append_drop, List.take_append_drop]

theorem take_headerLength (frame : Frame f) (rest : List β) :
    (frame.encoded ++ rest).take f.headerLength = frame.header := by
  rw [encoded, List.append_assoc, List.take_append_of_le_length (Nat.le_of_eq frame.length_header.symm),
    ← frame.length_header, List.take_length]

end Frame

/-- The stream is whole frames, followed by something that does not start with one. -/
structure Split (stream : List β) (frames : List (Frame f)) (rest : List β) : Prop where
  eq : stream = frames.flatMap Frame.encoded ++ rest
  incomplete : rest.length < f.headerLength + f.payloadLength (rest.take f.headerLength)

/-- The frames are the longest prefix of whole frames. -/
structure IsLongestPrefix (stream : List β) (frames : List (Frame f)) : Prop where
  isPrefix : frames.flatMap Frame.encoded <+: stream
  longest : ∀ frames' : List (Frame f), frames'.flatMap Frame.encoded <+: stream → frames' <+: frames

theorem IsLongestPrefix.unique {stream : List β} {frames frames' : List (Frame f)}
    (h : IsLongestPrefix stream frames) (h' : IsLongestPrefix stream frames') : frames = frames' :=
  (h'.longest frames h.isPrefix).eq_of_length_le (h.longest frames' h'.isPrefix).length_le

theorem exists_split (f : FrameFormat β) (stream : List β) :
    ∃ (frames : List (Frame f)) (rest : List β), Split stream frames rest := by
  induction hn : stream.length using Nat.strongRecOn generalizing stream with
  | _ n ih =>
    by_cases h : f.headerLength + f.payloadLength (stream.take f.headerLength) ≤ stream.length
    · obtain ⟨frame, rest, rfl⟩ := Frame.exists_prefix h
      have hpos := f.headerLength_pos
      have hlt : rest.length < n := by
        rw [← hn, List.length_append, frame.length_encoded]
        omega
      obtain ⟨frames, rest', hsplit⟩ := ih _ hlt rest rfl
      refine ⟨frame :: frames, rest', ?_, hsplit.incomplete⟩
      rw [List.flatMap_cons, List.append_assoc, ← hsplit.eq]
    · exact ⟨[], stream, rfl, by omega⟩

theorem Split.isLongestPrefix {stream rest : List β} {frames : List (Frame f)} (h : Split stream frames rest) :
    IsLongestPrefix stream frames := by
  refine ⟨⟨rest, h.eq.symm⟩, ?_⟩
  have hincomplete := h.incomplete
  intro frames' hprefix
  rw [h.eq] at hprefix
  clear h
  induction frames generalizing frames' with
  | nil =>
    cases frames' with
    | nil => exact List.nil_prefix
    | cons frame frames' =>
      -- another frame would start the rest
      obtain ⟨tail, htail⟩ := hprefix
      rw [List.flatMap_nil, List.nil_append, List.flatMap_cons, List.append_assoc] at htail
      rw [← htail, Frame.take_headerLength, List.length_append, frame.length_encoded] at hincomplete
      omega
  | cons first frames ih =>
    cases frames' with
    | nil => exact List.nil_prefix
    | cons frame frames' =>
      obtain ⟨tail, htail⟩ := hprefix
      simp only [List.flatMap_cons, List.append_assoc] at htail
      obtain ⟨rfl, hrest⟩ := Frame.eq_of_append htail
      exact (List.cons_prefix_cons).2 ⟨rfl, ih frames' ⟨tail, hrest⟩⟩

end Lib
