/-
**The line buffer.**

`LineBuffer` turns the chunks a socket or a serial line delivers into lines.  Both users drive it
the same way: pop the pending lines one at a time, and append a chunk only when none is left.
Under that discipline what has been popped and what is still pending are together exactly the
lines of everything that was appended, and the buffer stays small.

Main definitions:

* `Afm.LineBuffer` with `append`, `popLine` and `clear` — the class;
* `Afm.streamLines` — the lines of a stream as `popLine` hands them out;
* `Afm.LineBuffer.Framed` — what has been popped so far and what is pending make up the stream;
* `Afm.LineBuffer.Bounded` — the unfinished line in the buffer fits the limit.

Main results:

* `Afm.LineBuffer.Framed.popLine`, `Afm.LineBuffer.Framed.append` — **both operations keep the
  lines of the stream**;
* `Afm.LineBuffer.Bounded.append`, `Afm.LineBuffer.length_append_le` — the size of the buffer;
* `Afm.LineBuffer.append_ne_overflow` — a stream of short lines never overflows.
-/

import RedPitayaAfm.Lines
import RedPitayaAfm.Text

set_option relaxedAutoImplicit false
set_option autoImplicit false

namespace Afm

open Lines

/-! ### The class -/

/-- The line terminator. -/
def isNewline (c : Char) : Bool := c == '\n'

/-- `LineBuffer`: the bytes not handed out yet, and the limit on an unfinished line. -/
structure LineBuffer where
  /-- `m_buffer`. -/
  buffer : Text := []
  /-- `m_maxLength`. -/
  maxLength : ℕ
  deriving DecidableEq

/-- `LineBuffer::AppendResult`. -/
inductive AppendResult
  | ok | overflow
  deriving DecidableEq

/-- A line without the carriage return it may end with. -/
def stripCr (line : Text) : Text := if line.getLast? = some '\r' then line.dropLast else line

namespace LineBuffer

/-- `append`. -/
def append (b : LineBuffer) (data : Text) : AppendResult × LineBuffer :=
  (if b.maxLength < (b.buffer ++ data).length && !(b.buffer ++ data).any isNewline then .overflow
   else .ok,
   { b with buffer := b.buffer ++ data })

/-- `popLine`: the first line, when there is one. -/
def popLine (b : LineBuffer) : Option (Text × LineBuffer) :=
  (cut isNewline b.buffer).map fun p => (stripCr p.1, { b with buffer := p.2 })

/-- `clear`. -/
def clear (b : LineBuffer) : LineBuffer := { b with buffer := [] }

@[simp] theorem buffer_append (b : LineBuffer) (data : Text) :
    (b.append data).2.buffer = b.buffer ++ data := rfl

@[simp] theorem maxLength_append (b : LineBuffer) (data : Text) :
    (b.append data).2.maxLength = b.maxLength := rfl

@[simp] theorem buffer_clear (b : LineBuffer) : b.clear.buffer = [] := rfl

theorem append_eq_overflow_iff {b : LineBuffer} {data : Text} :
    (b.append data).1 = .overflow ↔
      b.maxLength < (b.buffer ++ data).length ∧ lines isNewline (b.buffer ++ data) = [] := by
  have hany : (b.buffer ++ data).any isNewline = false ↔ lines isNewline (b.buffer ++ data) = [] := by
    simp only [lines_eq_nil_iff, List.any_eq_false, Bool.not_eq_true]
  rw [← hany, append]
  split
  · simp_all
  · simp_all

theorem popLine_eq_none_iff {b : LineBuffer} :
    b.popLine = none ↔ lines isNewline b.buffer = [] := by
  rw [popLine, Option.map_eq_none_iff, cut_eq_none_iff]

/-- What `popLine` takes off the buffer. -/
theorem popLine_eq_some {b b' : LineBuffer} {l : Text} (h : b.popLine = some (l, b')) :
    ∃ raw, l = stripCr raw ∧ lines isNewline b.buffer = raw :: lines isNewline b'.buffer ∧
      rest isNewline b.buffer = rest isNewline b'.buffer ∧ b'.maxLength = b.maxLength ∧
      b'.buffer.length < b.buffer.length := by
  obtain ⟨⟨raw, tail⟩, hc, he⟩ := Option.map_eq_some_iff.1 h
  cases he
  obtain ⟨hl, hr⟩ := lines_of_cut isNewline hc
  obtain ⟨t, -, heq⟩ := eq_append_of_cut isNewline hc
  refine ⟨raw, rfl, hl, hr, rfl, ?_⟩
  simp [heq]
  omega

end LineBuffer

/-! ### What the buffer hands out -/

/-- The lines of a stream as `popLine` hands them out. -/
def streamLines (stream : Text) : List Text := (lines isNewline stream).map stripCr

@[simp] theorem streamLines_nil : streamLines [] = [] := rfl

namespace LineBuffer

theorem popLine_eq_none {b : LineBuffer} (h : b.popLine = none) : streamLines b.buffer = [] := by
  rw [streamLines, popLine_eq_none_iff.1 h, List.map_nil]

/-- After `stream` was appended and `popped` was handed out: the lines handed out and those pending
are the lines of the stream, and the buffer ends with the unfinished one. -/
structure Framed (b : LineBuffer) (stream : Text) (popped : List Text) : Prop where
  lines_eq : streamLines stream = popped ++ streamLines b.buffer
  rest_eq : rest isNewline stream = rest isNewline b.buffer

variable {b b' : LineBuffer} {stream data : Text} {popped : List Text} {l : Text}

theorem Framed.clear (b : LineBuffer) : b.clear.Framed [] [] := ⟨rfl, rfl⟩

/-- Everything was handed out when nothing is pending. -/
theorem Framed.eq_of_popLine_eq_none (h : b.Framed stream popped) (hp : b.popLine = none) :
    popped = streamLines stream := by
  rw [h.lines_eq, popLine_eq_none hp, List.append_nil]

/-- Popping moves one line from the pending ones to those handed out. -/
theorem Framed.popLine (h : b.Framed stream popped) (hp : b.popLine = some (l, b')) :
    b'.Framed stream (popped ++ [l]) := by
  obtain ⟨raw, rfl, hl, hr, -, -⟩ := popLine_eq_some hp
  constructor
  · rw [h.lines_eq]
    simp [streamLines, hl]
  · rw [h.rest_eq, hr]

/-- **Appending a chunk** keeps the lines of the longer stream, wherever the chunk was cut. -/
theorem Framed.append (h : b.Framed stream popped) (data : Text) :
    (b.append data).2.Framed (stream ++ data) popped := by
  constructor
  · have hs : streamLines (stream ++ data)
        = streamLines stream ++ streamLines (rest isNewline stream ++ data) := by
      simp only [streamLines, ← List.map_append, ← lines_append]
    have hb : streamLines (b.buffer ++ data)
        = streamLines b.buffer ++ streamLines (rest isNewline b.buffer ++ data) := by
      simp only [streamLines, ← List.map_append, ← lines_append]
    rw [buffer_append, hs, hb, h.lines_eq, h.rest_eq, List.append_assoc]
  · rw [buffer_append, rest_append, h.rest_eq, ← rest_append]

/-- A stream of lines within the limit never overflows, whatever of it has arrived. -/
theorem append_ne_overflow (h : b.Framed stream popped) {future : Text}
    (hlines : ∀ l ∈ lines isNewline (stream ++ data ++ future), l.length ≤ b.maxLength)
    (hrest : (rest isNewline (stream ++ data ++ future)).length ≤ b.maxLength) :
    (b.append data).1 ≠ .overflow := by
  rw [Ne, append_eq_overflow_iff]
  rintro ⟨hlong, hnone⟩
  have hbuf : rest isNewline (stream ++ data) = b.buffer ++ data := by
    rw [rest_append, h.rest_eq, ← rest_append]
    exact rest_of_no_nl isNewline ((lines_eq_nil_iff isNewline).1 hnone)
  rcases rest_prefix isNewline (stream ++ data) future with ⟨l, hl, hpre⟩ | hpre
  · have h₁ := hpre.length_le
    have h₂ := hlines l hl
    rw [hbuf] at h₁
    omega
  · have h₁ := hpre.length_le
    rw [hbuf] at h₁
    omega

/-! ### Its size -/

/-- The unfinished line in the buffer fits the limit. -/
def Bounded (b : LineBuffer) : Prop := (rest isNewline b.buffer).length ≤ b.maxLength

theorem Bounded.clear (b : LineBuffer) : b.clear.Bounded := Nat.zero_le _

theorem Bounded.popLine (h : b.Bounded) (hp : b.popLine = some (l, b')) : b'.Bounded := by
  obtain ⟨raw, -, -, hr, hm, -⟩ := popLine_eq_some hp
  rwa [Bounded, ← hr, hm]

/-- When no line is pending, the whole buffer is the unfinished line. -/
theorem Bounded.length_le (h : b.Bounded) (hp : b.popLine = none) :
    b.buffer.length ≤ b.maxLength := by
  have hnone := (lines_eq_nil_iff isNewline).1 (popLine_eq_none_iff.1 hp)
  rwa [Bounded, rest_of_no_nl isNewline hnone] at h

/-- **Just after a chunk** was appended, the buffer exceeds the limit by at most that chunk. -/
theorem length_append_le (h : b.Bounded) (hp : b.popLine = none) (data : Text) :
    (b.append data).2.buffer.length ≤ b.maxLength + data.length := by
  have := h.length_le hp
  simp
  omega

/-- A chunk that fits the limit and does not overflow leaves an unfinished line that fits. -/
theorem Bounded.append (hp : b.popLine = none) (hd : data.length ≤ b.maxLength)
    (hok : (b.append data).1 ≠ .overflow) : (b.append data).2.Bounded := by
  rw [Bounded, buffer_append, maxLength_append]
  by_cases hnew : lines isNewline (b.buffer ++ data) = []
  · rw [Ne, append_eq_overflow_iff] at hok
    rw [rest_of_no_nl isNewline ((lines_eq_nil_iff isNewline).1 hnew)]
    by_contra hlong
    exact hok ⟨by omega, hnew⟩
  · have hne : lines isNewline (b.buffer ++ data) ≠ lines isNewline b.buffer := by
      rwa [popLine_eq_none_iff.1 hp]
    have := length_rest_append_le isNewline hne
    omega

end LineBuffer

end Afm
