import Drv.Base.Bytes

/-!
# Checked slices

Slices of a byte string and copies into a buffer of fixed size, as a
language with bounds checks has them: a range that does not lie in the
bytes, or a copy of another length than its range, is an error of its own.
The lemmas give the value where the bytes are known to be an append.
-/

namespace Drv

open List

inductive OutOfBounds where
  | outOfBounds

namespace Bytes

variable (b : Bytes)

def byte (i : Nat) : Except OutOfBounds UInt8 :=
  match b[i]? with
  | some x => .ok x
  | none => .error .outOfBounds

def between (first last : Nat) : Except OutOfBounds Bytes :=
  if first ≤ last ∧ last ≤ b.length then .ok ((b.take last).drop first) else .error .outOfBounds

def after (first : Nat) : Except OutOfBounds Bytes := b.between first b.length

/-- The whole chunks of one length; what is left over is dropped. -/
def chunksExact (size : Nat) : Nat → Bytes → List Bytes
  | 0, _ => []
  | n + 1, b => b.take size :: chunksExact size n (b.drop size)

/-- A copy over the bytes from a place on. -/
def copyAt (first : Nat) (bytes : Bytes) : Bytes :=
  b.take first ++ bytes ++ b.drop (first + bytes.length)

variable {first : Nat}

@[simp] theorem length_copyAt {b bytes : Bytes}
    (h : first + bytes.length ≤ b.length) : (copyAt b first bytes).length = b.length := by
  simp only [copyAt, length_append, length_take, length_drop]
  omega

theorem getElem?_copyAt {b bytes : Bytes} (h : first + bytes.length ≤ b.length)
    (i : Nat) : (copyAt b first bytes)[i]? =
      if first ≤ i ∧ i < first + bytes.length then bytes[i - first]? else b[i]? := by
  have hfst : (b.take first).length = first := by
    rw [length_take]
    omega
  have hcopied : (b.take first ++ bytes).length = first + bytes.length := by
    rw [length_append, hfst]
  unfold copyAt
  by_cases hpre : i < first
  · rw [if_neg (by omega), append_assoc, getElem?_append_left (by omega), getElem?_take_of_lt hpre]
  by_cases hin : i < first + bytes.length
  · rw [if_pos (by omega), getElem?_append_left (by omega), getElem?_append_right (by omega), hfst]
  · rw [if_neg (by omega), getElem?_append_right (by omega), hcopied, getElem?_drop]
    congr 1
    omega

theorem between_of_le {b : Bytes} {last : Nat} (h : first ≤ last) (h' : last ≤ b.length) :
    b.between first last = .ok ((b.take last).drop first) := if_pos ⟨h, h'⟩

theorem after_of_le {b : Bytes} (h : first ≤ b.length) : b.after first = .ok (b.drop first) := by
  unfold after between
  rw [if_pos ⟨h, Nat.le_refl _⟩, take_length]

end Bytes

/-- A copy into a range of a buffer. -/
def overwrite {n : Nat} (out : List.Vector UInt8 n) (first last : Nat) (bytes : Bytes) :
    Except OutOfBounds (List.Vector UInt8 n) :=
  if h : first + bytes.length = last ∧ last ≤ n then
    .ok ⟨out.toList.take first ++ bytes ++ out.toList.drop last, by
      simp only [length_append, length_take, length_drop, Vector.toList_length]
      omega⟩
  else .error .outOfBounds

theorem overwrite_append {n first last : Nat} {out : List.Vector UInt8 n} {a m c : Bytes}
    (hout : out.toList = a ++ m ++ c) (bytes : Bytes) (hlen : bytes.length = m.length)
    (hfst : a.length = first) (hl : first + bytes.length = last) :
    ∃ out', overwrite out first last bytes = .ok out' ∧ out'.toList = a ++ bytes ++ c := by
  have hsz := congrArg length hout
  simp only [Vector.toList_length, length_append] at hsz
  unfold overwrite
  rw [dif_pos (by omega)]
  refine ⟨_, rfl, ?_⟩
  show out.toList.take first ++ bytes ++ out.toList.drop last = _
  rw [hout, ← hl, ← hfst, hlen, ← length_append, drop_left, append_assoc a m c, take_left]

/-- Bytes as an array of one length, if that is theirs. -/
def toArray (n : Nat) (b : Bytes) : Option (List.Vector UInt8 n) :=
  if h : b.length = n then some ⟨b, h⟩ else none

theorem toArray_eq_some {n : Nat} {b : Bytes} {v : List.Vector UInt8 n} :
    toArray n b = some v ↔ b = v.toList := by
  unfold toArray
  constructor
  · intro h
    split at h
    · cases h
      rfl
    · cases h
  · rintro rfl
    rw [dif_pos v.toList_length]
    rfl

end Drv
