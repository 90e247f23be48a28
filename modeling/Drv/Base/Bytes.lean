import Mathlib.Data.Vector.Basic
import Mathlib.Tactic.Ring

/-!
# Byte writers and byte readers

The vocabulary every packet codec of the development is written in.

A *writer* answers the bytes it appends, or refuses; writers are put one
after the other with `Put.seq`. A *reader* takes bytes off the front of
what remains, or refuses. Integers are little-endian and of fixed width,
so no integer has two spellings.

The two inversion lemmas `Put.seq_cons_eq_ok` and `get_bind_eq_ok` are
how proofs take a run of a writer or of a reader apart; nothing
downstream unfolds the monads.
-/

namespace Drv

open List

abbrev Bytes := List UInt8

/-- A writer's answer: the bytes it appends, or its refusal. -/
abbrev Put (ε : Type) := Except ε Bytes

/-- A reader over the bytes that remain. -/
abbrev Get (ε α : Type) := StateT Bytes (Except ε) α

/-! ## Little-endian naturals -/

namespace Bytes

/-- The `w` low bytes of a natural, least significant first. -/
def ofNatLE : Nat → Nat → Bytes
  | 0, _ => []
  | w + 1, n => UInt8.ofNat n :: ofNatLE w (n / 256)

/-- The natural a byte string spells, least significant byte first. -/
def toNatLE : Bytes → Nat
  | [] => 0
  | b :: bs => b.toNat + 256 * toNatLE bs

@[simp] theorem length_ofNatLE (w n : Nat) : (ofNatLE w n).length = w := by
  induction w generalizing n with
  | zero => rfl
  | succ w ih => simp only [ofNatLE, length_cons, ih]

theorem toNatLE_ofNatLE {w n : Nat} (h : n < 256 ^ w) : toNatLE (ofNatLE w n) = n := by
  induction w generalizing n with
  | zero =>
    have : n = 0 := by simpa using h
    rw [this]; rfl
  | succ w ih =>
    have hdiv : n / 256 < 256 ^ w := Nat.div_lt_of_lt_mul (by rw [Nat.pow_succ] at h; omega)
    simp only [ofNatLE, toNatLE, ih hdiv, UInt8.toNat_ofNat']
    omega

theorem toNatLE_lt (bs : Bytes) : toNatLE bs < 256 ^ bs.length := by
  induction bs with
  | nil => exact Nat.one_pos
  | cons b =>
    have := b.toNat_lt
    simp only [toNatLE, length_cons, Nat.pow_succ]
    omega

theorem ofNatLE_toNatLE (bs : Bytes) : ofNatLE bs.length (toNatLE bs) = bs := by
  induction bs with
  | nil => rfl
  | cons b bs ih =>
    have hb := b.toNat_lt
    have hdiv : (b.toNat + 256 * toNatLE bs) / 256 = toNatLE bs := by omega
    have hbyte : UInt8.ofNat (b.toNat + 256 * toNatLE bs) = b := by
      apply UInt8.toNat_inj.mp
      rw [UInt8.toNat_ofNat']
      omega
    simp only [length_cons, ofNatLE, toNatLE, hdiv, hbyte, ih]

end Bytes

/-! ## Writers in sequence -/

section
variable {ε α β : Type} {x : Except ε α}

theorem bind_eq_ok {f : α → Except ε β} {b : β} :
    (x >>= f) = .ok b ↔ ∃ a, x = .ok a ∧ f a = .ok b := by
  cases x with
  | error =>
    constructor
    · rintro ⟨⟩
    · rintro ⟨a, ⟨⟩, -⟩
  | ok a =>
    constructor
    · exact fun h => ⟨a, rfl, h⟩
    · rintro ⟨_, ⟨⟩, h⟩
      exact h

theorem guard_eq_ok {c : Prop} [Decidable c] {e : ε} {a : α} :
    (if c then .error e else x) = .ok a ↔ ¬ c ∧ x = .ok a := by
  by_cases hc : c <;> simp [hc]

/-- Write one after the other; the first refusal is the answer. -/
def Put.seq : List (Put ε) → Except ε Bytes
  | [] => return []
  | p :: ps => do
    let as ← p
    let cs ← seq ps
    return as ++ cs

@[simp] theorem Put.seq_nil_eq_ok {bs : Bytes} :
    Put.seq ([] : List (Put ε)) = .ok bs ↔ bs = [] := by
  simp only [Put.seq, pure, Except.pure, Except.ok.injEq]
  exact eq_comm

theorem Put.seq_cons_eq_ok {p : Put ε} {ps : List (Put ε)} {bs : Bytes} :
    Put.seq (p :: ps) = .ok bs ↔ ∃ as cs, p = .ok as ∧ Put.seq ps = .ok cs ∧ bs = as ++ cs := by
  rw [Put.seq, bind_eq_ok]
  constructor
  · rintro ⟨as, ha, h⟩
    obtain ⟨cs, hc, h⟩ := bind_eq_ok.mp h
    cases h
    exact ⟨as, cs, ha, hc, rfl⟩
  · rintro ⟨as, cs, ha, hc, rfl⟩
    exact ⟨as, ha, bind_eq_ok.mpr ⟨cs, hc, rfl⟩⟩

/-- Write every element of a list, in order. -/
def Put.each (put : α → Put ε) (xs : List α) : Put ε := Put.seq (xs.map put)

/-- If every element takes at least `w` bytes, so many elements take at
least so many bytes. -/
theorem Put.each_length_le {put : α → Put ε} {w : Nat}
    (hw : ∀ a bs, put a = .ok bs → w ≤ bs.length) :
    ∀ {xs : List α} {bs : Bytes}, Put.each put xs = .ok bs → w * xs.length ≤ bs.length := by
  intro xs
  induction xs with
  | nil => intro bs _; exact Nat.zero_le _
  | cons x xs ih =>
    intro bs h
    obtain ⟨as, cs, ha, hc, rfl⟩ := Put.seq_cons_eq_ok.mp h
    have hx := hw x as ha
    have hxs := ih hc
    rw [length_cons, length_append, Nat.mul_succ]
    omega

/-! ## Readers -/

variable {input rest : Bytes}

theorem get_bind_eq_ok {d : Get ε α} {k : α → Get ε β} {b : β} :
    (d >>= k) input = .ok (b, rest) ↔
      ∃ a mid, d input = .ok (a, mid) ∧ k a mid = .ok (b, rest) := by
  show (d input >>= fun p => k p.1 p.2) = _ ↔ _
  rw [bind_eq_ok, Prod.exists]

theorem get_guard_eq_ok {c : Prop} [Decidable c] {e : ε} {get : Get ε α} {a : α} :
    (if c then throw e else get) input = .ok (a, rest) ↔ ¬ c ∧ get input = .ok (a, rest) := by
  by_cases hc : c
  · simp only [hc, if_true, not_true_eq_false, false_and, iff_false]
    rintro ⟨⟩
  · simp [hc]

/-- Let a check of what was already read decide whether to go on. -/
def Get.check (x : Except ε α) : Get ε α := fun input => x.map (·, input)

theorem Get.check_eq_ok {a : α} : Get.check x input = .ok (a, rest) ↔ x = .ok a ∧ input = rest := by
  cases x with
  | error e | ok b => simp [Get.check, Except.map]

/-- Take exactly `n` bytes, or refuse with `short`. -/
def takeBytes (short : ε) (n : Nat) : Get ε Bytes := fun input =>
  if n ≤ input.length then .ok (input.splitAt n) else .error short

theorem takeBytes_eq_ok {short : ε} {n : Nat} {input bs rest : Bytes} :
    takeBytes short n input = .ok (bs, rest) ↔ bs.length = n ∧ input = bs ++ rest := by
  unfold takeBytes
  constructor
  · intro h
    split at h
    next hle =>
      rw [splitAt_eq] at h
      cases h
      exact ⟨length_take_of_le hle, (take_append_drop n input).symm⟩
    next => cases h
  · rintro ⟨rfl, rfl⟩
    rw [if_pos (by simp only [length_append]; omega), splitAt_eq, take_left, drop_left]

/-- Take a `w`-byte little-endian natural. -/
def takeNatLE (short : ε) (w : Nat) : Get ε Nat := do
  return Bytes.toNatLE (← takeBytes short w)

/-- Take a fixed-width array. -/
def takeArray (short : ε) (n : Nat) : Get ε (List.Vector UInt8 n) := fun input =>
  if h : n ≤ input.length then
    .ok (⟨input.take n, length_take_of_le h⟩, input.drop n)
  else .error short

/-- Run a reader `n` times. -/
def takeN (get : Get ε α) : Nat → Get ε (List α)
  | 0 => pure []
  | n + 1 => do return (← get) :: (← takeN get n)

end

end Drv
