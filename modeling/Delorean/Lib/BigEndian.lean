import Mathlib

/-!
# Big-endian byte strings of numbers

`toBytes k n` writes `n` as `k` bytes, most significant first, and `ofBytes` reads a byte string
back as a number; this is Rust's `to_be_bytes` / `from_be_bytes` for a width of `k` bytes. Reading
what was written gives the number modulo `256 ^ k` (`ofBytes_toBytes`), so a number that fits
its width survives the round trip.
-/

namespace BigEndian

/-- The `k` big-endian bytes of `n`, dropping what does not fit. -/
def toBytes : Nat → Nat → List UInt8
  | 0, _ => []
  | k + 1, n => toBytes k (n / 256) ++ [UInt8.ofNat (n % 256)]

/-- The number a big-endian byte string writes. -/
def ofBytes (bytes : List UInt8) : Nat :=
  bytes.foldl (fun acc b => acc * 256 + b.toNat) 0

@[simp]
theorem length_toBytes (k n : Nat) : (toBytes k n).length = k := by
  induction k generalizing n with
  | zero => rfl
  | succ k ih => simp [toBytes, ih]

theorem ofBytes_append_singleton (bytes : List UInt8) (b : UInt8) :
    ofBytes (bytes ++ [b]) = ofBytes bytes * 256 + b.toNat := by
  simp [ofBytes, List.foldl_append]

/-- Reading back `k` written bytes gives the number modulo `256 ^ k`. The induction is on the
width; the last byte written is the lowest. -/
theorem ofBytes_toBytes (k n : Nat) : ofBytes (toBytes k n) = n % 256 ^ k := by
  induction k generalizing n with
  | zero => simp [toBytes, ofBytes, Nat.mod_one]
  | succ k ih =>
    have hlow : (UInt8.ofNat (n % 256)).toNat = n % 256 := by
      simp only [UInt8.toNat_ofNat', Nat.mod_mod]
    rw [toBytes, ofBytes_append_singleton, ih, hlow]
    calc n / 256 % 256 ^ k * 256 + n % 256
        = n % 256 + 256 * (n / 256 % 256 ^ k) := by rw [Nat.mul_comm, Nat.add_comm]
      _ = n % (256 * 256 ^ k) := (Nat.mod_mul).symm
      _ = n % 256 ^ (k + 1) := by rw [Nat.pow_succ']

end BigEndian
