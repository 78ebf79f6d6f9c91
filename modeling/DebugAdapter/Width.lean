/-!
# Integer widths

The ranges of signed and unsigned integers of a fixed width, and which integers fit them.

Main statement: what fits 32 bits is kept (`toNat_word32?`).
-/

namespace DebugAdapter

/-- The least signed 64 bit integer. -/
def int64Min : Int := -0x8000000000000000

/-- The greatest signed 64 bit integer. -/
def int64Max : Int := 0x7FFFFFFFFFFFFFFF

/-- The integer fits 64 bits, with a sign. -/
def fitsInt64 (n : Int) : Bool :=
  int64Min ≤ n && n ≤ int64Max

/-- The unsigned 32 bit word for an integer; nothing if it does not fit. -/
def word32? (n : Int) : Option UInt32 :=
  if 0 ≤ n ∧ n.toNat < UInt32.size then some (UInt32.ofNat n.toNat) else none

/-- A number fits 64 bits if it lies between the least and the greatest that do. -/
theorem fitsInt64_iff {n : Int} : fitsInt64 n = true ↔ int64Min ≤ n ∧ n ≤ int64Max := by
  simp [fitsInt64]

/-- A number that fits 32 bits is not changed by taking it as one. -/
theorem toNat_word32? {n : Int} {w : UInt32} (h : word32? n = some w) : (w.toNat : Int) = n := by
  unfold word32? at h
  split at h
  · rename_i hn
    simp only [Option.some.injEq] at h
    subst h
    rw [UInt32.toNat_ofNat_of_lt' hn.2]
    exact Int.toNat_of_nonneg hn.1
  · exact nomatch h

end DebugAdapter
