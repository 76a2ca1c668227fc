/-!
# White space

Unicode's `White_Space` property. The blanks of ASCII take one byte each; the others take two or three.
-/

namespace RecordSynthesis.Text

set_option autoImplicit false

def isNarrowBlank (c : Char) : Bool :=
  c = ' ' || (0x09 ≤ c.toNat && c.toNat ≤ 0x0d)

def isWideBlank (c : Char) : Bool :=
  c.toNat = 0x85 || c.toNat = 0xa0 || c.toNat = 0x1680 || (0x2000 ≤ c.toNat && c.toNat ≤ 0x200a)
    || c.toNat = 0x2028 || c.toNat = 0x2029 || c.toNat = 0x202f || c.toNat = 0x205f || c.toNat = 0x3000

theorem utf8Size_of_isNarrowBlank {c : Char} (h : isNarrowBlank c = true) : c.utf8Size = 1 := by
  rw [Char.utf8Size_eq_one_iff, UInt32.le_iff_toNat_le]
  change c.toNat ≤ 127
  simp only [isNarrowBlank, Bool.or_eq_true, decide_eq_true_eq, Bool.and_eq_true] at h
  rcases h with rfl | h
  · decide
  · omega

end RecordSynthesis.Text
