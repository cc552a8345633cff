/-! Characters by number.

Escapes name a character by its code point, or by two surrogates where code units of
sixteen bits are counted. A surrogate alone is no character. -/
namespace Observatory.Text

/-- The character of a code point, if it is one. -/
def charOf? (n : Nat) : Option Char := if h : n.isValidChar then some (Char.ofNatAux n h) else none

def isHighSurrogate (n : Nat) : Bool := 0xD800 ≤ n && n < 0xDC00

def isLowSurrogate (n : Nat) : Bool := 0xDC00 ≤ n && n < 0xE000

/-- The character that two surrogates stand for. -/
def ofSurrogates? (high low : Nat) : Option Char :=
  if isHighSurrogate high && isLowSurrogate low then
    charOf? (0x10000 + (high - 0xD800) * 0x400 + (low - 0xDC00))
  else none

/-- The code point of a character names the character. -/
theorem charOf?_toNat (c : Char) : charOf? c.toNat = some c := by
  have h : c.toNat.isValidChar := c.valid
  rw [charOf?, dif_pos h]
  exact congrArg some (Char.ext (UInt32.toNat_inj.1 rfl))

/-- No surrogate is a character of its own. -/
theorem charOf?_surrogate {n : Nat} (h : isHighSurrogate n || isLowSurrogate n) : charOf? n = none := by
  simp only [isHighSurrogate, isLowSurrogate, Bool.or_eq_true, Bool.and_eq_true, decide_eq_true_eq] at h
  have hinvalid : ¬ n.isValidChar := by
    simp only [Nat.isValidChar]
    omega
  simp [charOf?, hinvalid]

end Observatory.Text
