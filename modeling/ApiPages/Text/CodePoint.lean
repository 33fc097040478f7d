/-!
Code points. Surrogates are among them: a text may hold them, though no file in UTF-8 does.
-/
namespace ApiPages

structure CodePoint where
  toNat : Nat
  isLt : toNat < 0x110000
  deriving DecidableEq, Repr

namespace CodePoint

def ofNat (n : Nat) : CodePoint := if h : n < 0x110000 then ⟨n, h⟩ else ⟨0, by decide⟩

def isSurrogate (c : CodePoint) : Bool := 0xD800 ≤ c.toNat && c.toNat < 0xE000

@[match_pattern] abbrev lineFeed : CodePoint := ⟨0x0A, by decide⟩

@[match_pattern] abbrev carriageReturn : CodePoint := ⟨0x0D, by decide⟩

@[match_pattern] abbrev space : CodePoint := ⟨0x20, by decide⟩

@[match_pattern] abbrev percent : CodePoint := ⟨0x25, by decide⟩

@[match_pattern] abbrev zero : CodePoint := ⟨0x30, by decide⟩

@[match_pattern] abbrev two : CodePoint := ⟨0x32, by decide⟩

@[match_pattern] abbrev eight : CodePoint := ⟨0x38, by decide⟩

@[match_pattern] abbrev nine : CodePoint := ⟨0x39, by decide⟩

@[match_pattern] abbrev leftBracket : CodePoint := ⟨0x5B, by decide⟩

@[match_pattern] abbrev backslash : CodePoint := ⟨0x5C, by decide⟩

@[match_pattern] abbrev rightBracket : CodePoint := ⟨0x5D, by decide⟩

@[match_pattern] abbrev bar : CodePoint := ⟨0x7C, by decide⟩

def isDigit (c : CodePoint) : Bool := 48 ≤ c.toNat && c.toNat ≤ 57

def isAlphanum (c : CodePoint) : Bool :=
  (65 ≤ c.toNat && c.toNat ≤ 90) || (97 ≤ c.toNat && c.toNat ≤ 122) || c.isDigit

theorem toNat_inj {c d : CodePoint} : c.toNat = d.toNat ↔ c = d := by
  cases c
  cases d
  simp

theorem toNat_ofNat {n : Nat} (h : n < 0x110000) : (ofNat n).toNat = n := by
  rw [ofNat, dif_pos h]

theorem ofNat_toNat (c : CodePoint) : ofNat c.toNat = c := toNat_inj.mp (toNat_ofNat c.isLt)

end CodePoint

end ApiPages

namespace Char

theorem toNat_lt (c : Char) : c.toNat < 0x110000 := by
  have valid : c.toNat < 0xD800 ∨ 0xDFFF < c.toNat ∧ c.toNat < 0x110000 := c.valid
  omega

def code (c : Char) : ApiPages.CodePoint := ⟨c.toNat, c.toNat_lt⟩

@[simp] theorem toNat_code (c : Char) : c.code.toNat = c.toNat := rfl

@[simp] theorem code_inj {c d : Char} : c.code = d.code ↔ c = d := by
  rw [← ApiPages.CodePoint.toNat_inj, toNat_code, toNat_code, Char.toNat_inj]

end Char
