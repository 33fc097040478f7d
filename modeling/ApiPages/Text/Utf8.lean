import ApiPages.Text.Basic

/-!
Text as octets in UTF-8, both ways. There are no octets for surrogates, and reading accepts the
shortest form of each character only.
-/
namespace ApiPages.Utf8

def encodeChar (c : CodePoint) : List UInt8 :=
  let n := c.toNat
  if n < 0x80 then [n.toUInt8]
  else if n < 0x800 then [(0xC0 + n / 0x40).toUInt8, (0x80 + n % 0x40).toUInt8]
  else if n < 0x10000 then
    [(0xE0 + n / 0x1000).toUInt8, (0x80 + n / 0x40 % 0x40).toUInt8, (0x80 + n % 0x40).toUInt8]
  else
    [(0xF0 + n / 0x40000).toUInt8, (0x80 + n / 0x1000 % 0x40).toUInt8,
     (0x80 + n / 0x40 % 0x40).toUInt8, (0x80 + n % 0x40).toUInt8]

def encode (t : Text) : List UInt8 := t.flatMap encodeChar

def encodable (t : Text) : Bool := t.all fun c => !c.isSurrogate

def encode? (t : Text) : Option (List UInt8) := if encodable t then some (encode t) else none

def continuation? (b : UInt8) : Option Nat :=
  if 0x80 ≤ b.toNat ∧ b.toNat < 0xC0 then some (b.toNat - 0x80) else none

/-- The character of a code point, refused below the first one that needs this many octets. -/
def character? (least n : Nat) : Option CodePoint :=
  if h : n < 0x110000 then
    if least ≤ n ∧ !(CodePoint.mk n h).isSurrogate then some ⟨n, h⟩ else none
  else none

def decode : List UInt8 → Option Text
  | [] => some []
  | a :: rest =>
    if a.toNat < 0x80 then (decode rest).map (CodePoint.ofNat a.toNat :: ·)
    else match rest with
      | [] => none
      | b :: rest =>
        if 0xC0 ≤ a.toNat ∧ a.toNat < 0xE0 then do
          let c ← character? 0x80 ((a.toNat - 0xC0) * 0x40 + (← continuation? b))
          (decode rest).map (c :: ·)
        else match rest with
          | [] => none
          | c :: rest =>
            if 0xE0 ≤ a.toNat ∧ a.toNat < 0xF0 then do
              let x ← character? 0x800 ((a.toNat - 0xE0) * 0x1000 + (← continuation? b) * 0x40
                + (← continuation? c))
              (decode rest).map (x :: ·)
            else match rest with
              | [] => none
              | d :: rest =>
                if 0xF0 ≤ a.toNat ∧ a.toNat < 0xF8 then do
                  let x ← character? 0x10000 ((a.toNat - 0xF0) * 0x40000
                    + (← continuation? b) * 0x1000 + (← continuation? c) * 0x40
                    + (← continuation? d))
                  (decode rest).map (x :: ·)
                else none

def size (t : Text) : Nat := (encode t).length

theorem encode?_eq_some_iff {t : Text} {octets : List UInt8} :
    encode? t = some octets ↔ encodable t = true ∧ encode t = octets := by
  unfold encode?
  split <;> simp_all

end ApiPages.Utf8
