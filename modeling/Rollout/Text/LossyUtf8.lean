
namespace Rollout.Text

/-- The bytes that may follow a first byte: how many continuation bytes there are, and the least and
the greatest value of the first of them. Bytes that begin no character have no form. -/
structure LeadForm where
  count : Nat
  low : Nat
  high : Nat
  bits : Nat

def leadForm? (b : Nat) : Option LeadForm :=
  if b < 0x80 then some ⟨0, 0, 0, b⟩
  else if b < 0xC2 then none
  else if b < 0xE0 then some ⟨1, 0x80, 0xBF, b - 0xC0⟩
  else if b = 0xE0 then some ⟨2, 0xA0, 0xBF, 0⟩
  else if b = 0xED then some ⟨2, 0x80, 0x9F, 0xD⟩
  else if b < 0xF0 then some ⟨2, 0x80, 0xBF, b - 0xE0⟩
  else if b = 0xF0 then some ⟨3, 0x90, 0xBF, 0⟩
  else if b < 0xF4 then some ⟨3, 0x80, 0xBF, b - 0xF0⟩
  else if b = 0xF4 then some ⟨3, 0x80, 0x8F, 4⟩
  else none

/-- A character being read: how many bytes are missing, the range of the next one, and the bits so
far. -/
structure OpenChar where
  missing : Nat
  low : Nat
  high : Nat
  bits : Nat

def replacement : Char := '\ufffd'

def beginChar (b : Nat) : List Char × Option OpenChar :=
  match leadForm? b with
  | none => ([replacement], none)
  | some ⟨0, _, _, bits⟩ => ([Char.ofNat bits], none)
  | some ⟨n, low, high, bits⟩ => ([], some ⟨n, low, high, bits⟩)

def lossyFrom : Option OpenChar → List UInt8 → List Char
  | none, [] => []
  | some _, [] => [replacement]
  | none, b :: bs =>
    let (cs, next) := beginChar b.toNat
    cs ++ lossyFrom next bs
  | some c, b :: bs =>
    if c.low ≤ b.toNat && b.toNat ≤ c.high then
      let bits := c.bits * 64 + b.toNat % 64
      if c.missing ≤ 1 then Char.ofNat bits :: lossyFrom none bs
      else lossyFrom (some ⟨c.missing - 1, 0x80, 0xBF, bits⟩) bs
    else
      let (cs, next) := beginChar b.toNat
      replacement :: cs ++ lossyFrom next bs

def ofBytes (bs : List UInt8) : String := String.ofList (lossyFrom none bs)

def toBytes (s : String) : List UInt8 := s.toUTF8.data.toList

end Rollout.Text
